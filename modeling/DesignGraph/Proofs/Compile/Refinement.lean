import DesignGraph.Proofs.Compile.Closure

/-!
# The walk refines resolution

Each visit that succeeds answers with the resolution of its instance. It depends on the graph, the
target and the bindings only, so whatever was walked before, and on whichever path an instance is
reached, its construction is the same.
-/

namespace DesignGraph

namespace Compilation

variable {setup : Setup} {graph : Graph} {inst : Instance}

/-- Two visits of an instance give the same construction, whatever lies between them. -/
theorem construction_eq {hops hops' : Nat} {path path' : List String} {isPublic isPublic' : Bool}
    {reference reference' : Option Reference} {before before' after after' : Compiler}
    {spec spec' : Spec} (sameGraph : before.program.graph = before'.program.graph)
    (visit : (walk setup hops path isPublic inst reference).Yields before spec after)
    (visit' : (walk setup hops' path' isPublic' inst reference').Yields before' spec' after') :
    setup.target.construction spec = setup.target.construction spec' := by
  obtain ⟨-, name_eq, resolved⟩ := walk_yields visit
  obtain ⟨-, name_eq', resolved'⟩ := walk_yields visit'
  rw [sameGraph] at name_eq resolved
  refine Resolution.construction_congr (name_eq.trans name_eq'.symm) ?_
  exact Option.some.inj (resolved.symm.trans resolved')

/-- The walk refines resolution: in its answers, in the constructions that they stand for, and in
the specs that a run keeps. -/
theorem walk_refines_resolution (setup : Setup) (graph : Graph) :
    (∀ {hops : Nat} {path : List String} {isPublic : Bool} {inst : Instance}
        {reference : Option Reference} {before after : Compiler} {spec : Spec},
      before.program.graph = graph →
      (walk setup hops path isPublic inst reference).Yields before spec after →
      Resolution.resolve setup.target setup.bindings graph inst = some spec.properties) ∧
    (∀ {hops hops' : Nat} {path path' : List String} {isPublic isPublic' : Bool} {inst : Instance}
        {reference reference' : Option Reference} {before before' after after' : Compiler}
        {spec spec' : Spec},
      before.program.graph = graph → before'.program.graph = graph →
      (walk setup hops path isPublic inst reference).Yields before spec after →
      (walk setup hops' path' isPublic' inst reference').Yields before' spec' after' →
      setup.target.construction spec = setup.target.construction spec') ∧
    (∀ {before after : Compiler}, before.program.graph = graph →
      (do clear setup; walkRoots setup).Yields before () after →
      ∃ visits, graph.Preorder before.program.rootInstances visits ∧
        ∀ {type : String} {component : Component},
          after.output.components.get? type = some component →
          ∃ first, visits.find? (graph.componentName · == type) = some first ∧
            component.instances.items.head? = some first.id ∧
            Resolution.resolve setup.target setup.bindings graph first =
              some component.spec.properties) := by
  refine ⟨?_, ?_, ?_⟩
  · rintro hops path isPublic inst reference before after spec rfl visit
    exact (walk_yields visit).2.2
  · rintro hops hops' path path' isPublic isPublic' inst reference reference' before before' after
      after' spec spec' sameGraph sameGraph' visit visit'
    exact construction_eq (sameGraph.trans sameGraph'.symm) visit visit'
  · rintro before after rfl walked
    obtain ⟨-, visits, walked⟩ := clear_walkRoots_yields walked
    refine ⟨visits, walked.preorder, ?_⟩
    intro type component found
    obtain ⟨first, represents⟩ := walked.exists_represents found
    exact ⟨first, represents.earliest, represents.head?_ids, represents.resolved⟩

theorem resolution_of_linkedPages :
    let before : Compiler := { program := linkedPages, tree := {} }
    let link : Instance := ⟨"first", "Link", ⟨[("logo", .text "mark")]⟩⟩
    ∃ spec after, (walk unboundWeb 7 ["home"] false link none).Yields before spec after ∧
      Resolution.resolve .web ∅ linkedPages.graph link = some spec.properties ∧
      spec.properties = ⟨[("logo", ⟨"Logo", "new Logo(\x7b\x7d)", true⟩)]⟩ := by
  intro before link
  have visit : (walk unboundWeb 7 ["home"] false link none).Yields before
      ⟨"Link", ⟨[("logo", ⟨"Logo", "new Logo(\x7b\x7d)", true⟩)]⟩, false⟩
      ((walk unboundWeb 7 ["home"] false link none).outcome before).2 :=
    yields_outcome (by rfl)
  exact ⟨_, _, visit, (walk_refines_resolution unboundWeb linkedPages.graph).1 rfl visit, rfl⟩

end Compilation

end DesignGraph
