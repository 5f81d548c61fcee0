import DesignGraph.Proofs.Compile.Roster
import DesignGraph.Proofs.Compile.Steps

/-!
# What a successful walk does

A walk that succeeds has visited what was waiting in preorder, has counted each visit in the roster,
and answers with the resolution of its instance, whatever the output and the warnings were before.
The proof follows the walk: one lemma for a value, one for the declarations of an instance, and one
for a visit, each from the claim (`Visiting`) that nested visits do the same.
-/

namespace DesignGraph.Compilation

open Roster (Filled filled_settle settle settle_meetAll settle_settle)

/-- A step that visits what is waiting. The roster that it leaves is that of the visits, up to a
change. -/
structure Visited (setup : Setup) (before : Compiler) (waiting visits : List Instance)
    (change : Roster → Roster) (after : Compiler) : Prop where
  preorder : before.program.graph.Preorder waiting visits
  program_eq : after.program = before.program
  components_eq : after.output.components =
    change (Roster.meetAll setup before.program.graph before.output.components visits)
  resolves : ∀ inst ∈ visits,
    (Resolution.resolve setup.target setup.bindings before.program.graph inst).isSome

namespace Visited

variable {setup : Setup} {before between after : Compiler}

theorem nothing (program_eq : after.program = before.program)
    (components_eq : after.output.components = before.output.components) :
    Visited setup before [] [] id after :=
  ⟨.nil, program_eq, components_eq, by simp⟩

/-- Two steps in a row, if their changes add up. -/
theorem append {first second left right : List Instance} {early late change : Roster → Roster}
    (head : Visited setup before first left early between)
    (tail : Visited setup between second right late after)
    (adds : ∀ roster, roster =
        Roster.meetAll setup before.program.graph before.output.components left →
      late (Roster.meetAll setup before.program.graph (early roster) right) =
        change (Roster.meetAll setup before.program.graph roster right)) :
    Visited setup before (first ++ second) (left ++ right) change after := by
  obtain ⟨tailWalk, tailProgram, tailComponents, tailResolves⟩ := tail
  rw [head.program_eq] at tailWalk tailProgram tailComponents tailResolves
  refine ⟨head.preorder.append tailWalk, tailProgram, ?_, ?_⟩
  · rw [tailComponents, head.components_eq, adds _ rfl, Roster.meetAll_append]
  · intro inst member
    rcases List.mem_append.mp member with member | member
    · exact head.resolves inst member
    · exact tailResolves inst member

theorem append_id {first second left right : List Instance}
    (head : Visited setup before first left id between)
    (tail : Visited setup between second right id after) :
    Visited setup before (first ++ second) (left ++ right) id after :=
  head.append tail fun _ _ => rfl

/-- To publish nothing is to change nothing. -/
theorem unpublished {type : String} {waiting visits : List Instance}
    (visited : Visited setup before waiting visits (Roster.publish type false) after) :
    Visited setup before waiting visits id after := by
  refine ⟨visited.preorder, visited.program_eq, ?_, visited.resolves⟩
  rw [visited.components_eq, Roster.publish_false, id]

end Visited

/-- What a successful visit does: it visits all that the instance reaches, and answers with the
resolution of the instance. -/
def Visiting (setup : Setup) (visit : Instance → Reference → Compilation Spec) : Prop :=
  ∀ {inst : Instance} {reference : Reference} {before after : Compiler} {spec : Spec},
    Yields (visit inst reference) before spec after →
      (∃ visits, Visited setup before [inst] visits id after) ∧
      spec.componentName = before.program.graph.componentName inst ∧
      Resolution.resolve setup.target setup.bindings before.program.graph inst =
        some spec.properties

variable {setup : Setup} {visit : Instance → Reference → Compilation Spec} {parent : String}
  {declaration : Declaration} {depth : Nat}

/-- What resolving a value does: the instances that it holds are visited in order, and the answer is
its resolution. -/
def Resolving (setup : Setup) (declaration : Declaration) (depth : Nat)
    (resolve : Value → Compilation (Option Property)) : Prop :=
  ∀ {value : Value} {before after : Compiler} {result : Option Property},
    Yields (resolve value) before result after →
      (∃ visits, Visited setup before (before.program.graph.heldIn declaration depth [value]) visits
          id after) ∧
        Resolution.resolveValue setup.target setup.bindings before.program.graph declaration depth
          value = some result

theorem Resolving.mapM_yields {resolve : Value → Compilation (Option Property)}
    (resolving : Resolving setup declaration depth resolve) {items : List Value}
    {before after : Compiler} {results : List (Option Property)}
    (success : Yields (items.mapM resolve) before results after) :
    (∃ visits, Visited setup before (before.program.graph.heldIn declaration depth items) visits
        id after) ∧
      items.mapM (fun item => Resolution.resolveValue setup.target setup.bindings
        before.program.graph declaration depth item) = some results := by
  induction items generalizing before results with
  | nil =>
    obtain ⟨rfl, rfl⟩ := yields_mapM_nil.mp success
    rw [Graph.heldIn_nil]
    exact ⟨⟨[], .nothing rfl rfl⟩, rfl⟩
  | cons item rest ih =>
    obtain ⟨head, between, tail, first, others, rfl⟩ := yields_mapM_cons.mp success
    obtain ⟨⟨early, visitedItem⟩, resolvedItem⟩ := resolving first
    obtain ⟨⟨late, visitedRest⟩, resolvedRest⟩ := ih others
    rw [visitedItem.program_eq] at visitedRest resolvedRest
    rw [Graph.heldIn_cons]
    exact ⟨⟨early ++ late, visitedItem.append_id visitedRest⟩,
      by simp [resolvedItem, resolvedRest]⟩

theorem propertyOf_yields (visiting : Visiting setup visit) :
    Resolving setup declaration depth (propertyOf setup visit parent declaration depth) := by
  induction depth with
  | zero =>
    intro value before after result success
    cases component : before.program.graph.isComponent declaration.type with
    | false =>
      have held_eq : before.program.graph.heldIn declaration 0 [value] = [] := by
        simp [Graph.heldIn, component]
      simp only [held_eq, Resolution.resolveValue_zero, component, Bool.false_eq_true, if_false]
      rcases (yields_propertyOf_primitive component).mp success with
        ⟨property, represented, rfl, rfl⟩ | ⟨warning, refused, rfl, rfl⟩
      · exact ⟨⟨[], .nothing rfl rfl⟩, by rw [represented]; rfl⟩
      · exact ⟨⟨[], .nothing rfl rfl⟩, by rw [refused]; rfl⟩
    | true =>
      obtain ⟨inst, spec, initializer, found, visit, constructed, rfl⟩ :=
        propertyOf_component_yields component success
      obtain ⟨visited, name_eq, resolved⟩ := visiting visit
      constructor
      · simpa [Graph.heldIn, component, Graph.leaves, found] using visited
      · have agree : Resolution.constructionOf? setup.target setup.bindings declaration.type inst
            spec = Resolution.constructionOf? setup.target setup.bindings declaration.type inst
              ⟨before.program.graph.componentName inst, spec.properties, false⟩ :=
          Resolution.constructionOf?_congr name_eq rfl
        rw [agree] at constructed
        simp [Resolution.resolveValue_zero, component, found, resolved, constructed]
  | succ depth ih =>
    intro value before after result success
    cases value with
    | list items =>
      obtain ⟨elements, each, rfl⟩ := yields_propertyOf_list.mp success
      obtain ⟨visited, resolved⟩ := Resolving.mapM_yields ih each
      rw [Graph.heldIn_list]
      exact ⟨visited, by simp [Resolution.resolveValue_list, resolved]⟩
    | _ =>
      obtain ⟨rfl, rfl⟩ := (yields_propertyOf_not_list (by simp)).mp success
      rw [Graph.heldIn_not_list _ _ _ _ (by simp)]
      exact ⟨⟨[], .nothing rfl rfl⟩, by simp [Resolution.resolveValue_not_list]⟩

/-- A declared property is resolved as in the resolution of all. -/
theorem resolveDeclared_yields (visiting : Visiting setup visit) {type : String} {inst : Instance}
    {before after : Compiler} {answer : Option Property}
    (success : (resolveDeclared setup visit type inst declaration).Yields before answer after) :
    (∃ visits, Visited setup before (before.program.graph.held inst declaration) visits id after) ∧
      ∀ rest done, Resolution.resolveAll setup.target setup.bindings before.program.graph inst
          (declaration :: rest) done =
        Resolution.resolveAll setup.target setup.bindings before.program.graph inst rest
          (answer.elim done (done.insert declaration.name)) := by
  cases given : inst.values.get? declaration.name with
  | none =>
    obtain ⟨rfl, rfl⟩ := (yields_resolveDeclared_none given).mp success
    simp only [Graph.held, Resolution.resolveAll_cons, given]
    exact ⟨⟨[], .nothing rfl rfl⟩, fun _ _ => rfl⟩
  | some value =>
    rw [resolveDeclared_some given] at success
    obtain ⟨visited, resolved⟩ := propertyOf_yields visiting success
    simp only [Graph.held, Resolution.resolveAll_cons, given, resolved]
    refine ⟨visited, fun rest done => ?_⟩
    cases answer <;> rfl

theorem components_filledIn (isFirst : Bool) (type : String)
    (properties : OrderedMap String Property) (compiler : Compiler) :
    (filledIn isFirst type properties compiler).output.components =
      settle isFirst type properties compiler.output.components := by
  cases isFirst with
  | false => rfl
  | true => exact Roster.components_changeComponent compiler.output type fun spec =>
      { spec with properties := properties }

/-- A property is resolved and filled in, and the rest is resolved from there. -/
theorem Visited.fill_append {type : String} {isFirst : Bool}
    {done result total : OrderedMap String Property} {before between middle after : Compiler}
    {first second early late : List Instance}
    (head : Visited setup before first early id between)
    (filled : Filled isFirst type done before.output.components)
    (sameProgram : middle.program = before.program)
    (sameComponents :
      middle.output.components = settle isFirst type result between.output.components)
    (tail : Visited setup middle second late (settle isFirst type total) after) :
    Visited setup before (first ++ second) (early ++ late) (settle isFirst type total) after := by
  have moved : Visited setup before first early (settle isFirst type result) middle :=
    ⟨head.preorder, sameProgram, by rw [sameComponents, head.components_eq]; rfl, head.resolves⟩
  refine moved.append tail ?_
  rintro _ rfl
  have met : Filled isFirst type done
      (Roster.meetAll setup before.program.graph before.output.components early) :=
    filled.after_visits _ early
  rw [settle_meetAll (filled_settle met), settle_settle, ← settle_meetAll met]

/-- The declarations of an instance, one after the other. While the properties of a first instance
are filled in, other instances of its type may be met. -/
theorem properties_yields (visiting : Visiting setup visit) {type : String} {isFirst : Bool}
    {inst : Instance} {declarations : List Declaration} {done result : OrderedMap String Property}
    {before after : Compiler}
    (success : Yields (properties setup visit type isFirst inst declarations done) before result
      after)
    (filled : Filled isFirst type done before.output.components) :
    (∃ visits, Visited setup before (declarations.flatMap (before.program.graph.held inst)) visits
        (settle isFirst type result) after) ∧
      Resolution.resolveAll setup.target setup.bindings before.program.graph inst declarations
        done = some result := by
  induction declarations generalizing done before with
  | nil =>
    obtain ⟨rfl, rfl⟩ := yields_properties_nil.mp success
    exact ⟨⟨[], .nil, rfl, filled.settle_eq.symm, by simp⟩, Resolution.resolveAll_nil _ _⟩
  | cons declaration rest ih =>
    obtain ⟨answer, between, first, others⟩ := properties_cons_yields success
    obtain ⟨⟨early, head⟩, goesOn⟩ := resolveDeclared_yields visiting first
    have met : Filled isFirst type done between.output.components := by
      rw [head.components_eq]
      exact filled.after_visits _ early
    -- The rest starts where the property has been resolved and, for a first instance, filled in.
    have continues : ∀ {middle : Compiler} {next : OrderedMap String Property},
        Yields (properties setup visit type isFirst inst rest next) middle result after →
        middle.program = between.program →
        middle.output.components = settle isFirst type next between.output.components →
        (∃ visits, Visited setup before
            ((declaration :: rest).flatMap (before.program.graph.held inst)) visits
            (settle isFirst type result) after) ∧
          Resolution.resolveAll setup.target setup.bindings before.program.graph inst rest next =
            some result := by
      intro middle next others sameProgram sameComponents
      have program_eq : middle.program = before.program := sameProgram.trans head.program_eq
      obtain ⟨⟨late, tail⟩, resolved⟩ :=
        ih others (by rw [sameComponents]; exact filled_settle met)
      rw [program_eq] at resolved tail
      rw [List.flatMap_cons]
      exact ⟨⟨early ++ late, head.fill_append filled program_eq sameComponents tail⟩, resolved⟩
    rw [goesOn]
    rcases others with ⟨rfl, others⟩ | ⟨property, rfl, others⟩
    · exact continues others rfl met.settle_eq.symm
    · exact continues others (program_filledIn ..) (components_filledIn ..)

/-- What registering an instance does to the roster. -/
structure Registered (setup : Setup) (graph : Graph) (inst : Instance) (isPublic isFirst : Bool)
    (before after : Roster) : Prop where
  filled : Filled isFirst (graph.componentName inst) ∅ after
  settled : settle isFirst (graph.componentName inst)
      (Resolution.resolved setup.target setup.bindings graph inst) after =
    Roster.publish (graph.componentName inst) isPublic (Roster.meet setup graph before inst)

theorem register_yields {graph : Graph} {inst : Instance} {isPublic isFirst : Bool}
    {before after : Compiler}
    (success : Yields (register setup (graph.componentName inst) isPublic inst.id) before isFirst
      after) :
    after.program = before.program ∧ Registered setup graph inst isPublic isFirst
      before.output.components after.output.components := by
  obtain ⟨first_eq, rfl⟩ := yields_register.mp success
  refine ⟨rfl, ?_⟩
  cases found : before.output.components.get? (graph.componentName inst) with
  | none =>
    have absent : before.output.components.contains (graph.componentName inst) = false := by
      rw [OrderedMap.contains_eq_isSome, found]
      rfl
    rw [absent, Bool.not_false] at first_eq
    subst first_eq
    refine ⟨?_, ?_⟩
    · intro _
      exact ⟨_, OrderedMap.get?_insert_self _ _ _, rfl⟩
    · simp only [settle, if_true, Roster.fill, Roster.publish,
        Roster.meet, found, Option.getD_none]
      rw [Roster.amend_of_get? (OrderedMap.get?_insert_self _ _ _),
        Roster.amend_of_get? (OrderedMap.get?_insert_self _ _ _), OrderedMap.insert_insert,
        OrderedMap.insert_insert]
  | some component =>
    have present : before.output.components.contains (graph.componentName inst) = true := by
      rw [OrderedMap.contains_eq_isSome, found]
      rfl
    rw [present, Bool.not_true] at first_eq
    subst first_eq
    refine ⟨?_, ?_⟩
    · intro first
      simp at first
    · simp only [settle, Bool.false_eq_true, if_false, Roster.publish, Option.getD_some]
      rw [Roster.meet_of_get? found, Roster.amend_of_get? (OrderedMap.get?_insert_self _ _ _),
        OrderedMap.insert_insert]

/-- Effects of asset binders do not reach the roster. -/
theorem components_applyAll (output : Output) (effects : List Effect) :
    (output.applyAll effects).components = output.components := by
  induction effects generalizing output with
  | nil => rfl
  | cons effect rest ih =>
    have applied : (output.apply effect).components = output.components := by
      cases effect <;> rfl
    exact (ih (output.apply effect)).trans applied

theorem bindAssets_yields {type : String} {inst : Instance} {reference : Option Reference}
    {before after : Compiler} {answer : Unit}
    (success : Yields (bindAssets setup type inst reference) before answer after) :
    after.program = before.program ∧ after.output.components = before.output.components := by
  obtain ⟨effects, -, rfl⟩ := yields_bindAssets.mp success
  exact ⟨rfl, components_applyAll _ effects⟩

/-- A visit that succeeds: all that the instance reaches is visited, and the answer is its
resolution. -/
theorem walk_yields {hops : Nat} {path : List String} {isPublic : Bool} {inst : Instance}
    {reference : Option Reference} {before after : Compiler} {spec : Spec}
    (success : Yields (walk setup hops path isPublic inst reference) before spec after) :
    (∃ visits, Visited setup before [inst] visits
        (Roster.publish (before.program.graph.componentName inst) isPublic) after) ∧
      spec.componentName = before.program.graph.componentName inst ∧
      Resolution.resolve setup.target setup.bindings before.program.graph inst =
        some spec.properties := by
  induction hops generalizing path isPublic inst reference before after spec with
  | zero => exact absurd success yields_throw
  | succ hops ih =>
    have visiting : Visiting setup (visitBelow setup hops (path ++ [inst.id])) := by
      intro nested reference before after spec success
      obtain ⟨⟨visits, visited⟩, resolved⟩ := ih success
      exact ⟨⟨visits, visited.unpublished⟩, resolved⟩
    obtain ⟨type, isFirst, entered, resolved, found, registering, resolving, binding, named⟩ :=
      walk_succ_yields success
    have name_eq : before.program.graph.componentName inst = type.name := by
      simp only [Graph.componentName, found]
    have nested_eq : before.program.graph.nested inst =
        type.properties.flatMap (before.program.graph.held inst) := by
      simp only [Graph.nested, found]
    rw [← name_eq] at registering resolving
    obtain ⟨enteredProgram, filled, settled⟩ := register_yields registering
    obtain ⟨⟨below, inner⟩, resolveAll_eq⟩ := properties_yields visiting resolving filled
    obtain ⟨boundProgram, boundComponents⟩ := bindAssets_yields binding
    obtain ⟨innerWalk, innerProgram, innerComponents, innerResolves⟩ := inner
    rw [enteredProgram] at resolveAll_eq innerWalk innerProgram innerComponents innerResolves
    have resolve_eq : Resolution.resolve setup.target setup.bindings before.program.graph inst =
        some spec.properties := by
      simp [Resolution.resolve_eq, found, resolveAll_eq]
    have resolved_eq : Resolution.resolved setup.target setup.bindings before.program.graph inst =
        spec.properties := by
      rw [Resolution.resolved, resolve_eq, Option.getD_some]
    refine ⟨⟨inst :: below, ?_, boundProgram.trans innerProgram, ?_, ?_⟩,
      named.trans name_eq.symm, resolve_eq⟩
    · rw [← nested_eq] at innerWalk
      exact .single innerWalk
    · -- The spec is settled at the end, but it could as well have been from the start.
      rw [boundComponents, innerComponents, settle_meetAll filled, ← resolved_eq, settled,
        Roster.publish, ← Roster.amend_meetAll (Roster.mem_keys_meet_self _ _),
        Roster.meetAll_cons]
    · intro visited member
      rcases List.mem_cons.mp member with rfl | member
      · simp [resolve_eq]
      · exact innerResolves visited member

theorem visiting_visitBelow (hops : Nat) (path : List String) :
    Visiting setup (visitBelow setup hops path) := by
  intro inst reference before after spec success
  obtain ⟨⟨visits, visited⟩, resolved⟩ := walk_yields success
  exact ⟨⟨visits, visited.unpublished⟩, resolved⟩

theorem process_yields {isPublic : Bool} {inst : Instance} {reference : Option Reference}
    {before after : Compiler} {spec : Spec}
    (success : Yields (process setup isPublic inst reference) before spec after) :
    (∃ visits, Visited setup before [inst] visits
        (Roster.publish (before.program.graph.componentName inst) isPublic) after) ∧
      spec.componentName = before.program.graph.componentName inst ∧
      Resolution.resolve setup.target setup.bindings before.program.graph inst =
        some spec.properties := by
  rw [process, yields_get_bind] at success
  exact walk_yields success

theorem RootVisits.visited {roots : List Instance} {before after : Compiler}
    (visits : RootVisits setup before roots after) :
    ∃ met, Visited setup before roots met
      (Roster.publishAll (roots.map before.program.graph.componentName)) after := by
  induction visits with
  | nil compiler => exact ⟨[], .nothing rfl rfl⟩
  | @cons before between after root rest hops spec visited _ ih =>
    obtain ⟨⟨early, head⟩, -⟩ := walk_yields visited
    obtain ⟨late, tail⟩ := ih
    refine ⟨early ++ late, head.append tail ?_⟩
    rintro _ rfl
    have listed : before.program.graph.componentName root ∈
        (Roster.meetAll setup before.program.graph before.output.components early).keys :=
      Roster.mem_keys_meetAll (head.preorder.mem_of_waiting (List.mem_singleton_self root))
    rw [Roster.publish, ← Roster.amend_meetAll listed, head.program_eq]
    rfl

/-- The walk from the roots, if it succeeds. -/
theorem walkRoots_yields {before after : Compiler}
    (success : Yields (walkRoots setup) before ⟨⟩ after) :
    ∃ visits, Visited setup before before.program.rootInstances visits
      (Roster.publishAll
        (before.program.rootInstances.map before.program.graph.componentName)) after :=
  (walkRoots_visits success).visited

end DesignGraph.Compilation
