import DesignGraph.Proofs.Compile.Assembly

/-!
# Rendered classes

Every component becomes a class of the package. The class that was rendered for a type is still
there when the package is written, and it was rendered from the component that the walk has left.
-/

namespace DesignGraph.Compilation

variable {setup : Setup} {before after : Compiler}

/-- The class of a component is among the sources. -/
def HasClass (setup : Setup) (singletons : List String) (type : String) (component : Component)
    (compiler : Compiler) : Prop :=
  ∃ text, classText setup (classSpec setup singletons component)
      (component.spec.isPublic || singletons.contains type) = .ok text ∧
    .rendered component.spec.componentName (classSuffix setup.target) text ∈
      compiler.output.sources.items

/-- The class of every component is among the sources that the package is filled in with. -/
theorem writePackage_renders {package : Package}
    (distinct : before.output.components.keys.Nodup)
    (success : (writePackage setup).Yields before package after) {type : String}
    {component : Component} (found : before.output.components.get? type = some component) :
    HasClass setup (singletons before.output.components) type component after := by
  obtain ⟨parts, contributions, output_eq⟩ := writePackage_output distinct success
  obtain ⟨part, listed, contributed⟩ := Answers.exists_answer
    (Answers.mapM_eq_ok_iff.mp contributions) (OrderedMap.mem_entries_of_get? found)
  obtain ⟨text, _, rendered, -, rfl⟩ := contribution_eq_ok_iff.mp contributed
  refine ⟨text, rendered, ?_⟩
  rw [output_eq, Output.sources_styled, sources_assembled]
  exact OrderedSet.mem_insertAll.mpr (.inr (List.mem_append_left _
    (List.mem_flatMap.mpr ⟨_, listed, List.mem_cons_self⟩)))

end DesignGraph.Compilation
