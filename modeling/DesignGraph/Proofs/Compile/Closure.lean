import DesignGraph.Proofs.Compile.Representative

/-!
# The components of a package

After the walk of a run the components are the reachability closure of the roots: a type is listed
if an instance of it is reached, with the ids of those instances, and it is public if it is a root.
Types and ids stand in the order in which a depth-first preorder walk first meets them.
-/

namespace DesignGraph

namespace Program

variable {program : Program}

/-- An accepted root leads to an instance of the type that it is named like. -/
theorem root_of_checkRoots (accepted : program.checkRoots = .ok program) {name id : String}
    (root : (name, id) ∈ program.roots.entries) :
    ∃ inst, program.graph.instances.get? id = some inst ∧ inst.type = name := by
  unfold checkRoots at accepted
  split at accepted
  · cases accepted
  · next none_found =>
    have fine := List.findSome?_eq_none_iff.mp none_found (name, id) root
    simp only [rootProblem?] at fine
    split at fine
    · cases fine
    · next inst found =>
      refine ⟨inst, found, ?_⟩
      by_contra different
      simp [different] at fine

theorem map_type_rootInstances (accepted : program.checkRoots = .ok program) :
    program.rootInstances.map (·.type) = program.roots.keys := by
  have each : ∀ entries : List (String × String), (∀ entry ∈ entries,
      entry ∈ program.roots.entries) →
      (entries.filterMap fun entry => program.graph.instances.get? entry.2).map (·.type) =
        entries.map (·.1) := by
    intro entries
    induction entries with
    | nil => intro _; rfl
    | cons entry rest ih =>
      intro member
      obtain ⟨inst, found, type_eq⟩ := root_of_checkRoots accepted (member entry (by simp))
      simp only [List.filterMap_cons, found, List.map_cons, type_eq]
      rw [ih fun other listed => member other (by simp [listed])]
  exact each program.roots.entries fun _ listed => listed

end Program

/-- The components are what the roots reach, listed in the order of the visits. -/
structure IsClosure (program : Program) (visits : List Instance) (components : Roster) : Prop where
  preorder : program.graph.Preorder program.rootInstances visits
  visited_iff : ∀ inst, inst ∈ visits ↔
    ∃ root ∈ program.rootInstances, program.graph.Reaches root inst
  types_eq : components.keys = (visits.map (·.type)).eraseDups
  ids_eq : ∀ {type : String} {component : Component}, components.get? type = some component →
    component.instances.items = ((visits.filter (·.type == type)).map (·.id)).eraseDups
  id_iff : ∀ {type : String} {component : Component}, components.get? type = some component →
    ∀ id, id ∈ component.instances.items ↔ ∃ inst, program.graph.instances.get? id = some inst ∧
      inst.type = type ∧ ∃ root ∈ program.rootInstances, program.graph.Reaches root inst
  ids_nodup : ∀ {type : String} {component : Component},
    components.get? type = some component → component.instances.items.Nodup
  isPublic_iff : ∀ {type : String} {component : Component},
    components.get? type = some component →
      (component.spec.isPublic = true ↔ type ∈ program.roots.keys)

/-- After the walk of a run the components are the closure of the roots. -/
theorem isClosure_of_walkRoots {setup : Setup} {before after : Compiler}
    (keyed : before.program.graph.IsKeyed)
    (accepted : before.program.checkRoots = .ok before.program)
    (walked : (do Compilation.clear setup; Compilation.walkRoots setup).Yields before () after) :
    ∃ visits, IsClosure before.program visits after.output.components := by
  obtain ⟨-, visits, walked⟩ := Compilation.clear_walkRoots_yields walked
  have visited_iff := walked.preorder.mem_visits_iff
  have ids_eq : ∀ {type : String} {component : Component},
      after.output.components.get? type = some component →
      component.instances.items = ((visits.filter (·.type == type)).map (·.id)).eraseDups := by
    intro type component found
    obtain ⟨first, represents⟩ := walked.exists_represents found
    rw [← keyed.visitsOf_eq, represents.ids_eq]
  refine ⟨visits, walked.preorder, visited_iff, ?_, ids_eq, ?_, ?_, ?_⟩
  · rw [walked.keys_eq, keyed.map_componentName]
  · intro type component found id
    rw [ids_eq found, List.mem_eraseDups, List.mem_map]
    constructor
    · rintro ⟨inst, member, rfl⟩
      obtain ⟨visited, same⟩ := List.mem_filter.mp member
      exact ⟨inst, keyed.get?_of_visited walked.preorder visited, by simpa using same,
        (visited_iff inst).mp visited⟩
    · rintro ⟨inst, atId, rfl, reached⟩
      refine ⟨inst, List.mem_filter.mpr ⟨?_, by simp⟩, keyed.id_eq atId⟩
      exact (visited_iff inst).mpr reached
  · intro type component found
    rw [ids_eq found, ← OrderedSet.items_ofList]
    exact OrderedSet.nodup_ofList _
  · intro type component found
    obtain ⟨first, represents⟩ := walked.exists_represents found
    rw [represents.isPublic_eq, keyed.map_componentName, Program.map_type_rootInstances accepted]
    simp

/-- A page whose links lead to another page, and a logo that all of them share. -/
def linkedPages : Program where
  projectName := "Site"
  projectRoot := ⟨"/", ["site"]⟩
  graph := {
    types := ⟨[
      ("Page", ⟨"Page", [⟨"logo", "Logo", 0⟩, ⟨"links", "Link", 1⟩]⟩),
      ("Link", ⟨"Link", [⟨"logo", "Logo", 0⟩, ⟨"to", "Page", 0⟩]⟩),
      ("Logo", ⟨"Logo", []⟩)]⟩
    instances := ⟨[
      ("home", ⟨"home", "Page",
        ⟨[("links", .list [.text "first", .text "second"]), ("logo", .text "mark")]⟩⟩),
      ("first", ⟨"first", "Link", ⟨[("logo", .text "mark")]⟩⟩),
      ("second", ⟨"second", "Link", ⟨[("to", .text "about")]⟩⟩),
      ("about", ⟨"about", "Page", ⟨[("logo", .text "mark")]⟩⟩),
      ("mark", ⟨"mark", "Logo", ⟨[]⟩⟩),
      ("unused", ⟨"unused", "Logo", ⟨[]⟩⟩)]⟩ }
  roots := ⟨[("Page", "home")]⟩

/-- A set-up for the web without bindings. -/
def unboundWeb : Setup := ⟨.web, ⟨[]⟩, ⟨"/", []⟩, .ok "localhost", "Site", ⟨"/", ["build"]⟩⟩

theorem isClosure_of_linkedPages :
    let before : Compiler := { program := linkedPages, tree := {} }
    let walk : Compilation Unit := do Compilation.clear unboundWeb; Compilation.walkRoots unboundWeb
    ∃ after, walk.Yields before () after ∧
      after.output.components.keys = ["Page", "Logo", "Link"] ∧
      ∃ visits, IsClosure linkedPages visits after.output.components := by
  intro before walk
  have walked : walk.Yields before () (walk.outcome before).2 :=
    Compilation.yields_outcome (by rfl)
  refine ⟨_, walked, by rfl, isClosure_of_walkRoots ?_ rfl walked⟩
  exact Graph.IsKeyed.of_entries (by decide) (by decide)

end DesignGraph
