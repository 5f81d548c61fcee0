import DesignGraph.Proofs.Compile.Closure
import DesignGraph.Proofs.Compile.Trace

/-!
# What a walk visits

The visits of a trace, and what it omits, in terms of the program: a walk visits the roots, and what
the instances that it meets refer to, once for every property that does. The order of a trace plays
no part here.
-/

namespace DesignGraph

namespace Graph

variable {graph : Graph}

/-- An instance holds what its values lead to. -/
theorem exists_refersAt {outer inner : Instance} (holds : graph.Holds outer inner) :
    ∃ declaration leaf, graph.RefersAt outer declaration leaf ∧
      graph.instance? leaf = some inner := by
  obtain ⟨type, declared, declaration, ofType, value, given, member⟩ := holds_iff.mp holds
  obtain ⟨component, leaf, inside, found⟩ := mem_heldIn.mp member
  obtain ⟨_, same, within⟩ := mem_leaves.mp inside
  cases List.mem_singleton.mp same
  exact ⟨declaration, leaf, ⟨component, type, declared, ofType, value, given, within⟩, found⟩

/-- What the component-typed properties of an instance lead to, property by property. -/
def referencesAt (graph : Graph) (inst : Instance) : List (Declaration × Value) :=
  match graph.types.get? inst.type with
  | none => []
  | some type =>
      (type.properties.filter fun declaration => graph.isComponent declaration.type).flatMap
        fun declaration => (leaves declaration.depth (inst.values.get? declaration.name).toList).map
          fun leaf => (declaration, leaf)

theorem refersAt_iff_mem {inst : Instance} {declaration : Declaration} {leaf : Value} :
    graph.RefersAt inst declaration leaf ↔ (declaration, leaf) ∈ graph.referencesAt inst := by
  unfold RefersAt referencesAt
  cases graph.types.get? inst.type with
  | none => simp
  | some type =>
    simp only [Option.some.injEq, exists_eq_left', List.mem_flatMap, List.mem_filter, List.mem_map,
      mem_leaves, Option.mem_toList, Prod.mk.injEq]
    constructor
    · rintro ⟨component, ofType, value, given, within⟩
      exact ⟨declaration, ⟨ofType, component⟩, leaf, ⟨value, given, within⟩, rfl, rfl⟩
    · rintro ⟨_, ⟨ofType, component⟩, _, ⟨value, given, within⟩, rfl, rfl⟩
      exact ⟨component, ofType, value, given, within⟩

end Graph

namespace Program

variable {program : Program} {target : Target} {visited : Visit} {inst : Instance}

/-- The walk of the program meets the instance. -/
def Meets (program : Program) (inst : Instance) : Prop :=
  ∃ root ∈ program.rootInstances, program.graph.Reaches root inst

theorem Meets.inner {outer : Instance} {declaration : Declaration} {leaf : Value}
    (met : program.Meets outer) (refers : program.graph.RefersAt outer declaration leaf)
    (found : program.graph.instance? leaf = some inst) : program.Meets inst := by
  obtain ⟨root, isRoot, reached⟩ := met
  exact ⟨root, isRoot, reached.tail (refers.holds found)⟩

/-- Nothing is met outside of what has the roots and all that its members hold. -/
theorem Meets.mem_of_closed {instances : List Instance}
    (roots : ∀ root ∈ program.rootInstances, root ∈ instances)
    (closed : ∀ outer ∈ instances, ∀ inner ∈ program.graph.nested outer, inner ∈ instances)
    (met : program.Meets inst) : inst ∈ instances := by
  obtain ⟨root, isRoot, reached⟩ := met
  induction reached with
  | refl => exact roots root isRoot
  | tail _ holds ih => exact closed _ ih _ holds

/-- If the one root holds another instance that holds nothing, only these two are met. -/
theorem Meets.eq_or_eq {root inner : Instance} (roots : program.rootInstances = [root])
    (rootHolds : program.graph.nested root = [inner])
    (innerHolds : program.graph.nested inner = []) (met : program.Meets inst) :
    inst = root ∨ inst = inner := by
  have member : inst ∈ [root, inner] := met.mem_of_closed (by simp [roots])
    (by simp [rootHolds, innerHolds])
  simpa using member

theorem listed_of_rootInstances (ids : program.graph.IdsAreKeys) {root : Instance}
    (isRoot : root ∈ program.rootInstances) :
    program.graph.instances.get? root.id = some root := by
  obtain ⟨⟨name, id⟩, -, found⟩ := List.mem_filterMap.mp isRoot
  change program.graph.instances.get? id = some root at found
  rwa [ids found]

/-- What is met is listed. -/
theorem Meets.listed (ids : program.graph.IdsAreKeys) (met : program.Meets inst) :
    program.graph.instances.get? inst.id = some inst := by
  obtain ⟨root, isRoot, reached⟩ := met
  induction reached with
  | refl => exact listed_of_rootInstances ids isRoot
  | tail _ holds ih => exact (ids.refers_of_holds ih holds).1

/-- The walk of the program visits a root as such, and every instance through each property of an
instance that it meets. -/
inductive Visits (program : Program) : Visit → Prop
  | root {inst : Instance} (isRoot : inst ∈ program.rootInstances) : Visits program ⟨inst, none⟩
  | reference {outer inst : Instance} {declaration : Declaration} {leaf : Value}
      (met : program.Meets outer) (refers : program.graph.RefersAt outer declaration leaf)
      (found : program.graph.instance? leaf = some inst) :
      Visits program
        ⟨inst, some ⟨program.graph.componentName outer, declaration.name⟩⟩

theorem Visits.meets (visits : program.Visits visited) : program.Meets visited.inst := by
  cases visits with
  | root isRoot => exact ⟨_, isRoot, .refl⟩
  | reference met refers found => exact met.inner refers found

/-- What is met is visited in one way or another. -/
theorem meets_iff_exists_visits :
    program.Meets inst ↔ ∃ reference, program.Visits ⟨inst, reference⟩ := by
  constructor
  · rintro ⟨root, isRoot, reached⟩
    cases reached with
    | refl => exact ⟨none, .root isRoot⟩
    | tail reached holds =>
      obtain ⟨declaration, leaf, refers, found⟩ := Graph.exists_refersAt holds
      exact ⟨_, .reference ⟨root, isRoot, reached⟩ refers found⟩
  · rintro ⟨reference, visits⟩
    exact visits.meets

theorem Meets.exists_leads (target : Target) (met : program.Meets inst) :
    ∃ root ∈ program.rootInstances, ∃ reference, Relation.ReflTransGen
      (Event.Leads target program.graph) (.visit ⟨root, none⟩) (.visit ⟨inst, reference⟩) := by
  obtain ⟨root, isRoot, reached⟩ := met
  refine ⟨root, isRoot, ?_⟩
  induction reached with
  | refl => exact ⟨none, .refl⟩
  | tail _ holds ih =>
    obtain ⟨reference, leads⟩ := ih
    obtain ⟨declaration, leaf, refers, found⟩ := Graph.exists_refersAt holds
    exact ⟨_, leads.tail
      ⟨_, rfl, Event.visit_mem_below.mpr ⟨declaration, leaf, refers, found, rfl⟩⟩⟩

theorem visits_iff_leads (target : Target) :
    program.Visits visited ↔ ∃ root ∈ program.rootInstances,
      Relation.ReflTransGen (Event.Leads target program.graph) (.visit ⟨root, none⟩)
        (.visit visited) := by
  constructor
  · intro visits
    cases visits with
    | root isRoot => exact ⟨_, isRoot, .refl⟩
    | reference met refers found =>
      obtain ⟨root, isRoot, reference, leads⟩ := met.exists_leads target
      exact ⟨root, isRoot, leads.tail
        ⟨_, rfl, Event.visit_mem_below.mpr ⟨_, _, refers, found, rfl⟩⟩⟩
  · rintro ⟨root, isRoot, leads⟩
    generalize reached : Event.visit visited = last at leads
    induction leads generalizing visited with
    | refl =>
      cases reached
      exact .root isRoot
    | tail _ step ih =>
      subst reached
      obtain ⟨outer, rfl, member⟩ := step
      obtain ⟨declaration, leaf, refers, found, same⟩ := Event.visit_mem_below.mp member
      obtain ⟨inst, reference⟩ := visited
      subst same
      exact .reference (ih rfl).meets refers found

end Program

namespace Compilation

variable {setup : Setup} {program : Program} {done : List Event}

/-- The visits of a trace from the roots. -/
theorem visit_mem_iff (trace : Trace setup.target program.graph (rootEvents program) done)
    (visited : Visit) : .visit visited ∈ done ↔ program.Visits visited := by
  rw [trace.mem_iff, Program.visits_iff_leads setup.target]
  simp only [rootEvents, List.mem_map, exists_exists_and_eq_and]

/-- What a trace from the roots omits: what the instances have in store that are met. -/
theorem omission_mem_iff (trace : Trace setup.target program.graph (rootEvents program) done)
    (warning : Warning) : .omission warning ∈ done ↔
      ∃ inst, program.Meets inst ∧
        .omission warning ∈ Event.below setup.target program.graph inst := by
  constructor
  · intro member
    obtain ⟨start, waiting, leads⟩ := (trace.mem_iff _).mp member
    obtain ⟨root, isRoot, rfl⟩ := List.mem_map.mp waiting
    rcases Relation.ReflTransGen.cases_tail leads with same | ⟨_, before, visited, rfl, store⟩
    · cases same
    · exact ⟨visited.inst, ((Program.visits_iff_leads _).mpr ⟨root, isRoot, before⟩).meets, store⟩
  · rintro ⟨inst, met, store⟩
    obtain ⟨root, isRoot, reference, leads⟩ := met.exists_leads setup.target
    exact (trace.mem_iff _).mpr
      ⟨_, List.mem_map_of_mem isRoot, leads.tail ⟨_, rfl, store⟩⟩

end Compilation

end DesignGraph
