import DesignGraph.Proofs.Compile.Walk
import DesignGraph.Proofs.Graph.Document

/-!
# What a run keeps of its walk

The components after the walk of a run are told by the visits alone (`Walked`), and each of them by
the visits to its type: the first of these gives it its properties, and all of them its ids
(`Represents`).
-/

namespace DesignGraph

namespace Graph.IsKeyed

variable {graph : Graph}

theorem componentName_eq (keyed : graph.IsKeyed) (inst : Instance) :
    graph.componentName inst = inst.type := by
  unfold Graph.componentName
  cases found : graph.types.get? inst.type with
  | none => rfl
  | some type => exact keyed.name_eq found

theorem map_componentName (keyed : graph.IsKeyed) (instances : List Instance) :
    instances.map graph.componentName = instances.map (·.type) :=
  List.map_congr_left fun inst _ => keyed.componentName_eq inst

theorem visitsOf_eq (keyed : graph.IsKeyed) (type : String) (visits : List Instance) :
    Roster.visitsOf graph type visits = visits.filter (·.type == type) := by
  simp only [Roster.visitsOf, keyed.componentName_eq]

/-- Whatever an instance of the graph reaches is listed under its id. -/
theorem get?_of_reaches (keyed : graph.IsKeyed) {source target : Instance}
    (listed : graph.instances.get? source.id = some source)
    (reached : graph.Reaches source target) :
    graph.instances.get? target.id = some target := by
  induction reached with
  | refl => exact listed
  | tail _ holds _ =>
    obtain ⟨_, _, declaration, _, value, _, member⟩ := Graph.holds_iff.mp holds
    obtain ⟨_, leaf, _, found⟩ := Graph.mem_heldIn.mp member
    obtain ⟨id, listed⟩ := Graph.exists_get?_of_instance? found
    rw [keyed.id_eq listed, listed]

end Graph.IsKeyed

theorem Program.exists_get?_of_rootInstances {program : Program} {root : Instance}
    (member : root ∈ program.rootInstances) :
    ∃ id, program.graph.instances.get? id = some root := by
  obtain ⟨⟨name, id⟩, _, found⟩ := List.mem_filterMap.mp member
  exact ⟨id, found⟩

/-- Whatever is visited from the roots is listed under its id. -/
theorem Graph.IsKeyed.get?_of_visited {program : Program} (keyed : program.graph.IsKeyed)
    {visits : List Instance} (walk : program.graph.Preorder program.rootInstances visits)
    {inst : Instance} (visited : inst ∈ visits) :
    program.graph.instances.get? inst.id = some inst := by
  obtain ⟨root, member, reached⟩ := (walk.mem_visits_iff inst).mp visited
  obtain ⟨id, found⟩ := Program.exists_get?_of_rootInstances member
  rw [← keyed.id_eq found] at found
  exact keyed.get?_of_reaches found reached

namespace Compilation

variable {setup : Setup}

/-- The components are those of a walk from all roots. -/
structure Walked (setup : Setup) (program : Program) (visits : List Instance)
    (components : Roster) : Prop where
  preorder : program.graph.Preorder program.rootInstances visits
  components_eq :
    components = Roster.ofVisits setup program.graph program.rootInstances visits
  resolves : ∀ inst ∈ visits,
    (Resolution.resolve setup.target setup.bindings program.graph inst).isSome

/-- The walk of a run: nothing has been met when it begins. -/
theorem walkRoots_walked {before after : Compiler} (empty : before.output.components = ∅)
    (success : Yields (walkRoots setup) before () after) :
    after.program = before.program ∧
      ∃ visits, Walked setup before.program visits after.output.components := by
  obtain ⟨visits, preorder, program_eq, components_eq, resolves⟩ := walkRoots_yields success
  rw [empty] at components_eq
  exact ⟨program_eq, visits, preorder, components_eq, resolves⟩

theorem components_seed (target : Target) (installed : Path) :
    (target.seed installed).components = ∅ := by
  cases target <;> rfl

/-- The same from whatever a compiler has put together before. -/
theorem clear_walkRoots_yields {before after : Compiler}
    (success : Yields (do clear setup; walkRoots setup) before ⟨⟩ after) :
    after.program = before.program ∧
      ∃ visits, Walked setup before.program visits after.output.components := by
  simp only [yields_bind, clear, yields_modify] at success
  obtain ⟨_, cleared, rfl, success⟩ := success
  obtain ⟨program_eq, walked⟩ := walkRoots_walked (components_seed _ _) success
  exact ⟨program_eq, walked⟩

/-- What a run knows about a type, told by the first of the visits to its instances. -/
structure Represents (setup : Setup) (program : Program) (visits : List Instance) (type : String)
    (first : Instance) (component : Component) : Prop where
  earliest : visits.find? (program.graph.componentName · == type) = some first
  resolved : Resolution.resolve setup.target setup.bindings program.graph first =
    some component.spec.properties
  name_eq : component.spec.componentName = type
  isPublic_eq : component.spec.isPublic =
    (program.rootInstances.map program.graph.componentName).contains type
  ids_eq : component.instances.items =
    ((Roster.visitsOf program.graph type visits).map (·.id)).eraseDups
  binding_eq : component.binding = setup.bindings.get? type

namespace Represents

variable {program : Program} {visits : List Instance} {type : String} {first : Instance}
  {component : Component}

theorem visited (represents : Represents setup program visits type first component) :
    first ∈ visits :=
  List.mem_of_find?_eq_some represents.earliest

theorem componentName_eq (represents : Represents setup program visits type first component) :
    program.graph.componentName first = type := by
  simpa using List.find?_some represents.earliest

theorem nodup_ids (represents : Represents setup program visits type first component) :
    component.instances.items.Nodup := by
  rw [represents.ids_eq]
  exact OrderedSet.nodup_eraseDups _

/-- The first instance is the first one on the record. -/
theorem head?_ids (represents : Represents setup program visits type first component) :
    component.instances.items.head? = some first.id := by
  have seen : (Roster.visitsOf program.graph type visits).head? = some first := by
    rw [Roster.visitsOf, List.head?_filter]
    exact represents.earliest
  obtain ⟨rest, split⟩ := List.head?_eq_some_iff.mp seen
  rw [represents.ids_eq, split, List.map_cons, List.eraseDups_cons, List.head?_cons]

end Represents

namespace Walked

variable {program : Program} {visits : List Instance} {components : Roster} {type : String}
  {first : Instance} {component : Component}

theorem keys_eq (walked : Walked setup program visits components) :
    components.keys = (visits.map program.graph.componentName).eraseDups := by
  rw [walked.components_eq, Roster.keys_ofVisits]

theorem nodup_keys (walked : Walked setup program visits components) : components.keys.Nodup := by
  rw [walked.keys_eq]
  exact OrderedSet.nodup_eraseDups _

/-- The type of a visited instance is listed. -/
theorem exists_get?_of_visited (walked : Walked setup program visits components) {inst : Instance}
    (visited : inst ∈ visits) :
    ∃ component, components.get? (program.graph.componentName inst) = some component := by
  rw [← Option.isSome_iff_exists, ← OrderedMap.mem_keys, walked.keys_eq, List.mem_eraseDups]
  exact List.mem_map_of_mem visited

theorem exists_represents (walked : Walked setup program visits components)
    (found : components.get? type = some component) :
    ∃ first, Represents setup program visits type first component := by
  rw [walked.components_eq] at found
  obtain ⟨first, rest, seen, rfl⟩ := Roster.exists_first_of_get? found
  have earliest : visits.find? (program.graph.componentName · == type) = some first := by
    rw [← List.head?_filter]
    change (Roster.visitsOf program.graph type visits).head? = some first
    rw [seen, List.head?_cons]
  obtain ⟨properties, resolved⟩ :=
    Option.isSome_iff_exists.mp (walked.resolves first (List.mem_of_find?_eq_some earliest))
  refine ⟨first, earliest, ?_, rfl, rfl, ?_, rfl⟩
  · rw [Resolution.resolved, resolved, Option.getD_some]
  · rw [seen, OrderedSet.items_ofList]

/-- The first instance that is met of a type represents it. -/
theorem represents_earliest (walked : Walked setup program visits components)
    (earliest : visits.find? (program.graph.componentName · == type) = some first) :
    ∃ component, components.get? type = some component ∧
      Represents setup program visits type first component := by
  obtain ⟨component, found⟩ := walked.exists_get?_of_visited (List.mem_of_find?_eq_some earliest)
  have sameType : program.graph.componentName first = type := by
    simpa using List.find?_some earliest
  rw [sameType] at found
  obtain ⟨other, represents⟩ := walked.exists_represents found
  have same := represents.earliest
  rw [earliest] at same
  cases same
  exact ⟨component, found, represents⟩

end Walked

section keyed

variable {program : Program} {visits : List Instance}

/-- All visits to a type that was met once are visits to the one instance. -/
theorem Represents.eq_of_single {type : String} {first inst : Instance} {component : Component}
    (keyed : program.graph.IsKeyed) (walk : program.graph.Preorder program.rootInstances visits)
    (represents : Represents setup program visits type first component)
    (single : component.instances.size = 1) (visited : inst ∈ visits) (type_eq : inst.type = type) :
    inst = first := by
  have on_record : ∀ other ∈ visits, other.type = type → other.id ∈ component.instances.items := by
    intro other member same
    rw [represents.ids_eq, keyed.visitsOf_eq, List.mem_eraseDups]
    exact List.mem_map_of_mem (List.mem_filter.mpr ⟨member, by simpa using same⟩)
  obtain ⟨id, only⟩ := List.length_eq_one_iff.mp single
  have inst_id := on_record inst visited type_eq
  have first_id := on_record first represents.visited
    ((keyed.componentName_eq first).symm.trans represents.componentName_eq)
  rw [only, List.mem_singleton] at inst_id first_id
  have inst_listed := keyed.get?_of_visited walk visited
  have first_listed := keyed.get?_of_visited walk represents.visited
  rw [inst_id] at inst_listed
  rw [first_id] at first_listed
  exact Option.some.inj (inst_listed.symm.trans first_listed)

/-- A listed type is one of the graph. -/
theorem Represents.isComponent {type : String} {first : Instance} {component : Component}
    (keyed : program.graph.IsKeyed)
    (represents : Represents setup program visits type first component) :
    program.graph.isComponent type = true := by
  have resolved := represents.resolved
  rw [Resolution.resolve_eq, Option.bind_eq_some_iff] at resolved
  obtain ⟨declared, found, _⟩ := resolved
  rw [← represents.componentName_eq, keyed.componentName_eq, Graph.isComponent,
    OrderedMap.contains_eq_isSome, found]
  rfl

end keyed

end Compilation

end DesignGraph
