import DesignGraph.Proofs.Compile.Resolution
import DesignGraph.Proofs.OrderedMap
import DesignGraph.Proofs.OrderedSet

/-!
# The roster of components

What a walk leaves in its output, said of the visits alone. `meet` counts one visit: the first
instance of a type gives the type its resolution and its binding, and every later one only adds its
id. `meetAll` counts a list of visits, and `get?_meetAll` reads its result off the list. Changes to
the spec of a type that is already listed (`amend`) commute with further visits, which is why it
does not matter that a walk fills in the spec of a type while it visits other instances.
-/

namespace DesignGraph

/-- The components that have been met, by type. -/
abbrev Roster := OrderedMap String Component

namespace Roster

/-- Change the spec of a listed type. -/
def amend (type : String) (change : Spec → Spec) (roster : Roster) : Roster :=
  match roster.get? type with
  | none => roster
  | some component => roster.insert type { component with spec := change component.spec }

/-- Give a listed type its properties. -/
def fill (type : String) (properties : OrderedMap String Property) : Roster → Roster :=
  amend type fun spec => { spec with properties := properties }

/-- Make a listed type public, if it is to be. -/
def publish (type : String) (isPublic : Bool) : Roster → Roster :=
  amend type fun spec => { spec with isPublic := spec.isPublic || isPublic }

section amend

variable {type : String} {change : Spec → Spec} {roster : Roster}

theorem amend_of_get? {component : Component} (found : roster.get? type = some component) :
    amend type change roster =
      roster.insert type { component with spec := change component.spec } := by
  simp only [amend, found]

theorem amend_of_none (absent : roster.get? type = none) : amend type change roster = roster := by
  simp only [amend, absent]

theorem get?_amend (type other : String) (change : Spec → Spec) (roster : Roster) :
    (amend type change roster).get? other =
      (roster.get? other).map fun component =>
        if other = type then { component with spec := change component.spec } else component := by
  cases found : roster.get? type with
  | none =>
    rw [amend_of_none found]
    by_cases same : other = type
    · rw [same, found]
      rfl
    · simp [same]
  | some component =>
    rw [amend_of_get? found]
    by_cases same : other = type
    · subst other
      simp [found]
    · rw [OrderedMap.get?_insert_of_ne _ _ same]
      simp [same]

@[simp] theorem keys_amend (type : String) (change : Spec → Spec) (roster : Roster) :
    (amend type change roster).keys = roster.keys := by
  cases found : roster.get? type with
  | none => rw [amend_of_none found]
  | some component =>
    rw [amend_of_get? found]
    exact OrderedMap.keys_insert_of_mem _ (OrderedMap.mem_keys_of_get? found)

theorem amend_amend (type : String) (first second : Spec → Spec) (roster : Roster) :
    amend type second (amend type first roster) =
      amend type (fun spec => second (first spec)) roster := by
  cases found : roster.get? type with
  | none => simp only [amend, found]
  | some component =>
    have changed := get?_amend type type first roster
    rw [found, Option.map_some, if_pos rfl] at changed
    rw [amend_of_get? changed, amend_of_get? found, amend_of_get? found,
      OrderedMap.insert_insert]

theorem amend_eq_self {component : Component} (found : roster.get? type = some component)
    (same : change component.spec = component.spec) : amend type change roster = roster := by
  rw [amend_of_get? found, same]
  exact OrderedMap.insert_of_get? found

theorem components_changeComponent (output : Output) (type : String) (change : Spec → Spec) :
    (output.changeComponent type fun component =>
      { component with spec := change component.spec }).components =
        amend type change output.components := by
  unfold Output.changeComponent amend
  cases output.components.get? type <;> rfl

end amend

variable (setup : Setup) (graph : Graph)

/-- Count one visit. -/
def meet (roster : Roster) (inst : Instance) : Roster :=
  let type := graph.componentName inst
  let component := (roster.get? type).getD
    { spec := { componentName := type
                properties := Resolution.resolved setup.target setup.bindings graph inst }
      binding := setup.bindings.get? type }
  roster.insert type { component with instances := component.instances.insert inst.id }

/-- Count visits one after the other. -/
def meetAll (roster : Roster) (visits : List Instance) : Roster :=
  visits.foldl (meet setup graph) roster

variable {setup graph}

theorem meetAll_cons (roster : Roster) (inst : Instance) (rest : List Instance) :
    meetAll setup graph roster (inst :: rest) =
      meetAll setup graph (meet setup graph roster inst) rest := rfl

theorem meetAll_append (roster : Roster) (first second : List Instance) :
    meetAll setup graph roster (first ++ second) =
      meetAll setup graph (meetAll setup graph roster first) second :=
  List.foldl_append

theorem meet_of_get? {roster : Roster} {inst : Instance} {component : Component}
    (found : roster.get? (graph.componentName inst) = some component) :
    meet setup graph roster inst = roster.insert (graph.componentName inst)
      { component with instances := component.instances.insert inst.id } := by
  simp only [meet, found, Option.getD_some]

/-- A visit changes neither the spec nor the binding of a listed type. -/
theorem get?_meet_of_get? (setup : Setup) (graph : Graph) {roster : Roster} {type : String}
    {component : Component} (found : roster.get? type = some component) (inst : Instance) :
    ∃ later, (meet setup graph roster inst).get? type = some later ∧
      later.spec = component.spec ∧ later.binding = component.binding := by
  by_cases same : type = graph.componentName inst
  · subst type
    rw [meet_of_get? found]
    exact ⟨_, OrderedMap.get?_insert_self _ _ _, rfl, rfl⟩
  · exact ⟨component, by rw [meet, OrderedMap.get?_insert_of_ne _ _ same, found], rfl, rfl⟩

theorem get?_meetAll_of_get? (setup : Setup) (graph : Graph) {roster : Roster} {type : String}
    {component : Component} (found : roster.get? type = some component)
    (visits : List Instance) :
    ∃ later, (meetAll setup graph roster visits).get? type = some later ∧
      later.spec = component.spec ∧ later.binding = component.binding := by
  induction visits generalizing roster component with
  | nil => exact ⟨component, found, rfl, rfl⟩
  | cons inst rest ih =>
    obtain ⟨next, met, sameSpec, sameBinding⟩ := get?_meet_of_get? setup graph found inst
    obtain ⟨later, kept, laterSpec, laterBinding⟩ := ih met
    exact ⟨later, kept, laterSpec.trans sameSpec, laterBinding.trans sameBinding⟩

/-- Whether a listed type is amended before or after a visit makes no difference. -/
theorem amend_meet {roster : Roster} {type : String} (listed : type ∈ roster.keys)
    (change : Spec → Spec) (inst : Instance) :
    amend type change (meet setup graph roster inst) =
      meet setup graph (amend type change roster) inst := by
  obtain ⟨component, found⟩ := Option.isSome_iff_exists.mp ((OrderedMap.mem_keys _ _).mp listed)
  rw [amend_of_get? found]
  by_cases same : type = graph.componentName inst
  · subst type
    rw [meet_of_get? found, amend_of_get? (OrderedMap.get?_insert_self _ _ _),
      meet_of_get? (OrderedMap.get?_insert_self _ _ _), OrderedMap.insert_insert,
      OrderedMap.insert_insert]
  · have kept : (meet setup graph roster inst).get? type = some component := by
      rw [meet, OrderedMap.get?_insert_of_ne _ _ same, found]
    rw [amend_of_get? kept]
    simp only [meet, OrderedMap.get?_insert_of_ne _ _ (Ne.symm same)]
    rw [OrderedMap.insert_comm _ _ listed same]

theorem mem_keys_meet {roster : Roster} {type : String} (listed : type ∈ roster.keys)
    (inst : Instance) : type ∈ (meet setup graph roster inst).keys := by
  obtain ⟨component, found⟩ := Option.isSome_iff_exists.mp ((OrderedMap.mem_keys _ _).mp listed)
  obtain ⟨later, kept, -⟩ := get?_meet_of_get? setup graph found inst
  exact OrderedMap.mem_keys_of_get? kept

theorem mem_keys_meet_self (roster : Roster) (inst : Instance) :
    graph.componentName inst ∈ (meet setup graph roster inst).keys :=
  OrderedMap.mem_keys_of_get? (OrderedMap.get?_insert_self _ _ _)

theorem mem_keys_meetAll {roster : Roster} {visits : List Instance} {inst : Instance}
    (member : inst ∈ visits) :
    graph.componentName inst ∈ (meetAll setup graph roster visits).keys := by
  induction visits generalizing roster with
  | nil => cases member
  | cons first rest ih =>
    rcases List.mem_cons.mp member with rfl | member
    · obtain ⟨component, found⟩ :=
        Option.isSome_iff_exists.mp ((OrderedMap.mem_keys _ _).mp (mem_keys_meet_self roster inst))
      obtain ⟨later, kept, -⟩ := get?_meetAll_of_get? setup graph found rest
      exact OrderedMap.mem_keys_of_get? kept
    · exact ih member

theorem amend_meetAll {roster : Roster} {type : String} (listed : type ∈ roster.keys)
    (change : Spec → Spec) (visits : List Instance) :
    amend type change (meetAll setup graph roster visits) =
      meetAll setup graph (amend type change roster) visits := by
  induction visits generalizing roster with
  | nil => rfl
  | cons inst rest ih =>
    rw [meetAll_cons, meetAll_cons, ih (mem_keys_meet listed inst), amend_meet listed]

theorem meetAll_append_singleton (roster : Roster) (visits : List Instance) (inst : Instance) :
    meetAll setup graph roster (visits ++ [inst]) =
      meet setup graph (meetAll setup graph roster visits) inst :=
  meetAll_append roster visits [inst]

section settle

variable {type : String} {isFirst : Bool} {done result : OrderedMap String Property}
  {roster : Roster}

/-- What the walk of the first instance of a type does to the spec of the type. -/
def settle (isFirst : Bool) (type : String) (properties : OrderedMap String Property)
    (roster : Roster) : Roster :=
  if isFirst then fill type properties roster else roster

/-- If these are the properties of a first instance, the spec of its type has them. -/
def Filled (isFirst : Bool) (type : String) (done : OrderedMap String Property)
    (roster : Roster) : Prop :=
  isFirst = true → ∃ component, roster.get? type = some component ∧
    component.spec.properties = done

theorem Filled.listed (filled : Filled isFirst type done roster) (first : isFirst = true) :
    type ∈ roster.keys := by
  obtain ⟨component, found, -⟩ := filled first
  exact OrderedMap.mem_keys_of_get? found

theorem Filled.after_visits (filled : Filled isFirst type done roster) (graph : Graph)
    (visits : List Instance) : Filled isFirst type done (meetAll setup graph roster visits) := by
  intro first
  obtain ⟨component, found, properties_eq⟩ := filled first
  obtain ⟨later, kept, same, -⟩ := get?_meetAll_of_get? setup graph found visits
  exact ⟨later, kept, by rw [same, properties_eq]⟩

theorem Filled.settle_eq (filled : Filled isFirst type done roster) :
    settle isFirst type done roster = roster := by
  cases isFirst with
  | false => rfl
  | true =>
    obtain ⟨component, found, rfl⟩ := filled rfl
    simp only [settle, if_true, fill]
    exact amend_eq_self found rfl

theorem filled_settle (filled : Filled isFirst type done roster) :
    Filled isFirst type result (settle isFirst type result roster) := by
  intro first
  obtain ⟨component, found, -⟩ := filled first
  refine ⟨{ component with spec := { component.spec with properties := result } }, ?_, rfl⟩
  rw [settle, if_pos first, fill, get?_amend, found]
  simp

/-- Later properties take the place of earlier ones. -/
theorem settle_settle (early late : OrderedMap String Property) (roster : Roster) :
    settle isFirst type late (settle isFirst type early roster) =
      settle isFirst type late roster := by
  cases isFirst with
  | false => rfl
  | true =>
    simp only [settle, if_true, fill]
    rw [amend_amend]

/-- It makes no difference whether a spec is settled before or after other visits. -/
theorem settle_meetAll (filled : Filled isFirst type done roster) (graph : Graph)
    (properties : OrderedMap String Property) (visits : List Instance) :
    settle isFirst type properties (meetAll setup graph roster visits) =
      meetAll setup graph (settle isFirst type properties roster) visits := by
  cases isFirst with
  | false => rfl
  | true =>
    simp only [settle, if_true, fill]
    rw [amend_meetAll (filled.listed rfl)]

end settle

/-- Make the listed ones among these types public. -/
def publishAll (types : List String) (roster : Roster) : Roster :=
  types.foldl (fun roster type => publish type true roster) roster

theorem publish_false (type : String) (roster : Roster) : publish type false roster = roster := by
  cases found : roster.get? type with
  | none => exact amend_of_none found
  | some component => exact amend_eq_self found (by simp)

@[simp] theorem keys_publishAll (types : List String) (roster : Roster) :
    (publishAll types roster).keys = roster.keys := by
  induction types generalizing roster with
  | nil => rfl
  | cons type rest ih => exact (ih (publish type true roster)).trans (keys_amend _ _ _)

theorem get?_publishAll (types : List String) (roster : Roster) (type : String) :
    (publishAll types roster).get? type = (roster.get? type).map fun component =>
      { component with spec := { component.spec with
        isPublic := component.spec.isPublic || types.contains type } } := by
  induction types generalizing roster with
  | nil => simp [publishAll]
  | cons first rest ih =>
    change (publishAll rest (publish first true roster)).get? type = _
    rw [ih, publish, get?_amend, Option.map_map]
    congr 1
    funext component
    by_cases same : type = first
    · simp [same]
    · simp [same]

/-- The visits to the instances of one type. -/
def visitsOf (graph : Graph) (type : String) (visits : List Instance) : List Instance :=
  visits.filter fun inst => graph.componentName inst == type

/-- The component of a type, from the visits to its instances. -/
def componentOf (setup : Setup) (graph : Graph) (type : String) :
    (visits : List Instance) → Option Component
  | [] => none
  | first :: rest => some {
      spec := { componentName := type
                properties := Resolution.resolved setup.target setup.bindings graph first }
      instances := .ofList ((first :: rest).map (·.id))
      binding := setup.bindings.get? type }

private theorem componentOf_append_singleton (type : String) (visits : List Instance)
    (inst : Instance) :
    componentOf setup graph type (visits ++ [inst]) =
      let component := (componentOf setup graph type visits).getD
        { spec := { componentName := type
                    properties := Resolution.resolved setup.target setup.bindings graph inst }
          binding := setup.bindings.get? type }
      some { component with instances := component.instances.insert inst.id } := by
  cases visits with
  | nil => rfl
  | cons first rest =>
    have grown := OrderedSet.ofList_append_singleton ((first :: rest).map (·.id)) inst.id
    simp only [List.cons_append, componentOf, Option.getD_some, ← grown]
    simp

/-- What a list of visits makes of every type. -/
theorem get?_meetAll (type : String) (visits : List Instance) :
    (meetAll setup graph ∅ visits).get? type =
      componentOf setup graph type (visitsOf graph type visits) := by
  induction visits using List.reverseRecOn with
  | nil => rfl
  | append_singleton visits inst ih =>
    rw [meetAll_append_singleton]
    by_cases same : graph.componentName inst = type
    · subst type
      have grown : visitsOf graph (graph.componentName inst) (visits ++ [inst]) =
          visitsOf graph (graph.componentName inst) visits ++ [inst] := by simp [visitsOf]
      simp only [grown, componentOf_append_singleton, meet, OrderedMap.get?_insert_self, ih]
    · have kept : visitsOf graph type (visits ++ [inst]) = visitsOf graph type visits := by
        simp [visitsOf, same]
      rw [meet, OrderedMap.get?_insert_of_ne _ _ (Ne.symm same), ih, kept]

/-- The types are listed in the order of their first visits. -/
theorem keys_meetAll (visits : List Instance) :
    (meetAll setup graph ∅ visits).keys = (visits.map graph.componentName).eraseDups := by
  rw [← OrderedSet.items_ofList]
  induction visits using List.reverseRecOn with
  | nil => rfl
  | append_singleton visits inst ih =>
    rw [meetAll_append_singleton, List.map_append, List.map_singleton,
      OrderedSet.ofList_append_singleton, meet, OrderedMap.keys_insert, ih]

/-- The components after the visits from these roots. -/
def ofVisits (setup : Setup) (graph : Graph) (roots visits : List Instance) : Roster :=
  publishAll (roots.map graph.componentName) (meetAll setup graph ∅ visits)

theorem keys_ofVisits (roots visits : List Instance) :
    (ofVisits setup graph roots visits).keys = (visits.map graph.componentName).eraseDups := by
  rw [ofVisits, keys_publishAll, keys_meetAll]

/-- A listed component is told by the visits to its type. -/
theorem exists_first_of_get? {roots visits : List Instance} {type : String} {component : Component}
    (found : (ofVisits setup graph roots visits).get? type = some component) :
    ∃ first rest, visitsOf graph type visits = first :: rest ∧ component = {
      spec := {
        componentName := type
        properties := Resolution.resolved setup.target setup.bindings graph first
        isPublic := (roots.map graph.componentName).contains type }
      instances := .ofList ((first :: rest).map (·.id))
      binding := setup.bindings.get? type } := by
  rw [ofVisits, get?_publishAll, get?_meetAll] at found
  cases seen : visitsOf graph type visits with
  | nil => simp [seen, componentOf] at found
  | cons first rest =>
    simp only [seen, componentOf, Option.map_some, Bool.false_or, Option.some.injEq] at found
    exact ⟨first, rest, rfl, found.symm⟩

end Roster

end DesignGraph
