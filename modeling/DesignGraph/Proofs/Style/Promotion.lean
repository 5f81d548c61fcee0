import DesignGraph.Proofs.OrderedMap
import DesignGraph.Proofs.OrderedSet
import DesignGraph.Style.Token

/-!
# What is promoted

The loops over the components and over their properties add one style variable for each promoted
property, in order. `promotedProperties` lists these properties. A variable holds what was promoted
last under its name, and it is flagged as a number once a number was.
-/

namespace DesignGraph.Style

/-- A promoted property with the type of its component. -/
structure Promoted where
  type : String
  name : String
  property : Property
  deriving DecidableEq

namespace Promoted

def token (promoted : Promoted) : String := tokenName promoted.type promoted.name

/-- Set the variable of a promoted property. -/
def set (styleVariables : OrderedMap String String) (promoted : Promoted) :
    OrderedMap String String :=
  styleVariables.insert promoted.token promoted.property.initializer

end Promoted

/-- The properties of one component that are promoted. -/
def promotedOf (scalarTypes : List String) (entry : String × Component) : List Promoted :=
  if entry.2.binding.isSome then []
  else
    (entry.2.spec.properties.entries.filter (scalarTypes.contains ·.2.type)).map
      fun given => ⟨entry.1, given.1, given.2⟩

/-- All properties that are promoted, in the order in which their variables are set. -/
def promotedProperties (scalarTypes : List String) (components : OrderedMap String Component) :
    List Promoted :=
  components.entries.flatMap (promotedOf scalarTypes)

variable {scalarTypes numberTypes : List String}

theorem mem_promotedProperties {components : OrderedMap String Component} {promoted : Promoted} :
    promoted ∈ promotedProperties scalarTypes components ↔
      ∃ component, (promoted.type, component) ∈ components.entries ∧ component.binding = none ∧
        (promoted.name, promoted.property) ∈ component.spec.properties.entries ∧
        promoted.property.type ∈ scalarTypes := by
  obtain ⟨type, name, property⟩ := promoted
  simp only [promotedProperties, List.mem_flatMap, promotedOf]
  constructor
  · rintro ⟨⟨owner, component⟩, listed, member⟩
    split_ifs at member with bound
    · cases member
    · obtain ⟨⟨key, found⟩, kept, ⟨⟩⟩ := List.mem_map.mp member
      obtain ⟨given, scalar⟩ := List.mem_filter.mp kept
      exact ⟨component, listed, by simpa using bound, given, by simpa using scalar⟩
  · rintro ⟨component, listed, unbound, given, scalar⟩
    refine ⟨(type, component), listed, ?_⟩
    rw [if_neg (by simp [unbound])]
    exact List.mem_map.mpr
      ⟨(name, property), List.mem_filter.mpr ⟨given, by simpa using scalar⟩, rfl⟩

/-- A scalar property of a class without a binding is promoted. -/
theorem mem_promotedProperties_of_get? {components : OrderedMap String Component}
    {type name : String} {component : Component} {property : Property}
    (listed : components.get? type = some component) (unbound : component.binding = none)
    (given : component.spec.properties.get? name = some property)
    (scalar : property.type ∈ scalarTypes) :
    ⟨type, name, property⟩ ∈ promotedProperties scalarTypes components :=
  mem_promotedProperties.mpr ⟨component, OrderedMap.mem_entries_of_get? listed, unbound,
    OrderedMap.mem_entries_of_get? given, scalar⟩

namespace Promotion

/-- The promotion of one more property. -/
def add (numberTypes : List String) (p : Promotion) (promoted : Promoted) : Promotion where
  styleVariables := promoted.set p.styleVariables
  numbers :=
    if numberTypes.contains promoted.property.type then p.numbers.insert promoted.token
    else p.numbers

private theorem addProperties_eq (type : String) (properties : List (String × Property))
    (p : Promotion) :
    properties.foldl (addProperty scalarTypes numberTypes type) p =
      ((properties.filter (scalarTypes.contains ·.2.type)).map
        fun given => ⟨type, given.1, given.2⟩).foldl (add numberTypes) p := by
  induction properties generalizing p with
  | nil => rfl
  | cons entry rest ih =>
    obtain ⟨name, property⟩ := entry
    rw [List.foldl_cons, ih]
    by_cases scalar : scalarTypes.contains property.type = true
    · rw [List.filter_cons_of_pos (by exact scalar), List.map_cons, List.foldl_cons]
      simp only [addProperty, scalar, if_true]
      rfl
    · rw [List.filter_cons_of_neg (by exact scalar)]
      simp only [addProperty, if_neg scalar]

private theorem addComponent_eq (p : Promotion) (entry : String × Component) :
    p.addComponent scalarTypes numberTypes entry =
      (promotedOf scalarTypes entry).foldl (add numberTypes) p := by
  obtain ⟨type, component⟩ := entry
  unfold addComponent promotedOf
  dsimp only
  split_ifs
  · rfl
  · exact addProperties_eq type _ p

private theorem addComponents_eq (components : List (String × Component)) (p : Promotion) :
    components.foldl (addComponent scalarTypes numberTypes) p =
      (components.flatMap (promotedOf scalarTypes)).foldl (add numberTypes) p := by
  induction components generalizing p with
  | nil => rfl
  | cons entry rest ih =>
    rw [List.foldl_cons, ih, addComponent_eq, List.flatMap_cons, List.foldl_append]

end Promotion

/-- The promotion goes through the promoted properties one after the other. -/
theorem promote_eq (components : OrderedMap String Component)
    (styleVariables : OrderedMap String String) :
    promote components styleVariables scalarTypes numberTypes =
      (promotedProperties scalarTypes components).foldl (Promotion.add numberTypes)
        ⟨styleVariables, ∅⟩ :=
  Promotion.addComponents_eq components.entries _

/-- The variables after the promotion: those there were, and over them one for each promoted
property. -/
theorem styleVariables_promote (components : OrderedMap String Component)
    (styleVariables : OrderedMap String String) :
    (promote components styleVariables scalarTypes numberTypes).styleVariables =
      (promotedProperties scalarTypes components).foldl Promoted.set styleVariables := by
  rw [promote_eq]
  exact (List.foldl_hom Promotion.styleVariables fun _ _ => rfl).symm

/-! ## What a variable holds -/

/-- The property whose initializer a variable holds: the last of those promoted under its name. -/
def holder? (promoted : List Promoted) (name : String) : Option Promoted :=
  promoted.reverse.find? (·.token == name)

/-- A variable holds a number. -/
def HoldsNumber (numberTypes : List String) (promoted : List Promoted) (name : String) : Prop :=
  ∃ holder, holder? promoted name = some holder ∧ holder.property.type ∈ numberTypes

/-- What the properties `done` have made of the variables that there were. -/
structure Promotion.After (numberTypes : List String) (initial : OrderedMap String String)
    (done : List Promoted) (p : Promotion) : Prop where
  held : ∀ name, p.styleVariables.get? name =
    ((holder? done name).map (·.property.initializer)).or (initial.get? name)
  flagged : ∀ name, name ∈ p.numbers.items ↔
    ∃ given ∈ done, given.token = name ∧ given.property.type ∈ numberTypes

theorem holder?_append_singleton (done : List Promoted) (promoted : Promoted) (name : String) :
    holder? (done ++ [promoted]) name =
      if promoted.token = name then some promoted else holder? done name := by
  rw [holder?, List.reverse_append, List.reverse_singleton, List.singleton_append]
  split_ifs with same
  · exact List.find?_cons_of_pos (by simpa using same)
  · exact List.find?_cons_of_neg (by simpa using same)

theorem Promotion.After.start (numberTypes : List String) (initial : OrderedMap String String) :
    After numberTypes initial [] ⟨initial, ∅⟩ :=
  ⟨fun _ => rfl, by simp [EmptyCollection.emptyCollection]⟩

/-- The variable of the new property holds it, and stays flagged if it has been. -/
theorem Promotion.After.step {initial : OrderedMap String String} {done : List Promoted}
    {p : Promotion} (reached : After numberTypes initial done p) (promoted : Promoted) :
    After numberTypes initial (done ++ [promoted]) (p.add numberTypes promoted) where
  held name := by
    rw [holder?_append_singleton]
    change (p.styleVariables.insert promoted.token promoted.property.initializer).get? name = _
    split_ifs with same
    · rw [← same, OrderedMap.get?_insert_self]
      rfl
    · rw [OrderedMap.get?_insert_of_ne _ _ (Ne.symm same), reached.held]
  flagged name := by
    simp only [List.mem_append, List.mem_singleton, or_and_right, exists_or, exists_eq_left,
      ← reached.flagged]
    unfold add
    by_cases number : promoted.property.type ∈ numberTypes
    · simp [number, OrderedSet.mem_insert, eq_comm]
    · simp [number]

theorem after_promote (components : OrderedMap String Component)
    (initial : OrderedMap String String) :
    Promotion.After numberTypes initial (promotedProperties scalarTypes components)
      (promote components initial scalarTypes numberTypes) := by
  rw [promote_eq]
  induction promotedProperties scalarTypes components using List.reverseRecOn with
  | nil => exact .start _ _
  | append_singleton done promoted ih =>
    rw [List.foldl_append]
    exact ih.step promoted

/-- A variable that holds a number is flagged. -/
theorem Promotion.After.flagged_of_holdsNumber {initial : OrderedMap String String}
    {done : List Promoted} {p : Promotion} (reached : After numberTypes initial done p)
    {name : String} (holds : HoldsNumber numberTypes done name) : name ∈ p.numbers.items := by
  obtain ⟨holder, found, number⟩ := holds
  have same : holder.token = name := by simpa using List.find?_some found
  have listed : holder ∈ done := List.mem_reverse.mp (List.mem_of_find?_eq_some found)
  exact (reached.flagged name).mpr ⟨holder, listed, same, number⟩

end DesignGraph.Style
