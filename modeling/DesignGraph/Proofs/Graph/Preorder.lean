import DesignGraph.Graph.Cycle
import Mathlib.Logic.Relation

/-!
# Visits in preorder

An instance refers to the instances that its component-typed properties hold, properties in declared
order and the elements of a collection in theirs. `Preorder waiting visits` says that going depth
first through the waiting instances visits these instances in this order; an instance that several
others hold is visited each time. Only a finite unfolding has visits, so what is visited lies on no
cycle (`not_transGen_self`), and the visits are exactly what the waiting instances reach
(`mem_visits_iff`).
-/

namespace DesignGraph.Graph

variable {graph : Graph}

/-- The instances among values that lie so many collections deep. -/
def heldIn (graph : Graph) (declaration : Declaration) (depth : Nat) (values : List Value) :
    List Instance :=
  if graph.isComponent declaration.type then (leaves depth values).filterMap graph.instance?
  else []

/-- The instances that one property of an instance holds. -/
def held (graph : Graph) (inst : Instance) (declaration : Declaration) : List Instance :=
  match inst.values.get? declaration.name with
  | none => []
  | some value => graph.heldIn declaration declaration.depth [value]

/-- The instances that an instance holds, property by property. -/
def nested (graph : Graph) (inst : Instance) : List Instance :=
  match graph.types.get? inst.type with
  | none => []
  | some type => type.properties.flatMap (graph.held inst)

def Holds (graph : Graph) (outer inner : Instance) : Prop := inner ∈ graph.nested outer

/-- `target` is `source`, or held by it at any depth. -/
def Reaches (graph : Graph) (source target : Instance) : Prop :=
  Relation.ReflTransGen graph.Holds source target

/-- The visits of a depth-first walk through the waiting instances. -/
inductive Preorder (graph : Graph) : (waiting visits : List Instance) → Prop
  | nil : Preorder graph [] []
  | cons {inst : Instance} {rest below after : List Instance}
      (inner : Preorder graph (graph.nested inst) below) (later : Preorder graph rest after) :
      Preorder graph (inst :: rest) (inst :: below ++ after)

/-- Every instance has its key as id, and every type its key as name. -/
structure IsKeyed (graph : Graph) : Prop where
  id_eq : ∀ {id : String} {inst : Instance}, graph.instances.get? id = some inst → inst.id = id
  name_eq : ∀ {name : String} {type : ComponentType},
    graph.types.get? name = some type → type.name = name

theorem leaves_nil (depth : Nat) : leaves depth [] = [] := by
  cases depth <;> rfl

theorem leaves_succ (depth : Nat) (values : List Value) :
    leaves (depth + 1) values = leaves depth (elements values) := by
  cases values with
  | nil => exact (leaves_nil depth).symm
  | cons value rest => rfl

theorem leaves_append (depth : Nat) (first second : List Value) :
    leaves depth (first ++ second) = leaves depth first ++ leaves depth second := by
  induction depth generalizing first second with
  | zero => rfl
  | succ depth ih =>
    rw [leaves_succ, leaves_succ, leaves_succ, ← ih]
    simp [elements]

section heldIn

variable (graph) (declaration : Declaration) (depth : Nat)

theorem heldIn_nil : graph.heldIn declaration depth [] = [] := by
  simp [heldIn, leaves_nil]

theorem heldIn_cons (value : Value) (rest : List Value) :
    graph.heldIn declaration depth (value :: rest) =
      graph.heldIn declaration depth [value] ++ graph.heldIn declaration depth rest := by
  have split := leaves_append depth [value] rest
  rw [List.singleton_append] at split
  by_cases component : graph.isComponent declaration.type
  · simp [heldIn, component, split]
  · simp [heldIn, component]

/-- Going into a list is going into its elements one after the other. -/
theorem heldIn_list (items : List Value) :
    graph.heldIn declaration (depth + 1) [.list items] = graph.heldIn declaration depth items := by
  simp [heldIn, leaves_succ, elements]

theorem heldIn_not_list (value : Value) (different : ∀ items, value ≠ .list items) :
    graph.heldIn declaration (depth + 1) [value] = [] := by
  cases value with
  | list items => exact absurd rfl (different items)
  | _ => simp [heldIn, leaves_succ, elements, leaves_nil]

end heldIn

theorem mem_heldIn {declaration : Declaration} {depth : Nat} {values : List Value}
    {inst : Instance} : inst ∈ graph.heldIn declaration depth values ↔
      graph.isComponent declaration.type ∧
        ∃ leaf ∈ leaves depth values, graph.instance? leaf = some inst := by
  unfold heldIn
  by_cases component : graph.isComponent declaration.type
  · simp [component]
  · simp [component]

/-- An instance is held through a declared property whose value leads to it. -/
theorem holds_iff {outer inner : Instance} : graph.Holds outer inner ↔
    ∃ type, graph.types.get? outer.type = some type ∧ ∃ declaration ∈ type.properties,
      ∃ value, outer.values.get? declaration.name = some value ∧
        inner ∈ graph.heldIn declaration declaration.depth [value] := by
  unfold Holds nested
  cases found : graph.types.get? outer.type with
  | none => simp
  | some type =>
    simp only [List.mem_flatMap, Option.some.injEq, exists_eq_left', held]
    refine exists_congr fun declaration => and_congr_right fun _ => ?_
    cases outer.values.get? declaration.name with
    | none => simp
    | some value => simp

/-- A value that leads to an instance leads to one of the graph. -/
theorem exists_get?_of_instance? {value : Value} {inst : Instance}
    (found : graph.instance? value = some inst) :
    ∃ id, graph.instances.get? id = some inst := by
  cases value with
  | text id => exact ⟨id, found⟩
  | _ => simp [instance?] at found

namespace Preorder

theorem append {first second left right : List Instance} (before : Preorder graph first left)
    (after : Preorder graph second right) : Preorder graph (first ++ second) (left ++ right) := by
  induction before with
  | nil => exact after
  | cons inner _ _ ih =>
    rw [List.cons_append, List.append_assoc]
    exact .cons inner ih

theorem single {inst : Instance} {below : List Instance}
    (inner : Preorder graph (graph.nested inst) below) : Preorder graph [inst] (inst :: below) := by
  simpa using Preorder.cons inner .nil

/-- Where what is waiting falls apart, so do the visits. -/
theorem split {first second visits : List Instance}
    (walk : Preorder graph (first ++ second) visits) :
    ∃ left right, visits = left ++ right ∧ Preorder graph first left ∧
      Preorder graph second right := by
  induction first generalizing visits with
  | nil => exact ⟨[], visits, rfl, .nil, walk⟩
  | cons root rest ih =>
    cases walk with
    | cons inner later =>
      obtain ⟨left, right, rfl, leftWalk, rightWalk⟩ := ih later
      exact ⟨_, right, (List.append_assoc _ left right).symm, .cons inner leftWalk, rightWalk⟩

/-- The visits are determined by what is waiting. -/
theorem unique {waiting first second : List Instance} (left : Preorder graph waiting first)
    (right : Preorder graph waiting second) : first = second := by
  induction left generalizing second with
  | nil => cases right; rfl
  | cons _ _ ihInner ihLater =>
    cases right with
    | cons inner later => rw [ihInner inner, ihLater later]

theorem mem_of_waiting {waiting visits : List Instance} (walk : Preorder graph waiting visits)
    {inst : Instance} (member : inst ∈ waiting) : inst ∈ visits := by
  induction walk with
  | nil => cases member
  | cons _ _ _ ih =>
    rcases List.mem_cons.mp member with rfl | member
    · simp
    · simp [ih member]

/-- What a visited instance holds is visited. -/
theorem closed {waiting visits : List Instance} (walk : Preorder graph waiting visits)
    {outer inner : Instance} (visited : outer ∈ visits) (holds : graph.Holds outer inner) :
    inner ∈ visits := by
  induction walk with
  | nil => cases visited
  | cons below _ ihBelow ihLater =>
    simp only [List.cons_append, List.mem_cons, List.mem_append] at visited ⊢
    rcases visited with rfl | visited | visited
    · exact .inr (.inl (below.mem_of_waiting holds))
    · exact .inr (.inl (ihBelow visited))
    · exact .inr (.inr (ihLater visited))

theorem mem_visits_iff {waiting visits : List Instance} (walk : Preorder graph waiting visits)
    (inst : Instance) : inst ∈ visits ↔ ∃ start ∈ waiting, graph.Reaches start inst := by
  constructor
  · intro visited
    induction walk with
    | nil => cases visited
    | @cons root rest below after _ _ ihBelow ihLater =>
      simp only [List.cons_append, List.mem_cons, List.mem_append] at visited
      rcases visited with rfl | visited | visited
      · exact ⟨inst, by simp, .refl⟩
      · obtain ⟨start, holds, reached⟩ := ihBelow visited
        exact ⟨root, by simp, .head holds reached⟩
      · obtain ⟨start, member, reached⟩ := ihLater visited
        exact ⟨start, by simp [member], reached⟩
  · rintro ⟨start, member, reached⟩
    induction reached with
    | refl => exact walk.mem_of_waiting member
    | tail _ holds ih => exact walk.closed ih holds

/-- The first visit that passes a test is that of a waiting instance which passes it, unless what
waits before it reaches another one. -/
theorem find?_eq_waiting {earlier later visits : List Instance} {inst : Instance}
    {test : Instance → Bool} (walk : Preorder graph (earlier ++ inst :: later) visits)
    (passes : test inst = true)
    (alone : ∀ start ∈ earlier, ∀ other, graph.Reaches start other → test other = true →
      other = inst) :
    visits.find? test = some inst := by
  obtain ⟨left, right, rfl, leftWalk, rightWalk⟩ := walk.split
  rw [List.find?_append]
  cases found : left.find? test with
  | none =>
    cases rightWalk with
    | cons inner rest => simp [passes]
  | some other =>
    obtain ⟨start, member, reached⟩ :=
      (leftWalk.mem_visits_iff other).mp (List.mem_of_find?_eq_some found)
    rw [alone start member other reached (List.find?_some found)]
    rfl

/-- Nothing that is visited lies on a cycle, since its unfolding is finite. -/
theorem not_transGen_self {waiting visits : List Instance} (walk : Preorder graph waiting visits)
    {inst : Instance} (visited : inst ∈ visits) : ¬ Relation.TransGen graph.Holds inst inst := by
  intro cycle
  induction walk generalizing inst with
  | nil => cases visited
  | cons below _ ihBelow ihLater =>
    simp only [List.cons_append, List.mem_cons, List.mem_append] at visited
    rcases visited with rfl | visited | visited
    · -- The next instance on the cycle is visited below, and lies on the same cycle.
      obtain ⟨inner, holds, back⟩ := Relation.TransGen.head'_iff.mp cycle
      exact ihBelow (below.mem_of_waiting holds) (.tail' back holds)
    · exact ihBelow visited cycle
    · exact ihLater visited cycle

end Preorder

end DesignGraph.Graph
