import DesignGraph.Proofs.OrderedSet.Order
import Mathlib.Data.List.Infix
import Mathlib.Data.Set.Basic

/-!
# Ordered sets under every history

One operation does to the elements of a set what the algebra of sets says, keeps what stays in its
order and puts what is new behind it, in the order of arrival (`Takes`). A history of operations is
told from that: what has been in the set all the while comes first, in its old order, and behind it
comes what has arrived since, be it for the first time or again.
-/

namespace DesignGraph.OrderedSet

variable {α : Type} [BEq α] {s t : OrderedSet α} {a : α} {given : List α}

/-- An operation that changes a set in place. A collection is given by what it yields, in order. -/
inductive Operation (α : Type) where
  | add (a : α)
  | discard (a : α)
  | remove (a : α)
  | pop
  | clear
  | addAll (given : List α)
  | retain (given : List α)
  | discardAll (given : List α)
  | toggleAll (given : List α)

/-- Everything that is equal to an element of a list. -/
def alike (given : List α) : Set α := {a | (OrderedSet.mk given).contains a = true}

def elements (s : OrderedSet α) : Set α := alike s.items

namespace Operation

/-- The set after an operation that is not refused. -/
def perform? (s : OrderedSet α) : Operation α → Option (OrderedSet α)
  | add a => some (s.insert a)
  | discard a => some (s.erase a)
  | remove a => s.remove? a
  | pop => s.popFirst?.map Prod.snd
  | clear => some ∅
  | addAll given => some (s.insertAll given)
  | retain given => some (s.retain (ofList given))
  | discardAll given => some (s.eraseAll given)
  | toggleAll given => some (s.toggleAll (ofList given))

/-- An operation in the algebra of sets. What is popped is the `oldest` element. -/
def onSet (oldest : Option α) (present : Set α) : Operation α → Set α
  | add a => present ∪ alike [a]
  | discard a | remove a => present \ alike [a]
  | pop => present \ alike oldest.toList
  | clear => ∅
  | addAll given => present ∪ alike given
  | retain given => present ∩ alike given
  | discardAll given => present \ alike given
  | toggleAll given => (present \ alike given) ∪ (alike given \ present)

/-- The elements that an operation brings, in the order in which they arrive. -/
def brought : Operation α → List α
  | add a => [a]
  | addAll given | toggleAll given => given
  | _ => []

/-- What is refused: to remove what is not there, and to pop from a set without elements. -/
def Misses (present : Set α) : Operation α → Prop
  | remove a => a ∉ present
  | pop => present = ∅
  | _ => False

/-- Whether an operation leaves an element that is there where it is. -/
def leaves (oldest : Option α) : Operation α → α → Bool
  | add _, _ | addAll _, _ => true
  | discard a, b | remove a, b => !(a == b)
  | pop, b => !(OrderedSet.mk oldest.toList).contains b
  | clear, _ => false
  | retain given, b => (OrderedSet.mk given).contains b
  | discardAll given, b | toggleAll given, b => !(OrderedSet.mk given).contains b

end Operation

/-- The set after an operation. One that is refused changes nothing. -/
def after (s : OrderedSet α) (op : Operation α) : OrderedSet α := (op.perform? s).getD s

/-- The set after operations one after the other. -/
def run (s : OrderedSet α) (ops : List (Operation α)) : OrderedSet α := ops.foldl after s

/-- Whether an element is in the set at first and after each of the operations. -/
def stays (s : OrderedSet α) (ops : List (Operation α)) (a : α) : Bool :=
  ops.inits.all fun done => (s.run done).contains a

/-- What one operation makes of a set. -/
structure Takes (op : Operation α) (s t : OrderedSet α) : Prop where
  distinct : t.IsDistinct
  elements : t.elements = op.onSet s.items.head? s.elements
  order : t.items = s.items.filter t.contains ++ op.brought.eraseDups.filter fun a => !s.contains a
  refused : op.perform? s = none ↔ op.Misses s.elements

/-- What the operations on two sets give. -/
structure Combines (s t : OrderedSet α) : Prop where
  union : (s.union t).items = s.items ++ t.items.filter fun a => !s.contains a
  inter : (s.inter t).items = t.items.filter s.contains
  diff : (s.diff t).items = s.items.filter fun a => !t.contains a
  symmDiff : (s.symmDiff t).items = (s.diff t).items ++ (t.diff s).items
  elements : (s.union t).elements = s.elements ∪ t.elements ∧
    (s.inter t).elements = s.elements ∩ t.elements ∧
    (s.diff t).elements = s.elements \ t.elements ∧
    (s.symmDiff t).elements = (s.elements \ t.elements) ∪ (t.elements \ s.elements)

/-- A set that keeps its elements in the order of arrival, whatever is done to it. -/
structure KeepsOrder (s : OrderedSet α) : Prop where
  distinct : s.IsDistinct
  takes : ∀ op, Takes op s (s.after op)
  /-- What stays keeps its order, and what arrives meanwhile stands behind it, also if it was there
  before. -/
  arrivals : ∀ ops, ∃ arrived, (s.run ops).items = s.items.filter (s.stays ops) ++ arrived ∧
    ∀ a ∈ arrived, s.stays ops a = false
  present : ∀ a, s.contains a = true → s.after (.add a) = s
  /-- What is taken out and put in again goes to the end. -/
  again : ∀ a, ((s.after (.discard a)).after (.add a)).items =
    (s.items.filter fun b => !(b == a)) ++ [a]
  pops : ∀ a rest, s.items = a :: rest → s.popFirst? = some (a, ⟨rest⟩)
  combines : ∀ other, Combines s (ofList other)

/-! ## One operation -/

theorem mem_elements : a ∈ s.elements ↔ s.contains a = true := Iff.rfl

theorem mem_alike : a ∈ alike given ↔ (OrderedSet.mk given).contains a = true := Iff.rfl

theorem after_remove (s : OrderedSet α) (a : α) : s.after (.remove a) = s.erase a := by
  cases present : s.contains a with
  | true => simp [after, Operation.perform?, remove?, present]
  | false => simp [after, Operation.perform?, remove?, present, erase_of_absent present]

variable [EquivBEq α]

theorem contains_eraseDups (given : List α) (a : α) :
    (OrderedSet.mk given.eraseDups).contains a = (OrderedSet.mk given).contains a := by
  rw [← items_ofList]
  exact contains_ofList given a

theorem Operation.respects_leaves (oldest : Option α) (op : Operation α) :
    Respects (op.leaves oldest) := by
  cases op with
  | add _ | addAll _ | clear => exact fun _ _ _ => rfl
  | discard a | remove a => exact fun b c same => congrArg Bool.not (BEq.congr_right same)
  | pop | discardAll given | toggleAll given => exact (respects_contains _).not
  | retain given => exact respects_contains _

theorem after_pop (s : OrderedSet α) :
    (s.after .pop).items = s.items.filter (Operation.pop.leaves s.items.head?) := by
  obtain ⟨items⟩ := s
  cases items with
  | nil => rfl
  | cons b rest =>
    have popped : (OrderedSet.mk (b :: rest)).after .pop = (OrderedSet.mk (b :: rest)).erase b :=
      rfl
    have alone : ∀ c, Operation.pop.leaves (some b) c = !(c == b) := by
      intro c
      change (!(OrderedSet.mk [b]).contains c) = _
      rw [contains_singleton, BEq.comm]
    rw [popped, List.head?_cons]
    exact List.filter_congr fun c _ => (alone c).symm

/-- The set after an operation, as a list: what is left where it is, and what is new. -/
theorem items_after (s : OrderedSet α) (op : Operation α) :
    (s.after op).items = s.items.filter (op.leaves s.items.head?) ++
      op.brought.eraseDups.filter fun a => !s.contains a := by
  have all : s.items.filter (fun _ => true) = s.items := List.filter_eq_self.mpr fun _ _ => rfl
  have fresh := filter_eraseDups (respects_contains s).not
  have without : ∀ a, s.items.filter (fun b => !(b == a)) = s.items.filter fun b => !(a == b) := by
    intro a
    simp only [BEq.comm]
  cases op with
  | add a =>
    change (s.insertAll [a]).items = s.items.filter (fun _ => true) ++ _
    rw [items_insertAll, all, fresh]
    rfl
  | addAll given =>
    change (s.insertAll given).items = s.items.filter (fun _ => true) ++ _
    rw [items_insertAll, all, fresh]
    rfl
  | discard a => exact (without a).trans (List.append_nil _).symm
  | remove a =>
    rw [after_remove]
    exact (without a).trans (List.append_nil _).symm
  | pop =>
    rw [after_pop]
    exact (List.append_nil _).symm
  | clear =>
    change ([] : List α) = s.items.filter (fun _ => false) ++ []
    simp
  | retain given =>
    change (s.retain (ofList given)).items = _ ++ []
    rw [items_retain, List.append_nil]
    exact List.filter_congr fun a _ => contains_ofList given a
  | discardAll given =>
    change (s.eraseAll given).items = _ ++ []
    rw [items_eraseAll, List.append_nil]
    rfl
  | toggleAll given =>
    change (s.toggleAll (ofList given)).items = _
    rw [items_toggleAll s (isDistinct_ofList given), items_ofList]
    congr 1
    refine List.filter_congr fun a _ => ?_
    rw [contains_ofList]
    rfl

theorem contains_after (s : OrderedSet α) (op : Operation α) (a : α) :
    (s.after op).contains a = (s.contains a && op.leaves s.items.head? a ||
      (OrderedSet.mk op.brought).contains a && !s.contains a) := by
  change (OrderedSet.mk (s.after op).items).contains a = _
  rw [items_after, contains_append, contains_filter (op.respects_leaves _),
    contains_filter (respects_contains s).not, contains_eraseDups]

theorem isDistinct_after (distinct : s.IsDistinct) (op : Operation α) :
    (s.after op).IsDistinct := by
  have new : (ofList op.brought).IsDistinct := isDistinct_ofList _
  rw [IsDistinct, items_ofList] at new
  rw [IsDistinct, items_after, List.pairwise_append]
  refine ⟨distinct.filter _, new.filter _, fun a left b right => ?_⟩
  obtain ⟨listed, -⟩ := List.mem_filter.mp left
  obtain ⟨-, absent⟩ := List.mem_filter.mp right
  exact contains_eq_false_iff.mp (by simpa using absent) a listed

/-- One operation does what the algebra of sets says. -/
theorem elements_after (s : OrderedSet α) (op : Operation α) :
    (s.after op).elements = op.onSet s.items.head? s.elements := by
  ext a
  rw [mem_elements, contains_after]
  cases op with
  | add b | addAll given =>
    simp only [Operation.leaves, Operation.brought, Operation.onSet, Set.mem_union, mem_elements,
      mem_alike]
    cases s.contains a <;> simp
  | _ =>
    simp [Operation.leaves, Operation.brought, Operation.onSet, mem_elements, mem_alike,
      contains_singleton, contains_nil]

theorem elements_eq_empty_iff : s.elements = ∅ ↔ s.items = [] := by
  constructor
  · intro none
    refine List.eq_nil_iff_forall_not_mem.mpr fun a member => ?_
    exact Set.eq_empty_iff_forall_notMem.mp none a (contains_of_mem member)
  · intro none
    ext a
    simp [elements, none, mem_alike, contains_nil]

/-- What is refused is told by the elements alone. -/
theorem perform?_eq_none_iff (op : Operation α) :
    op.perform? s = none ↔ op.Misses s.elements := by
  cases op with
  | remove a => simp [Operation.perform?, Operation.Misses, remove?, mem_elements]
  | pop =>
    rw [Operation.Misses, elements_eq_empty_iff, Operation.perform?, Option.map_eq_none_iff,
      popFirst?]
    split <;> simp [*]
  | _ => simp [Operation.perform?, Operation.Misses]

theorem takes_after (distinct : s.IsDistinct) (op : Operation α) : Takes op s (s.after op) where
  distinct := isDistinct_after distinct op
  elements := elements_after s op
  order := by
    rw [items_after]
    congr 1
    refine List.filter_congr fun a member => ?_
    rw [contains_after, contains_of_mem member]
    simp
  refused := perform?_eq_none_iff op

/-! ## Histories -/

omit [EquivBEq α] in
theorem stays_nil (s : OrderedSet α) (a : α) : s.stays [] a = s.contains a := by
  simp [stays, run]

omit [EquivBEq α] in
theorem stays_cons (s : OrderedSet α) (op : Operation α) (ops : List (Operation α)) (a : α) :
    s.stays (op :: ops) a = (s.contains a && (s.after op).stays ops a) := by
  simp [stays, run, Function.comp_def]

omit [EquivBEq α] in
theorem contains_of_stays {ops : List (Operation α)} (staying : s.stays ops a = true) :
    s.contains a = true := by
  cases ops with
  | nil => rwa [stays_nil] at staying
  | cons op ops =>
    rw [stays_cons, Bool.and_eq_true] at staying
    exact staying.1

theorem isDistinct_run (distinct : s.IsDistinct) (ops : List (Operation α)) :
    (s.run ops).IsDistinct := by
  induction ops generalizing s with
  | nil => exact distinct
  | cons op ops ih => exact ih (isDistinct_after distinct op)

/-- What has been there all the while stands before what has arrived since. -/
theorem exists_arrived (distinct : s.IsDistinct) (ops : List (Operation α)) :
    ∃ arrived, (s.run ops).items = s.items.filter (s.stays ops) ++ arrived ∧
      ∀ a ∈ arrived, s.stays ops a = false := by
  induction ops generalizing s with
  | nil =>
    refine ⟨[], ?_, by simp⟩
    rw [List.append_nil, List.filter_eq_self.mpr fun a member => ?_]
    · rfl
    · rw [stays_nil, contains_of_mem member]
  | cons op ops ih =>
    have takes := takes_after distinct op
    obtain ⟨arrived, split, since⟩ := ih takes.distinct
    have staying : (s.items.filter (s.after op).contains).filter ((s.after op).stays ops) =
        s.items.filter (s.stays (op :: ops)) := by
      rw [List.filter_filter]
      refine List.filter_congr fun a member => ?_
      rw [stays_cons, contains_of_mem member, Bool.true_and]
      cases later : (s.after op).stays ops a with
      | true => rw [contains_of_stays later, Bool.and_true]
      | false => rfl
    refine ⟨(op.brought.eraseDups.filter fun a => !s.contains a).filter ((s.after op).stays ops) ++
      arrived, ?_, fun a member => ?_⟩
    · change ((s.after op).run ops).items = _
      rw [split, takes.order, List.filter_append, staying, List.append_assoc]
    · rw [stays_cons]
      rcases List.mem_append.mp member with new | again
      · obtain ⟨listed, -⟩ := List.mem_filter.mp new
        obtain ⟨-, absent⟩ := List.mem_filter.mp listed
        simp [show s.contains a = false by simpa using absent]
      · rw [since a again, Bool.and_false]

/-! ## Two sets -/

theorem elements_union (s t : OrderedSet α) : (s.union t).elements = s.elements ∪ t.elements := by
  ext a
  simp [mem_elements, contains_union]

theorem elements_inter (s t : OrderedSet α) : (s.inter t).elements = s.elements ∩ t.elements := by
  ext a
  simp [mem_elements, contains_inter, and_comm]

theorem elements_diff (s t : OrderedSet α) : (s.diff t).elements = s.elements \ t.elements := by
  ext a
  simp [mem_elements, contains_diff]

theorem combines (left : s.IsDistinct) (right : t.IsDistinct) : Combines s t where
  union := items_union left right
  inter := items_inter s right
  diff := items_diff left t
  symmDiff := items_symmDiff s right
  elements := by
    refine ⟨elements_union s t, elements_inter s t, elements_diff s t, ?_⟩
    rw [OrderedSet.symmDiff, elements_union, elements_diff, elements_diff]

theorem keepsOrder (distinct : s.IsDistinct) : KeepsOrder s where
  distinct := distinct
  takes := takes_after distinct
  arrivals := exists_arrived distinct
  present a listed := insert_of_contains listed
  again a := by
    change ((s.erase a).insert a).items = _
    rw [items_insert_of_absent]
    · rfl
    · rw [contains_erase, BEq.rfl, Bool.not_true, Bool.and_false]
  pops a rest := popFirst?_of_cons distinct
  combines other := combines distinct (isDistinct_ofList other)

/-- A set that was made from a list and changed in any way keeps its elements in the order of
arrival. -/
theorem history_keeps_order_of_arrival (given : List α) (ops : List (Operation α)) :
    ((ofList given).items = given.eraseDups ∧ (ofList given).elements = alike given) ∧
      ((ofList given).run ops).KeepsOrder := by
  refine ⟨⟨items_ofList given, ?_⟩, keepsOrder (isDistinct_run (isDistinct_ofList given) ops)⟩
  ext a
  rw [mem_elements, contains_ofList, mem_alike]

/-- Red has left and come back. -/
theorem colors_keep_order_of_arrival :
    let s := (ofList ["red", "blue"]).run [.discard "red", .add "red", .toggleAll ["blue", "green"]]
    s.contains "red" = true ∧ s.after (.add "red") = s ∧
      ((s.after (.discard "red")).after (.add "red")).items = ["green", "red"] := by
  obtain ⟨-, keeps⟩ := history_keeps_order_of_arrival ["red", "blue"]
    [.discard "red", .add "red", .toggleAll ["blue", "green"]]
  have present : ((ofList ["red", "blue"]).run
      [.discard "red", .add "red", .toggleAll ["blue", "green"]]).contains "red" = true := by decide
  exact ⟨present, keeps.present "red" present, (keeps.again "red").trans (by decide)⟩

end DesignGraph.OrderedSet
