import DesignGraph.OrderedSet
import Mathlib.Data.List.Basic

/-!
# Ordered sets: what an operation leaves, and in which order

Elements are told apart by an equality that is an equivalence, as that of numbers of different kinds
is; of equal elements the one that came first is listed. Each operation keeps some of the listed
elements where they are and puts what is new behind them. This holds of the operations that are
loops over the others too: what such a loop has done so far never changes what it does next.
-/

namespace DesignGraph.OrderedSet

variable {α : Type} [BEq α] {s t : OrderedSet α} {a b : α} {given : List α}

/-- No element is listed twice. -/
def IsDistinct (s : OrderedSet α) : Prop := s.items.Pairwise fun a b => (a == b) = false

/-- A test that does not tell equal elements apart. -/
def Respects (test : α → Bool) : Prop := ∀ a b, (a == b) = true → test a = test b

/-! ## Elements and tests -/

theorem contains_iff : s.contains a = true ↔ ∃ b ∈ s.items, (b == a) = true := by
  simp [contains]

theorem contains_eq_false_iff : s.contains a = false ↔ ∀ b ∈ s.items, (b == a) = false := by
  simp [contains]

theorem contains_nil (a : α) : (OrderedSet.mk []).contains a = false := rfl

theorem contains_singleton (a b : α) : (OrderedSet.mk [a]).contains b = (a == b) :=
  Bool.or_false _

theorem contains_cons (b : α) (rest : List α) (a : α) :
    (OrderedSet.mk (b :: rest)).contains a = (b == a || (OrderedSet.mk rest).contains a) :=
  List.any_cons

theorem contains_append (left right : List α) (a : α) :
    (OrderedSet.mk (left ++ right)).contains a =
      ((OrderedSet.mk left).contains a || (OrderedSet.mk right).contains a) :=
  List.any_append

theorem insertAll_cons (s : OrderedSet α) (a : α) (given : List α) :
    s.insertAll (a :: given) = (s.insert a).insertAll given := rfl

theorem insertAll_append (s : OrderedSet α) (left right : List α) :
    s.insertAll (left ++ right) = (s.insertAll left).insertAll right :=
  List.foldl_append ..

theorem eraseAll_cons (s : OrderedSet α) (a : α) (given : List α) :
    s.eraseAll (a :: given) = (s.erase a).eraseAll given := rfl

theorem insert_of_contains (present : s.contains a = true) : s.insert a = s := by
  rw [insert, if_pos present]

theorem items_insert_of_absent (absent : s.contains a = false) :
    (s.insert a).items = s.items ++ [a] := by
  rw [insert, absent, if_neg Bool.false_ne_true]

theorem erase_of_absent (absent : s.contains a = false) : s.erase a = s := by
  have others : (s.items.filter fun b => !(b == a)) = s.items := by
    refine List.filter_eq_self.mpr fun b member => ?_
    rw [contains_eq_false_iff.mp absent b member, Bool.not_false]
  rw [erase, others]

theorem Respects.not {test : α → Bool} (respects : Respects test) :
    Respects fun a => !test a :=
  fun a b same => congrArg Bool.not (respects a b same)

theorem contains_filter {test : α → Bool} (respects : Respects test) (given : List α) (a : α) :
    (OrderedSet.mk (given.filter test)).contains a =
      ((OrderedSet.mk given).contains a && test a) := by
  rw [Bool.eq_iff_iff, Bool.and_eq_true, contains_iff, contains_iff]
  constructor
  · rintro ⟨b, member, same⟩
    obtain ⟨listed, passed⟩ := List.mem_filter.mp member
    exact ⟨⟨b, listed, same⟩, respects b a same ▸ passed⟩
  · rintro ⟨⟨b, listed, same⟩, passed⟩
    exact ⟨b, List.mem_filter.mpr ⟨listed, respects b a same ▸ passed⟩, same⟩

/-! ## Lists without repetitions -/

theorem isDistinct_insert (distinct : s.IsDistinct) (a : α) : (s.insert a).IsDistinct := by
  cases present : s.contains a with
  | true => rwa [insert_of_contains present]
  | false =>
    rw [IsDistinct, items_insert_of_absent present, List.pairwise_append]
    refine ⟨distinct, List.pairwise_singleton _ a, fun b member c last => ?_⟩
    rw [List.mem_singleton.mp last]
    exact contains_eq_false_iff.mp present b member

theorem isDistinct_insertAll (distinct : s.IsDistinct) (given : List α) :
    (s.insertAll given).IsDistinct := by
  induction given generalizing s with
  | nil => exact distinct
  | cons a rest ih => exact ih (isDistinct_insert distinct a)

theorem isDistinct_ofList (given : List α) : (ofList given).IsDistinct :=
  isDistinct_insertAll List.Pairwise.nil given

theorem IsDistinct.filter (distinct : s.IsDistinct) (test : α → Bool) :
    (OrderedSet.mk (s.items.filter test)).IsDistinct :=
  List.Pairwise.filter test distinct

theorem isDistinct_diff (s t : OrderedSet α) : (s.diff t).IsDistinct := isDistinct_ofList _

/-- The first of every repetition among the elements that pass a test. -/
theorem filter_eraseDups {test : α → Bool} (respects : Respects test) (given : List α) :
    given.eraseDups.filter test = (given.filter test).eraseDups := by
  induction size : given.length using Nat.strongRecOn generalizing given with
  | ind n ih =>
    cases given with
    | nil => rfl
    | cons a rest =>
      have shorter : (rest.filter fun b => !(b == a)).length < n :=
        size ▸ Nat.lt_succ_of_le (List.length_filter_le ..)
      rw [List.eraseDups_cons, List.filter_cons, List.filter_cons, ih _ shorter _ rfl,
        List.filter_filter]
      split
      · rw [List.eraseDups_cons, List.filter_filter]
        simp only [Bool.and_comm]
      · next failed =>
        congr 1
        refine List.filter_congr fun b _ => ?_
        cases same : b == a with
        | true => simpa [respects b a same] using failed
        | false => rw [Bool.not_false, Bool.and_true]

variable [EquivBEq α]

/-! ## Single elements -/

/-- What differs from all others is none of them. -/
theorem absent_of_apart (apart : ∀ b ∈ given, (a == b) = false) :
    (OrderedSet.mk given).contains a = false := by
  refine contains_eq_false_iff.mpr fun b member => ?_
  rw [BEq.comm, apart b member]

theorem contains_of_mem (member : a ∈ s.items) : s.contains a = true :=
  contains_iff.mpr ⟨a, member, BEq.rfl⟩

/-- Equal elements are present together. -/
theorem contains_congr (same : (a == b) = true) : s.contains a = s.contains b := by
  rw [Bool.eq_iff_iff, contains_iff, contains_iff]
  constructor
  · rintro ⟨c, member, equal⟩
    exact ⟨c, member, BEq.trans equal same⟩
  · rintro ⟨c, member, equal⟩
    exact ⟨c, member, BEq.trans equal (BEq.symm same)⟩

theorem contains_insert (s : OrderedSet α) (a b : α) :
    (s.insert a).contains b = (s.contains b || a == b) := by
  cases present : s.contains a with
  | true =>
    rw [insert_of_contains present]
    cases same : a == b with
    | true => rw [← contains_congr same, present, Bool.or_true]
    | false => rw [Bool.or_false]
  | false => simp [contains, items_insert_of_absent present]

theorem contains_erase (s : OrderedSet α) (a b : α) :
    (s.erase a).contains b = (s.contains b && !(a == b)) := by
  rw [Bool.eq_iff_iff, Bool.and_eq_true, contains_iff, contains_iff]
  have differs : ∀ c, (c == b) = true → (c == a) = (a == b) := by
    intro c same
    rw [BEq.congr_left same, BEq.comm]
  constructor
  · rintro ⟨c, member, same⟩
    obtain ⟨listed, other⟩ := List.mem_filter.mp member
    exact ⟨⟨c, listed, same⟩, differs c same ▸ other⟩
  · rintro ⟨⟨c, listed, same⟩, other⟩
    exact ⟨c, List.mem_filter.mpr ⟨listed, differs c same ▸ other⟩, same⟩

/-! ## Loops -/

/-- Insertion in order appends what is new, the first of every repetition. -/
theorem items_insertAll (s : OrderedSet α) (given : List α) :
    (s.insertAll given).items = s.items ++ (given.filter fun a => !s.contains a).eraseDups := by
  induction given generalizing s with
  | nil => simp [insertAll]
  | cons a rest ih =>
    rw [insertAll_cons, ih]
    cases present : s.contains a with
    | true => simp [insert_of_contains present, present]
    | false =>
      have others : (rest.filter fun b => !(s.insert a).contains b) =
          (rest.filter fun b => !s.contains b).filter fun b => !(b == a) := by
        rw [List.filter_filter]
        refine List.filter_congr fun b _ => ?_
        rw [contains_insert, Bool.not_or, Bool.and_comm, BEq.comm]
      rw [items_insert_of_absent present, others, List.append_assoc, List.filter_cons,
        present, Bool.not_false, if_pos rfl, List.eraseDups_cons, List.singleton_append]

/-- Removal one by one keeps the order of the others. -/
theorem items_eraseAll (s : OrderedSet α) (given : List α) :
    (s.eraseAll given).items = s.items.filter fun a => !(OrderedSet.mk given).contains a := by
  induction given generalizing s with
  | nil => simp [eraseAll, contains]
  | cons b rest ih =>
    rw [eraseAll_cons, ih, erase, List.filter_filter]
    refine List.filter_congr fun a _ => ?_
    rw [contains_cons, Bool.not_or, Bool.and_comm, BEq.comm]

theorem respects_contains (s : OrderedSet α) : Respects s.contains := fun _ _ => contains_congr

theorem contains_insertAll (s : OrderedSet α) (given : List α) (a : α) :
    (s.insertAll given).contains a = (s.contains a || (OrderedSet.mk given).contains a) := by
  induction given generalizing s with
  | nil => simp [insertAll, contains]
  | cons b rest ih =>
    rw [insertAll_cons, ih, contains_insert, Bool.or_assoc]
    rfl

theorem contains_ofList (given : List α) (a : α) :
    (ofList given).contains a = (OrderedSet.mk given).contains a := by
  rw [ofList, contains_insertAll]
  rfl

/-- A set from a list keeps the first of every repetition. -/
theorem items_ofList (given : List α) : (ofList given).items = given.eraseDups := by
  have fresh : given.filter (fun a => !(∅ : OrderedSet α).contains a) = given :=
    List.filter_eq_self.mpr fun _ _ => rfl
  rw [ofList, items_insertAll, fresh]
  rfl

theorem IsDistinct.eraseDups (distinct : s.IsDistinct) : s.items.eraseDups = s.items := by
  obtain ⟨items⟩ := s
  induction items with
  | nil => rfl
  | cons a rest ih =>
    obtain ⟨apart, others⟩ := List.pairwise_cons.mp distinct
    have kept : (rest.filter fun b => !(b == a)) = rest :=
      congrArg OrderedSet.items (erase_of_absent (absent_of_apart apart))
    rw [List.eraseDups_cons, kept, ih others]

/-! ## Operations on two sets -/

theorem contains_union (s t : OrderedSet α) (a : α) :
    (s.union t).contains a = (s.contains a || t.contains a) := by
  rw [union, contains_ofList, contains_append]

theorem contains_inter (s t : OrderedSet α) (a : α) :
    (s.inter t).contains a = (t.contains a && s.contains a) := by
  rw [inter, contains_ofList, contains_filter (respects_contains s)]

theorem contains_diff (s t : OrderedSet α) (a : α) :
    (s.diff t).contains a = (s.contains a && !t.contains a) := by
  rw [diff, contains_ofList, contains_filter (respects_contains t).not]

theorem items_retain (s t : OrderedSet α) :
    (s.retain t).items = s.items.filter t.contains := by
  rw [retain, items_eraseAll]
  refine List.filter_congr fun a member => ?_
  change (!(s.diff t).contains a) = _
  rw [contains_diff, contains_of_mem member, Bool.true_and, Bool.not_not]

theorem items_union (left : s.IsDistinct) (right : t.IsDistinct) :
    (s.union t).items = s.items ++ t.items.filter fun a => !s.contains a := by
  have begun : ofList s.items = s := by
    have listed := items_ofList s.items
    rw [left.eraseDups] at listed
    exact congrArg OrderedSet.mk listed
  rw [union, ofList, insertAll_append]
  change ((ofList s.items).insertAll t.items).items = _
  rw [begun, items_insertAll, (right.filter _).eraseDups]

theorem items_inter (s : OrderedSet α) (right : t.IsDistinct) :
    (s.inter t).items = t.items.filter s.contains := by
  rw [inter, items_ofList, (right.filter _).eraseDups]

theorem items_diff (left : s.IsDistinct) (t : OrderedSet α) :
    (s.diff t).items = s.items.filter fun a => !t.contains a := by
  rw [diff, items_ofList, (left.filter _).eraseDups]

theorem items_symmDiff (s : OrderedSet α) (right : t.IsDistinct) :
    (s.symmDiff t).items = (s.diff t).items ++ (t.diff s).items := by
  rw [symmDiff, items_union (isDistinct_diff s t) (isDistinct_diff t s)]
  congr 1
  refine List.filter_eq_self.mpr fun a member => ?_
  rw [items_diff right] at member
  obtain ⟨listed, -⟩ := List.mem_filter.mp member
  rw [contains_diff, contains_of_mem listed, Bool.not_true, Bool.and_false, Bool.not_false]

/-- Elements that are toggled one by one are told apart by the set as it was at first: those that
were toggled before are none of them. -/
theorem items_toggleAll (s : OrderedSet α) (right : t.IsDistinct) :
    (s.toggleAll t).items =
      (s.items.filter fun a => !t.contains a) ++ t.items.filter fun a => !s.contains a := by
  obtain ⟨given⟩ := t
  change (given.foldl toggle s).items = _
  induction given generalizing s with
  | nil => simp [contains]
  | cons b rest ih =>
    obtain ⟨apart, others⟩ := List.pairwise_cons.mp right
    rw [List.foldl_cons, ih _ others]
    cases present : s.contains b with
    | true =>
      rw [toggle, present, if_pos rfl]
      congr 1
      · rw [erase, List.filter_filter]
        refine List.filter_congr fun a _ => ?_
        rw [contains_cons, Bool.not_or, Bool.and_comm, BEq.comm]
      · rw [List.filter_cons, present, if_neg (by simp)]
        refine List.filter_congr fun a member => ?_
        rw [contains_erase, apart a member, Bool.not_false, Bool.and_true]
    | false =>
      have outside : (OrderedSet.mk rest).contains b = false := absent_of_apart apart
      rw [toggle, present, if_neg Bool.false_ne_true, items_insert_of_absent present,
        List.filter_append, List.append_assoc]
      congr 1
      · refine List.filter_congr fun a member => ?_
        have other := contains_eq_false_iff.mp present a member
        rw [contains_cons, BEq.comm, other, Bool.false_or]
      · rw [List.filter_singleton, outside, List.filter_cons, present]
        simp only [Bool.not_false, if_true, cond_true, List.singleton_append]
        congr 1
        refine List.filter_congr fun a member => ?_
        rw [contains_insert, apart a member, Bool.or_false]

/-- What is popped is the first element, and no other is equal to it. -/
theorem popFirst?_of_cons (distinct : s.IsDistinct) {rest : List α} (listed : s.items = a :: rest) :
    s.popFirst? = some (a, ⟨rest⟩) := by
  rw [IsDistinct, listed] at distinct
  obtain ⟨apart, -⟩ := List.pairwise_cons.mp distinct
  have others : (rest.filter fun b => !(b == a)) = rest :=
    congrArg OrderedSet.items (erase_of_absent (absent_of_apart apart))
  rw [popFirst?, listed]
  change some (a, s.erase a) = _
  rw [erase, listed, List.filter_cons, BEq.rfl, Bool.not_true, if_neg Bool.false_ne_true, others]

end DesignGraph.OrderedSet
