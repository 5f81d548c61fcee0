import DesignGraph.Proofs.OrderedSet.Order
import Mathlib.Data.List.Nodup

/-!
# Ordered sets: order of arrival

Elements that are inserted one after the other are listed once each, in the order in which they
first arrive.
-/

namespace DesignGraph.OrderedSet

variable {α : Type} [BEq α]

theorem ofList_append_singleton (items : List α) (a : α) :
    ofList (items ++ [a]) = (ofList items).insert a := by
  simp [ofList, insertAll]

variable [LawfulBEq α]

theorem items_insert_of_mem {s : OrderedSet α} {a : α} (present : a ∈ s.items) :
    (s.insert a).items = s.items := by
  rw [insert_of_contains (contains_of_mem present)]

theorem items_insert_of_not_mem {s : OrderedSet α} {a : α} (absent : a ∉ s.items) :
    (s.insert a).items = s.items ++ [a] := by
  have missed : ¬ s.contains a = true := by simpa [contains] using absent
  exact items_insert_of_absent (Bool.eq_false_iff.mpr missed)

theorem mem_insert {s : OrderedSet α} {a b : α} :
    b ∈ (s.insert a).items ↔ b ∈ s.items ∨ b = a := by
  by_cases present : a ∈ s.items
  · rw [items_insert_of_mem present]
    constructor
    · exact .inl
    · rintro (listed | rfl)
      · exact listed
      · exact present
  · rw [items_insert_of_not_mem present, List.mem_append, List.mem_singleton]

theorem mem_insertAll {s : OrderedSet α} {a : α} {items : List α} :
    a ∈ (s.insertAll items).items ↔ a ∈ s.items ∨ a ∈ items := by
  induction items generalizing s with
  | nil => simp [insertAll]
  | cons b rest ih =>
    change a ∈ ((s.insert b).insertAll rest).items ↔ _
    rw [ih, mem_insert, List.mem_cons, or_assoc]

theorem isDistinct_iff {s : OrderedSet α} : s.IsDistinct ↔ s.items.Nodup := by
  simp only [IsDistinct, beq_eq_false_iff_ne, List.Nodup]

theorem nodup_ofList (items : List α) : (ofList items).items.Nodup :=
  isDistinct_iff.mp (isDistinct_ofList items)

theorem nodup_eraseDups (items : List α) : items.eraseDups.Nodup := by
  rw [← items_ofList]
  exact nodup_ofList items

theorem eraseDups_of_nodup {items : List α} (distinct : items.Nodup) :
    items.eraseDups = items :=
  have listed : (OrderedSet.mk items).IsDistinct := isDistinct_iff.mpr distinct
  listed.eraseDups

/-- What is present already stays where it is. -/
theorem insertAll_of_subset {s : OrderedSet α} {items : List α}
    (present : ∀ a ∈ items, a ∈ s.items) :
    s.insertAll items = s := by
  induction items with
  | nil => rfl
  | cons a rest ih =>
    obtain ⟨first, others⟩ := List.forall_mem_cons.mp present
    rw [insertAll_cons, insert_of_contains (contains_of_mem first), ih others]

theorem insertAll_idem (s : OrderedSet α) (items : List α) :
    (s.insertAll items).insertAll items = s.insertAll items :=
  insertAll_of_subset fun _ member => mem_insertAll.mpr (.inr member)

omit [BEq α] [LawfulBEq α] in
/-- A list without repetitions that has one member is that member. -/
theorem eq_singleton_of_nodup {items : List α} (distinct : items.Nodup) {a : α}
    (only : ∀ b, b ∈ items ↔ b = a) : items = [a] := by
  have same : ∀ b, b ∈ items ↔ b ∈ [a] := fun b => (only b).trans List.mem_singleton.symm
  exact List.perm_singleton.mp
    ((List.perm_ext_iff_of_nodup distinct (List.nodup_singleton a)).mpr same)

theorem items_insertAll_singleton (a : α) (items : List α) :
    (insertAll ⟨[a]⟩ items).items = (a :: items).eraseDups := by
  rw [← items_ofList]
  rfl

end DesignGraph.OrderedSet
