import DesignGraph.OrderedMap
import DesignGraph.Proofs.OrderedSet
import Mathlib.Data.List.Induction
import DesignGraph.Value.Basic

/-!
# Ordered maps: lookups and keys

What an insertion does to the two views that the rest of the library reads: the value under a key
(`get?`) and the keys in their order (`keys`). An insertion under a present key changes that one
value in place, so it commutes with an insertion under any other key.
-/

namespace DesignGraph.OrderedMap

variable {κ α : Type}

theorem keys_map {β : Type} (f : α → β) (m : OrderedMap κ α) : (m.map f).keys = m.keys := by
  simp [keys, map, Function.comp_def]

variable [BEq κ]

@[simp] theorem get?_empty (key : κ) : (∅ : OrderedMap κ α).get? key = none := rfl

variable [LawfulBEq κ]

private theorem lookup_cons_ne {key j : κ} (a : α) (rest : List (κ × α)) (different : key ≠ j) :
    ((j, a) :: rest).lookup key = rest.lookup key := by
  have test : (key == j) = false := beq_eq_false_iff_ne.mpr different
  simp only [List.lookup_cons, test]

theorem lookup_filter {keeps : κ → Bool} {key : κ} (kept : keeps key = true)
    (entries : List (κ × α)) :
    (entries.filter fun entry => keeps entry.1).lookup key = entries.lookup key := by
  induction entries with
  | nil => rfl
  | cons entry rest ih =>
    obtain ⟨k, a⟩ := entry
    by_cases same : key = k
    · subst same
      simp [kept]
    · have test : (key == k) = false := beq_eq_false_iff_ne.mpr same
      by_cases also : keeps k = true
      · simp [also, List.lookup_cons, test, ih]
      · simp [also, List.lookup_cons, test, ih]

/-- A table of the answers that keys have. -/
theorem lookup_filterMap {answer : κ → Option α} {key : κ} {keys : List κ}
    (known : key ∈ keys ∨ answer key = none) :
    (keys.filterMap fun k => (answer k).map fun a => (k, a)).lookup key = answer key := by
  induction keys with
  | nil => simpa [eq_comm] using known
  | cons k rest ih =>
    cases given : answer k with
    | none =>
      rw [List.filterMap_cons_none (by rw [given]; rfl)]
      refine ih ?_
      rw [List.mem_cons] at known
      obtain (rfl | later) | none := known
      · exact .inr given
      · exact .inl later
      · exact .inr none
    | some a =>
      rw [List.filterMap_cons_some (by rw [given]; rfl)]
      by_cases same : key = k
      · subst same
        rw [List.lookup_cons_self, given]
      · rw [lookup_cons_ne a _ same]
        exact ih (known.imp_left fun listed => (List.mem_cons.mp listed).resolve_left same)

private theorem lookup_insertEntry_self (key : κ) (value : α) (entries : List (κ × α)) :
    (insertEntry key value entries).lookup key = some value := by
  induction entries with
  | nil => exact List.lookup_cons_self
  | cons entry rest ih =>
    rw [insertEntry]
    by_cases present : entry.1 = key
    · simp [present]
    · simp [present, lookup_cons_ne entry.2 _ (Ne.symm present), ih]

private theorem lookup_insertEntry_ne {key k : κ} (value : α) (entries : List (κ × α))
    (different : k ≠ key) : (insertEntry key value entries).lookup k = entries.lookup k := by
  induction entries with
  | nil => exact lookup_cons_ne value [] different
  | cons entry rest ih =>
    rw [insertEntry]
    by_cases present : entry.1 = key
    · have absent : k ≠ entry.1 := fun same => different (same.trans present)
      rw [if_pos (beq_iff_eq.mpr present), lookup_cons_ne value rest absent,
        lookup_cons_ne entry.2 rest absent]
    · rw [if_neg (by simpa using present)]
      by_cases same : k = entry.1
      · subst k
        rw [List.lookup_cons_self, List.lookup_cons_self]
      · rw [lookup_cons_ne entry.2 _ same, lookup_cons_ne entry.2 _ same, ih]

private theorem map_fst_insertEntry (key : κ) (value : α) (entries : List (κ × α)) :
    (insertEntry key value entries).map (·.1) =
      if entries.any (·.1 == key) then entries.map (·.1) else entries.map (·.1) ++ [key] := by
  induction entries with
  | nil => rfl
  | cons entry rest ih =>
    rw [insertEntry]
    by_cases present : entry.1 = key
    · simp [present]
    · have test : (entry.1 == key) = false := beq_eq_false_iff_ne.mpr present
      rw [if_neg (by simpa using present), List.map_cons, ih, List.any_cons, test, Bool.false_or]
      split <;> rfl

private theorem insertEntry_of_lookup (key : κ) (value : α) (entries : List (κ × α))
    (found : entries.lookup key = some value) : insertEntry key value entries = entries := by
  induction entries with
  | nil => cases found
  | cons entry rest ih =>
    obtain ⟨j, a⟩ := entry
    by_cases present : key = j
    · subst j
      rw [List.lookup_cons_self] at found
      cases found
      simp [insertEntry]
    · rw [lookup_cons_ne a rest present] at found
      simp [insertEntry, Ne.symm present, ih found]

private theorem insertEntry_insertEntry (key : κ) (first second : α) (entries : List (κ × α)) :
    insertEntry key second (insertEntry key first entries) = insertEntry key second entries := by
  induction entries with
  | nil => simp [insertEntry]
  | cons entry rest ih =>
    by_cases present : entry.1 = key
    · simp [insertEntry, present]
    · simp [insertEntry, present, ih]

private theorem insertEntry_comm (key other : κ) (value new : α) (entries : List (κ × α))
    (present : entries.any (·.1 == key)) (different : key ≠ other) :
    insertEntry key value (insertEntry other new entries) =
      insertEntry other new (insertEntry key value entries) := by
  induction entries with
  | nil => simp at present
  | cons entry rest ih =>
    by_cases atKey : entry.1 = key
    · subst key
      simp [insertEntry, different]
    · have later : rest.any (·.1 == key) := by
        simpa [beq_eq_false_iff_ne.mpr atKey] using present
      by_cases atOther : entry.1 = other
      · subst other
        simp [insertEntry, Ne.symm different]
      · simp [insertEntry, atKey, atOther, ih later]

@[simp] theorem get?_insert_self (m : OrderedMap κ α) (key : κ) (value : α) :
    (m.insert key value).get? key = some value :=
  lookup_insertEntry_self key value m.entries

theorem get?_insert_of_ne (m : OrderedMap κ α) {key k : κ} (value : α) (different : k ≠ key) :
    (m.insert key value).get? k = m.get? k :=
  lookup_insertEntry_ne value m.entries different

theorem contains_eq_isSome (m : OrderedMap κ α) (key : κ) :
    m.contains key = (m.get? key).isSome := by
  rw [Bool.eq_iff_iff, contains, get?, List.lookup_isSome_iff, List.any_eq_true]
  simp only [beq_iff_eq, eq_comm (a := key)]

theorem mem_keys (m : OrderedMap κ α) (key : κ) : key ∈ m.keys ↔ (m.get? key).isSome := by
  rw [← contains_eq_isSome, keys, contains, List.mem_map, List.any_eq_true]
  simp only [beq_iff_eq]

theorem mem_keys_of_get? {m : OrderedMap κ α} {key : κ} {value : α}
    (found : m.get? key = some value) : key ∈ m.keys := by
  rw [mem_keys, found]
  rfl

theorem mem_entries_of_get? {m : OrderedMap κ α} {key : κ} {value : α}
    (found : m.get? key = some value) : (key, value) ∈ m.entries := by
  obtain ⟨before, after, split, -⟩ := List.lookup_eq_some_iff.mp found
  rw [split]
  simp

/-- Where no key is repeated, every entry is found under its key. -/
theorem get?_of_mem_entries {m : OrderedMap κ α} (distinct : m.keys.Nodup) {key : κ} {value : α}
    (member : (key, value) ∈ m.entries) : m.get? key = some value := by
  obtain ⟨entries⟩ := m
  change entries.lookup key = some value
  induction entries with
  | nil => cases member
  | cons entry rest ih =>
    obtain ⟨absent, others⟩ := List.nodup_cons.mp distinct
    rcases List.mem_cons.mp member with rfl | member
    · exact List.lookup_cons_self
    · have different : key ≠ entry.1 := by
        rintro rfl
        exact absent (List.mem_map.mpr ⟨_, member, rfl⟩)
      rw [lookup_cons_ne entry.2 rest different]
      exact ih others member

/-- A map without repeated keys is told by its keys in their order and the values under them. -/
theorem eq_of_get? {m n : OrderedMap κ α} (distinct : m.keys.Nodup) (sameKeys : m.keys = n.keys)
    (same : ∀ key, m.get? key = n.get? key) : m = n := by
  have unlisted {key : κ} {entries : List (κ × α)} (absent : key ∉ entries.map (·.1)) :
      entries.lookup key = none := by
    refine List.lookup_eq_none_iff.mpr fun entry member => ?_
    rw [bne_iff_ne]
    rintro rfl
    exact absent (List.mem_map.mpr ⟨entry, member, rfl⟩)
  obtain ⟨entries⟩ := m
  obtain ⟨others⟩ := n
  congr
  change (entries.map (·.1)).Nodup at distinct
  change entries.map (·.1) = others.map (·.1) at sameKeys
  change ∀ key, entries.lookup key = others.lookup key at same
  induction entries generalizing others with
  | nil => rw [List.map_eq_nil_iff.mp sameKeys.symm]
  | cons entry rest ih =>
    cases others with
    | nil => cases sameKeys
    | cons other others =>
      obtain ⟨key, value⟩ := entry
      obtain ⟨otherKey, otherValue⟩ := other
      obtain ⟨absent, distinct⟩ := List.nodup_cons.mp distinct
      rw [List.map_cons, List.map_cons, List.cons.injEq] at sameKeys
      obtain ⟨rfl, sameRest⟩ := sameKeys
      have first := same key
      rw [List.lookup_cons_self, List.lookup_cons_self] at first
      rw [Option.some.inj first]
      refine congrArg _ (ih others distinct sameRest fun k => ?_)
      by_cases here : k = key
      · subst here
        rw [unlisted absent, unlisted (sameRest ▸ absent)]
      · have later := same k
        rwa [lookup_cons_ne _ _ here, lookup_cons_ne _ _ here] at later

theorem keys_insert_of_mem {m : OrderedMap κ α} {key : κ} (value : α) (present : key ∈ m.keys) :
    (m.insert key value).keys = m.keys := by
  rw [mem_keys, ← contains_eq_isSome] at present
  exact (map_fst_insertEntry key value m.entries).trans (if_pos present)

theorem keys_insert_of_not_mem {m : OrderedMap κ α} {key : κ} (value : α)
    (absent : key ∉ m.keys) : (m.insert key value).keys = m.keys ++ [key] := by
  rw [mem_keys, ← contains_eq_isSome] at absent
  exact (map_fst_insertEntry key value m.entries).trans (if_neg absent)

theorem entries_insert_of_not_mem {m : OrderedMap κ α} {key : κ} (value : α)
    (absent : key ∉ m.keys) : (m.insert key value).entries = m.entries ++ [(key, value)] := by
  obtain ⟨entries⟩ := m
  change insertEntry key value entries = _
  induction entries with
  | nil => rfl
  | cons entry rest ih =>
    obtain ⟨other, later⟩ : key ≠ entry.1 ∧ key ∉ rest.map (·.1) := by
      simpa [keys, not_or] using absent
    rw [insertEntry, if_neg (by simpa using Ne.symm other), ih later]
    rfl

/-- The keys are an ordered set. -/
theorem keys_insert (m : OrderedMap κ α) (key : κ) (value : α) :
    (m.insert key value).keys = (OrderedSet.insert ⟨m.keys⟩ key).items := by
  by_cases present : key ∈ m.keys
  · rw [keys_insert_of_mem value present]
    exact (OrderedSet.items_insert_of_mem present).symm
  · rw [keys_insert_of_not_mem value present]
    exact (OrderedSet.items_insert_of_not_mem present).symm

theorem get?_map {β : Type} (f : α → β) (m : OrderedMap κ α) (key : κ) :
    (m.map f).get? key = (m.get? key).map f := by
  obtain ⟨entries⟩ := m
  change (entries.map fun entry => (entry.1, f entry.2)).lookup key = (entries.lookup key).map f
  induction entries with
  | nil => rfl
  | cons entry rest ih =>
    obtain ⟨j, a⟩ := entry
    rw [List.map_cons]
    by_cases same : key = j
    · subst j
      rw [List.lookup_cons_self, List.lookup_cons_self]
      rfl
    · rw [lookup_cons_ne _ _ same, lookup_cons_ne _ _ same, ih]

/-- Giving a key the value that it has changes nothing. -/
theorem insert_of_get? {m : OrderedMap κ α} {key : κ} {value : α}
    (found : m.get? key = some value) : m.insert key value = m := by
  rw [insert, insertEntry_of_lookup key value m.entries found]

@[simp] theorem insert_insert (m : OrderedMap κ α) (key : κ) (first second : α) :
    (m.insert key first).insert key second = m.insert key second := by
  simp [insert, insertEntry_insertEntry]

theorem insert_comm {m : OrderedMap κ α} {key other : κ} (value new : α)
    (present : key ∈ m.keys) (different : key ≠ other) :
    (m.insert other new).insert key value = (m.insert key value).insert other new := by
  have found : m.entries.any (·.1 == key) := by
    rw [mem_keys, ← contains_eq_isSome] at present
    exact present
  simp [insert, insertEntry_comm key other value new m.entries found different]

/-- A present key keeps its place. -/
theorem insert_split {left right : List (κ × α)} {key : κ} (old value : α)
    (absent : key ∉ left.map (·.1)) :
    (⟨left ++ (key, old) :: right⟩ : OrderedMap κ α).insert key value =
      ⟨left ++ (key, value) :: right⟩ := by
  have replaced : insertEntry key value (left ++ (key, old) :: right) =
      left ++ (key, value) :: right := by
    induction left with
    | nil => simp [insertEntry]
    | cons entry rest ih =>
      rw [List.map_cons, List.mem_cons, not_or] at absent
      simp [insertEntry, Ne.symm absent.1, ih absent.2]
  rw [insert, replaced]

/-! ## Repeated insertions -/

omit [LawfulBEq κ] in
theorem ofList_append_singleton (pairs : List (κ × α)) (pair : κ × α) :
    ofList (pairs ++ [pair]) = (ofList pairs).insert pair.1 pair.2 := by
  simp [ofList]

/-- The value that was given to a key last. -/
theorem get?_ofList (pairs : List (κ × α)) (key : κ) :
    (ofList pairs).get? key = pairs.reverse.lookup key := by
  induction pairs using List.reverseRecOn with
  | nil => rfl
  | append_singleton pairs pair ih =>
    obtain ⟨k, value⟩ := pair
    rw [ofList_append_singleton, List.reverse_append, List.reverse_singleton,
      List.singleton_append]
    by_cases same : key = k
    · subst same
      rw [get?_insert_self, List.lookup_cons_self]
    · rw [get?_insert_of_ne _ _ same, lookup_cons_ne _ _ same, ih]

/-- The keys are those of the pairs, each in its first place. -/
theorem keys_ofList (pairs : List (κ × α)) :
    (ofList pairs).keys = (OrderedSet.ofList (pairs.map (·.1))).items := by
  induction pairs using List.reverseRecOn with
  | nil => rfl
  | append_singleton pairs pair ih =>
    rw [ofList_append_singleton, keys_insert, ih, List.map_append, List.map_singleton,
      OrderedSet.ofList_append_singleton]

/-- All pairs are kept as they are exactly if no key is repeated. -/
theorem entries_ofList_iff {pairs : List (κ × α)} :
    (ofList pairs).entries = pairs ↔ (pairs.map (·.1)).Nodup := by
  constructor
  · intro kept
    have keys_eq : (ofList pairs).keys = pairs.map (·.1) := by rw [keys, kept]
    rw [← keys_eq, keys_ofList]
    exact OrderedSet.nodup_ofList _
  · intro distinct
    induction pairs using List.reverseRecOn with
    | nil => rfl
    | append_singleton pairs pair ih =>
      rw [List.map_append, List.map_singleton, List.nodup_append] at distinct
      obtain ⟨before, -, apart⟩ := distinct
      have absent : pair.1 ∉ (ofList pairs).keys := by
        rw [keys, ih before]
        exact fun listed => apart _ listed _ (List.mem_singleton_self _) rfl
      rw [ofList_append_singleton, entries_insert_of_not_mem _ absent, ih before]

theorem mem_of_get?_ofList {pairs : List (κ × α)} {key : κ} {value : α}
    (found : (ofList pairs).get? key = some value) : (key, value) ∈ pairs := by
  rw [get?_ofList] at found
  have member : (key, value) ∈ pairs.reverse :=
    mem_entries_of_get? (m := ⟨pairs.reverse⟩) found
  exact List.mem_reverse.mp member

theorem mem_of_mem_entries_ofList {pairs : List (κ × α)} {pair : κ × α}
    (member : pair ∈ (ofList pairs).entries) : pair ∈ pairs := by
  have inserted : ∀ (key : κ) (value : α) (entries : List (κ × α)),
      pair ∈ insertEntry key value entries → pair ∈ entries ∨ pair = (key, value) := by
    intro key value entries
    induction entries with
    | nil => simp [insertEntry]
    | cons entry rest ih =>
      obtain ⟨k, old⟩ := entry
      unfold insertEntry
      split
      · next same =>
        rw [eq_of_beq same, List.mem_cons, List.mem_cons]
        exact fun listed => listed.elim .inr fun later => .inl (.inr later)
      · rw [List.mem_cons, List.mem_cons]
        exact fun listed => listed.elim (fun first => .inl (.inl first)) fun later =>
          (ih later).imp_left .inr
  induction pairs using List.reverseRecOn with
  | nil => cases member
  | append_singleton pairs last ih =>
    rw [ofList_append_singleton] at member
    rcases inserted _ _ _ member with earlier | rfl
    · exact List.mem_append_left _ (ih earlier)
    · exact List.mem_append_right _ (List.mem_singleton_self _)

theorem isSome_get?_ofList {pairs : List (κ × α)} {key : κ} :
    ((ofList pairs).get? key).isSome ↔ ∃ value, (key, value) ∈ pairs := by
  rw [get?_ofList, List.lookup_isSome_iff]
  constructor
  · rintro ⟨⟨k, value⟩, member, same⟩
    obtain rfl : key = k := by simpa using same
    exact ⟨value, List.mem_reverse.mp member⟩
  · rintro ⟨value, member⟩
    exact ⟨(key, value), List.mem_reverse.mpr member, by simp⟩

/-- Every pair is kept exactly if no key is given two values. -/
theorem get?_ofList_of_mem_iff {pairs : List (κ × α)} :
    (∀ key value, (key, value) ∈ pairs → (ofList pairs).get? key = some value) ↔
      ∀ key value other, (key, value) ∈ pairs → (key, other) ∈ pairs → value = other := by
  constructor
  · intro kept key value other first second
    exact Option.some.inj ((kept key value first).symm.trans (kept key other second))
  · intro agree key value member
    obtain ⟨last, found⟩ := Option.isSome_iff_exists.mp (isSome_get?_ofList.mpr ⟨value, member⟩)
    rw [found, agree key value last member (mem_of_get?_ofList found)]

end DesignGraph.OrderedMap

/-! ## Mappings with text keys -/

namespace DesignGraph.Value

/-- Entries with text keys. -/
def textKeyed (pairs : List (String × Value)) : List (Value × Value) :=
  pairs.map fun pair => (.text pair.1, pair.2)

theorem setEntry_textKeyed (entries : List (String × Value)) (key : String) (v : Value) :
    setEntry (textKeyed entries) (.text key) v =
      textKeyed (OrderedMap.insertEntry key v entries) := by
  induction entries with
  | nil => rfl
  | cons entry rest ih =>
    have sameKey : same (.text entry.1) (.text key) = (entry.1 == key) := rfl
    change setEntry ((.text entry.1, entry.2) :: textKeyed rest) (.text key) v = _
    rw [setEntry, OrderedMap.insertEntry, sameKey, ih]
    split_ifs <;> rfl

/-- A mapping with text keys is an ordered map. -/
theorem ofPairs_textKeyed (pairs : List (String × Value)) :
    ofPairs (textKeyed pairs) = textKeyed (OrderedMap.ofList pairs).entries := by
  induction pairs using List.reverseRecOn with
  | nil => rfl
  | append_singleton pairs pair ih =>
    have last : ofPairs (textKeyed (pairs ++ [pair])) =
        setEntry (ofPairs (textKeyed pairs)) (.text pair.1) pair.2 := by
      simp [ofPairs, textKeyed]
    rw [last, ih, setEntry_textKeyed, OrderedMap.ofList_append_singleton]
    rfl

end DesignGraph.Value
