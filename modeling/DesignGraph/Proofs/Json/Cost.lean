import DesignGraph.Json.Reader
import DesignGraph.Proofs.Answers
import Mathlib.Algebra.GroupWithZero.Nat
import Mathlib.Data.List.Induction
import Mathlib.Data.List.TakeDrop
import Mathlib.Tactic.SplitIfs

/-!
# Reading JSON: what a value costs

A JSON text of a value has at least the brackets, commas, colons and quotes of the value, and in a
string two characters for each character that has to be escaped. Blanks between tokens add to the
length of a text only, so they do not count.
-/

namespace DesignGraph.Json

/-! ## Weights -/

/-- Whether a character is skipped between tokens. -/
def isBlank (c : Char) : Bool := c = ' ' || c = '\t' || c = '\n' || c = '\r'

/-- The number of characters that are no blanks. -/
def weight (cs : Rest) : Nat := cs.countP fun c => !isBlank c

/-- Whether a character may stand in a string as it is. -/
def isPlain (c : Char) : Bool := !(c = '"' || c = '\\' || c.toNat < 0x20)

/-- What a string has at least for a character. -/
def charCost (c : Char) : Nat := if isPlain c then weight [c] else 2

def charsCost (cs : List Char) : Nat := (cs.map charCost).sum

@[simp] theorem weight_nil : weight [] = 0 := rfl

theorem weight_cons (c : Char) (cs : Rest) : weight (c :: cs) = weight [c] + weight cs := by
  simp only [weight, List.countP_cons, List.countP_nil]
  omega

theorem weight_append (cs ds : Rest) : weight (cs ++ ds) = weight cs + weight ds :=
  List.countP_append

theorem weight_le_of_suffix {rest cs : Rest} (suffix : rest <:+ cs) : weight rest ≤ weight cs :=
  suffix.sublist.countP_le

theorem weight_singleton_le (c : Char) : weight [c] ≤ 1 := List.countP_le_length

@[simp] theorem weight_skipSpace (cs : Rest) : weight (skipSpace cs) = weight cs := by
  induction cs with
  | nil => rfl
  | cons c rest ih =>
    unfold skipSpace at ih ⊢
    rw [List.dropWhile_cons]
    split_ifs with blank
    · have light : weight [c] = 0 := by
        change isBlank c = true at blank
        simp [weight, blank]
      rw [ih, weight_cons c rest, light, Nat.zero_add]
    · rfl

theorem charCost_le (c : Char) : charCost c ≤ 2 := by
  have light := weight_singleton_le c
  unfold charCost
  split_ifs <;> omega

theorem weight_singleton_le_charCost (c : Char) : weight [c] ≤ charCost c := by
  have light := weight_singleton_le c
  unfold charCost
  split_ifs <;> omega

@[simp] theorem charsCost_nil : charsCost [] = 0 := rfl

theorem charsCost_cons (c : Char) (cs : List Char) :
    charsCost (c :: cs) = charCost c + charsCost cs := rfl

theorem charsCost_append (cs ds : List Char) :
    charsCost (cs ++ ds) = charsCost cs + charsCost ds := by
  simp [charsCost]

theorem charsCost_reverse (cs : List Char) : charsCost cs.reverse = charsCost cs := by
  simp [charsCost]

theorem weight_le_charsCost (cs : List Char) : weight cs ≤ charsCost cs := by
  induction cs with
  | nil => exact Nat.le_refl _
  | cons c rest ih =>
    rw [weight_cons, charsCost_cons]
    exact Nat.add_le_add (weight_singleton_le_charCost c) ih

/-- Characters that have to be escaped cost more than they weigh. -/
theorem charsCost_le_weight_iff {cs : List Char} :
    charsCost cs ≤ weight cs ↔ ∀ c ∈ cs, isPlain c = true := by
  induction cs with
  | nil => simp
  | cons c rest ih =>
    have least := weight_singleton_le_charCost c
    have others := weight_le_charsCost rest
    have light := weight_singleton_le c
    rw [weight_cons, charsCost_cons, List.forall_mem_cons, ← ih]
    by_cases plain : isPlain c = true
    · have same : charCost c = weight [c] := if_pos plain
      rw [same, Nat.add_le_add_iff_left]
      exact (and_iff_right plain).symm
    · have dear : charCost c = 2 := if_neg plain
      constructor
      · intro bounded
        omega
      · exact fun both => absurd both.1 plain

/-! ## Costs -/

mutual

/-- What a JSON text of a value weighs at least; a number or a word may weigh nothing here. -/
def cost : Value → Nat
  | .text s => 2 + charsCost s.toList
  | .list items => max 2 (1 + itemsCost items)
  | .map entries => max 2 (1 + entriesCost entries)
  | _ => 0

/-- Each item has a comma or the closing bracket after it. -/
def itemsCost : List Value → Nat
  | [] => 0
  | v :: rest => cost v + 1 + itemsCost rest

/-- Each entry has a colon in it, and a comma or the closing brace after it. -/
def entriesCost : List (Value × Value) → Nat
  | [] => 0
  | (k, v) :: rest => cost k + 1 + cost v + 1 + entriesCost rest

end

/-- Setting an entry costs no more than having it in addition. -/
theorem entriesCost_setEntry_le (entries : List (Value × Value)) (key v : Value) :
    entriesCost (Value.setEntry entries key v) ≤ entriesCost entries + entriesCost [(key, v)] := by
  induction entries with
  | nil => exact Nat.le_add_left _ _
  | cons entry rest ih =>
    obtain ⟨k, old⟩ := entry
    unfold Value.setEntry
    split_ifs
    · simp only [entriesCost]
      omega
    · simp only [entriesCost] at ih ⊢
      omega

theorem entriesCost_append (first second : List (Value × Value)) :
    entriesCost (first ++ second) = entriesCost first + entriesCost second := by
  induction first with
  | nil => simp [entriesCost]
  | cons entry rest ih =>
    obtain ⟨k, v⟩ := entry
    rw [List.cons_append, entriesCost, entriesCost, ih, ← Nat.add_assoc]

/-- A repeated name costs no more than it is written. -/
theorem entriesCost_ofPairs_le (pairs : List (Value × Value)) :
    entriesCost (Value.ofPairs pairs) ≤ entriesCost pairs := by
  induction pairs using List.reverseRecOn with
  | nil => exact Nat.le_refl _
  | append_singleton pairs pair ih =>
    have last := entriesCost_setEntry_le (Value.ofPairs pairs) pair.1 pair.2
    rw [entriesCost_append]
    unfold Value.ofPairs at ih last ⊢
    rw [List.foldl_append]
    exact Nat.le_trans last (Nat.add_le_add_right ih _)

/-! ## Strings -/

theorem weight_unit?_le {cs rest : Rest} {code : Nat} (read : unit? cs = some (code, rest)) :
    weight rest ≤ weight cs := by
  unfold unit? at read
  split at read
  · next a b c d more =>
    obtain ⟨_, -, same⟩ := Option.map_eq_some_iff.mp read
    cases same
    exact weight_le_of_suffix ⟨[a, b, c, d], rfl⟩
  · cases read

theorem weight_joinUnits_le (code : Nat) (cs : Rest) :
    weight (joinUnits code cs).2 ≤ weight cs := by
  unfold joinUnits
  split_ifs
  · split
    · next more =>
      split
      · next low rest found =>
        have after : weight more ≤ weight ('\\' :: 'u' :: more) :=
          weight_le_of_suffix ⟨['\\', 'u'], rfl⟩
        split_ifs
        · exact Nat.le_trans (weight_unit?_le found) after
        · exact Nat.le_refl _
      · exact Nat.le_refl _
    · exact Nat.le_refl _
  · exact Nat.le_refl _
  · exact Nat.le_refl _

theorem weight_of_shortEscape? {mark c : Char} (found : shortEscape? mark = some c) :
    weight [mark] = 1 := by
  unfold shortEscape? at found
  split at found
  all_goals first | rfl | cases found

/-- A string weighs at least what the characters that it stands for cost. -/
theorem weight_string {bound : Nat} {done : List Char} {cs rest : Rest} {s : String}
    (read : string bound done cs = .ok (s, rest)) :
    weight rest + 1 + charsCost s.toList ≤ weight cs + charsCost done := by
  fun_induction string bound done cs with
  | case1 => cases read
  | case2 => cases read
  | case3 done bound more =>
    cases read
    have quote : weight ['"'] = 1 := rfl
    rw [weight_cons, quote, String.toList_ofList, charsCost_reverse]
    omega
  | case4 done bound more code after found c last joined ih =>
    have later := ih read
    have units := weight_joinUnits_le code after
    rw [joined] at units
    change weight last ≤ weight after at units
    have escape : weight ('\\' :: 'u' :: more) = 2 + weight more :=
      weight_append ['\\', 'u'] more
    have digits := weight_unit?_le found
    have least := charCost_le c
    rw [charsCost_cons] at later
    rw [escape]
    omega
  | case5 => cases read
  | case6 done bound mark more _ c found ih =>
    have later := ih read
    have least := charCost_le c
    have escape := weight_append ['\\', mark] more
    rw [weight_cons, weight_of_shortEscape? found] at escape
    rw [charsCost_cons] at later
    change weight ('\\' :: mark :: more) = 1 + 1 + weight more at escape
    omega
  | case7 => cases read
  | case8 => cases read
  | case9 done bound c more notQuote _ _ allowed ih =>
    have later := ih read
    have plain : isPlain c = true := by
      simpa [isPlain, show c ≠ '"' from notQuote, and_comm] using allowed
    have same : charCost c = weight [c] := if_pos plain
    rw [charsCost_cons, same] at later
    rw [weight_cons]
    omega

/-! ## Scalars -/

theorem digits_suffix (cs : Rest) : (digits cs).2 <:+ cs := by
  rw [digits, List.span_eq_takeWhile_dropWhile]
  exact List.dropWhile_suffix _

theorem fraction_suffix (cs : Rest) : (fraction cs).2 <:+ cs := by
  unfold fraction
  split
  · next rest =>
    simp only
    split_ifs
    · exact List.suffix_rfl
    · exact (digits_suffix rest).trans (List.suffix_cons _ _)
  · exact List.suffix_rfl

theorem splitSign_suffix (cs : Rest) : (Numeral.splitSign cs).2 <:+ cs := by
  unfold Numeral.splitSign
  split
  · exact List.suffix_cons _ _
  · exact List.suffix_cons _ _
  · exact List.suffix_rfl

theorem exponent_suffix (cs : Rest) : (exponent cs).2 <:+ cs := by
  unfold exponent
  split
  · next mark rest =>
    simp only
    split_ifs
    · exact ((digits_suffix _).trans (splitSign_suffix rest)).trans (List.suffix_cons _ _)
    · exact List.suffix_rfl
  · exact List.suffix_rfl

theorem wholePart_suffix {cs whole rest : Rest} (read : wholePart cs = some (whole, rest)) :
    rest <:+ cs := by
  unfold wholePart at read
  split at read
  · cases read
    exact List.suffix_cons _ _
  · simp only at read
    split_ifs at read
    cases read
    exact digits_suffix cs

theorem weight_number {negative : Bool} {cs rest : Rest} {v : Value}
    (read : number negative cs = .ok (v, rest)) : weight rest ≤ weight cs ∧ cost v = 0 := by
  unfold number at read
  split at read
  · cases read
  · next whole after found =>
    have suffix :=
      ((exponent_suffix _).trans (fraction_suffix after)).trans (wholePart_suffix found)
    simp only at read
    split at read
    · split_ifs at read
      cases read
      exact ⟨weight_le_of_suffix suffix, rfl⟩
    · cases read
      exact ⟨weight_le_of_suffix suffix, rfl⟩

theorem weight_scalar {cs rest : Rest} {v : Value} (read : scalar cs = .ok (v, rest)) :
    weight rest ≤ weight cs ∧ cost v = 0 := by
  unfold scalar at read
  split at read
  · next result found =>
    cases read
    obtain ⟨⟨name, w⟩, listed, taken⟩ := List.exists_of_findSome?_eq_some found
    simp only [word] at taken
    split_ifs at taken
    cases taken
    have free : ∀ known ∈ words, cost known.2 = 0 := by simp [words, cost]
    exact ⟨weight_le_of_suffix (List.drop_suffix _ _), free _ listed⟩
  · split at read
    · next more =>
      obtain ⟨lighter, free⟩ := weight_number read
      exact ⟨Nat.le_trans lighter (weight_le_of_suffix (List.suffix_cons _ _)), free⟩
    · exact weight_number read

/-! ## Values -/

theorem weight_mark {c : Char} (marks : isBlank c = false) (cs : Rest) :
    weight (c :: cs) = 1 + weight cs := by
  have heavy : weight [c] = 1 := by simp [weight, marks]
  rw [weight_cons, heavy]

/-- What is read as a value within this bound weighs at least what the value costs. -/
def WeighsValues (bound : Nat) : Prop :=
  ∀ {cs rest : Rest} {v : Value}, value bound cs = .ok (v, rest) →
    weight rest + cost v ≤ weight cs

def WeighsMembers (bound : Nat) : Prop :=
  ∀ {cs rest : Rest} {found : List (Value × Value)}, members bound cs = .ok (found, rest) →
    1 ≤ entriesCost found ∧ weight rest + entriesCost found ≤ weight cs

def WeighsItems (bound : Nat) : Prop :=
  ∀ {cs rest : Rest} {found : List Value}, items bound cs = .ok (found, rest) →
    1 ≤ itemsCost found ∧ weight rest + itemsCost found ≤ weight cs

theorem weighsValues_succ {bound : Nat} (readsMembers : WeighsMembers bound)
    (readsItems : WeighsItems bound) : WeighsValues (bound + 1) := by
  intro cs rest v read
  unfold value at read
  split at read
  · cases read
  · next more _ =>
    obtain ⟨⟨s, after⟩, quoted, same⟩ := Answers.bind_eq_ok_iff.mp read
    cases same
    have weighs := weight_string quoted
    rw [weight_mark rfl, cost]
    rw [charsCost_nil] at weighs
    omega
  · next more same =>
    cases same
    have skipped := weight_skipSpace more
    rw [weight_mark rfl]
    split at read
    · next after closed =>
      cases read
      rw [closed, weight_mark rfl] at skipped
      simp only [cost, entriesCost]
      omega
    · obtain ⟨⟨found, after⟩, inner, same⟩ := Answers.bind_eq_ok_iff.mp read
      cases same
      obtain ⟨notNone, weighs⟩ := readsMembers inner
      have least := entriesCost_ofPairs_le found
      rw [cost]
      omega
  · next more same =>
    cases same
    have skipped := weight_skipSpace more
    rw [weight_mark rfl]
    split at read
    · next after closed =>
      cases read
      rw [closed, weight_mark rfl] at skipped
      simp only [cost, itemsCost]
      omega
    · obtain ⟨⟨found, after⟩, inner, same⟩ := Answers.bind_eq_ok_iff.mp read
      cases same
      obtain ⟨notNone, weighs⟩ := readsItems inner
      rw [cost]
      omega
  · obtain ⟨lighter, free⟩ := weight_scalar read
    omega

theorem weighsMembers_succ {bound : Nat} (readsValue : WeighsValues bound)
    (readsMembers : WeighsMembers bound) : WeighsMembers (bound + 1) := by
  intro cs rest found read
  unfold members at read
  split at read
  · cases read
  · next more same =>
    cases same
    obtain ⟨⟨name, after⟩, quoted, read⟩ := Answers.bind_eq_ok_iff.mp read
    have weighs := weight_string quoted
    have skipped := weight_skipSpace after
    rw [charsCost_nil] at weighs
    rw [weight_mark rfl]
    simp only at read
    split at read
    · next afterColon colon =>
      obtain ⟨⟨v, afterValue⟩, inner, read⟩ := Answers.bind_eq_ok_iff.mp read
      have weighsValue := readsValue inner
      have skippedValue := weight_skipSpace afterValue
      rw [colon, weight_mark rfl] at skipped
      rw [weight_skipSpace] at weighsValue
      simp only at read
      split at read
      · next afterComma comma =>
        obtain ⟨⟨others, _⟩, inner, same⟩ := Answers.bind_eq_ok_iff.mp read
        cases same
        obtain ⟨-, weighsOthers⟩ := readsMembers inner
        rw [comma, weight_mark rfl] at skippedValue
        rw [weight_skipSpace] at weighsOthers
        rw [entriesCost, cost]
        simp only
        omega
      · next afterBrace brace =>
        cases read
        rw [brace, weight_mark rfl] at skippedValue
        rw [entriesCost, entriesCost, cost]
        omega
      · cases read
    · cases read
  · cases read

theorem weighsItems_succ {bound : Nat} (readsValue : WeighsValues bound)
    (readsItems : WeighsItems bound) : WeighsItems (bound + 1) := by
  intro cs rest found read
  unfold items at read
  obtain ⟨⟨v, after⟩, inner, read⟩ := Answers.bind_eq_ok_iff.mp read
  have weighs := readsValue inner
  have skipped := weight_skipSpace after
  simp only at read
  split at read
  · next afterComma comma =>
    obtain ⟨⟨others, _⟩, inner, same⟩ := Answers.bind_eq_ok_iff.mp read
    cases same
    obtain ⟨-, weighsOthers⟩ := readsItems inner
    rw [comma, weight_mark rfl] at skipped
    rw [weight_skipSpace] at weighsOthers
    rw [itemsCost]
    simp only
    omega
  · next afterBracket bracket =>
    cases read
    rw [bracket, weight_mark rfl] at skipped
    rw [itemsCost, itemsCost]
    omega
  · cases read

/-- A value, the members of an object and the items of a list weigh at least what they cost. -/
theorem weight_read (bound : Nat) :
    WeighsValues bound ∧ WeighsMembers bound ∧ WeighsItems bound := by
  induction bound with
  | zero =>
    refine ⟨?_, ?_, ?_⟩
    all_goals
      intro cs rest found read
      cases read
  | succ bound ih =>
    obtain ⟨readsValue, readsMembers, readsItems⟩ := ih
    exact ⟨weighsValues_succ readsMembers readsItems,
      weighsMembers_succ readsValue readsMembers, weighsItems_succ readsValue readsItems⟩

/-- No text weighs less than the value that it is read as costs. -/
theorem cost_le_weight {s : String} {v : Value} (success : read s = .ok v) :
    cost v ≤ weight s.toList := by
  obtain ⟨⟨found, rest⟩, inner, ended⟩ := Answers.bind_eq_ok_iff.mp success
  simp only at ended
  split_ifs at ended
  · cases ended
    have weighs := (weight_read _).1 inner
    rw [weight_skipSpace] at weighs
    omega
  · cases ended

end DesignGraph.Json
