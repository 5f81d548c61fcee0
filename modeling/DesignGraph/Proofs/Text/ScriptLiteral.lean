import DesignGraph.Proofs.Json.Layout
import DesignGraph.Proofs.Text.Quoted

/-!
# String literals of scripts

A script holds a text as units of sixteen bits: the number of a character, or two halves if it lies
beyond the basic plane. The ASCII form of a text is a literal of the units of this text and of no
other, and reading it as JSON gives the text back.
-/

namespace DesignGraph.Text.Script

/-- The units of a character. -/
def unitsOf (c : Char) : List Nat :=
  if c.toNat < 0x10000 then [c.toNat]
  else [0xd800 + (c.toNat - 0x10000) / 0x400, 0xdc00 + (c.toNat - 0x10000) % 0x400]

/-- Escapes of one letter, as far as scripts and JSON share them. -/
def escapes : List (Char × Char) :=
  [('"', '"'), ('\\', '\\'), ('/', '/'), ('b', '\x08'), ('f', '\x0c'), ('n', '\n'), ('r', '\r'),
    ('t', '\t')]

/-- What stands between the quotes of a literal denotes a sequence of units. -/
inductive Denotes : List Char → List Nat → Prop
  | nil : Denotes [] []
  | plain {c : Char} {cs : List Char} {us : List Nat} (isPlain : Json.isPlain c = true)
      (later : Denotes cs us) : Denotes (c :: cs) (unitsOf c ++ us)
  | escape {letter c : Char} {cs : List Char} {us : List Nat} (listed : (letter, c) ∈ escapes)
      (later : Denotes cs us) : Denotes ('\\' :: letter :: cs) (unitsOf c ++ us)
  | code {digits cs : List Char} {n : Nat} {us : List Nat} (four : digits.length = 4)
      (number : hexNumber? digits = some n) (later : Denotes cs us) :
      Denotes ('\\' :: 'u' :: (digits ++ cs)) (n :: us)

/-- The literal denotes the text. -/
def IsLiteral (literal s : String) : Prop :=
  ∃ body, literal.toList = '"' :: body ++ ['"'] ∧ Denotes body (s.toList.flatMap unitsOf)

variable {c : Char} {cs : List Char} {us : List Nat}

/-! ## Units -/

theorem toNat_lt_or (c : Char) : c.toNat < 0xd800 ∨ 0xdfff < c.toNat ∧ c.toNat < 0x110000 := c.valid

theorem lt_of_mem_unitsOf {n : Nat} (member : n ∈ unitsOf c) : n < 16 ^ 4 := by
  have valid := toNat_lt_or c
  unfold unitsOf at member
  split_ifs at member with basic
  · rw [List.mem_singleton] at member
    omega
  · rw [List.mem_pair] at member
    omega

theorem escapeCode_toNat (c : Char) :
    Quoted.escapeCode c.toNat = (unitsOf c).flatMap Quoted.unit := by
  unfold Quoted.escapeCode unitsOf
  split_ifs
  · simp
  · simp

/-- No unit of a character is half of a pair unless it is written as a pair. -/
theorem unitsOf_append_inj {d : Char} {vs : List Nat}
    (same : unitsOf c ++ us = unitsOf d ++ vs) : c = d ∧ us = vs := by
  have first := toNat_lt_or c
  have second := toNat_lt_or d
  unfold unitsOf at same
  split_ifs at same <;> simp only [List.cons_append, List.nil_append, List.cons.injEq] at same
  · exact ⟨Char.toNat_inj.mp same.1, same.2⟩
  · omega
  · omega
  · exact ⟨Char.toNat_inj.mp (by omega), same.2.2⟩

theorem flatMap_unitsOf_inj {s t : List Char} :
    s.flatMap unitsOf = t.flatMap unitsOf ↔ s = t := by
  refine ⟨fun same => ?_, congrArg _⟩
  have given (c : Char) : unitsOf c ≠ [] := by
    unfold unitsOf
    split_ifs <;> exact List.cons_ne_nil _ _
  induction s generalizing t with
  | nil =>
    cases t with
    | nil => rfl
    | cons d t => exact absurd (List.append_eq_nil_iff.mp same.symm).1 (given d)
  | cons c s ih =>
    cases t with
    | nil => exact absurd (List.append_eq_nil_iff.mp same).1 (given c)
    | cons d t =>
      obtain ⟨rfl, others⟩ := unitsOf_append_inj same
      rw [ih others]

/-! ## One character -/

theorem denotes_nil_iff : Denotes [] us ↔ us = [] := by
  constructor
  · intro denotes
    cases denotes
    rfl
  · rintro rfl
    exact .nil

theorem not_isPlain_backslash : Json.isPlain '\\' ≠ true := by decide

theorem denotes_plain_iff (isPlain : Json.isPlain c = true) :
    Denotes (c :: cs) us ↔ ∃ rest, us = unitsOf c ++ rest ∧ Denotes cs rest := by
  constructor
  · intro denotes
    cases denotes with
    | plain _ later => exact ⟨_, rfl, later⟩
    | escape _ _ => exact absurd isPlain not_isPlain_backslash
    | code _ _ _ => exact absurd isPlain not_isPlain_backslash
  · rintro ⟨rest, rfl, later⟩
    exact .plain isPlain later

theorem denotes_escape_iff {letter : Char} (listed : (letter, c) ∈ escapes) :
    Denotes ('\\' :: letter :: cs) us ↔ ∃ rest, us = unitsOf c ++ rest ∧ Denotes cs rest := by
  have distinct : ∀ one ∈ escapes, ∀ other ∈ escapes, one.1 = other.1 → one.2 = other.2 := by
    decide
  have notCode : ∀ one ∈ escapes, one.1 ≠ 'u' := by decide
  constructor
  · intro denotes
    generalize split : '\\' :: letter :: cs = whole at denotes
    cases denotes with
    | nil => cases split
    | plain isPlain _ =>
      cases split
      exact absurd isPlain not_isPlain_backslash
    | escape again later =>
      cases split
      obtain rfl : c = _ := distinct _ listed _ again rfl
      exact ⟨_, rfl, later⟩
    | code _ _ _ =>
      cases split
      exact absurd rfl (notCode _ listed)
  · rintro ⟨rest, rfl, later⟩
    exact .escape listed later

theorem denotes_unit_iff {n : Nat} (fits : n < 16 ^ 4) :
    Denotes (Quoted.unit n ++ cs) us ↔ ∃ rest, us = n :: rest ∧ Denotes cs rest := by
  have notLetter : ∀ one ∈ escapes, one.1 ≠ 'u' := by decide
  have opened : Quoted.unit n ++ cs = '\\' :: 'u' :: (hexDigits 4 n ++ cs) := by
    rw [Quoted.unit, List.cons_append, List.cons_append]
  rw [opened]
  constructor
  · intro denotes
    generalize split : '\\' :: 'u' :: (hexDigits 4 n ++ cs) = whole at denotes
    cases denotes with
    | nil => cases split
    | plain isPlain _ =>
      cases split
      exact absurd isPlain not_isPlain_backslash
    | escape listed _ =>
      cases split
      exact absurd rfl (notLetter _ listed)
    | code four number later =>
      have tails := (List.cons.inj (List.cons.inj split).2).2
      obtain ⟨rfl, rfl⟩ := List.append_inj tails ((length_hexDigits 4 n).trans four.symm)
      rw [hexNumber?_hexDigits fits, Option.some.injEq] at number
      exact ⟨_, number ▸ rfl, later⟩
  · rintro ⟨rest, rfl, later⟩
    exact .code (length_hexDigits 4 n) (hexNumber?_hexDigits fits) later

theorem denotes_units_iff {ns : List Nat} (fit : ∀ n ∈ ns, n < 16 ^ 4) :
    Denotes (ns.flatMap Quoted.unit ++ cs) us ↔ ∃ rest, us = ns ++ rest ∧ Denotes cs rest := by
  induction ns generalizing us with
  | nil => simp
  | cons n ns ih =>
    obtain ⟨first, others⟩ := List.forall_mem_cons.mp fit
    rw [List.flatMap_cons, List.append_assoc, denotes_unit_iff first]
    simp only [ih others]
    constructor
    · rintro ⟨_, rfl, rest, rfl, later⟩
      exact ⟨rest, rfl, later⟩
    · rintro ⟨rest, rfl, later⟩
      exact ⟨_, rfl, rest, rfl, later⟩

theorem isPlain_of_isPrintable (printable : IsPrintable c) (quote : c ≠ '"')
    (backslash : c ≠ '\\') : Json.isPlain c = true := by
  have visible : ¬ c.toNat < 0x20 := Nat.not_lt.mpr printable.1
  simp [Json.isPlain, quote, backslash, visible]

theorem denotes_encodeChar_iff (c : Char) : Denotes (Quoted.encodeChar .ascii c ++ cs) us ↔
    ∃ rest, us = unitsOf c ++ rest ∧ Denotes cs rest := by
  generalize Quoted.encodeChar .ascii c = written, Quoted.written_encodeChar c = form
  cases form with
  | itself printable quote backslash =>
    exact denotes_plain_iff (isPlain_of_isPrintable printable quote backslash)
  | letter listed =>
    have shared : ∀ one ∈ Quoted.shortEscapes, one ∈ escapes := by decide
    exact denotes_escape_iff (shared _ listed)
  | code _ =>
    rw [escapeCode_toNat]
    exact denotes_units_iff fun n => lt_of_mem_unitsOf

theorem denotes_encodeChars_iff {s : List Char} :
    Denotes (s.flatMap (Quoted.encodeChar .ascii)) us ↔ us = s.flatMap unitsOf := by
  induction s generalizing us with
  | nil => exact denotes_nil_iff
  | cons c s ih =>
    rw [List.flatMap_cons, denotes_encodeChar_iff, List.flatMap_cons]
    simp only [ih, exists_eq_right]

/-- The ASCII form of a text is a literal of this text and of no other. -/
theorem isLiteral_quoted_iff {s t : String} : IsLiteral (quoted .ascii s) t ↔ t = s := by
  rw [← String.toList_inj, ← flatMap_unitsOf_inj, ← denotes_encodeChars_iff, IsLiteral,
    toList_quoted]
  simp

end DesignGraph.Text.Script

/-! ## Reading as JSON -/

namespace DesignGraph.Json

open Text Text.Quoted Text.Script

variable {c : Char} {n bound : Nat} {done : List Char}

theorem unit?_hexDigits (fits : n < 16 ^ 4) (rest : Rest) :
    unit? (hexDigits 4 n ++ rest) = some (n, rest) := by
  have number := hexNumber?_hexDigits fits
  simp only [hexDigits, List.nil_append, List.cons_append, unit?] at number ⊢
  rw [number]
  rfl

theorem string_unit (fits : n < 16 ^ 4) (rest : Rest) :
    string (bound + 1) done (unit n ++ rest) =
      string bound ((joinUnits n rest).1 :: done) (joinUnits n rest).2 := by
  rw [unit, List.cons_append, List.cons_append, string, unit?_hexDigits fits]

/-- The units of a character are joined again. -/
theorem string_code (c : Char) (rest : Rest) :
    string (bound + 1) done (escapeCode c.toNat ++ rest) = string bound (c :: done) rest := by
  have units := @lt_of_mem_unitsOf c
  have valid := toNat_lt_or c
  rw [escapeCode_toNat]
  unfold unitsOf at units ⊢
  split_ifs at units ⊢ with basic
  · have joined : joinUnits c.toNat rest = (c, rest) := by
      have leading : ¬ (0xd800 ≤ c.toNat ∧ c.toNat < 0xdc00) := by omega
      have trailing : ¬ (0xdc00 ≤ c.toNat ∧ c.toNat < 0xe000) := by omega
      simp [joinUnits, leading, trailing]
    rw [List.flatMap_singleton, string_unit (units List.mem_cons_self), joined]
  · obtain ⟨first, others⟩ := List.forall_mem_cons.mp fun n => @units n
    have second := others _ (List.mem_singleton_self _)
    have joined : joinUnits (0xd800 + (c.toNat - 0x10000) / 0x400)
        (unit (0xdc00 + (c.toNat - 0x10000) % 0x400) ++ rest) = (c, rest) := by
      have leading : (c.toNat - 0x10000) / 0x400 < 0x400 := by omega
      have trailing : (c.toNat - 0x10000) % 0x400 < 0x400 := by omega
      have whole : 0x10000 + (c.toNat - 0x10000) / 0x400 * 0x400 + (c.toNat - 0x10000) % 0x400 =
          c.toNat := by omega
      rw [unit, List.cons_append, List.cons_append, joinUnits]
      simp only [unit?_hexDigits second]
      rw [if_pos, if_pos]
      · simp only [Nat.add_sub_cancel_left, whole, Char.ofNat_toNat]
      all_goals simp only [Bool.and_eq_true, decide_eq_true_eq]
      · exact ⟨Nat.le_add_right _ _, Nat.add_lt_add_left trailing 0xdc00⟩
      · exact ⟨Nat.le_add_right _ _, Nat.add_lt_add_left leading 0xd800⟩
    rw [List.flatMap_cons, List.flatMap_singleton, List.append_assoc, string_unit first, joined]

theorem string_encodeChar (c : Char) (rest : Rest) :
    string (bound + 1) done (encodeChar .ascii c ++ rest) = string bound (c :: done) rest := by
  generalize encodeChar .ascii c = written, written_encodeChar c = form
  cases form with
  | itself printable quote backslash =>
    exact string_cons (isPlain_of_isPrintable printable quote backslash) bound done rest
  | letter listed =>
    simp only [shortEscapes, List.mem_cons, Prod.mk.injEq, List.not_mem_nil, or_false] at listed
    rcases listed with ⟨rfl, rfl⟩ | ⟨rfl, rfl⟩ | ⟨rfl, rfl⟩ | ⟨rfl, rfl⟩ | ⟨rfl, rfl⟩ | ⟨rfl, rfl⟩ |
      ⟨rfl, rfl⟩
    all_goals rfl
  | code _ => exact string_code c rest

theorem string_encoded {cs : List Char} {rest : Rest} (room : cs.length < bound) :
    string bound done (cs.flatMap (encodeChar .ascii) ++ '"' :: rest) =
      .ok (String.ofList (done.reverse ++ cs), rest) := by
  induction cs generalizing bound done with
  | nil =>
    obtain ⟨bound, rfl⟩ := Nat.exists_eq_add_of_lt room
    rw [List.append_nil]
    rfl
  | cons c cs ih =>
    cases bound with
    | zero => cases room
    | succ bound =>
      rw [List.flatMap_cons, List.append_assoc, string_encodeChar,
        ih (Nat.lt_of_succ_lt_succ room), List.reverse_cons, List.append_assoc]
      rfl

/-- The ASCII form of a text is read as this text. -/
theorem read_quoted (s : String) : read (Text.quoted .ascii s) = .ok (.text s) := by
  have room : s.toList.length < (s.toList.flatMap (encodeChar .ascii) ++ ['"']).length + 1 := by
    have covered := length_le_length_encoded s.toList
    rw [List.length_append]
    omega
  rw [read, toList_quoted, List.cons_append, skipSpace_mark rfl]
  simp only [value, string_encoded room, List.reverse_nil, List.nil_append, String.ofList_toList]
  rfl

end DesignGraph.Json
