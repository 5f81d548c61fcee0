import DesignGraph.Proofs.Text.Quoted

/-!
# Strings of style sheets

What a token between double quotes denotes in a style sheet. Such strings share their quotes and
their backslashes with those of scripts. But a backslash before hexadecimal digits stands for the
character of that number here, and before any other character for that character. So the ASCII form
of a text denotes the text exactly if all its characters are printable ASCII.
-/

namespace DesignGraph.Text.Css

/-- A blank after the digits of an escape belongs to the escape. -/
def isBlank (c : Char) : Bool := c = ' ' || c = '\t' || c = '\n' || c = '\r' || c = '\x0c'

/-- The character of a number; where there is none, the replacement character. -/
def charOf (n : Nat) : Char := if n = 0 ∨ ¬ n.isValidChar then '\ufffd' else Char.ofNat n

/-- Where a reader of a string is: between characters, behind a backslash, or behind digits that
make up a number so far, with so many more to come at most. -/
inductive Place
  | between
  | escape
  | number (n more : Nat)

/-- What the reader has of a character, and where it is then. -/
def step : Place → Char → List Char × Place
  | .between, c => if c = '\\' then ([], .escape) else ([c], .between)
  | .escape, c =>
      match hexValue? c with
      | some digit => ([], .number digit 5)
      | none => ([c], .between)
  | .number n more, c =>
      match hexValue? c, more with
      | some digit, more + 1 => ([], .number (n * 16 + digit) more)
      | _, _ =>
          if isBlank c then ([charOf n], .between)
          else if c = '\\' then ([charOf n], .escape)
          else ([charOf n, c], .between)

/-- What the reader still has at the end. -/
def pending : Place → List Char
  | .number n _ => [charOf n]
  | _ => []

/-- The text that is read from a place on. -/
def unescape (place : Place) : List Char → List Char
  | [] => pending place
  | c :: cs => (step place c).1 ++ unescape (step place c).2 cs

/-- The token is one string, and it denotes the text. -/
def IsString (token s : String) : Prop :=
  ∃ body, token.toList = '"' :: body ++ ['"'] ∧ afterQuote? (body ++ ['"']) = some [] ∧
    unescape .between body = s.toList

variable {c : Char} {cs ds : List Char}

/-! ## Steps -/

theorem unescape_plain (plain : c ≠ '\\') (cs : List Char) :
    unescape .between (c :: cs) = c :: unescape .between cs := by
  rw [unescape, step, if_neg plain]
  rfl

/-- A character that is no digit stands for itself behind a backslash. -/
theorem unescape_escape (noDigit : hexValue? c = none) (cs : List Char) :
    unescape .between ('\\' :: c :: cs) = c :: unescape .between cs := by
  simp only [unescape, step, noDigit, if_true, List.nil_append, List.singleton_append]

theorem unescape_number {digit : Nat} (isDigit : hexValue? c = some digit) (cs : List Char) :
    unescape .between ('\\' :: c :: cs) = unescape (.number digit 5) cs := by
  simp only [unescape, step, isDigit, if_true, List.nil_append]

/-- A number only grows until its character is read. -/
theorem exists_unescape_number (n more : Nat) (cs : List Char) :
    ∃ m rest, n ≤ m ∧ unescape (.number n more) cs = charOf m :: rest := by
  induction cs generalizing n more with
  | nil => exact ⟨n, [], Nat.le_refl n, rfl⟩
  | cons c cs ih =>
    rw [unescape, step.eq_def]
    dsimp only
    split
    · next digit more _ =>
      obtain ⟨m, rest, larger, read⟩ := ih (n * 16 + digit) more
      exact ⟨m, rest, by omega, read⟩
    · split_ifs
      all_goals exact ⟨n, _, Nat.le_refl n, rfl⟩

theorem toNat_charOf {m : Nat} (given : m ≠ 0) (valid : m.isValidChar) : (charOf m).toNat = m := by
  rw [charOf, if_neg (by simp [given, valid]), Char.ofNat, dif_pos valid]
  rfl

theorem charOf_ne {m : Nat} (larger : c.toNat < m) (low : c.toNat < 0xfffd) : charOf m ≠ c := by
  rintro rfl
  by_cases valid : m.isValidChar
  · rw [toNat_charOf (Nat.ne_zero_of_lt larger) valid] at larger
    exact Nat.lt_irrefl m larger
  · rw [charOf, if_pos (.inr valid)] at low
    exact absurd low (by decide)

/-! ## Quoted texts -/

/-- A character of a quoted text is read again if it is printable, and as another one otherwise. -/
theorem unescape_encodeChar_iff (c : Char) :
    unescape .between (Quoted.encodeChar .ascii c ++ cs) = c :: ds ↔
      IsPrintable c ∧ unescape .between cs = ds := by
  generalize Quoted.encodeChar .ascii c = written, Quoted.written_encodeChar c = form
  -- Printable characters are read as what they are, and the others as one that differs.
  have itself : IsPrintable c → (c :: unescape .between cs = c :: ds ↔
      IsPrintable c ∧ unescape .between cs = ds) := fun printable => by
    rw [List.cons.injEq]
    exact and_congr_left fun _ => iff_of_true rfl printable
  have another {d : Char} {rest : List Char} (other : ¬ IsPrintable c) (differs : d ≠ c) :
      d :: rest = c :: ds ↔ IsPrintable c ∧ unescape .between cs = ds :=
    iff_of_false (fun same => differs (List.cons.inj same).1) fun printable => other printable.1
  cases form with
  | itself printable _ backslash =>
    rw [List.singleton_append, unescape_plain backslash]
    exact itself printable
  | letter listed =>
    simp only [Quoted.shortEscapes, List.mem_cons, Prod.mk.injEq, List.not_mem_nil, or_false]
      at listed
    rw [List.cons_append, List.singleton_append]
    rcases listed with ⟨rfl, rfl⟩ | ⟨rfl, rfl⟩ | ⟨rfl, rfl⟩ | ⟨rfl, rfl⟩ | ⟨rfl, rfl⟩ | ⟨rfl, rfl⟩ |
      ⟨rfl, rfl⟩
    · rw [unescape_escape rfl]
      exact itself (by decide)
    · rw [unescape_escape rfl]
      exact itself (by decide)
    · rw [unescape_escape rfl]
      exact another (by decide) (by decide)
    · rw [unescape_escape rfl]
      exact another (by decide) (by decide)
    · rw [unescape_escape rfl]
      exact another (by decide) (by decide)
    -- The letters of the last two are digits, of larger numbers than those of the characters.
    · obtain ⟨m, rest, larger, read⟩ := exists_unescape_number 11 5 cs
      rw [unescape_number (show hexValue? 'b' = some 11 from rfl), read]
      exact another (by decide) (charOf_ne (Nat.lt_of_lt_of_le (by decide) larger) (by decide))
    · obtain ⟨m, rest, larger, read⟩ := exists_unescape_number 15 5 cs
      rw [unescape_number (show hexValue? 'f' = some 15 from rfl), read]
      exact another (by decide) (charOf_ne (Nat.lt_of_lt_of_le (by decide) larger) (by decide))
  | code other =>
    obtain ⟨rest, opened⟩ := Quoted.exists_escapeCode c.toNat
    rw [opened, List.cons_append, List.cons_append, unescape_escape rfl]
    refine another other ?_
    rintro rfl
    exact other (by decide)

theorem unescape_encoded_iff {s : List Char} :
    unescape .between (s.flatMap (Quoted.encodeChar .ascii)) = s ↔ ∀ c ∈ s, IsPrintable c := by
  induction s with
  | nil => simp [unescape, pending]
  | cons c s ih => rw [List.flatMap_cons, unescape_encodeChar_iff, ih, List.forall_mem_cons]

theorem isString_quoted_iff {s t : String} : IsString (quoted .ascii s) t ↔
    unescape .between (s.toList.flatMap (Quoted.encodeChar .ascii)) = t.toList := by
  rw [IsString, toList_quoted]
  constructor
  · rintro ⟨body, split, -, read⟩
    rwa [List.append_cancel_right (List.cons.inj split).2]
  · intro read
    exact ⟨_, rfl, afterQuote?_encoded s.toList [], read⟩

/-- The ASCII form of a text is a string of this text exactly if the text is printable ASCII. -/
theorem isString_quoted_self_iff {s : String} :
    IsString (quoted .ascii s) s ↔ ∀ c ∈ s.toList, IsPrintable c := by
  rw [isString_quoted_iff, unescape_encoded_iff]

end DesignGraph.Text.Css
