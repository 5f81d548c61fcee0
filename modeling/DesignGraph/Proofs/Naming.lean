import DesignGraph.Naming
import Mathlib.Data.List.Infix
import Mathlib.Data.List.SplitBy

/-!
# Words of a name

A kebab name has its hyphens from two steps that go from left to right and consume what they have
matched. The places of the hyphens have a rule of their own all the same, that looks at no more than
three characters: what a match of the first step has consumed ends in a small letter, so the second
step finds the word that begins there.
-/

namespace DesignGraph.Naming

variable {x y : Char} {rest cs : List Char}

/-- Whether a word begins with `y`, which comes after `x` and before `next`. -/
def beginsWord (x y : Char) (next : Option Char) : Bool :=
  isCapital y && (isSmallOrDigit x || (x ≠ '\n' && next.any isSmall))

/-- The first character of what is left of a name, with a hyphen if a word begins after it. -/
def hyphenatedHead : List Char → List Char
  | x :: y :: rest => if beginsWord x y rest.head? then [x, '-'] else [x]
  | cs => cs

/-- A hyphen before every word that begins within a name. Each place is judged by the name as it
is. -/
def hyphenated (name : List Char) : List Char := name.tails.flatMap hyphenatedHead

/-- Whether both characters are separators, or both are none. -/
def isSameKind (x y : Char) : Bool := isSeparator x == isSeparator y

/-- A hyphen for every longest run of separators. -/
def hyphenatedRuns (name : List Char) : List Char :=
  (name.splitBy isSameKind).flatMap fun run => if run.any isSeparator then ['-'] else run

/-! ## Classes of characters -/

theorem not_isCapital_of_isSmall (small : isSmall x = true) : isCapital x = false := by
  simp only [isSmall, isCapital, Bool.and_eq_true, decide_eq_true_eq, Bool.and_eq_false_iff,
    decide_eq_false_iff_not] at small ⊢
  refine .inr fun capital => ?_
  exact absurd (Char.le_trans small.1 capital) (by decide)

theorem not_isSmallOrDigit_of_isCapital (capital : isCapital x = true) :
    isSmallOrDigit x = false := by
  simp only [isSmallOrDigit, isSmall, isCapital, Bool.and_eq_true, decide_eq_true_eq,
    Bool.or_eq_false_iff, Bool.and_eq_false_iff, decide_eq_false_iff_not] at capital ⊢
  refine ⟨.inl fun small => ?_, .inr fun digit => ?_⟩
  · exact absurd (Char.le_trans small capital.2) (by decide)
  · exact absurd (Char.le_trans capital.1 digit) (by decide)

/-! ## Places of hyphens -/

theorem hyphenated_nil : hyphenated [] = [] := rfl

theorem hyphenated_singleton (x : Char) : hyphenated [x] = [x] := by
  simp [hyphenated, hyphenatedHead]

theorem hyphenated_cons_cons (x y : Char) (rest : List Char) :
    hyphenated (x :: y :: rest) =
      if beginsWord x y rest.head? then x :: '-' :: hyphenated (y :: rest)
      else x :: hyphenated (y :: rest) := by
  rw [hyphenated, List.tails_cons, List.flatMap_cons, hyphenatedHead]
  split <;> rfl

/-- No word begins with what is no capital. -/
theorem hyphenated_cons_of_not_isCapital (small : isCapital y = false) (x : Char)
    (rest : List Char) : hyphenated (x :: y :: rest) = x :: hyphenated (y :: rest) := by
  simp [hyphenated_cons_cons, beginsWord, small]

/-- The second step begins no match with a character that is no small letter or digit. -/
theorem hyphenateHumps_cons (x : Char) (cs : List Char) (other : isSmallOrDigit x = false) :
    hyphenateHumps (x :: cs) = x :: hyphenateHumps cs := by
  cases cs with
  | nil => rfl
  | cons y rest => simp [hyphenateHumps, other]

/-- What the second step consumes with a hyphen it would leave as it is. -/
theorem hyphenateHumps_cons_cons (x y : Char) (rest : List Char) :
    hyphenateHumps (x :: y :: rest) =
      if isSmallOrDigit x && isCapital y then x :: '-' :: hyphenateHumps (y :: rest)
      else x :: hyphenateHumps (y :: rest) := by
  rw [hyphenateHumps]
  split
  · next hump =>
    obtain ⟨-, capital⟩ := Bool.and_eq_true_iff.mp hump
    rw [hyphenateHumps_cons y rest (not_isSmallOrDigit_of_isCapital capital)]
  · rfl

/-- The first step keeps the first character of a name. -/
theorem exists_hyphenateWords_cons (x : Char) (cs : List Char) :
    ∃ more, hyphenateWords (x :: cs) = x :: more := by
  unfold hyphenateWords
  split
  · next given =>
    obtain ⟨rfl, -⟩ := List.cons.inj given
    split <;> exact ⟨_, rfl⟩
  · exact ⟨cs, rfl⟩

/-- The two steps together put a hyphen before every word. After a match of the first step, the
second finds what the rule finds, as the match ends in a small letter. -/
theorem hyphenateHumps_hyphenateWords (name : List Char) :
    hyphenateHumps (hyphenateWords name) = hyphenated name := by
  refine hyphenateWords.induct
    (fun cs => ∀ x, (isSmall x = true ∨ ∃ c ∈ cs.head?, isSmall c = true) →
      hyphenateHumps (x :: hyphenateWords.wordTail cs) = hyphenated (x :: cs))
    (fun cs => hyphenateHumps (hyphenateWords cs) = hyphenated cs)
    ?tailEnd ?tailSmall ?tailOther ?word ?noWord ?short name
  case tailEnd =>
    intro x _
    rw [hyphenateWords.wordTail, hyphenated_singleton]
    rfl
  case tailSmall =>
    intro c rest small ih x _
    have noCapital := not_isCapital_of_isSmall small
    rw [hyphenateWords.wordTail, if_pos small, hyphenateHumps_cons_cons, noCapital, Bool.and_false,
      if_neg Bool.false_ne_true, ih c (.inl small), hyphenated_cons_of_not_isCapital noCapital]
  case tailOther =>
    intro c rest other ih x begun
    have small : isSmall x = true := by simpa [other] using begun
    obtain ⟨more, kept⟩ := exists_hyphenateWords_cons c rest
    rw [hyphenateWords.wordTail, if_neg other]
    rw [kept] at ih ⊢
    rw [hyphenateHumps_cons_cons, ih, hyphenated_cons_cons]
    simp [beginsWord, isSmallOrDigit, small]
  case word =>
    intro x y z rest found ih
    obtain ⟨⟨noLineFeed, capital⟩, small⟩ : (x ≠ '\n' ∧ isCapital y = true) ∧ isSmall z = true := by
      simpa using found
    have begins : beginsWord x y (z :: rest).head? = true := by
      simp [beginsWord, noLineFeed, capital, small]
    rw [hyphenateWords, if_pos found, hyphenated_cons_cons, if_pos begins,
      ← ih y (.inr ⟨z, rfl, small⟩), hyphenateHumps_cons_cons, if_neg (by simp [isCapital]),
      hyphenateHumps_cons '-' _ (by decide)]
  case noWord =>
    intro x y z rest noMatch ih
    have begins_iff : beginsWord x y (z :: rest).head? = (isSmallOrDigit x && isCapital y) := by
      revert noMatch
      cases capital : isCapital y <;> cases small : isSmall z <;>
        simp +contextual [beginsWord, capital, small]
    obtain ⟨more, kept⟩ := exists_hyphenateWords_cons y (z :: rest)
    rw [hyphenateWords, if_neg noMatch, hyphenated_cons_cons, begins_iff]
    rw [kept] at ih ⊢
    rw [hyphenateHumps_cons_cons, ih]
  case short =>
    intro cs short
    match cs with
    | [] => simp [hyphenateWords, hyphenateHumps, hyphenated_nil]
    | [x] => simp [hyphenateWords, hyphenateHumps, hyphenated_singleton]
    | [x, y] =>
      rw [hyphenated_cons_cons, hyphenated_singleton]
      simp [hyphenateWords, hyphenateHumps, beginsWord, Bool.and_comm]
    | x :: y :: z :: rest => exact (short x y z rest rfl).elim

example : hyphenated "HTTPServer2Go".toList = "HTTP-Server2-Go".toList := by decide +kernel

/-! ## Runs of separators -/

/-- Separators that go on with a run are dropped. -/
theorem joinSeparators_true_append {run : List Char} (within : ∀ c ∈ run, isSeparator c = true)
    (cs : List Char) : joinSeparators true (run ++ cs) = joinSeparators true cs := by
  induction run with
  | nil => rfl
  | cons c run ih =>
    obtain ⟨first, others⟩ := List.forall_mem_cons.mp within
    rw [List.cons_append, joinSeparators, if_pos first, if_pos rfl, ih others]

/-- What is no separator is kept. -/
theorem joinSeparators_false_append {run : List Char} (outside : ∀ c ∈ run, isSeparator c = false)
    (cs : List Char) : joinSeparators false (run ++ cs) = run ++ joinSeparators false cs := by
  induction run with
  | nil => rfl
  | cons c run ih =>
    obtain ⟨first, others⟩ := List.forall_mem_cons.mp outside
    rw [List.cons_append, joinSeparators, first, if_neg Bool.false_ne_true, ih others,
      List.cons_append]

/-- A run has ended where no separator follows. -/
theorem joinSeparators_true_of_head? (ended : ∀ c ∈ cs.head?, isSeparator c = false) :
    joinSeparators true cs = joinSeparators false cs := by
  cases cs with
  | nil => rfl
  | cons c rest => simp [joinSeparators, ended c rfl]

/-- The characters of a run are all separators, or none of them is. -/
theorem isSeparator_of_isChain {c : Char} {run : List Char}
    (chain : (c :: run).IsChain fun x y => isSameKind x y = true) :
    ∀ d ∈ c :: run, isSeparator d = isSeparator c := by
  induction run generalizing c with
  | nil => simp
  | cons next run ih =>
    obtain ⟨same, chain⟩ := List.isChain_cons_cons.mp chain
    refine List.forall_mem_cons.mpr ⟨rfl, fun d member => ?_⟩
    rw [ih chain d member, beq_iff_eq.mp same]

/-- Runs of separators and of other characters in turn are joined one by one. -/
theorem joinSeparators_flatten {runs : List (List Char)} (given : [] ∉ runs)
    (uniform : ∀ run ∈ runs, run.IsChain fun x y => isSameKind x y = true)
    (turns : runs.IsChain fun run next =>
      ∃ ends begins, isSameKind (run.getLast ends) (next.head begins) = false) :
    joinSeparators false runs.flatten =
      runs.flatMap fun run => if run.any isSeparator then ['-'] else run := by
  induction runs with
  | nil => rfl
  | cons run runs ih =>
    obtain ⟨notBlank, others⟩ := not_or.mp (mt List.mem_cons.mpr given)
    obtain ⟨c, more, rfl⟩ := List.exists_cons_of_ne_nil (Ne.symm notBlank)
    have kind := isSeparator_of_isChain (uniform _ List.mem_cons_self)
    have joined := ih others (List.forall_mem_cons.mp uniform).2 turns.tail
    rw [List.flatten_cons, List.flatMap_cons]
    cases separates : isSeparator c with
    | false =>
      have outside : ∀ d ∈ c :: more, isSeparator d = false :=
        fun d member => (kind d member).trans separates
      rw [joinSeparators_false_append outside, joined, if_neg (by simpa using outside)]
    | true =>
      have within : ∀ d ∈ c :: more, isSeparator d = true :=
        fun d member => (kind d member).trans separates
      have ended : ∀ d ∈ runs.flatten.head?, isSeparator d = false := by
        cases runs with
        | nil => simp
        | cons next runs =>
          obtain ⟨⟨ends, begins, other⟩, -⟩ := List.isChain_cons_cons.mp turns
          obtain ⟨d, rest, rfl⟩ := List.exists_cons_of_ne_nil begins
          rw [isSameKind, within _ (List.getLast_mem ends)] at other
          simpa using other
      rw [List.cons_append, joinSeparators, if_pos separates, if_neg Bool.false_ne_true,
        joinSeparators_true_append (List.forall_mem_cons.mp within).2,
        joinSeparators_true_of_head? ended, joined, if_pos (by simp [separates])]
      rfl

/-- Joining separators puts one hyphen for every longest run of them. -/
theorem joinSeparators_false (name : List Char) :
    joinSeparators false name = hyphenatedRuns name := by
  have joined := joinSeparators_flatten (List.nil_notMem_splitBy isSameKind name)
    (fun _ => List.isChain_of_mem_splitBy) (List.isChain_getLast_head_splitBy isSameKind name)
  rwa [List.flatten_splitBy] at joined

/-- A kebab name by one rule for the places of its hyphens. -/
theorem kebab_eq_hyphenated (name : String) :
    kebab name = String.ofList
      (Text.lower (dropHyphens (hyphenatedRuns (hyphenated name.toList)))) := by
  rw [kebab, kebabChars, hyphenateHumps_hyphenateWords, joinSeparators_false]

end DesignGraph.Naming
