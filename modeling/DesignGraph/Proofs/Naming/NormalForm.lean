import DesignGraph.Proofs.Naming
import DesignGraph.Proofs.Text.Case
import DesignGraph.Proofs.Text.Joined
import DesignGraph.Proofs.Text.Trimmed

/-!
# Kebab names as normal forms

A kebab name consists of the words of a name in small letters, with one hyphen between them. A
hyphen in a name ends a word and keeps the words at its sides apart: no new word begins across it,
and no sigma looks past it. So the words of joined names are the words of each of them, and a name
that is in kebab form already consists of its own words.
-/

namespace DesignGraph.Naming

variable {name : String} {word cs front rest : List Char} {words : List (List Char)} {c : Char}

/-- A name in kebab form. The capitals of other scripts are ruled out by the last clause. -/
structure IsKebab (name : String) : Prop where
  noCapital : ∀ c ∈ name.toList, isCapital c = false
  noBlank : ∀ c ∈ name.toList, Text.isBlank c = false
  noUnderscore : '_' ∉ name.toList
  apart : name.toList.IsChain fun x y => ¬ (x = '-' ∧ y = '-')
  first : name.toList.head? ≠ some '-'
  last : name.toList.getLast? ≠ some '-'
  lowered : Text.lower name.toList = name.toList

/-- A word of a name. -/
structure IsWord (word : List Char) : Prop where
  notEmpty : word ≠ []
  plain : ∀ c ∈ word, isSeparator c = false

/-- The words that a kebab name consists of. -/
def kebabWords (name : List Char) : List (List Char) :=
  (wordsFrom [] (hyphenated name)).map Text.lower

/-! ## Words between separators -/

theorem isSeparator_hyphen : isSeparator '-' = true := by decide

theorem IsWord.hyphen_not_mem (isWord : IsWord word) : '-' ∉ word := by
  intro member
  have plain := isWord.plain '-' member
  rw [isSeparator_hyphen] at plain
  cases plain

theorem isWord_of_mem_wordsFrom {begun : List Char} (plain : ∀ c ∈ begun, isSeparator c = false)
    (member : word ∈ wordsFrom begun cs) : IsWord word := by
  induction cs generalizing begun with
  | nil =>
    rw [wordsFrom] at member
    split at member
    · cases member
    · next given =>
      obtain rfl := List.mem_singleton.mp member
      exact ⟨by simpa using given, by simpa using plain⟩
  | cons c rest ih =>
    rw [wordsFrom] at member
    split at member
    · split at member
      · exact ih (by simp) member
      · next given =>
        rcases List.mem_cons.mp member with rfl | later
        · exact ⟨by simpa using given, by simpa using plain⟩
        · exact ih (by simp) later
    · next other => exact ih (List.forall_mem_cons.mpr ⟨by simpa using other, plain⟩) member

theorem wordsFrom_of_separator (separates : isSeparator c = true) (rest : List Char) :
    wordsFrom [] (c :: rest) = wordsFrom [] rest := by
  simp [wordsFrom, separates]

/-- A separator ends the word before it. -/
theorem wordsFrom_append (separates : isSeparator c = true) (begun front rest : List Char) :
    wordsFrom begun (front ++ c :: rest) = wordsFrom begun front ++ wordsFrom [] rest := by
  induction front generalizing begun with
  | nil =>
    simp only [List.nil_append, wordsFrom, separates, if_true]
    split <;> rfl
  | cons d front ih =>
    rw [List.cons_append, wordsFrom, wordsFrom]
    split
    · split
      · exact ih []
      · rw [ih [], List.cons_append]
    · exact ih (d :: begun)

/-- What is left of the runs of separators, with a hyphen in front of it: a hyphen before each word,
and perhaps one behind them. The first clause is for a word that has begun, the second for a run. -/
theorem joinSeparators_words (cs : List Char) :
    (∀ begun ≠ [], ∃ trail : List Char, (∀ c ∈ trail, (c == '-') = true) ∧
      '-' :: (begun.reverse ++ joinSeparators false cs) =
        (wordsFrom begun cs).flatMap ('-' :: ·) ++ trail) ∧
    ∃ trail : List Char, (∀ c ∈ trail, (c == '-') = true) ∧
      '-' :: joinSeparators true cs = (wordsFrom [] cs).flatMap ('-' :: ·) ++ trail := by
  induction cs with
  | nil =>
    constructor
    · intro begun given
      exact ⟨[], by simp, by simp [joinSeparators, wordsFrom, given]⟩
    · exact ⟨['-'], by simp, rfl⟩
  | cons c rest ih =>
    obtain ⟨ofWord, trail, hyphens, ofRun⟩ := ih
    cases separates : isSeparator c with
    | true =>
      constructor
      · intro begun given
        refine ⟨trail, hyphens, ?_⟩
        simp [joinSeparators, wordsFrom, separates, given, ofRun]
      · refine ⟨trail, hyphens, ?_⟩
        simp [joinSeparators, wordsFrom, separates, ofRun]
    | false =>
      constructor
      · intro begun given
        obtain ⟨trail, hyphens, split⟩ := ofWord (c :: begun) (List.cons_ne_nil c begun)
        refine ⟨trail, hyphens, ?_⟩
        simpa [joinSeparators, wordsFrom, separates] using split
      · obtain ⟨trail, hyphens, split⟩ := ofWord [c] (List.cons_ne_nil c [])
        refine ⟨trail, hyphens, ?_⟩
        simpa [joinSeparators, wordsFrom, separates] using split

theorem dropHyphens_of_ends (first : cs.head? ≠ some '-') (last : cs.getLast? ≠ some '-') :
    dropHyphens cs = cs := by
  apply Text.trimBy_of_ends
  · exact fun c found => beq_eq_false_iff_ne.mpr fun same => first (same ▸ found)
  · exact fun c found => beq_eq_false_iff_ne.mpr fun same => last (same ▸ found)

theorem dropHyphens_joinSeparators (cs : List Char) :
    dropHyphens (joinSeparators false cs) = ['-'].intercalate (wordsFrom [] cs) := by
  have begins : ∃ trail : List Char, (∀ c ∈ trail, (c == '-') = true) ∧
      dropHyphens (joinSeparators false cs) =
        dropHyphens ((wordsFrom [] cs).flatMap ('-' :: ·) ++ trail) := by
    cases cs with
    | nil => exact ⟨[], by simp, rfl⟩
    | cons c rest =>
      obtain ⟨ofWord, trail, hyphens, ofRun⟩ := joinSeparators_words rest
      cases separates : isSeparator c with
      | true =>
        refine ⟨trail, hyphens, ?_⟩
        rw [wordsFrom_of_separator separates, ← ofRun, joinSeparators, if_pos separates,
          if_neg Bool.false_ne_true]
      | false =>
        obtain ⟨trail, hyphens, split⟩ := ofWord [c] (List.cons_ne_nil c [])
        have words : wordsFrom [] (c :: rest) = wordsFrom [c] rest := by simp [wordsFrom, separates]
        refine ⟨trail, hyphens, ?_⟩
        rw [words, ← split, joinSeparators, separates, if_neg Bool.false_ne_true]
        exact (Text.trimBy_cons rfl _).symm
  obtain ⟨trail, hyphens, same⟩ := begins
  have isWord : ∀ word ∈ wordsFrom [] cs, IsWord word := fun _ => isWord_of_mem_wordsFrom (by simp)
  have trimmed : dropHyphens (['-'].intercalate (wordsFrom [] cs)) =
      ['-'].intercalate (wordsFrom [] cs) := by
    have given := fun word member => (isWord word member).notEmpty
    have absent := fun word member => (isWord word member).hyphen_not_mem
    exact dropHyphens_of_ends (Text.head?_intercalate_ne given absent)
      (Text.getLast?_intercalate_ne given absent)
  rw [same, dropHyphens]
  change Text.trimBy (· == '-') _ = _
  rw [Text.trimBy_append _ hyphens]
  cases words : wordsFrom [] cs with
  | nil => rfl
  | cons word others =>
    rw [List.flatMap_cons, List.cons_append, Text.trimBy_cons rfl, ← Text.intercalate_cons, ← words]
    exact trimmed

theorem endsWord_hyphen : Text.EndsWord '-' where
  counts := by decide +kernel
  uncased := by decide

theorem lowerChar_hyphen : Text.lowerChar '-' = ['-'] := by decide

theorem lower_intercalate (words : List (List Char)) :
    Text.lower (['-'].intercalate words) = ['-'].intercalate (words.map Text.lower) := by
  induction words with
  | nil => rfl
  | cons word others ih =>
    cases others with
    | nil => simp
    | cons next others =>
      rw [List.intercalate_cons_cons, List.append_assoc, List.singleton_append,
        endsWord_hyphen.lower_append (by decide), ih, lowerChar_hyphen]
      simp [List.intercalate_cons_cons]

/-- A kebab name is its words with one hyphen between them. -/
theorem toList_kebab (name : String) :
    (kebab name).toList = ['-'].intercalate (kebabWords name.toList) := by
  rw [kebab, String.toList_ofList, kebabChars, hyphenateHumps_hyphenateWords,
    dropHyphens_joinSeparators, lower_intercalate, kebabWords]

/-! ## Words in small letters -/

theorem not_isCapital_of_isLowered (lowered : Text.IsLowered c) : isCapital c = false := by
  have all : ∀ code < 0x80, isCapital (Char.ofNat code) = true →
      Text.lowerChar (Char.ofNat code) ≠ [Char.ofNat code] := by decide
  rw [← Bool.not_eq_true]
  intro capital
  have ascii : c.toNat < 0x80 := by
    simp only [isCapital, Bool.and_eq_true, decide_eq_true_eq, Char.le_def] at capital
    have upTo := UInt32.le_iff_toNat_le.mp capital.2
    exact Nat.lt_of_le_of_lt upTo (by decide)
  have changes := all c.toNat ascii
  rw [Char.ofNat_toNat] at changes
  exact changes capital lowered.fixed

theorem not_isSeparator_of_lettered (lettered : Text.inRanges Text.unlettered c.toNat = false) :
    isSeparator c = false := by
  have notBlank := Text.not_isBlank_of_lettered lettered
  have notUnderscore : c ≠ '_' := by
    rintro rfl
    exact absurd lettered (by decide)
  have notHyphen : c ≠ '-' := by
    rintro rfl
    exact absurd lettered (by decide)
  simp [isSeparator, notBlank, notUnderscore, notHyphen]

theorem IsWord.lower (isWord : IsWord word) : IsWord (Text.lower word) where
  notEmpty := mt Text.lower_eq_nil_iff.mp isWord.notEmpty
  plain c member := by
    rcases Text.lettered_of_mem_lower member with given | lettered
    · exact isWord.plain c given
    · exact not_isSeparator_of_lettered lettered

theorem isWord_of_mem_kebabWords (member : word ∈ kebabWords cs) : IsWord word := by
  obtain ⟨given, listed, rfl⟩ := List.mem_map.mp member
  exact (isWord_of_mem_wordsFrom (by simp) listed).lower

theorem isLowered_of_mem_kebabWords (member : word ∈ kebabWords cs) :
    ∀ c ∈ word, Text.IsLowered c := by
  obtain ⟨given, -, rfl⟩ := List.mem_map.mp member
  exact fun c => Text.isLowered_of_mem_lower

/-- Words in small letters with one hyphen between them are a name in kebab form. -/
theorem isKebab_of_words (isWord : ∀ word ∈ words, IsWord word)
    (lowered : ∀ word ∈ words, ∀ c ∈ word, Text.IsLowered c)
    (spelled : name.toList = ['-'].intercalate words) : IsKebab name := by
  have given := fun word member => (isWord word member).notEmpty
  have absent := fun word member => (isWord word member).hyphen_not_mem
  have letters : ∀ c ∈ name.toList, Text.IsLowered c ∧ (c = '-' ∨ isSeparator c = false) := by
    intro c member
    rw [spelled] at member
    rcases Text.mem_intercalate member with rfl | ⟨word, listed, within⟩
    · exact ⟨⟨by decide, by decide⟩, .inl rfl⟩
    · exact ⟨lowered word listed c within, .inr ((isWord word listed).plain c within)⟩
  exact {
    noCapital := fun c member => not_isCapital_of_isLowered (letters c member).1
    noBlank := by
      intro c member
      rcases (letters c member).2 with rfl | plain
      · decide
      · simp only [isSeparator, Bool.or_eq_false_iff] at plain
        exact plain.1.1
    noUnderscore := by
      intro member
      rcases (letters '_' member).2 with same | plain
      · exact absurd same (by decide)
      · exact absurd plain (by decide)
    apart := spelled ▸ Text.isChain_intercalate given absent
    first := spelled ▸ Text.head?_intercalate_ne given absent
    last := spelled ▸ Text.getLast?_intercalate_ne given absent
    lowered := Text.lower_eq_self_iff.mpr fun c member => (letters c member).1 }

theorem isKebab_kebab (name : String) : IsKebab (kebab name) :=
  isKebab_of_words (fun _ => isWord_of_mem_kebabWords) (fun _ => isLowered_of_mem_kebabWords)
    (toList_kebab name)

/-! ## Names in kebab form -/

theorem hyphenated_of_noCapital (none : ∀ c ∈ cs, isCapital c = false) : hyphenated cs = cs := by
  induction cs with
  | nil => rfl
  | cons x rest ih =>
    cases rest with
    | nil => exact hyphenated_singleton x
    | cons y rest =>
      obtain ⟨-, others⟩ := List.forall_mem_cons.mp none
      rw [hyphenated_cons_of_not_isCapital (others y List.mem_cons_self), ih others]

/-- Hyphens apart from each other, and no other separators, are left as they are. -/
theorem joinSeparators_of_apart {inRun : Bool} (only : ∀ c ∈ cs, isSeparator c = true → c = '-')
    (apart : cs.IsChain fun x y => ¬ (x = '-' ∧ y = '-'))
    (begins : inRun = true → cs.head? ≠ some '-') : joinSeparators inRun cs = cs := by
  induction cs generalizing inRun with
  | nil => rfl
  | cons c rest ih =>
    obtain ⟨first, others⟩ := List.forall_mem_cons.mp only
    obtain ⟨beside, later⟩ := List.isChain_cons.mp apart
    cases separates : isSeparator c with
    | true =>
      obtain rfl := first separates
      have outside : inRun = false := by simpa using begins
      have next : rest.head? ≠ some '-' := fun same => beside '-' same ⟨rfl, rfl⟩
      rw [joinSeparators, if_pos separates, outside, if_neg Bool.false_ne_true,
        ih others later fun _ => next]
    | false =>
      rw [joinSeparators, separates, if_neg Bool.false_ne_true, ih others later (by simp)]

/-- A name in kebab form is its own kebab name. -/
theorem IsKebab.kebab_eq (isKebab : IsKebab name) : kebab name = name := by
  have only : ∀ c ∈ name.toList, isSeparator c = true → c = '-' := by
    intro c member separates
    simp only [isSeparator, isKebab.noBlank c member, Bool.false_or, Bool.or_eq_true,
      decide_eq_true_eq] at separates
    rcases separates with rfl | hyphen
    · exact absurd member isKebab.noUnderscore
    · exact hyphen
  rw [kebab, kebabChars, hyphenateHumps_hyphenateWords, hyphenated_of_noCapital isKebab.noCapital,
    joinSeparators_of_apart only isKebab.apart (by simp),
    dropHyphens_of_ends isKebab.first isKebab.last, isKebab.lowered, String.ofList_toList]

/-! ## Joined names -/

/-- No word begins across a hyphen. -/
theorem hyphenated_append_hyphen (front rest : List Char) :
    hyphenated (front ++ '-' :: rest) = hyphenated front ++ hyphenated ('-' :: rest) := by
  induction front with
  | nil => rfl
  | cons x front ih =>
    cases front with
    | nil =>
      rw [List.singleton_append, hyphenated_cons_of_not_isCapital (by decide), hyphenated_singleton]
      rfl
    | cons y front =>
      have begins : beginsWord x y (front ++ '-' :: rest).head? = beginsWord x y front.head? := by
        cases front with
        | nil => simp [beginsWord, isSmall]
        | cons z front => rfl
      rw [List.cons_append, List.cons_append, hyphenated_cons_cons, hyphenated_cons_cons, begins,
        ← List.cons_append, ih]
      split <;> rfl

theorem wordsFrom_hyphenated_hyphen (rest : List Char) :
    wordsFrom [] (hyphenated ('-' :: rest)) = wordsFrom [] (hyphenated rest) := by
  cases rest with
  | nil => rfl
  | cons y rest =>
    rw [hyphenated_cons_cons]
    split <;> simp only [wordsFrom_of_separator isSeparator_hyphen]

theorem exists_hyphenated_cons (x : Char) (rest : List Char) :
    ∃ more, hyphenated (x :: rest) = x :: more := by
  cases rest with
  | nil => exact ⟨[], hyphenated_singleton x⟩
  | cons y rest =>
    rw [hyphenated_cons_cons]
    split <;> exact ⟨_, rfl⟩

theorem kebabWords_append_hyphen (front rest : List Char) :
    kebabWords (front ++ '-' :: rest) = kebabWords front ++ kebabWords rest := by
  have behind := wordsFrom_hyphenated_hyphen rest
  obtain ⟨more, begins⟩ := exists_hyphenated_cons '-' rest
  rw [begins, wordsFrom_of_separator isSeparator_hyphen] at behind
  rw [kebabWords, hyphenated_append_hyphen, begins, wordsFrom_append isSeparator_hyphen, behind,
    List.map_append, kebabWords, kebabWords]

theorem kebabWords_intercalate (parts : List (List Char)) :
    kebabWords (['-'].intercalate parts) = parts.flatMap kebabWords := by
  induction parts with
  | nil => rfl
  | cons part parts ih =>
    cases parts with
    | nil => simp
    | cons next parts =>
      rw [List.intercalate_cons_cons, List.append_assoc, List.singleton_append,
        kebabWords_append_hyphen, ih]
      exact List.flatMap_cons.symm

/-- A name vanishes if it has no word. -/
theorem kebab_eq_empty_iff : kebab name = "" ↔ kebabWords name.toList = [] := by
  rw [← String.toList_eq_nil_iff, toList_kebab]
  constructor
  · intro vanished
    by_contra given
    have notEmpty : ∀ word ∈ kebabWords name.toList, word ≠ [] :=
      fun _ member => (isWord_of_mem_kebabWords member).notEmpty
    exact Text.intercalate_ne_nil notEmpty given vanished
  · intro none
    rw [none, List.intercalate_nil]

/-- Parts that each have a kebab name are joined to the kebab name of the joined parts. -/
theorem joinKebab_eq {parts : List String} (given : ∀ part ∈ parts, kebab part ≠ "") :
    joinKebab parts = kebab ("-".intercalate parts) := by
  have notBlank : parts.filter (· ≠ "") = parts := by
    refine List.filter_eq_self.mpr fun part member => ?_
    have notEmpty : part ≠ "" := by
      rintro rfl
      exact given "" member (kebab_eq_empty_iff.mpr rfl)
    simpa using notEmpty
  have groups : ∀ group ∈ parts.map fun part => kebabWords part.toList, group ≠ [] := by
    refine List.forall_mem_map.mpr fun part member => ?_
    exact mt kebab_eq_empty_iff.mpr (given part member)
  rw [joinKebab, notBlank, ← String.toList_inj, String.toList_intercalate, toList_kebab,
    String.toList_intercalate]
  change ['-'].intercalate _ = ['-'].intercalate (kebabWords (['-'].intercalate _))
  rw [kebabWords_intercalate, List.flatMap_map, List.flatMap_def,
    Text.intercalate_flatten groups, List.map_map, List.map_map]
  exact congrArg _ (List.map_congr_left fun part _ => toList_kebab part)

/-- Kebab names are normal forms: each of them is in kebab form and is its own kebab name, as is
every name in kebab form. Joining is compositional where no part vanishes. -/
theorem kebab_names_are_normal_and_join :
    (∀ name, IsKebab (kebab name) ∧ kebab (kebab name) = kebab name) ∧
    (∀ name, kebab name = name ↔ IsKebab name) ∧
    ∀ parts : List String, (∀ part ∈ parts, kebab part ≠ "") →
      joinKebab parts = kebab ("-".intercalate parts) ∧
      IsKebab (joinKebab parts) ∧ kebab (joinKebab parts) = joinKebab parts := by
  refine ⟨fun name => ⟨isKebab_kebab name, (isKebab_kebab name).kebab_eq⟩, fun name => ?_, ?_⟩
  · constructor
    · intro same
      rw [← same]
      exact isKebab_kebab name
    · exact IsKebab.kebab_eq
  · intro parts given
    have joined := joinKebab_eq given
    have isKebab : IsKebab (joinKebab parts) := joined ▸ isKebab_kebab _
    exact ⟨joined, isKebab, isKebab.kebab_eq⟩

/-- A sigma at the end of a word is a final one, also where the word ends within a part. -/
theorem names_of_greek_style_join :
    (∀ part ∈ ["TextStyles", "ΦΩΣ_Σίγμα", "h1"], kebab part ≠ "") ∧
      joinKebab ["TextStyles", "ΦΩΣ_Σίγμα", "h1"] = kebab "TextStyles-ΦΩΣ_Σίγμα-h1" ∧
      joinKebab ["TextStyles", "ΦΩΣ_Σίγμα", "h1"] = "text-styles-φως-σίγμα-h1" := by
  have given : ∀ part ∈ ["TextStyles", "ΦΩΣ_Σίγμα", "h1"], kebab part ≠ "" := by
    have words : ∀ part ∈ ["TextStyles", "ΦΩΣ_Σίγμα", "h1"], kebabWords part.toList ≠ [] := by
      decide +kernel
    exact fun part member => mt kebab_eq_empty_iff.mp (words part member)
  obtain ⟨joined, -⟩ := kebab_names_are_normal_and_join.2.2 _ given
  refine ⟨given, joined, joined.trans ?_⟩
  rw [← String.toList_inj, toList_kebab]
  decide +kernel

end DesignGraph.Naming
