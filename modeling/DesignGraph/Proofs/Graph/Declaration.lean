import DesignGraph.Graph.Declaration
import DesignGraph.Proofs.Text.Trimmed

/-!
# Type texts

A type text is the name of a type with collection marks behind it. `Marks` says how a name and a
number of marks are spelled out. Taking marks off the end of a trimmed text finds the one name
without blanks around it and without a mark at its end that the text spells out
(`parseType_eq_iff`), so a declaration says the same in either of its forms.
-/

namespace DesignGraph

namespace Declaration

open Text (IsTrimmed isBlank trim)

variable {type cs : List Char} {depth : Nat}

/-- A type with so many collection marks behind it, each with or without blanks before it. -/
inductive Marks (type : List Char) : Nat → List Char → Prop
  | bare : Marks type 0 type
  | mark {depth : Nat} {cs blanks : List Char} (marked : Marks type depth cs)
      (blank : ∀ c ∈ blanks, isBlank c = true) : Marks type (depth + 1) (cs ++ blanks ++ ['[', ']'])

/-- The name of a type as a type text gives it: without blanks around it and without a mark at its
end. -/
structure IsTypeName (type : List Char) : Prop where
  trimmed : IsTrimmed type
  unmarked : ¬ ['[', ']'] <:+ type

/-- The text, without blanks around it, is a type with so many marks. -/
structure Spells (s type : String) (depth : Nat) : Prop where
  isTypeName : IsTypeName type.toList
  marks : Marks type.toList depth (trim s.toList)

/-- A mark ends with a bracket, so no blank is at the end. -/
theorem Marks.last (marks : Marks type depth cs)
    (trimmed : ∀ c ∈ type.getLast?, isBlank c = false) : ∀ c ∈ cs.getLast?, isBlank c = false := by
  cases marks with
  | bare => exact trimmed
  | mark marked blank =>
    intro c found
    rw [List.getLast?_append] at found
    obtain rfl : ']' = c := by simpa using found
    decide

/-- The type is the beginning of the text. -/
theorem Marks.isPrefix (marks : Marks type depth cs) : type <+: cs := by
  induction marks with
  | bare => exact List.prefix_refl type
  | mark _ _ ih =>
    rw [List.append_assoc]
    exact ih.trans (List.prefix_append _ _)

theorem takeMarks_mark (rest : List Char) :
    takeMarks (']' :: '[' :: rest) =
      ((takeMarks (rest.dropWhile isBlank)).1, (takeMarks (rest.dropWhile isBlank)).2 + 1) := by
  rw [takeMarks]

theorem takeMarks_of_unmarked (unmarked : ¬ ['[', ']'] <:+ type) :
    takeMarks type.reverse = (type.reverse, 0) := by
  unfold takeMarks
  split
  · next rest ends =>
    have marked : type = rest.reverse ++ ['[', ']'] := by
      rw [← List.reverse_reverse type, ends]
      simp
    exact absurd ⟨rest.reverse, marked.symm⟩ unmarked
  · rfl

/-- The marks of a type text are all taken. -/
theorem takeMarks_of_marks (named : IsTypeName type) (marks : Marks type depth cs) :
    takeMarks cs.reverse = (type.reverse, depth) := by
  induction marks with
  | bare => exact takeMarks_of_unmarked named.unmarked
  | mark marked blank ih =>
    have rest := Text.dropWhile_reverse_append (marked.last named.trimmed.last) blank
    rw [List.reverse_append, List.reverse_cons, List.reverse_singleton, List.singleton_append,
      List.cons_append, List.singleton_append, takeMarks_mark, rest, ih]

/-- What is left when no more marks are taken has none at its end, and no blank either. -/
theorem marks_takeMarks {reversed : List Char} (first : ∀ c ∈ reversed.head?, isBlank c = false) :
    ¬ ['[', ']'] <:+ (takeMarks reversed).1.reverse ∧
      (∀ c ∈ (takeMarks reversed).1.head?, isBlank c = false) ∧
      Marks (takeMarks reversed).1.reverse (takeMarks reversed).2 reversed.reverse := by
  fun_induction takeMarks reversed with
  | case1 rest type depth taken ih =>
    obtain ⟨unmarked, trimmed, marks⟩ := ih (Text.head?_dropWhile isBlank rest)
    rw [taken] at unmarked trimmed marks
    refine ⟨unmarked, trimmed, ?_⟩
    have blank : ∀ c ∈ (rest.takeWhile isBlank).reverse, isBlank c = true :=
      fun c member => List.mem_takeWhile_imp (List.mem_reverse.mp member)
    have split : (']' :: '[' :: rest).reverse =
        (rest.dropWhile isBlank).reverse ++ (rest.takeWhile isBlank).reverse ++ ['[', ']'] := by
      rw [← List.reverse_append, List.takeWhile_append_dropWhile]
      simp
    rw [split]
    exact .mark marks blank
  | case2 reversed noMark =>
    refine ⟨?_, first, .bare⟩
    rintro ⟨front, ends⟩
    refine noMark front.reverse ?_
    rw [← List.reverse_reverse reversed, ← ends]
    simp

/-- The one type and the one depth that a text spells out. -/
theorem parseType_eq_iff {s name : String} {depth : Nat} :
    parseType s = (name, depth) ↔ Spells s name depth := by
  have trimmed := Text.isTrimmed_trim s.toList
  constructor
  · rintro ⟨⟩
    have last : ∀ c ∈ (trim s.toList).reverse.head?, isBlank c = false := by
      simpa using trimmed.last
    obtain ⟨unmarked, first, marks⟩ := marks_takeMarks last
    rw [List.reverse_reverse] at marks
    refine ⟨⟨⟨?_, ?_⟩, ?_⟩, ?_⟩
    · intro c found
      obtain ⟨tail, split⟩ := marks.isPrefix
      rw [String.toList_ofList] at found
      refine trimmed.first c ?_
      rw [← split, List.head?_append, Option.mem_def.mp found]
      rfl
    · rw [String.toList_ofList, List.getLast?_reverse]
      exact first
    · rw [String.toList_ofList]
      exact unmarked
    · rw [String.toList_ofList]
      exact marks
  · intro spelled
    simp only [parseType, takeMarks_of_marks spelled.isTypeName spelled.marks,
      List.reverse_reverse, String.ofList_toList]

/-! ## The two forms -/

theorem parse_text {name s type : String} (spelled : Spells s type depth) :
    parse (.text name) (.text s) = .ok ⟨name, type, depth⟩ := by
  simp only [parse, parseType_eq_iff.mpr spelled]
  rfl

/-- The two fields of a declaration, in any order. -/
def Fields (type : String) (depth : Nat) (entries : List (Value × Value)) : Prop :=
  entries.Perm [(.text "type", .text type), (.text "depth", .int depth)]

theorem Fields.eq_or_eq {type : String} {entries : List (Value × Value)}
    (fields : Fields type depth entries) :
    entries = [(.text "type", .text type), (.text "depth", .int depth)] ∨
      entries = [(.text "depth", .int depth), (.text "type", .text type)] := by
  obtain ⟨first, second, rfl⟩ := List.length_eq_two.mp (List.Perm.length_eq fields)
  have listed : first ∈ [(Value.text "type", Value.text type), (.text "depth", .int depth)] :=
    List.Perm.subset fields List.mem_cons_self
  rcases List.mem_cons.mp listed with rfl | later
  · have rest := List.perm_singleton.mp ((List.perm_cons _).mp fields)
    exact .inl (by rw [rest])
  · obtain rfl := List.mem_singleton.mp later
    have swapped := List.Perm.trans fields (List.Perm.swap _ _ [])
    have rest := List.perm_singleton.mp ((List.perm_cons _).mp swapped)
    exact .inr (by rw [rest])

theorem parse_map {name type : String} {entries : List (Value × Value)}
    (fields : Fields type depth entries) :
    parse (.text name) (.map entries) = .ok ⟨name, type, depth⟩ := by
  have natural : Checked.natural (.int depth) = .ok depth := by
    have notLess : ¬ (depth : Int) < 0 := by omega
    simp [Checked.natural, Checked.integer, Checked.atLeast, notLess, bind, Except.bind, pure,
      Except.pure]
  have read : ∀ fields : List (Value × Value), (∀ entry ∈ fields, ∃ key, entry.1 = .text key) →
      Value.field? fields "name" = none → Value.field? fields "type" = some (.text type) →
      Value.field? fields "depth" = some (.int depth) →
      ofEntries (.text name) fields = .ok ⟨name, type, depth⟩ := by
    intro fields keys unnamed typed deep
    unfold ofEntries
    dsimp only
    rw [if_neg, typed, deep]
    · simp only [Checked.optional, natural]
      rfl
    · rw [unnamed, Option.isSome_none, Bool.or_false, Bool.not_eq_true', List.all_eq_false]
      rintro ⟨entry, listed, noText⟩
      obtain ⟨key, isText⟩ := keys entry listed
      simp [isText] at noText
  change ofEntries _ entries = _
  rcases fields.eq_or_eq with rfl | rfl
  · exact read _ (by simp) rfl rfl rfl
  · exact read _ (by simp) rfl rfl rfl

/-- The marks that a type text ends with when it has no blanks. -/
def marksText (depth : Nat) : String := String.join (List.replicate depth "[]")

theorem marks_replicate (type : List Char) (depth : Nat) :
    Marks type depth (type ++ (List.replicate depth ['[', ']']).flatten) := by
  induction depth with
  | zero => simpa using Marks.bare
  | succ depth ih =>
    have marked := @Marks.mark type _ _ [] ih (by simp)
    rw [List.replicate_succ', List.flatten_append, List.flatten_singleton, ← List.append_assoc]
    simpa using marked

theorem spells_marksText {type : String} (named : IsTypeName type.toList) (depth : Nat) :
    Spells (type ++ marksText depth) type depth := by
  have spelled : (type ++ marksText depth).toList =
      type.toList ++ (List.replicate depth ['[', ']']).flatten := by
    rw [String.toList_append, marksText, String.toList_join, List.flatMap_def, List.map_replicate]
    rfl
  have marks := marks_replicate type.toList depth
  refine ⟨named, ?_⟩
  rw [spelled, Text.trim_of_isTrimmed ⟨?_, marks.last named.trimmed.last⟩]
  · exact marks
  · intro c found
    rw [List.head?_append] at found
    cases first : type.toList.head? with
    | some d =>
      rw [first, Option.some_or] at found
      exact named.trimmed.first c (first ▸ found)
    | none =>
      -- A blank name leaves the marks alone, if there are any.
      rw [first, Option.none_or] at found
      cases depth with
      | zero => cases found
      | succ depth =>
        obtain rfl : '[' = c := by simpa [List.replicate_succ] using found
        decide

/-- A type text spells out one type and one depth, and these are what it declares. A mapping with a
type name and a depth declares the same as a text that spells them out, with or without blanks. -/
theorem each_type_text_spells_one_declaration (name s : String) :
    (∃ type depth, Spells s type depth ∧
      parse (.text name) (.text s) = .ok ⟨name, type, depth⟩ ∧
      ∀ other n, Spells s other n → other = type ∧ n = depth) ∧
    ∀ type depth entries, IsTypeName type.toList → Fields type depth entries →
      parse (.text name) (.map entries) = parse (.text name) (.text (type ++ marksText depth)) ∧
      (Spells s type depth →
        parse (.text name) (.map entries) = parse (.text name) (.text s)) := by
  refine ⟨?_, fun type depth entries named fields => ⟨?_, fun spelled => ?_⟩⟩
  · have spelled : Spells s (parseType s).1 (parseType s).2 := parseType_eq_iff.mp rfl
    refine ⟨_, _, spelled, parse_text spelled, fun other n also => ?_⟩
    have same := parseType_eq_iff.mpr also
    rw [same]
    exact ⟨rfl, rfl⟩
  · rw [parse_map fields, parse_text (spells_marksText named depth)]
  · rw [parse_map fields, parse_text spelled]

theorem float_grid_in_both_forms :
    Spells " float [] []" "float" 2 ∧
      parse (.text "grid") (.map [(.text "type", .text "float"), (.text "depth", .int 2)]) =
        parse (.text "grid") (.text " float [] []") := by
  have spelled : Spells " float [] []" "float" 2 := parseType_eq_iff.mp (by decide +kernel)
  exact ⟨spelled, ((each_type_text_spells_one_declaration "grid" " float [] []").2 "float" 2 _
    spelled.isTypeName (.refl _)).2 spelled⟩

end Declaration

end DesignGraph
