import DesignGraph.Proofs.Json.Cost
import DesignGraph.Proofs.OrderedMap

/-!
# Reading JSON that was laid out without escapes

Texts, lists and mappings are laid out with one item or entry a line, and the characters of a text
stand between its quotes as they are. Such a layout is read back as its value exactly if none of the
characters has to be escaped: otherwise it weighs less than the value costs.
-/

namespace DesignGraph.Json

def indent (depth : Nat) : List Char := '\n' :: List.replicate (2 * depth) ' '

/-- A comma, if anything follows. -/
def separator {α : Type} (rest : List α) : List Char := if rest.isEmpty then [] else [',']

def quoted (s : String) : List Char := '"' :: s.toList ++ ['"']

mutual

/-- The layout of a value; a scalar other than a text has none. -/
def shown (depth : Nat) : Value → List Char
  | .text s => quoted s
  | .list vs => '[' :: shownItems depth vs
  | .map entries => '\x7b' :: shownEntries depth entries
  | _ => []

/-- The items of a list and its closing bracket. -/
def shownItems (depth : Nat) : List Value → List Char
  | [] => indent depth ++ [']']
  | v :: rest =>
    indent (depth + 1) ++ shown (depth + 1) v ++ separator rest ++ shownItems depth rest

/-- The entries of a mapping and its closing brace. -/
def shownEntries (depth : Nat) : List (Value × Value) → List Char
  | [] => indent depth ++ ['\x7d']
  | (k, v) :: rest => indent (depth + 1) ++ shown (depth + 1) k ++ [':', ' '] ++
      shown (depth + 1) v ++ separator rest ++ shownEntries depth rest

end

mutual

/-- Whether a value is made of texts, lists and mappings whose keys are texts, none of them
repeated. -/
def IsTree : Value → Prop
  | .text _ => True
  | .list vs => AreTrees vs
  | .map entries => Value.ofPairs entries = entries ∧ AreMembers entries
  | _ => False

def AreTrees : List Value → Prop
  | [] => True
  | v :: rest => IsTree v ∧ AreTrees rest

def AreMembers : List (Value × Value) → Prop
  | [] => True
  | (.text _, v) :: rest => IsTree v ∧ AreMembers rest
  | _ => False

end

mutual

/-- The characters of all texts of a value. -/
def charsOf : Value → List Char
  | .text s => s.toList
  | .list vs => charsOfItems vs
  | .map entries => charsOfEntries entries
  | _ => []

def charsOfItems : List Value → List Char
  | [] => []
  | v :: rest => charsOf v ++ charsOfItems rest

def charsOfEntries : List (Value × Value) → List Char
  | [] => []
  | (k, v) :: rest => charsOf k ++ charsOf v ++ charsOfEntries rest

end

/-! ## Mappings with text keys -/

theorem areMembers_textKeyed {pairs : List (String × Value)}
    (trees : ∀ pair ∈ pairs, IsTree pair.2) : AreMembers (Value.textKeyed pairs) := by
  induction pairs with
  | nil => trivial
  | cons pair rest ih =>
    obtain ⟨first, others⟩ := List.forall_mem_cons.mp trees
    exact ⟨first, ih others⟩

theorem isTree_textKeyed {pairs : List (String × Value)} (distinct : (pairs.map (·.1)).Nodup)
    (trees : ∀ pair ∈ pairs, IsTree pair.2) : IsTree (.map (Value.textKeyed pairs)) := by
  refine ⟨?_, areMembers_textKeyed trees⟩
  rw [Value.ofPairs_textKeyed, OrderedMap.entries_ofList_iff.mpr distinct]

theorem forall_mem_charsOfEntries {pairs : List (String × Value)} {p : Char → Prop} :
    (∀ c ∈ charsOfEntries (Value.textKeyed pairs), p c) ↔
      ∀ pair ∈ pairs, (∀ c ∈ pair.1.toList, p c) ∧ ∀ c ∈ charsOf pair.2, p c := by
  induction pairs with
  | nil => simp [Value.textKeyed, charsOfEntries]
  | cons pair rest ih =>
    change (∀ c ∈ charsOf (.text pair.1) ++ charsOf pair.2 ++
      charsOfEntries (Value.textKeyed rest), p c) ↔ _
    rw [List.forall_mem_cons, ← ih, List.forall_mem_append, List.forall_mem_append, charsOf]

/-! ## Weight -/

@[simp] theorem weight_indent (depth : Nat) : weight (indent depth) = 0 := by
  simp [indent, weight, isBlank]

theorem weight_quoted (s : String) : weight (quoted s) = 2 + weight s.toList := by
  have quote : weight ['"'] = 1 := rfl
  rw [quoted, List.cons_append, weight_mark rfl, weight_append, quote]
  omega

/-- The mark after the last item is the closing bracket. -/
theorem weight_separator_items (vs : List Value) :
    max 1 (itemsCost vs) + weight (separator vs) = itemsCost vs + 1 := by
  cases vs with
  | nil => rfl
  | cons v rest =>
    have comma : weight (separator (v :: rest)) = 1 := rfl
    rw [comma, itemsCost]
    omega

/-- The mark after the last entry is the closing brace. -/
theorem weight_separator_entries (entries : List (Value × Value)) :
    max 1 (entriesCost entries) + weight (separator entries) = entriesCost entries + 1 := by
  cases entries with
  | nil => rfl
  | cons entry rest =>
    have comma : weight (separator (entry :: rest)) = 1 := rfl
    rw [comma, entriesCost]
    omega

mutual

/-- A layout weighs what its value costs, but for the characters that have to be escaped. -/
theorem weight_shown (depth : Nat) : (v : Value) → IsTree v →
    weight (shown depth v) + charsCost (charsOf v) = cost v + weight (charsOf v)
  | .text s, _ => by
    rw [shown, weight_quoted, cost, charsOf]
    omega
  | .list vs, trees => by
    have inner := weight_shownItems depth vs trees
    rw [shown, weight_mark rfl, cost, charsOf]
    omega
  | .map entries, trees => by
    have inner := weight_shownEntries depth entries trees.2
    rw [shown, weight_mark rfl, cost, charsOf]
    omega

theorem weight_shownItems (depth : Nat) : (vs : List Value) → AreTrees vs →
    weight (shownItems depth vs) + charsCost (charsOfItems vs) =
      max 1 (itemsCost vs) + weight (charsOfItems vs)
  | [], _ => by
    rw [shownItems, weight_append, weight_indent]
    rfl
  | v :: rest, trees => by
    have first := weight_shown (depth + 1) v trees.1
    have others := weight_shownItems depth rest trees.2
    have mark := weight_separator_items rest
    simp only [shownItems, weight_append, weight_indent, itemsCost, charsOfItems, charsCost_append]
    omega

theorem weight_shownEntries (depth : Nat) : (entries : List (Value × Value)) → AreMembers entries →
    weight (shownEntries depth entries) + charsCost (charsOfEntries entries) =
      max 1 (entriesCost entries) + weight (charsOfEntries entries)
  | [], _ => by
    rw [shownEntries, weight_append, weight_indent]
    rfl
  | (.text s, v) :: rest, trees => by
    have first := weight_shown (depth + 1) v trees.1
    have others := weight_shownEntries depth rest trees.2
    have mark := weight_separator_entries rest
    have colon : weight [':', ' '] = 1 := rfl
    have name := weight_quoted s
    simp only [shownEntries, shown, weight_append, weight_indent, colon, entriesCost, cost,
      charsOfEntries, charsOf, charsCost_append]
    omega

end

/-! ## Reading -/

/-- A plain character is taken as it is. -/
theorem string_cons {c : Char} (plain : isPlain c = true) (bound : Nat) (done : List Char)
    (cs : Rest) : string (bound + 1) done (c :: cs) = string bound (c :: done) cs := by
  simp only [isPlain, Bool.not_eq_true', Bool.or_eq_false_iff, decide_eq_false_iff_not] at plain
  obtain ⟨⟨notQuote, notEscape⟩, notControl⟩ := plain
  rw [string]
  · rw [if_neg]
    simp [notEscape, notControl]
  · exact notQuote
  · exact fun _ escape => absurd escape notEscape
  · exact fun _ _ escape => absurd escape notEscape

theorem string_of_plain {cs : List Char} (plain : ∀ c ∈ cs, isPlain c = true) {bound : Nat}
    {done rest : Rest} (room : cs.length < bound) :
    string bound done (cs ++ '"' :: rest) = .ok (String.ofList (done.reverse ++ cs), rest) := by
  induction cs generalizing bound done with
  | nil =>
    obtain ⟨bound, rfl⟩ := Nat.exists_eq_add_of_lt room
    rw [List.append_nil]
    rfl
  | cons c cs ih =>
    obtain ⟨first, others⟩ := List.forall_mem_cons.mp plain
    cases bound with
    | zero => cases room
    | succ bound =>
      rw [List.cons_append, string_cons first, ih others (Nat.lt_of_succ_lt_succ room),
        List.reverse_cons, List.append_assoc]
      rfl

theorem skipSpace_mark {c : Char} (mark : isBlank c = false) (cs : Rest) :
    skipSpace (c :: cs) = c :: cs :=
  List.dropWhile_cons_of_neg (Bool.not_eq_true _ ▸ mark)

theorem skipSpace_append {gap : List Char} (blank : ∀ c ∈ gap, isBlank c = true) (cs : Rest) :
    skipSpace (gap ++ cs) = skipSpace cs :=
  List.dropWhile_append_of_pos blank

theorem isBlank_of_mem_indent {depth : Nat} : ∀ c ∈ indent depth, isBlank c = true := by
  intro c member
  rcases List.mem_cons.mp member with rfl | member
  · rfl
  · rw [(List.mem_replicate.mp member).2]
    rfl

/-- A layout begins with a mark that is no closing bracket. -/
theorem exists_shown {v : Value} (tree : IsTree v) (depth : Nat) :
    ∃ c cs, shown depth v = c :: cs ∧ isBlank c = false ∧ c ≠ ']' := by
  cases v with
  | text s =>
    exact ⟨'"', s.toList ++ ['"'], by rw [shown, quoted, List.cons_append], rfl, by decide⟩
  | list vs => exact ⟨'[', shownItems depth vs, by rw [shown], rfl, by decide⟩
  | map entries => exact ⟨'\x7b', shownEntries depth entries, by rw [shown], rfl, by decide⟩
  | _ => exact tree.elim

theorem skipSpace_shown {v : Value} (tree : IsTree v) (depth : Nat) (tail : Rest) :
    skipSpace (shown depth v ++ tail) = shown depth v ++ tail := by
  obtain ⟨c, cs, same, mark, -⟩ := exists_shown tree depth
  rw [same, List.cons_append, skipSpace_mark mark]

theorem value_items {bound : Nat} {c : Char} {tail cs rest : Rest} {found : List Value}
    (first : skipSpace tail = c :: cs) (more : c ≠ ']')
    (inner : items bound (c :: cs) = .ok (found, rest)) :
    value (bound + 1) ('[' :: tail) = .ok (.list found, rest) := by
  rw [value, first]
  split
  · next closed =>
    cases closed
    exact absurd rfl more
  · rw [inner]
    rfl

theorem value_members {bound : Nat} {tail cs rest : Rest} {found : List (Value × Value)}
    (first : skipSpace tail = '"' :: cs)
    (inner : members bound ('"' :: cs) = .ok (found, rest)) :
    value (bound + 1) ('\x7b' :: tail) = .ok (.map (Value.ofPairs found), rest) := by
  rw [value, first]
  split
  · next closed => cases closed
  · rw [inner]
    rfl

theorem value_text {s : String} (plain : ∀ c ∈ s.toList, isPlain c = true) (bound : Nat)
    (tail : Rest) : value (bound + 1) (quoted s ++ tail) = .ok (.text s, tail) := by
  have same : quoted s ++ tail = '"' :: (s.toList ++ '"' :: tail) := by simp [quoted]
  have room : s.toList.length < (s.toList ++ '"' :: tail).length + 1 := by
    rw [List.length_append]
    omega
  rw [same, value, string_of_plain plain room]
  simp [bind, Except.bind, pure, Except.pure]

theorem skipSpace_shownItems {v : Value} (tree : IsTree v) (depth : Nat) (rest : List Value)
    (tail : Rest) : skipSpace (shownItems depth (v :: rest) ++ tail) =
      shown (depth + 1) v ++ (separator rest ++ (shownItems depth rest ++ tail)) := by
  simp only [shownItems, List.append_assoc]
  rw [skipSpace_append isBlank_of_mem_indent, skipSpace_shown tree]

theorem skipSpace_shownEntries (depth : Nat) (s : String) (v : Value)
    (rest : List (Value × Value)) (tail : Rest) :
    skipSpace (shownEntries depth ((.text s, v) :: rest) ++ tail) =
      '"' :: (s.toList ++ '"' :: ':' :: ' ' :: (shown (depth + 1) v ++
        (separator rest ++ (shownEntries depth rest ++ tail)))) := by
  simp only [shownEntries, shown, quoted, List.append_assoc, List.cons_append, List.nil_append]
  rw [skipSpace_append isBlank_of_mem_indent, skipSpace_mark rfl]

/-- What comes after the last item or entry of a layout. -/
theorem skipSpace_close {mark : Char} (closes : isBlank mark = false) (depth : Nat) (tail : Rest) :
    skipSpace (indent depth ++ [mark] ++ tail) = mark :: tail := by
  rw [List.append_assoc, skipSpace_append isBlank_of_mem_indent]
  exact skipSpace_mark closes tail

mutual

/-- A layout without characters that have to be escaped is read as its value. -/
theorem value_shown : (v : Value) → IsTree v → (∀ c ∈ charsOf v, isPlain c = true) →
    ∀ {bound depth : Nat} {tail : Rest}, (shown depth v).length ≤ bound + 1 →
      value (bound + 1) (shown depth v ++ tail) = .ok (v, tail)
  | .text s, _, plain, bound, depth, tail, room => by
    rw [shown]
    exact value_text plain bound tail
  | .list [], _, _, bound, depth, tail, room => by
    rw [shown, shownItems, List.cons_append, value, skipSpace_close rfl]
    rfl
  | .list (v :: rest), trees, plain, bound, depth, tail, room => by
    obtain ⟨c, cs, same, -, more⟩ := exists_shown trees.1 (depth + 1)
    have fits : (shownItems depth (v :: rest)).length ≤ bound := by
      simpa [shown] using room
    have inner : items bound (skipSpace (shownItems depth (v :: rest) ++ tail)) =
        .ok (v :: rest, tail) := items_shown (v :: rest) (List.cons_ne_nil _ _) trees plain fits
    have first := skipSpace_shownItems trees.1 depth rest tail
    rw [same] at first
    rw [first] at inner
    rw [shown, List.cons_append]
    exact value_items first more inner
  | .map [], _, _, bound, depth, tail, room => by
    rw [shown, shownEntries, List.cons_append, value, skipSpace_close rfl]
    rfl
  | .map ((.text s, v) :: rest), trees, plain, bound, depth, tail, room => by
    have fits : (shownEntries depth ((.text s, v) :: rest)).length ≤ bound := by
      simpa [shown] using room
    have inner : members bound (skipSpace (shownEntries depth ((.text s, v) :: rest) ++ tail)) =
        .ok ((.text s, v) :: rest, tail) :=
      members_shown ((.text s, v) :: rest) (List.cons_ne_nil _ _) trees.2 plain fits
    have first := skipSpace_shownEntries depth s v rest tail
    rw [first] at inner
    rw [shown, List.cons_append, value_members first inner, trees.1]

theorem items_shown : (vs : List Value) → vs ≠ [] → AreTrees vs →
    (∀ c ∈ charsOfItems vs, isPlain c = true) →
    ∀ {bound depth : Nat} {tail : Rest}, (shownItems depth vs).length ≤ bound →
      items bound (skipSpace (shownItems depth vs ++ tail)) = .ok (vs, tail)
  | v :: rest, _, trees, plain, bound, depth, tail, room => by
    obtain ⟨first, others⟩ := List.forall_mem_append.mp plain
    have size : (shown (depth + 1) v).length + (shownItems depth rest).length + 1 ≤ bound := by
      refine Nat.le_trans ?_ room
      simp only [shownItems, List.length_append, indent, List.length_cons]
      omega
    have nonempty : 1 ≤ (shown (depth + 1) v).length := by
      obtain ⟨c, cs, same, -⟩ := exists_shown trees.1 (depth + 1)
      rw [same, List.length_cons]
      omega
    obtain ⟨bound, rfl⟩ : ∃ less, bound = less + 2 := ⟨bound - 2, by omega⟩
    have more (notLast : rest ≠ []) :
        items (bound + 1) (skipSpace (shownItems depth rest ++ tail)) = .ok (rest, tail) :=
      items_shown rest notLast trees.2 others (by omega)
    have read : value (bound + 1) (shown (depth + 1) v ++
        (separator rest ++ (shownItems depth rest ++ tail))) = .ok (v, _) :=
      value_shown v trees.1 first (by omega)
    rw [skipSpace_shownItems trees.1, items, read]
    cases rest with
    | nil =>
      have closed : skipSpace (separator ([] : List Value) ++ (shownItems depth [] ++ tail)) =
          ']' :: tail := by
        rw [shownItems]
        exact skipSpace_close rfl depth tail
      simp only [bind, Except.bind, closed]
      rfl
    | cons w rest =>
      have comma : skipSpace (separator (w :: rest) ++ (shownItems depth (w :: rest) ++ tail)) =
          ',' :: (shownItems depth (w :: rest) ++ tail) := skipSpace_mark rfl _
      simp only [bind, Except.bind, comma, more (List.cons_ne_nil _ _)]
      rfl

theorem members_shown : (entries : List (Value × Value)) → entries ≠ [] → AreMembers entries →
    (∀ c ∈ charsOfEntries entries, isPlain c = true) →
    ∀ {bound depth : Nat} {tail : Rest}, (shownEntries depth entries).length ≤ bound →
      members bound (skipSpace (shownEntries depth entries ++ tail)) = .ok (entries, tail)
  | (.text s, v) :: rest, _, trees, plain, bound, depth, tail, room => by
    rw [charsOfEntries, charsOf] at plain
    obtain ⟨front, others⟩ := List.forall_mem_append.mp plain
    obtain ⟨name, first⟩ := List.forall_mem_append.mp front
    have size : (shown (depth + 1) v).length + (shownEntries depth rest).length + 2 ≤ bound := by
      refine Nat.le_trans ?_ room
      simp only [shownEntries, List.length_append, indent, List.length_cons]
      omega
    obtain ⟨bound, rfl⟩ : ∃ less, bound = less + 2 := ⟨bound - 2, by omega⟩
    have more (notLast : rest ≠ []) :
        members (bound + 1) (skipSpace (shownEntries depth rest ++ tail)) = .ok (rest, tail) :=
      members_shown rest notLast trees.2 others (by omega)
    have read : value (bound + 1) (shown (depth + 1) v ++
        (separator rest ++ (shownEntries depth rest ++ tail))) = .ok (v, _) :=
      value_shown v trees.1 first (by omega)
    have space (cs : Rest) : skipSpace (' ' :: cs) = skipSpace cs := rfl
    rw [skipSpace_shownEntries, members, string_of_plain name (by rw [List.length_append]; omega)]
    simp only [bind, Except.bind, skipSpace_mark (c := ':') rfl, space, skipSpace_shown trees.1,
      read]
    cases rest with
    | nil =>
      have closed : skipSpace (separator ([] : List (Value × Value)) ++
          (shownEntries depth [] ++ tail)) = '\x7d' :: tail := by
        rw [shownEntries]
        exact skipSpace_close rfl depth tail
      simp only [closed]
      rw [List.reverse_nil, List.nil_append, String.ofList_toList]
      rfl
    | cons entry rest =>
      have comma : skipSpace (separator (entry :: rest) ++
          (shownEntries depth (entry :: rest) ++ tail)) =
            ',' :: (shownEntries depth (entry :: rest) ++ tail) := skipSpace_mark rfl _
      simp only [comma, more (List.cons_ne_nil _ _)]
      rw [List.reverse_nil, List.nil_append, String.ofList_toList]
      rfl

end

/-- A layout is read back exactly if none of its characters has to be escaped. -/
theorem read_shown_iff {v : Value} (tree : IsTree v) {gap : List Char}
    (blank : ∀ c ∈ gap, isBlank c = true) :
    read (String.ofList (shown 0 v ++ gap)) = .ok v ↔ ∀ c ∈ charsOf v, isPlain c = true := by
  constructor
  · intro success
    have light : weight gap = 0 := by
      simpa [weight, List.countP_eq_zero] using blank
    have bounded := cost_le_weight success
    have balance := weight_shown 0 v tree
    rw [String.toList_ofList, weight_append, light] at bounded
    exact charsCost_le_weight_iff.mp (by omega)
  · intro plain
    have room : (shown 0 v).length ≤ (shown 0 v ++ gap).length + 1 := by
      rw [List.length_append]
      omega
    have ended : skipSpace gap = [] := by
      have skipped := skipSpace_append blank []
      rw [List.append_nil] at skipped
      exact skipped
    unfold read
    simp only [String.toList_ofList, skipSpace_shown tree, value_shown v tree plain room, bind,
      Except.bind, ended]
    rfl

end DesignGraph.Json
