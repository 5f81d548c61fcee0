import DesignGraph.Proofs.Compile.StyleVariables
import DesignGraph.Proofs.Style.Sheet

/-!
# Style variables that hold numbers

The promotion overwrites a variable when another property has its name, but it never takes a name
off the flagged ones. So a flag is right exactly if the number that it was set for, or another one,
is what the variable holds in the end.
-/

namespace DesignGraph

namespace Style

/-- The style sheet with units has one behind the value of every flagged variable. -/
theorem sheet_tokens_css (output : Output) :
    let p := promote output.components output.styles.styleVariables Style.scalarTypes
      Style.numberTypes
    let line (entry : String × String) :=
      "  --" ++ entry.1 ++ ": " ++ entry.2 ++
        (if entry.1 ∈ p.numbers.items then "px" else "") ++ ";\n"
    (tokens output).1.sheet "css" =
      String.join (output.styles.fonts.values.map faceText) ++
        (":root \x7b\n" ++ String.join (p.styleVariables.entries.map line) ++ "\x7d\n") ++
          String.join (output.styles.ruleGroups.entries.map classText) := by
  intro p line
  have lines : (tokens output).1.styleVariables.map (variableLine "css") =
      p.styleVariables.entries.map line := by
    simp only [tokens, List.map_map]
    refine List.map_congr_left fun entry _ => ?_
    simp [variableLine_css, line, p, OrderedSet.contains]
  rw [Tokens.sheet_css, lines]
  rfl

/-- When a flagged variable holds a number. After the promotion, a variable has the initializer of
the property that was promoted last under its name, or what it had before if none was. It is flagged
if any property under its name is a number. So the flag tells what the variable holds exactly if
no number is overwritten by something else: whenever a number is promoted under the name, the
last property promoted under it is a number. In the style sheet, the value of a variable has a unit
behind it if the variable is flagged. -/
theorem flag_tells_number_iff_not_overwritten (components : Roster)
    (initial : OrderedMap String String) (scalarTypes numberTypes : List String) :
    let promoted := promotedProperties scalarTypes components
    let p := promote components initial scalarTypes numberTypes
    (∀ name, p.styleVariables.get? name =
      ((holder? promoted name).map (·.property.initializer)).or (initial.get? name)) ∧
    (∀ name, name ∈ p.numbers.items ↔
      ∃ given ∈ promoted, given.token = name ∧ given.property.type ∈ numberTypes) ∧
    (∀ name, (name ∈ p.numbers.items ↔ HoldsNumber numberTypes promoted name) ↔
      ∀ given ∈ promoted, given.token = name → given.property.type ∈ numberTypes →
        HoldsNumber numberTypes promoted name) ∧
    ∀ (installed : Path) (output : Output),
      let final := promote output.components output.styles.styleVariables Style.scalarTypes
        Style.numberTypes
      let line (entry : String × String) :=
        "  --" ++ entry.1 ++ ": " ++ entry.2 ++
          (if entry.1 ∈ final.numbers.items then "px" else "") ++ ";\n"
      Stock.render installed .web "styles.css.j2" (tokens output).1.data =
        .ok (String.join (output.styles.fonts.values.map faceText) ++
          (":root \x7b\n" ++ String.join (final.styleVariables.entries.map line) ++ "\x7d\n") ++
            String.join (output.styles.ruleGroups.entries.map classText)) := by
  intro promoted p
  have reached : Promotion.After numberTypes initial promoted p := after_promote components initial
  refine ⟨reached.held, reached.flagged, fun name => ?_, fun installed output => ?_⟩
  · rw [reached.flagged]
    constructor
    · intro right given listed same number
      exact right.mp ⟨given, listed, same, number⟩
    · intro kept
      refine ⟨?_, fun holds => (reached.flagged name).mp (reached.flagged_of_holdsNumber holds)⟩
      rintro ⟨given, listed, same, number⟩
      exact kept given listed same number
  · intro final line
    rw [← sheet_tokens_css]
    exact render_sheet installed List.mem_cons_self _

/-! A banner with a width and a text property of the given name. -/

namespace Colliding

def roster (name : String) : Roster := ⟨[("Banner", {
  spec := {
    componentName := "Banner"
    properties := ⟨[("maxWidth", ⟨"number", "3", false⟩), (name, ⟨"string", "\"wide\"", false⟩)]⟩ }
  instances := ⟨["top"]⟩ })]⟩

/-- The width is promoted first, and then the text. -/
theorem promotedProperties_eq (name : String) :
    promotedProperties scalarTypes (roster name) =
      [⟨"Banner", "maxWidth", ⟨"number", "3", false⟩⟩,
        ⟨"Banner", name, ⟨"string", "\"wide\"", false⟩⟩] := rfl

theorem tokenName_maxWidth : tokenName "Banner" "maxWidth" = "banner-max-width" :=
  Compilation.Banner.tokenName_eq (by decide) Compilation.Banner.kebab_names.2.2.1

theorem tokenName_max_width : tokenName "Banner" "max_width" = "banner-max-width" :=
  Compilation.Banner.tokenName_eq (by decide) Compilation.Banner.kebab_names.2.2.2.1

theorem promote_eq :
    promote (roster "max_width") ∅ scalarTypes numberTypes =
      ⟨⟨[("banner-max-width", "\"wide\"")]⟩, ⟨["banner-max-width"]⟩⟩ := by
  rw [Style.promote_eq, promotedProperties_eq]
  simp only [List.foldl_cons, List.foldl_nil, Promotion.add, Promoted.set, Promoted.token,
    tokenName_maxWidth, tokenName_max_width]
  rfl

end Colliding

/-- A text under the name of a width takes its place and keeps its flag, so it gets a unit. -/
theorem text_over_width_has_unit :
    let components := Colliding.roster "max_width"
    let promoted := promotedProperties scalarTypes components
    let p := promote components ∅ scalarTypes numberTypes
    p.styleVariables.get? "banner-max-width" = some "\"wide\"" ∧
      "banner-max-width" ∈ p.numbers.items ∧
      ¬ HoldsNumber numberTypes promoted "banner-max-width" ∧
      (tokens { components := components }).1.sheet "css" =
        ":root \x7b\n  --banner-max-width: \"wide\"px;\n\x7d\n" := by
  intro components promoted p
  have p_eq : p = ⟨⟨[("banner-max-width", "\"wide\"")]⟩, ⟨["banner-max-width"]⟩⟩ :=
    Colliding.promote_eq
  refine ⟨?_, ?_, ?_, ?_⟩
  · rw [p_eq]
    rfl
  · rw [p_eq]
    exact List.mem_singleton_self _
  · have last : holder? promoted "banner-max-width" =
        some ⟨"Banner", "max_width", ⟨"string", "\"wide\"", false⟩⟩ :=
      List.find?_cons_of_pos (by simp [Promoted.token, Colliding.tokenName_max_width])
    rintro ⟨holder, found, number⟩
    rw [last] at found
    cases found
    revert number
    decide
  · rw [sheet_tokens_css]
    change _ ++ (":root \x7b\n" ++ String.join (p.styleVariables.entries.map fun entry => "  --" ++
      entry.1 ++ ": " ++ entry.2 ++ (if entry.1 ∈ p.numbers.items then "px" else "") ++ ";\n") ++
        "\x7d\n") ++ _ = _
    rw [p_eq]
    decide

end Style

end DesignGraph
