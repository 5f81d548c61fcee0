import DesignGraph.Proofs.Compile.Fonts
import DesignGraph.Proofs.Compile.KeptAssets
import DesignGraph.Proofs.Compile.StyleVariables
import DesignGraph.Proofs.Style.Color

/-!
# Numbers in style sheets

A class has the numbers of a design as their literals, and the style sheets show them as they are
given: a size by its plain text, a color by what comes of its channels. Here are all the classes of
the style sheets, and for which values the two agree.
-/

namespace DesignGraph

namespace Web

/-! ## Sizes -/

/-- The size of a typograph as the number that it stands for. -/
def numberSize? (typograph : Instance) : Option String :=
  ((typograph.values.get? "fontSize").bind (·.coerceNumber false)).map fun number =>
    number.text ++ "px"

/-- A value whose plain text is that of the number that it stands for. -/
def HasNumberText : Value → Prop
  | .int _ => True
  | .float x => x.isFinite = true ∧ x.whole? = none
  | .text s => ∃ number, (Value.text s).coerceNumber false = some number ∧ number.text = s
  | _ => False

theorem text_eq_plain_iff {v : Value} :
    (v.coerceNumber false).map Quantum.text = some v.plain ↔ HasNumberText v := by
  cases v with
  | int n => exact iff_of_true rfl trivial
  | float x =>
    cases x with
    | nan => exact iff_of_false (by rintro ⟨⟩) (by simp [HasNumberText, Binary64.isFinite])
    | infinite => exact iff_of_false (by rintro ⟨⟩) (by simp [HasNumberText, Binary64.isFinite])
    | finite negative mantissa exponent =>
      have finite : (Binary64.finite negative mantissa exponent).isFinite = true := rfl
      cases whole : (Binary64.finite negative mantissa exponent).whole? with
      | none =>
        refine iff_of_true ?_ ⟨finite, whole⟩
        simp only [Value.coerceNumber, Quantum.ofBinary64?, finite, whole]
        rfl
      | some n =>
        refine iff_of_false ?_ fun kept => ?_
        · simp only [Value.coerceNumber, Quantum.ofBinary64?, finite, whole]
          intro same
          exact Binary64.toText_ne_toString _ _ _ _ (Option.some.inj same).symm
        · rw [HasNumberText, whole] at kept
          cases kept.2
  | text s => exact Option.map_eq_some_iff
  | bool _ => exact iff_of_false (by rintro ⟨⟩) id
  | null => exact iff_of_false (by rintro ⟨⟩) id
  | date _ => exact iff_of_false (by rintro ⟨⟩) id
  | moment _ => exact iff_of_false (by rintro ⟨⟩) id
  | clock _ => exact iff_of_false (by rintro ⟨⟩) id
  | list _ => exact iff_of_false (by rintro ⟨⟩) id
  | map _ => exact iff_of_false (by rintro ⟨⟩) id

/-- A size is shown as its number exactly if its plain text is that of the number. -/
theorem numberSize?_eq_iff {typograph : Instance} :
    (typograph.values.get? "fontSize").map (·.plain ++ "px") = numberSize? typograph ↔
      ∀ size, typograph.values.get? "fontSize" = some size → HasNumberText size := by
  cases given : typograph.values.get? "fontSize" with
  | none => simp [numberSize?, given]
  | some size =>
    have unit : Function.Injective (· ++ "px") := fun s t same => by simpa using same
    have shown : numberSize? typograph =
        ((size.coerceNumber false).map Quantum.text).map (· ++ "px") := by
      simp only [numberSize?, given, Option.bind_some, Option.map_map]
      rfl
    have asGiven : (some size).map (·.plain ++ "px") = (some size.plain).map (· ++ "px") := rfl
    rw [shown, asGiven, (Option.map_injective unit).eq_iff, eq_comm, text_eq_plain_iff]
    simp

/-- The rules of a typograph tell its size and its color, if it has them. -/
theorem get?_rules {graph : Graph} {typograph : Instance} {family : String}
    {color : List (String × String)} (colored : ColorRules graph typograph color) :
    let rules : StyleRules := ⟨("font-family", family) :: sizeRules typograph ++ color⟩
    rules.get? "font-size" = (typograph.values.get? "fontSize").map (·.plain ++ "px") ∧
      ∀ colorValue, typograph.values.get? "color" = some colorValue →
        ∃ color css, graph.instance? colorValue = some color ∧
          Style.colorCss color.values = .ok css ∧ rules.get? "color" = some css := by
  intro rules
  constructor
  · cases given : typograph.values.get? "fontSize" with
    | none =>
      obtain ⟨-, rfl⟩ | ⟨_, _, _, -, -, -, rfl⟩ := colored
      all_goals
        simp only [rules, sizeRules, given]
        rfl
    | some size =>
      simp only [rules, sizeRules, given]
      rfl
  · intro colorValue given
    obtain ⟨absent, -⟩ | ⟨other, color, css, same, found, shown, rfl⟩ := colored
    · rw [given] at absent
      cases absent
    · rw [given, Option.some.injEq] at same
      subst same
      refine ⟨color, css, found, shown, ?_⟩
      cases sized : typograph.values.get? "fontSize" with
      | none =>
        simp only [rules, sizeRules, sized]
        rfl
      | some size =>
        simp only [rules, sizeRules, sized]
        rfl

/-- The class that a typograph adds tells its size and its color. -/
theorem rules_of_typographBinder {around : Surroundings} {typograph : Instance}
    {reference : Reference} {effects : List Effect}
    (answered : typographBinder around typograph (some reference) = .ok effects) :
    ∃ rules, effects = [.ruleGroup (Style.tokenName reference.parentType reference.name) rules] ∧
      rules.get? "font-size" = (typograph.values.get? "fontSize").map (·.plain ++ "px") ∧
      ∀ colorValue, typograph.values.get? "color" = some colorValue →
        ∃ color css, around.program.graph.instance? colorValue = some color ∧
          Style.colorCss color.values = .ok css ∧ rules.get? "color" = some css := by
  obtain ⟨⟨⟩, -⟩ | ⟨_, _, _, _, _, _, ⟨⟩, -, -, -, -, colored, rfl⟩ :=
    class_of_typographBinder answered
  exact ⟨_, rfl, get?_rules colored⟩

/-- The names of the classes of a color end like this. -/
theorem suffix_of_mem_colorClasses {token name : String} {rules : StyleRules}
    (listed : (name, rules) ∈ colorClasses token) : "-color".toList <:+ name.toList := by
  simp only [colorClasses, List.mem_cons, List.not_mem_nil, or_false, Prod.mk.injEq] at listed
  obtain ⟨rfl, -⟩ | ⟨rfl, -⟩ := listed
  · rw [String.toList_append]
    exact List.suffix_append _ _
  · rw [String.toList_append]
    exact (by decide : "-color".toList <:+ "-background-color".toList).trans
      (List.suffix_append _ _)

end Web

namespace Compilation

variable {setup : Setup} {around : Surroundings} {before after : Compiler} {inst : Instance}
  {reference : Reference} {name : String} {rules : StyleRules}

/-! ## Classes -/

/-- What classes an instance adds that a property holds: a typograph its own, and a color the two
that show its variable. -/
inductive AddsClass (around : Surroundings) (inst : Instance) (reference : Reference) :
    String → StyleRules → Prop
  | typograph {name : String} {rules : StyleRules}
      (isTypograph : around.program.graph.componentName inst = "Typograph")
      (bound : Web.typographBinder around inst (some reference) = .ok [.ruleGroup name rules]) :
      AddsClass around inst reference name rules
  | color {name : String} {rules : StyleRules}
      (isColor : around.program.graph.componentName inst = "Color")
      (listed : (name, rules) ∈
        Web.colorClasses (Style.tokenName reference.parentType reference.name)) :
      AddsClass around inst reference name rules

/-- A class that a visit adds. -/
def IsClass (around : Surroundings) (name : String) (rules : StyleRules) : Prop :=
  ∃ inst reference, around.program.Visits ⟨inst, some reference⟩ ∧
    AddsClass around inst reference name rules

section visits

variable {reference? : Option Reference} {effects : List Effect}

theorem class_mem_of_colorBinder_iff
    (isColor : around.program.graph.componentName inst = "Color")
    (answered : Web.colorBinder around inst reference? = .ok effects) :
    (name, rules) ∈ effects.filterMap Effect.ruleGroup? ↔
      ∃ reference, reference? = some reference ∧ AddsClass around inst reference name rules := by
  obtain ⟨rfl, rfl⟩ | ⟨reference, css, rfl, -, rfl⟩ := effects_of_colorBinder answered
  · simp
  · have classes_eq : (Effect.styleVariable
        (Style.tokenName reference.parentType reference.name) css ::
          (Web.colorClasses (Style.tokenName reference.parentType reference.name)).map
            fun group => .ruleGroup group.1 group.2).filterMap Effect.ruleGroup? =
        Web.colorClasses (Style.tokenName reference.parentType reference.name) := rfl
    simp only [classes_eq, Option.some.injEq, exists_eq_left']
    constructor
    · exact .color isColor
    · rintro (⟨isTypograph, -⟩ | ⟨-, listed⟩)
      · rw [isColor] at isTypograph
        exact absurd isTypograph (by decide)
      · exact listed

theorem class_mem_of_typographBinder_iff
    (isTypograph : around.program.graph.componentName inst = "Typograph")
    (answered : Web.typographBinder around inst reference? = .ok effects) :
    (name, rules) ∈ effects.filterMap Effect.ruleGroup? ↔
      ∃ reference, reference? = some reference ∧ AddsClass around inst reference name rules := by
  obtain ⟨rfl, rfl⟩ | ⟨reference, _, _, _, _, _, rfl, -, -, -, -, -, rfl⟩ :=
    class_of_typographBinder answered
  · simp
  · simp only [List.filterMap_cons, Effect.ruleGroup?, List.filterMap_nil, List.mem_singleton,
      Option.some.injEq, exists_eq_left']
    constructor
    · rintro ⟨⟩
      exact .typograph isTypograph answered
    · rintro (⟨-, bound⟩ | ⟨isColor, -⟩)
      · rw [answered] at bound
        cases bound
        rfl
      · rw [isTypograph] at isColor
        exact absurd isColor (by decide)

/-- The classes that a visit adds. -/
theorem class_mem_of_added_iff (shipped : setup.bindings = setup.target.bindings setup.installed)
    (web : setup.target = .web)
    (answered : added setup around (.visit ⟨inst, reference?⟩) = .ok effects) :
    (name, rules) ∈ effects.filterMap Effect.ruleGroup? ↔
      ∃ reference, reference? = some reference ∧ AddsClass around inst reference name rules := by
  rw [added_visit shipped, web] at answered
  -- Visits of the other types add no class.
  have neither (none_added : effects.filterMap Effect.ruleGroup? = [])
      (noColor : around.program.graph.componentName inst ≠ "Color")
      (noTypograph : around.program.graph.componentName inst ≠ "Typograph") :
      (name, rules) ∈ effects.filterMap Effect.ruleGroup? ↔
        ∃ reference, reference? = some reference ∧ AddsClass around inst reference name rules := by
    rw [none_added]
    refine iff_of_false List.not_mem_nil ?_
    rintro ⟨_, -, ⟨isTypograph, -⟩ | ⟨isColor, -⟩⟩
    · exact noTypograph isTypograph
    · exact noColor isColor
  have ofFile (answered : Asset.fileBinder around inst reference? = .ok effects) :
      effects.filterMap Effect.ruleGroup? = [] := by
    rw [List.filterMap_eq_nil_iff]
    intro effect member
    obtain ⟨name, asset, rfl⟩ := effects_of_fileBinder answered effect member
    rfl
  by_cases prefab : around.program.graph.componentName inst ∈ prefabNames
  · simp only [prefabNames, List.mem_cons, List.not_mem_nil, or_false] at prefab
    rcases prefab with type | type | type | type | type <;>
      simp only [type, prefabBinder?] at answered
    · exact neither (ofFile answered) (by simp [type]) (by simp [type])
    · exact neither (ofFile answered) (by simp [type]) (by simp [type])
    · exact class_mem_of_colorBinder_iff type answered
    · obtain ⟨_, _, _, _, _, -, -, -, rfl⟩ := effects_of_fontBinder answered
      exact neither rfl (by simp [type]) (by simp [type])
    · exact class_mem_of_typographBinder_iff type answered
  · rw [prefabBinder?_eq_none .web prefab] at answered
    cases answered
    simp only [prefabNames, List.mem_cons, List.not_mem_nil, or_false, not_or] at prefab
    exact neither rfl prefab.2.2.1 prefab.2.2.2.2

end visits

/-- The classes that a walk adds are those of its visits. -/
theorem Added.class_mem_iff {done : List Event} {effects : List (List Effect)} {output : Output}
    (add : Added setup around done effects output)
    (shipped : setup.bindings = setup.target.bindings setup.installed)
    (web : setup.target = .web) :
    (name, rules) ∈ effects.flatten.filterMap Effect.ruleGroup? ↔ IsClass around name rules := by
  rw [add.mem_filterMap_iff]
  constructor
  · rintro ⟨⟨inst, reference?⟩, visits, new, answered, listed⟩
    obtain ⟨reference, rfl, adds⟩ := (class_mem_of_added_iff shipped web answered).mp listed
    exact ⟨inst, reference, visits, adds⟩
  · rintro ⟨inst, reference, visits, adds⟩
    obtain ⟨new, answered⟩ := add.exists_added visits
    exact ⟨_, visits, new, answered,
      (class_mem_of_added_iff shipped web answered).mpr ⟨reference, rfl, adds⟩⟩

/-- A run has the classes of its visits, and answers for every typograph that a property holds. -/
theorem classes_of_run {program? : Option Program} {result : CompilationResult}
    (web : setup.target = .web) (shipped : setup.bindings = setup.target.bindings setup.installed)
    (ran : (run setup program?).Yields before result after) :
    let around := setup.aroundRun before after.program
    (∀ name, (after.output.styles.ruleGroups.get? name).isSome ↔ ∃ rules, IsClass around name rules) ∧
    (∀ name rules, after.output.styles.ruleGroups.get? name = some rules →
      IsClass around name rules) ∧
    ∀ typograph reference, after.program.Visits ⟨typograph, some reference⟩ →
      after.program.graph.componentName typograph = "Typograph" →
      ∃ effects, Web.typographBinder around typograph (some reference) = .ok effects := by
  intro around
  obtain ⟨done, effects, add, classes_eq⟩ := exists_classes_of_run ran
  have isClass : ∀ name rules, (name, rules) ∈ effects.flatten.filterMap Effect.ruleGroup? ↔
      IsClass around name rules := fun name rules => add.class_mem_iff shipped web
  refine ⟨?_, ?_, ?_⟩
  · intro name
    rw [classes_eq, OrderedMap.isSome_get?_ofList]
    exact exists_congr (isClass name)
  · intro name rules found
    rw [classes_eq] at found
    exact (isClass name rules).mp (OrderedMap.mem_of_get?_ofList found)
  · intro typograph reference visits isTypograph
    obtain ⟨new, answered⟩ := add.exists_added visits
    have type_eq : around.program.graph.componentName typograph = "Typograph" := isTypograph
    rw [added_visit shipped, web, type_eq] at answered
    exact ⟨new, answered⟩

/-! ## The run -/

/-- Which numbers the style sheets show as the classes have them. After a run of the web target with
the bindings of the library, the style sheets have the classes of the typographs and colors that are
visited, and the variables of the tokens. The class of a typograph has the plain text of its size,
if it has one. It has the text of the number that the size stands for, or no size where it stands
for none, exactly if the size is an integer, a finite number that is not whole, or the text of its
own number. The color of a typograph and that of a variable are computed from the channels as they
are given, which is the color of their numbers exactly if every channel keeps its number. -/
theorem sheets_show_numbers_iff {program? : Option Program} {result : CompilationResult}
    (web : setup.target = .web) (shipped : setup.bindings = setup.target.bindings setup.installed)
    (ran : (run setup program?).Yields before result after) :
    let around := setup.aroundRun before after.program
    let program := after.program
    let classes := after.output.styles.ruleGroups
    let styleVariables := after.output.styles.styleVariables
    (∃ assets sheets files, ∃ tokens : Style.Tokens,
      before.tree.Stores (assets ++ (sheets ++ files)) after.tree ∧
      sheets.map (fun stored => (stored.path, stored.content)) =
        Stock.styleLanguages.map (fun language =>
          ((staticRootInUse setup after).joinText ("styles." ++ language),
            String.toUTF8 (tokens.sheet language))) ∧
      ∀ language ∈ Stock.styleLanguages,
        (∀ name rules, classes.get? name = some rules →
          (Style.classText (name, rules)).toList <:+: (tokens.sheet language).toList) ∧
        ∀ name value, styleVariables.get? name = some value →
          (": " ++ value).toList <:+: (tokens.sheet language).toList) ∧
    (∀ name, (classes.get? name).isSome ↔ ∃ rules, IsClass around name rules) ∧
    (∀ name rules, classes.get? name = some rules → IsClass around name rules) ∧
    (∀ name value, styleVariables.get? name = some value →
      IsToken program after.output.components name value) ∧
    (∀ typograph reference, program.Visits ⟨typograph, some reference⟩ →
      program.graph.componentName typograph = "Typograph" →
      ∃ rules, IsClass around (Style.tokenName reference.parentType reference.name) rules ∧
        Web.typographBinder around typograph (some reference) =
          .ok [.ruleGroup (Style.tokenName reference.parentType reference.name) rules] ∧
        rules.get? "font-size" = (typograph.values.get? "fontSize").map (·.plain ++ "px") ∧
        (rules.get? "font-size" = Web.numberSize? typograph ↔
          ∀ size, typograph.values.get? "fontSize" = some size → Web.HasNumberText size) ∧
        ∀ colorValue, typograph.values.get? "color" = some colorValue →
          ∃ color css, program.graph.instance? colorValue = some color ∧
            Style.colorCss color.values = .ok css ∧ rules.get? "color" = some css ∧
            (Style.colorCss (Style.numericChannels color.values) = .ok css ↔
              Style.KeepsChannels color.values)) ∧
    ∀ color reference, program.Visits ⟨color, some reference⟩ →
      program.graph.componentName color = "Color" →
      ∃ css, Style.colorCss color.values = .ok css ∧
        IsToken program after.output.components
          (Style.tokenName reference.parentType reference.name) css ∧
        (Style.colorCss (Style.numericChannels color.values) = .ok css ↔
          Style.KeepsChannels color.values) := by
  intro around program classes styleVariables
  obtain ⟨present, fromVisits, typographs⟩ := classes_of_run web shipped ran
  obtain ⟨colors, done, -, written, fromTokens⟩ := styleVariables_of_run web shipped ran
  obtain ⟨assets, sheets, files, tokens, stores, -, shown, contents, -, -⟩ :=
    exists_sheets_of_run ran
  have shows := shown web
  rw [web] at contents
  refine ⟨⟨assets, sheets, files, tokens, stores, contents, fun language _ => ⟨?_, ?_⟩⟩, present,
    fromVisits, ?_, ?_, ?_⟩
  · intro name rules kept
    have entry := OrderedMap.mem_entries_of_get? kept
    rw [← shows.classes_eq] at entry
    exact Style.infix_sheet (.inr (.inr (List.mem_map_of_mem entry)))
  · intro name value kept
    have entry := OrderedMap.mem_entries_of_get? kept
    rw [← shows.variables_eq] at entry
    obtain ⟨v, member, same⟩ := List.mem_map.mp entry
    rw [← (Prod.mk.inj same).2]
    exact Style.infix_sheet_of_declares (.ofVariable member) language
  · intro name value kept
    refine (fromTokens name value).mp (OrderedMap.mem_of_get?_ofList ?_)
    rw [← written]
    exact kept
  · intro typograph reference visits isTypograph
    obtain ⟨effects, answered⟩ := typographs typograph reference visits isTypograph
    obtain ⟨rules, rfl, size_eq, color_eq⟩ := Web.rules_of_typographBinder answered
    refine ⟨rules, ⟨_, _, visits, .typograph isTypograph answered⟩, answered, size_eq, ?_, ?_⟩
    · rw [size_eq, Web.numberSize?_eq_iff]
    · intro colorValue given
      obtain ⟨color, css, found, shown, rule_eq⟩ := color_eq colorValue given
      exact ⟨color, css, found, shown, rule_eq, Style.colorCss_numericChannels_iff shown⟩
  · intro color reference visits isColor
    obtain ⟨css, shown⟩ := colors color reference visits isColor
    exact ⟨css, shown, .color visits isColor shown, Style.colorCss_numericChannels_iff shown⟩

/-! A page whose title has the given size and a color. -/

namespace Headed

def page : Instance := ⟨"home", "Page", ⟨[("title", .text "heading")]⟩⟩

def typograph (size : Value) : Instance :=
  ⟨"heading", "Typograph",
    ⟨[("font", .text "serif"), ("fontSize", size), ("color", .text "blue")]⟩⟩

def program (size : Value) : Program where
  projectName := "Site"
  projectRoot := ⟨"/", ["site"]⟩
  graph := {
    types := Prefab.types.insert "Page" ⟨"Page", [⟨"title", "Typograph", 0⟩]⟩
    instances := ⟨[("home", page), ("heading", typograph size), ("serif", Lettered.font),
      ("woff", Lettered.file), ("blue", Tinted.color (.int 1))]⟩ }
  roots := ⟨[("Page", "home")]⟩

def webSetup (size : Value) : Setup :=
  .ofProgram .web ⟨"/", []⟩ (Target.bindings ⟨"/", []⟩ .web) (.ok "localhost") (program size)

/-- The files that the package is made from, and the directories that it is written to. -/
def files : FileTree where
  entries := ⟨Lettered.files.entries.entries ++ [
    (["web", "bindings", "Color.js"], .file ⟨#[]⟩),
    (["web", "bindings", "Color.d.ts"], .file ⟨#[]⟩),
    (["web", "bindings", "Typograph.js"], .file ⟨#[]⟩),
    (["web", "bindings", "Typograph.d.ts"], .file ⟨#[]⟩)]⟩

def compiler (size : Value) : Compiler := (webSetup size).compiler (program size) files

theorem visits_typograph (size : Value) :
    (program size).Visits ⟨typograph size, some ⟨"Page", "title"⟩⟩ := by
  have met : (program size).Meets page := ⟨page, List.mem_singleton_self _, .refl⟩
  have refers : (program size).graph.RefersAt page ⟨"title", "Typograph", 0⟩ (.text "heading") :=
    ⟨rfl, _, rfl, List.mem_cons_self, _, rfl, .here _⟩
  exact .reference met refers rfl

/-- There is one typograph. -/
theorem eq_of_visits {size : Value} {inst : Instance} {reference : Reference}
    (visits : (program size).Visits ⟨inst, some reference⟩)
    (isTypograph : (program size).graph.componentName inst = "Typograph") :
    inst = typograph size := by
  cases visits with
  | @reference _ _ _ leaf _ _ found =>
    cases leaf with
    | text id =>
      have listed := OrderedMap.mem_entries_of_get? (show
        (program size).graph.instances.get? id = some inst from found)
      simp only [program, List.mem_cons, List.not_mem_nil, or_false, Prod.mk.injEq] at listed
      obtain ⟨-, rfl⟩ | ⟨-, rfl⟩ | ⟨-, rfl⟩ | ⟨-, rfl⟩ | ⟨-, rfl⟩ := listed
      · exact absurd (show "Page" = "Typograph" from isTypograph) (by decide)
      · rfl
      · exact absurd (show "Font" = "Typograph" from isTypograph) (by decide)
      · exact absurd (show "File" = "Typograph" from isTypograph) (by decide)
      · exact absurd (show "Color" = "Typograph" from isTypograph) (by decide)
    | _ => cases found

/-- A run for a size for which the walk and the package succeed. -/
theorem exists_run (size : Value)
    (succeeds : (walkOutcome (webSetup size) (compiler size)).1.isOk = true)
    (inside :
      (walkOutcome (webSetup size) (compiler size)).2.output.assets.keys.all isInside = true)
    (taken : files.takes [] (plainJobs (webSetup size)
      (walkOutcome (webSetup size) (compiler size)).2.output) = true) :
    ∃ result after, (run (webSetup size) none).Yields (compiler size) result after ∧
      after.program = program size ∧
      after.program.Visits ⟨typograph size, some ⟨"Page", "title"⟩⟩ ∧
      after.program.graph.componentName (typograph size) = "Typograph" := by
  obtain ⟨result, after, ran, program_eq, -⟩ := exists_run_of_takes
    (show (webSetup size).bindings = _ from rfl) rfl succeeds inside taken
  refine ⟨result, after, ran, program_eq, ?_, ?_⟩
  · rw [program_eq]
    exact visits_typograph size
  · rw [program_eq]
    rfl

open Naming in
theorem tokenName_title : Style.tokenName "Page" "title" = "page-title" := by
  have page : kebab "Page" = "page" := by
    refine Banner.kebab_of_words "Page".toList ?_ (by decide +kernel)
    simp [hyphenateWords, isCapital, isSmall]
  have title : kebab "title" = "title" := by
    refine Banner.kebab_of_words "title".toList ?_ (by decide +kernel)
    simp [hyphenateWords, isCapital, isSmall]
  simp [Style.tokenName, joinKebab, page, title]

end Headed

/-- A size that is an integer, and a color of integers. -/
theorem size_of_title_is_its_number :
    let setup := Headed.webSetup (.int 16)
    let before := Headed.compiler (.int 16)
    setup.target = .web ∧ setup.bindings = setup.target.bindings setup.installed ∧
    ∃ result after rules, (run setup none).Yields before result after ∧
      after.program.Visits ⟨Headed.typograph (.int 16), some ⟨"Page", "title"⟩⟩ ∧
      IsClass (setup.aroundRun before after.program) (Style.tokenName "Page" "title") rules ∧
      rules.get? "font-size" = some "16px" ∧
      Web.numberSize? (Headed.typograph (.int 16)) = some "16px" ∧
      ∃ css, rules.get? "color" = some css ∧
        Style.colorCss (Style.numericChannels (Tinted.color (.int 1)).values) = .ok css := by
  intro setup before
  obtain ⟨result, after, ran, program_eq, visits, isTypograph⟩ :=
    Headed.exists_run (.int 16) (by decide +kernel) (by decide +kernel) (by decide +kernel)
  obtain ⟨-, -, -, -, typographs, -⟩ := sheets_show_numbers_iff rfl rfl ran
  obtain ⟨rules, isClass, -, size_eq, size_iff, colored⟩ := typographs _ _ visits isTypograph
  have sized : rules.get? "font-size" = some "16px" := size_eq.trans (by decide +kernel)
  have number : rules.get? "font-size" = Web.numberSize? (Headed.typograph (.int 16)) := by
    refine size_iff.mpr ?_
    rintro _ ⟨⟩
    trivial
  obtain ⟨color, css, found, -, color_eq, color_iff⟩ := colored (.text "blue") rfl
  obtain rfl : Tinted.color (.int 1) = color := by
    rw [program_eq] at found
    exact Option.some.inj found
  have keeps : Style.KeepsChannels (Tinted.color (.int 1)).values := by
    refine ⟨fun name listed v given => ?_, by rintro ⟨⟩⟩
    simp only [List.mem_cons, List.not_mem_nil, or_false] at listed
    rcases listed with rfl | rfl | rfl
    · obtain rfl : Value.int 1 = v := Option.some.inj given
      trivial
    · cases given
    · cases given
  exact ⟨rfl, rfl, result, after, rules, ran, visits, isClass, sized, number ▸ sized, css, color_eq,
    color_iff.mpr keeps⟩

/-- A size that is a truth value is no number, and shown nevertheless. -/
theorem size_of_title_is_no_number :
    let setup := Headed.webSetup (.bool true)
    let before := Headed.compiler (.bool true)
    setup.target = .web ∧ setup.bindings = setup.target.bindings setup.installed ∧
    Web.numberSize? (Headed.typograph (.bool true)) = none ∧
    ∃ result after rules, (run setup none).Yields before result after ∧
      after.program.Visits ⟨Headed.typograph (.bool true), some ⟨"Page", "title"⟩⟩ ∧
      after.output.styles.ruleGroups.get? (Style.tokenName "Page" "title") = some rules ∧
      rules.get? "font-size" = some "Truepx" := by
  intro setup before
  obtain ⟨result, after, ran, program_eq, visits, isTypograph⟩ :=
    Headed.exists_run (.bool true) (by decide +kernel) (by decide +kernel) (by decide +kernel)
  obtain ⟨present, fromVisits, typographs⟩ := classes_of_run rfl rfl ran
  obtain ⟨effects, bound⟩ := typographs _ _ visits isTypograph
  obtain ⟨own, rfl, -⟩ := Web.rules_of_typographBinder bound
  obtain ⟨rules, kept⟩ := Option.isSome_iff_exists.mp
    ((present _).mpr ⟨own, _, _, visits, .typograph isTypograph bound⟩)
  refine ⟨rfl, rfl, rfl, result, after, rules, ran, visits, kept, ?_⟩
  -- What has added the class is the one typograph, as the classes of colors are called otherwise.
  obtain ⟨inst, reference, visits, ⟨isTypograph, bound⟩ | ⟨-, listed⟩⟩ := fromVisits _ _ kept
  · rw [program_eq] at visits isTypograph
    obtain rfl := Headed.eq_of_visits visits isTypograph
    obtain ⟨_, effects_eq, size_eq, -⟩ := Web.rules_of_typographBinder bound
    obtain ⟨-, rfl⟩ := Effect.ruleGroup.inj (List.cons.inj effects_eq).1
    exact size_eq.trans (by decide +kernel)
  · have ends := Web.suffix_of_mem_colorClasses listed
    rw [Headed.tokenName_title] at ends
    exact absurd ends (by decide)

end Compilation

end DesignGraph
