import DesignGraph.Proofs.Compile.Completion

/-!
# Style variables

Two writers share the style variables of a web package: the binder of colors in the course of the
walk, and the promotion of scalar properties after it. Both name a variable after a type and a
property, and different properties can have the same name. Here is all that is written, in order,
and when nothing of it is lost.
-/

namespace DesignGraph

/-- The style variable that an effect sets. -/
def Effect.styleVariable? : Effect → Option (String × String)
  | .styleVariable name value => some (name, value)
  | _ => none

/-- The variable of a promoted property and its value. -/
def Style.Promoted.setting (promoted : Style.Promoted) : String × String :=
  (promoted.token, promoted.property.initializer)

namespace Compilation

variable {setup : Setup} {around : Surroundings} {before after : Compiler} {program : Program}

theorem styleVariables_applyAll (output : Output) (effects : List Effect) :
    (output.applyAll effects).styles.styleVariables =
      (effects.filterMap Effect.styleVariable?).foldl (fun m pair => m.insert pair.1 pair.2)
        output.styles.styleVariables :=
  map_applyAll (·.styles.styleVariables) _ (fun _ effect => by cases effect <;> rfl) output effects

/-! ## The walk -/

/-- The style variables that an event sets: a color that a property holds sets that of the
property. -/
def colorSettings (graph : Graph) : Event → List (String × String)
  | .visit ⟨inst, some reference⟩ =>
      if graph.componentName inst = "Color" then
        (Style.colorCss inst.values).toOption.toList.map fun css =>
          (Style.tokenName reference.parentType reference.name, css)
      else []
  | _ => []

theorem mem_colorSettings {graph : Graph} {event : Event} {name value : String} :
    (name, value) ∈ colorSettings graph event ↔ ∃ inst reference,
      event = .visit ⟨inst, some reference⟩ ∧ graph.componentName inst = "Color" ∧
        Style.tokenName reference.parentType reference.name = name ∧
        Style.colorCss inst.values = .ok value := by
  cases event with
  | omission _ => simp [colorSettings]
  | visit visited =>
    obtain ⟨inst, reference⟩ := visited
    cases reference with
    | none => simp [colorSettings]
    | some reference =>
      by_cases isColor : graph.componentName inst = "Color"
      · cases shown : Style.colorCss inst.values with
        | error _ => simp [colorSettings, isColor, shown, Except.toOption]
        | ok css =>
          simp [colorSettings, isColor, shown, Except.toOption, eq_comm]
      · simp [colorSettings, isColor]

theorem styleVariables_of_added (shipped : setup.bindings = setup.target.bindings setup.installed)
    (web : setup.target = .web) {event : Event} {effects : List Effect}
    (answered : added setup around event = .ok effects) :
    effects.filterMap Effect.styleVariable? = colorSettings around.program.graph event := by
  cases event with
  | omission _ =>
    cases answered
    rfl
  | visit visited =>
    obtain ⟨inst, reference⟩ := visited
    rw [added_visit shipped, web] at answered
    by_cases prefab : around.program.graph.componentName inst ∈ prefabNames
    · have ofFile (answered : Asset.fileBinder around inst reference = .ok effects)
          (other : around.program.graph.componentName inst ≠ "Color") :
          effects.filterMap Effect.styleVariable? =
            colorSettings around.program.graph (.visit ⟨inst, reference⟩) := by
        have none_set : effects.filterMap Effect.styleVariable? = [] := by
          rw [List.filterMap_eq_nil_iff]
          intro effect member
          obtain ⟨name, asset, rfl⟩ := effects_of_fileBinder answered effect member
          rfl
        rw [none_set]
        cases reference <;> simp [colorSettings, other]
      simp only [prefabNames, List.mem_cons, List.not_mem_nil, or_false] at prefab
      rcases prefab with type | type | type | type | type <;>
        simp only [type, prefabBinder?] at answered
      · exact ofFile answered (by simp [type])
      · exact ofFile answered (by simp [type])
      · obtain ⟨rfl, rfl⟩ | ⟨holder, css, rfl, shown, rfl⟩ := effects_of_colorBinder answered
        · rfl
        · simp [colorSettings, type, shown, Except.toOption, Effect.styleVariable?,
            Web.colorClasses]
      · obtain ⟨_, _, _, _, _, -, -, -, rfl⟩ := effects_of_fontBinder answered
        cases reference <;> simp [colorSettings, type, Effect.styleVariable?]
      · obtain rfl | ⟨_, _, rfl⟩ := effects_of_typographBinder answered
        · cases reference <;> simp [colorSettings, type]
        · cases reference <;> simp [colorSettings, type, Effect.styleVariable?]
    · rw [prefabBinder?_eq_none .web prefab] at answered
      cases answered
      have other : around.program.graph.componentName inst ≠ "Color" := by
        intro isColor
        exact prefab (by simp [prefabNames, isColor])
      cases reference <;> simp [colorSettings, other]

/-- The variables after the walk of a run are those that its events set, in their order. -/
theorem styleVariables_of_walkRoots
    (shipped : setup.bindings = setup.target.bindings setup.installed)
    (web : setup.target = .web) (none_yet : before.output.styles.styleVariables = ∅)
    (walked : (walkRoots setup).Yields before () after) :
    ∃ done, Traced setup before (rootEvents before.program) done after ∧
      after.output.styles.styleVariables =
        .ofList (done.flatMap (colorSettings before.program.graph)) := by
  obtain ⟨done, traced⟩ := walkRoots_traced walked
  refine ⟨done, traced, ?_⟩
  obtain ⟨effects, paired, decorated⟩ := traced.decorated
  have styles_eq : after.output.styles = (before.output.applyAll effects.flatten).styles :=
    congrArg (·.2) decorated
  have settings : effects.flatten.filterMap Effect.styleVariable? =
      done.flatMap (colorSettings before.program.graph) := by
    clear decorated styles_eq traced
    -- Events and the effects that they answer with come in pairs, so this is one fact for each.
    induction paired with
    | nil => rfl
    | cons answered _ ih =>
      rw [List.flatten_cons, List.filterMap_append, List.flatMap_cons, ih,
        styleVariables_of_added shipped web answered]
      rfl
  rw [styles_eq, styleVariables_applyAll, none_yet, settings]
  rfl

/-! ## The package -/

/-- A design token of a package: a color that a property holds, visited through that property, or a
scalar property of a class without a binding. -/
inductive IsToken (program : Program) (components : Roster) : String → String → Prop
  | color {inst : Instance} {reference : Reference} {css : String}
      (visits : program.Visits ⟨inst, some reference⟩)
      (isColor : program.graph.componentName inst = "Color")
      (shown : Style.colorCss inst.values = .ok css) :
      IsToken program components (Style.tokenName reference.parentType reference.name) css
  | scalar {type name : String} {component : Component} {property : Property}
      (listed : components.get? type = some component) (unbound : component.binding = none)
      (given : component.spec.properties.get? name = some property)
      (isScalar : property.type ∈ Style.scalarTypes) :
      IsToken program components (Style.tokenName type name) property.initializer

/-- All that is written to the style variables: the colors as the walk leaves them, and then the
scalar properties of the classes. -/
def styleSettings (graph : Graph) (done : List Event) (components : Roster) :
    List (String × String) :=
  done.flatMap (colorSettings graph) ++
    (Style.promotedProperties Style.scalarTypes components).map Style.Promoted.setting

theorem Walked.isToken_of_promoted {visits : List Instance} {components : Roster}
    (met : Walked setup program visits components) {promoted : Style.Promoted}
    (isPromoted : promoted ∈
      Style.promotedProperties Style.scalarTypes (settledAll setup components)) :
    IsToken program (settledAll setup components) promoted.token promoted.property.initializer := by
  obtain ⟨component, listed, unbound, given, isScalar⟩ :=
    Style.mem_promotedProperties.mp isPromoted
  have found := OrderedMap.get?_of_mem_entries met.nodup_keys_settledAll listed
  have shown := OrderedMap.get?_of_mem_entries (met.nodup_keys_properties found) given
  exact .scalar found unbound shown isScalar

theorem mem_styleSettings {visits : List Instance} {components : Roster} {done : List Event}
    (trace : Trace setup.target program.graph (rootEvents program) done)
    (met : Walked setup program visits components) {name value : String} :
    (name, value) ∈ styleSettings program.graph done (settledAll setup components) ↔
      IsToken program (settledAll setup components) name value := by
  rw [styleSettings, List.mem_append, List.mem_flatMap, List.mem_map]
  constructor
  · rintro (⟨event, isDone, set⟩ | ⟨promoted, isPromoted, same⟩)
    · obtain ⟨inst, reference, rfl, isColor, rfl, shown⟩ := mem_colorSettings.mp set
      exact .color ((visit_mem_iff trace _).mp isDone) isColor shown
    · cases same
      exact met.isToken_of_promoted isPromoted
  · rintro (⟨visits, isColor, shown⟩ | ⟨listed, unbound, given, isScalar⟩)
    · exact .inl ⟨_, (visit_mem_iff trace _).mpr visits,
        mem_colorSettings.mpr ⟨_, _, rfl, isColor, rfl, shown⟩⟩
    · exact .inr ⟨_, Style.mem_promotedProperties_of_get? listed unbound given isScalar, rfl⟩

/-- A color that a visited property holds can be shown, or the walk would have failed. -/
theorem exists_colorCss_of_traced (shipped : setup.bindings = setup.target.bindings setup.installed)
    (web : setup.target = .web) {done : List Event}
    (traced : Traced setup before (rootEvents before.program) done after) {inst : Instance}
    {reference : Reference} (visits : before.program.Visits ⟨inst, some reference⟩)
    (isColor : before.program.graph.componentName inst = "Color") :
    ∃ css, Style.colorCss inst.values = .ok css := by
  obtain ⟨effects, paired, -⟩ := traced.decorated
  obtain ⟨new, -, answered⟩ :=
    Answers.exists_answer paired ((visit_mem_iff traced.trace _).mpr visits)
  have type_eq : (setup.surroundings before).program.graph.componentName inst = "Color" := isColor
  rw [added_visit shipped, web, type_eq] at answered
  obtain ⟨⟨⟩, -⟩ | ⟨_, css, -, shown, -⟩ := effects_of_colorBinder answered
  exact ⟨css, shown⟩

/-- After a run the style variables are all that was written, which is all tokens. -/
theorem styleVariables_of_run {program? : Option Program} {result : CompilationResult}
    (web : setup.target = .web) (shipped : setup.bindings = setup.target.bindings setup.installed)
    (ran : (run setup program?).Yields before result after) :
    (∀ inst reference, after.program.Visits ⟨inst, some reference⟩ →
      after.program.graph.componentName inst = "Color" →
        ∃ css, Style.colorCss inst.values = .ok css) ∧
    ∃ done, Trace .web after.program.graph (rootEvents after.program) done ∧
      after.output.styles.styleVariables =
        .ofList (styleSettings after.program.graph done after.output.components) ∧
      ∀ name value,
        (name, value) ∈ styleSettings after.program.graph done after.output.components ↔
          IsToken after.program after.output.components name value := by
  obtain ⟨walked, package, last, walking, written, -, rfl⟩ := run_yields.mp ran
  obtain ⟨program_eq, -, -, visits, met⟩ := walkRoots_of_run walking
  have none_yet : (begun setup (program?.getD before.program) before).output.styles.styleVariables
      = ∅ := by
    change (setup.target.seed setup.installed).styles.styleVariables = ∅
    cases setup.target <;> rfl
  obtain ⟨done, traced, colored⟩ := styleVariables_of_walkRoots shipped web none_yet walking
  obtain ⟨components_eq, promoted⟩ := writePackage_settles met.nodup_keys written
  have same : last.program = program?.getD before.program :=
    (preserves_writePackage.of_yields written).trans program_eq
  -- What follows the package touches neither the program nor the output.
  change (∀ inst reference, last.program.Visits ⟨inst, some reference⟩ → _) ∧ ∃ done,
    Trace .web last.program.graph (rootEvents last.program) done ∧ _
  rw [same]
  refine ⟨fun inst reference => exists_colorCss_of_traced shipped web traced, done, ?_, ?_, ?_⟩
  · exact web ▸ traced.trace
  · change last.output.styles.styleVariables = _
    rw [promoted web, colored, styleSettings, OrderedMap.ofList, OrderedMap.ofList,
      List.foldl_append, List.foldl_map]
    rfl
  · intro name value
    have listed : last.output.components = settledAll setup walked.output.components :=
      components_eq
    change (name, value) ∈ styleSettings _ done last.output.components ↔
      IsToken _ last.output.components name value
    rw [listed]
    exact mem_styleSettings traced.trace met

/-- When no design token is lost. After a run of the web target with the bindings of the library,
the style variables are all the tokens, each under its name, and of tokens of one name the one that
was written last. So every token has its own value exactly if tokens of one name agree. Every color
that a visited property holds is one of the tokens. -/
theorem tokens_kept_iff_namesakes_agree {program? : Option Program} {result : CompilationResult}
    (web : setup.target = .web) (shipped : setup.bindings = setup.target.bindings setup.installed)
    (ran : (run setup program?).Yields before result after) :
    let program := after.program
    let components := after.output.components
    let final := after.output.styles.styleVariables
    (∃ done, Trace .web program.graph (rootEvents program) done ∧
      final = .ofList (styleSettings program.graph done components)) ∧
    (∀ inst reference, program.Visits ⟨inst, some reference⟩ →
      program.graph.componentName inst = "Color" → ∃ css, Style.colorCss inst.values = .ok css) ∧
    (∀ name, (final.get? name).isSome ↔ ∃ value, IsToken program components name value) ∧
    (∀ name value, final.get? name = some value → IsToken program components name value) ∧
    ((∀ name value, IsToken program components name value → final.get? name = some value) ↔
      ∀ name value other, IsToken program components name value →
        IsToken program components name other → value = other) := by
  intro program components final
  obtain ⟨colors, done, trace, written, all⟩ := styleVariables_of_run web shipped ran
  have final_eq : final = .ofList (styleSettings program.graph done components) := written
  have isToken : ∀ name value, (name, value) ∈ styleSettings program.graph done components ↔
      IsToken program components name value := all
  refine ⟨⟨done, trace, final_eq⟩, colors, ?_, ?_, ?_⟩
  · intro name
    rw [final_eq, OrderedMap.isSome_get?_ofList]
    exact exists_congr fun value => isToken name value
  · intro name value found
    rw [final_eq] at found
    exact (isToken name value).mp (OrderedMap.mem_of_get?_ofList found)
  · simp only [← isToken]
    rw [final_eq]
    exact OrderedMap.get?_ofList_of_mem_iff

/-! ## The package of a given graph -/

/-- The classes of the package that is made after the walk. -/
def packageClasses (setup : Setup) (before : Compiler) : Roster :=
  settledAll setup (walkOutcome setup before).2.output.components

/-- The style variables of the package that is made after the walk. -/
def packageVariables (setup : Setup) (before : Compiler) : OrderedMap String String :=
  (Style.promotedProperties Style.scalarTypes (packageClasses setup before)).foldl
    Style.Promoted.set (walkOutcome setup before).2.output.styles.styleVariables

/-- What a run of the web target leaves whose walk succeeds, if the file tree takes the files of its
package as it is. -/
theorem exists_styled_run_of_takes (web : setup.target = .web)
    (shipped : setup.bindings = setup.target.bindings setup.installed)
    (notHot : before.program.hot = false)
    (succeeds : (walkOutcome setup before).1.isOk = true)
    (inside : (walkOutcome setup before).2.output.assets.keys.all isInside = true)
    (taken : before.tree.takes [] (plainJobs setup (walkOutcome setup before).2.output) = true) :
    ∃ result after, (run setup none).Yields before result after ∧
      after.program = before.program ∧
      after.output.components = packageClasses setup before ∧
      after.output.styles.styleVariables = packageVariables setup before ∧
      ∀ promoted ∈ Style.promotedProperties Style.scalarTypes (packageClasses setup before),
        IsToken before.program (packageClasses setup before) promoted.token
          promoted.property.initializer := by
  obtain ⟨result, after, ran, program_eq, components_eq, promoted⟩ :=
    exists_run_of_takes shipped notHot succeeds inside taken
  have walking : (walkRoots setup).Yields (begun setup before.program before) ()
      (walkOutcome setup before).2 := yields_of_isOk succeeds
  obtain ⟨-, -, -, visits, met⟩ := walkRoots_of_run walking
  refine ⟨result, after, ran, program_eq, components_eq, ?_, fun _ => met.isToken_of_promoted⟩
  rw [promoted web, components_eq]
  rfl

/-! A banner with a tint, a width and a text property of the given name. -/

namespace Banner

/-- What the words of a name become as a kebab name. -/
theorem kebab_of_words {name result : String} (words : List Char)
    (hyphenated : Naming.hyphenateWords name.toList = words)
    (finished : String.ofList (Text.lower (Naming.dropHyphens
      (Naming.joinSeparators false (Naming.hyphenateHumps words)))) = result) :
    Naming.kebab name = result := by
  rw [Naming.kebab, Naming.kebabChars, hyphenated, finished]

open Naming in
theorem kebab_names :
    kebab "Banner" = "banner" ∧ kebab "tint" = "tint" ∧ kebab "maxWidth" = "max-width" ∧
      kebab "max_width" = "max-width" ∧ kebab "label" = "label" := by
  refine ⟨kebab_of_words "Banner".toList ?_ ?_, kebab_of_words "tint".toList ?_ ?_,
    kebab_of_words "max-Width".toList ?_ ?_, kebab_of_words "max_width".toList ?_ ?_,
    kebab_of_words "label".toList ?_ ?_⟩
  all_goals first
    | decide +kernel
    | simp [hyphenateWords, hyphenateWords.wordTail, isCapital, isSmall]

theorem tokenName_eq {property kebab : String} (given : property ≠ "")
    (same : Naming.kebab property = kebab) :
    Style.tokenName "Banner" property = "banner-" ++ kebab := by
  obtain ⟨type, -⟩ := kebab_names
  simp [Style.tokenName, Naming.joinKebab, given, type, same]

def banner (name : String) : Instance :=
  ⟨"top", "Banner", ⟨[("tint", .text "sky"), ("maxWidth", .int 3), (name, .text "wide")]⟩⟩

def sky : Instance := ⟨"sky", "Color", ⟨[("h", .int 1)]⟩⟩

def design (name : String) : Program where
  projectName := "Site"
  projectRoot := ⟨"/", ["site"]⟩
  graph := {
    types := Prefab.types.insert "Banner"
      ⟨"Banner", [⟨"tint", "Color", 0⟩, ⟨"maxWidth", "float", 0⟩, ⟨name, "string", 0⟩]⟩
    instances := ⟨[("top", banner name), ("sky", sky)]⟩ }
  roots := ⟨[("Banner", "top")]⟩

def webSetup (name : String) : Setup :=
  .ofProgram .web ⟨"/", []⟩ (Target.bindings ⟨"/", []⟩ .web) (.ok "localhost") (design name)

def compiler (name : String) : Compiler := (webSetup name).compiler (design name) Tinted.files

theorem nested_banner (name : String) : (design name).graph.nested (banner name) = [sky] := by
  have textHeld : (design name).graph.held (banner name) ⟨name, "string", 0⟩ = [] := by
    unfold Graph.held
    split <;> rfl
  change [sky] ++ ((design name).graph.held (banner name) ⟨name, "string", 0⟩ ++ []) = [sky]
  rw [textHeld]
  rfl

theorem eq_of_meets {name : String} {inst : Instance} (met : (design name).Meets inst) :
    inst = banner name ∨ inst = sky :=
  met.eq_or_eq rfl (nested_banner name) rfl

/-- The one reference is that of the banner. -/
theorem eq_of_refersAt {name : String} {outer : Instance} {declaration : Declaration} {leaf : Value}
    (met : (design name).Meets outer)
    (refers : (design name).graph.RefersAt outer declaration leaf) :
    outer = banner name ∧ declaration = ⟨"tint", "Color", 0⟩ ∧ leaf = .text "sky" := by
  rw [Graph.refersAt_iff_mem] at refers
  rcases eq_of_meets met with rfl | rfl
  · have listing : (design name).graph.referencesAt (banner name) =
        [(⟨"tint", "Color", 0⟩, .text "sky")] := rfl
    rw [listing, List.mem_singleton, Prod.mk.injEq] at refers
    exact ⟨rfl, refers⟩
  · cases refers

/-- The one visit through a property is that of the sky as the tint. -/
theorem visits_iff {name : String} {inst : Instance} {reference : Reference} :
    (design name).Visits ⟨inst, some reference⟩ ↔ inst = sky ∧ reference = ⟨"Banner", "tint"⟩ := by
  constructor
  · intro visits
    cases visits with
    | reference met refers found =>
      obtain ⟨rfl, rfl, rfl⟩ := eq_of_refersAt met refers
      exact ⟨(Option.some.inj found).symm, rfl⟩
  · rintro ⟨rfl, rfl⟩
    have met : (design name).Meets (banner name) := ⟨_, List.mem_singleton_self _, .refl⟩
    have refers : (design name).graph.RefersAt (banner name) ⟨"tint", "Color", 0⟩ (.text "sky") :=
      ⟨rfl, _, rfl, List.mem_cons_self, _, rfl, .here _⟩
    exact .reference met refers rfl

theorem exists_run (name : String)
    (succeeds : (walkOutcome (webSetup name) (compiler name)).1.isOk = true)
    (inside :
      (walkOutcome (webSetup name) (compiler name)).2.output.assets.keys.all isInside = true)
    (taken : Tinted.files.takes [] (plainJobs (webSetup name)
      (walkOutcome (webSetup name) (compiler name)).2.output) = true) :
    ∃ result after, (run (webSetup name) none).Yields (compiler name) result after ∧
      after.program = design name ∧
      after.output.components = packageClasses (webSetup name) (compiler name) ∧
      after.output.styles.styleVariables = packageVariables (webSetup name) (compiler name) ∧
      ∀ promoted ∈ Style.promotedProperties Style.scalarTypes
          (packageClasses (webSetup name) (compiler name)),
        IsToken (design name) (packageClasses (webSetup name) (compiler name)) promoted.token
          promoted.property.initializer :=
  exists_styled_run_of_takes rfl rfl rfl succeeds inside taken

end Banner

/-- A tint, a width and a text of three names are all kept. -/
theorem tokens_of_banner_are_kept :
    let setup := Banner.webSetup "label"
    let before := Banner.compiler "label"
    setup.target = .web ∧ setup.bindings = setup.target.bindings setup.installed ∧
    ∃ result after, (run setup none).Yields before result after ∧
      (∃ css, Style.colorCss Banner.sky.values = .ok css ∧
        IsToken after.program after.output.components (Style.tokenName "Banner" "tint") css) ∧
      IsToken after.program after.output.components (Style.tokenName "Banner" "maxWidth") "3" ∧
      ∀ name value, IsToken after.program after.output.components name value →
        after.output.styles.styleVariables.get? name = some value := by
  intro setup before
  obtain ⟨result, after, ran, program_eq, components_eq, -, tokens⟩ :=
    Banner.exists_run "label" (by decide +kernel) (by decide +kernel) (by decide +kernel)
  obtain ⟨-, colored, -, -, kept⟩ := tokens_kept_iff_namesakes_agree rfl rfl ran
  refine ⟨rfl, rfl, result, after, ran, ?_⟩
  rw [program_eq] at colored
  rw [program_eq, components_eq] at kept ⊢
  have promoted : Style.promotedProperties Style.scalarTypes (packageClasses setup before) =
      [⟨"Banner", "maxWidth", ⟨"number", "3", false⟩⟩,
        ⟨"Banner", "label", ⟨"string", "\"wide\"", false⟩⟩] := by
    decide +kernel
  have visits : (Banner.design "label").Visits ⟨Banner.sky, some ⟨"Banner", "tint"⟩⟩ :=
    Banner.visits_iff.mpr ⟨rfl, rfl⟩
  obtain ⟨css, shown⟩ := colored Banner.sky ⟨"Banner", "tint"⟩ visits rfl
  obtain ⟨-, tintName, widthName, -, labelName⟩ := Banner.kebab_names
  have tint := Banner.tokenName_eq (by decide) tintName
  have width := Banner.tokenName_eq (by decide) widthName
  have label := Banner.tokenName_eq (by decide) labelName
  have isOne : ∀ name value,
      IsToken (Banner.design "label") (packageClasses setup before) name value →
        name = "banner-tint" ∧ value = css ∨ name = "banner-max-width" ∧ value = "3" ∨
          name = "banner-label" ∧ value = "\"wide\"" := by
    intro name value token
    cases token with
    | color visits isColor shownHere =>
      obtain ⟨rfl, rfl⟩ := Banner.visits_iff.mp visits
      exact .inl ⟨tint, Except.ok.inj (shownHere.symm.trans shown)⟩
    | scalar listed unbound given isScalar =>
      have member := Style.mem_promotedProperties_of_get? listed unbound given isScalar
      rw [promoted] at member
      simp only [List.mem_pair, Style.Promoted.mk.injEq] at member
      rcases member with ⟨rfl, rfl, rfl⟩ | ⟨rfl, rfl, rfl⟩
      · exact .inr (.inl ⟨width, rfl⟩)
      · exact .inr (.inr ⟨label, rfl⟩)
  refine ⟨⟨css, shown, .color visits rfl shown⟩, ?_, kept.mpr ?_⟩
  · refine tokens ⟨"Banner", "maxWidth", ⟨"number", "3", false⟩⟩ ?_
    rw [promoted]
    exact List.mem_cons_self
  · intro name value other first second
    rcases isOne name value first with ⟨rfl, rfl⟩ | ⟨rfl, rfl⟩ | ⟨rfl, rfl⟩ <;>
      simpa [eq_comm] using isOne _ other second

/-- A width and a text of one kebab name: the width is lost, and the text takes its place. -/
theorem width_of_banner_is_overwritten :
    let setup := Banner.webSetup "max_width"
    let before := Banner.compiler "max_width"
    setup.target = .web ∧ setup.bindings = setup.target.bindings setup.installed ∧
    ∃ result after, (run setup none).Yields before result after ∧
      IsToken after.program after.output.components (Style.tokenName "Banner" "maxWidth") "3" ∧
      after.output.styles.styleVariables.get? (Style.tokenName "Banner" "maxWidth") =
        some "\"wide\"" := by
  intro setup before
  obtain ⟨result, after, ran, program_eq, components_eq, variables_eq, tokens⟩ :=
    Banner.exists_run "max_width" (by decide +kernel) (by decide +kernel) (by decide +kernel)
  have promoted : Style.promotedProperties Style.scalarTypes (packageClasses setup before) =
      [⟨"Banner", "maxWidth", ⟨"number", "3", false⟩⟩,
        ⟨"Banner", "max_width", ⟨"string", "\"wide\"", false⟩⟩] := by
    decide +kernel
  have sameName : Style.tokenName "Banner" "max_width" = Style.tokenName "Banner" "maxWidth" := by
    obtain ⟨-, -, camel, snake, -⟩ := Banner.kebab_names
    rw [Banner.tokenName_eq (by decide) camel, Banner.tokenName_eq (by decide) snake]
  refine ⟨rfl, rfl, result, after, ran, ?_, ?_⟩
  · rw [components_eq, program_eq]
    refine tokens ⟨"Banner", "maxWidth", ⟨"number", "3", false⟩⟩ ?_
    rw [promoted]
    exact List.mem_cons_self
  · rw [variables_eq, packageVariables, promoted, ← sameName]
    exact OrderedMap.get?_insert_self _ _ _

end Compilation

end DesignGraph
