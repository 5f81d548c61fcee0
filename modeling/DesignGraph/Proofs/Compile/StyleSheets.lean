import DesignGraph.Proofs.Compile.KeptAssets
import DesignGraph.Proofs.Compile.StyleVariables
import DesignGraph.Proofs.Text.StyleLiteral
import Mathlib.Data.Bool.AllAny

/-!
# Strings in style sheets

The style sheets of a web package hold texts of the design between quotes: those that become
variables, and the names of fonts. They are written as scripts write them. Here is where each of
these tokens comes from, and for which texts it denotes the text in a style sheet as well.
-/

namespace DesignGraph

open Text

/-- A token that begins with a quote. -/
def IsQuoted (token : String) : Prop := token.toList.head? = some '"'

theorem isQuoted_quoted (s : String) : IsQuoted (quoted .ascii s) := by
  rw [IsQuoted, toList_quoted]
  rfl

theorem not_isQuoted_new (rest : String) : ¬ IsQuoted ("new " ++ rest) := by
  have first : "new ".toList.head? = some 'n' := by decide
  rw [IsQuoted, String.toList_append, List.head?_append, first, Option.some_or]
  decide

theorem Target.not_isQuoted_construction (spec : Spec) :
    ¬ IsQuoted (Target.web.construction spec) := by
  simp only [construction, String.append_assoc]
  exact not_isQuoted_new _

theorem Target.not_isQuoted_bareConstruction (type : String) :
    ¬ IsQuoted (Target.web.bareConstruction type) := by
  simp only [bareConstruction, String.append_assoc]
  exact not_isQuoted_new _

namespace Resolution

variable {installed : Path} {graph : Graph} {declaration : Declaration}

/-- With the bindings of the library, a script constructs every instance by its class. -/
theorem constructionOf?_web (installed : Path) (type : String) (inst : Instance) (spec : Spec) :
    constructionOf? .web (Target.web.bindings installed) type inst spec =
      some (Target.web.construction spec) := by
  have none_given : ∀ entry ∈ (Target.web.bindings installed).entries,
      entry.2.initializer = none := by
    simp [Target.bindings, Web.bindings, Web.binding]
  cases bound : ((Target.web.bindings installed).get? type).bind Binding.initializer with
  | none => rw [constructionOf?, bound]
  | some construct =>
    obtain ⟨binding, found, given⟩ := Option.bind_eq_some_iff.mp bound
    rw [none_given _ (OrderedMap.mem_entries_of_get? found)] at given
    cases given

/-- The only quoted expressions for properties of the type of strings are the literals of texts. -/
theorem initializer_of_resolveValue_string {depth : Nat} {value : Value} {property : Property}
    (resolved : resolveValue .web (Target.web.bindings installed) graph declaration depth value =
      some (some property))
    (isString : property.type = Primitive.string.targetType .web)
    (isQuoted : IsQuoted property.initializer) :
    property.initializer = quoted .ascii value.plain := by
  cases depth with
  | zero =>
    cases component : graph.isComponent declaration.type with
    | true =>
      obtain ⟨inst, properties, initializer, -, -, constructed, ⟨⟩⟩ :=
        (resolveValue_component_eq_some_iff component).mp resolved
      rw [constructionOf?_web] at constructed
      cases constructed
      exact absurd isQuoted (Target.not_isQuoted_construction _)
    | false =>
      rw [resolveValue_primitive component, Option.some.injEq] at resolved
      obtain ⟨primitive, text, kind, literal, rfl⟩ := toOption_primitive_eq_some_iff.mp resolved
      obtain rfl : primitive = .string := by
        change primitive.targetType .web = Primitive.string.targetType .web at isString
        revert isString
        cases primitive <;> decide
      have name_eq : Primitive.string.name = declaration.type := by
        simpa using List.find?_some kind
      rw [← name_eq, Target.literal?, if_pos rfl, Option.some.injEq] at literal
      exact literal.symm
  | succ depth =>
    have noScalar := not_scalar_of_collection (targetType?_of_resolveValue resolved)
    rw [isString] at noScalar
    exact absurd (by decide) noScalar

end Resolution

namespace Compilation

variable {setup : Setup} {around : Surroundings} {before after : Compiler} {program : Program}
  {output : Output} {s token : String}

/-- The first instance of a type that is visited. -/
def IsEarliest (program : Program) (type : String) (first : Instance) : Prop :=
  ∃ visits, program.graph.Preorder program.rootInstances visits ∧
    visits.find? (program.graph.componentName · == type) = some first

/-- A text of the design and the token that stands for it in the style sheets: the value of a string
property of a class without a binding, which has become a variable, and the name of a font as the
family of its face or in the class of a typograph. -/
inductive Places (around : Surroundings) (output : Output) : String → String → Prop
  | property {type name : String} {first : Instance} {value : Value} {component : Component}
      {property : Property} (earliest : IsEarliest around.program type first)
      (given : first.values.get? name = some value)
      (listed : output.components.get? type = some component) (unbound : component.binding = none)
      (shown : component.spec.properties.get? name = some property)
      (isString : property.type = Primitive.string.targetType .web)
      (isQuoted : IsQuoted property.initializer)
      (kept : output.styles.styleVariables.get? (Style.tokenName type name) =
        some property.initializer) :
      Places around output value.plain property.initializer
  | face {font : Instance} {reference : Option Reference} {s token : String} {rules : StyleRules}
      (visits : around.program.Visits ⟨font, reference⟩)
      (isFont : around.program.graph.componentName font = "Font")
      (named : font.values.get? "name" = some (.text s))
      (bound : Web.fontBinder around font reference = .ok [.font (.text s) rules])
      (kept : rules ∈ output.styles.fonts.values)
      (family : rules.get? "font-family" = some token) :
      Places around output s token
  | group {typograph font : Instance} {reference : Reference} {fontValue : Value}
      {s token name : String} {rules : StyleRules}
      (visits : around.program.Visits ⟨typograph, some reference⟩)
      (isTypograph : around.program.graph.componentName typograph = "Typograph")
      (holds : typograph.values.get? "font" = some fontValue)
      (found : around.program.graph.instance? fontValue = some font)
      (named : font.values.get? "name" = some (.text s))
      (bound : Web.typographBinder around typograph (some reference) =
        .ok [.ruleGroup name rules])
      (kept : output.styles.ruleGroups.get? name = some rules)
      (family : rules.get? "font-family" = some token) :
      Places around output s token

/-! ## What the tokens are -/

/-- The quoted initializer of a string property is the literal of the value of the first instance;
it is not the construction of a singleton. -/
theorem Walked.initializer_of_string
    (shipped : setup.bindings = setup.target.bindings setup.installed)
    (web : setup.target = .web) {visits : List Instance} {components : Roster}
    (met : Walked setup program visits components) {type name : String} {first : Instance}
    {value : Value} {component : Component} {property : Property}
    (earliest : IsEarliest program type first) (given : first.values.get? name = some value)
    (listed : (settledAll setup components).get? type = some component)
    (shown : component.spec.properties.get? name = some property)
    (isString : property.type = Primitive.string.targetType .web)
    (isQuoted : IsQuoted property.initializer) :
    property.initializer = quoted .ascii value.plain := by
  rw [settledAll, OrderedMap.get?_map, Option.map_eq_some_iff] at listed
  obtain ⟨original, found, rfl⟩ := listed
  rw [get?_settled, Option.map_eq_some_iff] at shown
  obtain ⟨resolvedProperty, declared, rfl⟩ := shown
  have kept : settledProperty setup (singletons components) resolvedProperty =
      resolvedProperty := by
    unfold settledProperty at isQuoted ⊢
    split_ifs at isQuoted ⊢ with bare
    · rw [web] at isQuoted
      exact absurd isQuoted (Target.not_isQuoted_bareConstruction _)
    · rfl
  rw [kept] at isString isQuoted ⊢
  obtain ⟨declaration, rfl, other, -, otherEarliest, -, -, -, -, -, _, held, resolved⟩ :=
    met.exists_gives found declared
  obtain ⟨otherVisits, preorder, isFirst⟩ := earliest
  rw [met.preorder.unique preorder, isFirst, Option.some.injEq] at otherEarliest
  subst otherEarliest
  rw [given, Option.some.injEq] at held
  subst held
  rw [shipped, web] at resolved
  exact Resolution.initializer_of_resolveValue_string resolved isString isQuoted

/-- The token of a text is its ASCII form. -/
theorem Places.token_eq (shipped : setup.bindings = setup.target.bindings setup.installed)
    (web : setup.target = .web) {visits : List Instance} {components : Roster}
    (met : Walked setup around.program visits components)
    (settled : output.components = settledAll setup components)
    (places : Places around output s token) : token = quoted .ascii s := by
  cases places with
  | property earliest given listed unbound shown isString isQuoted kept =>
    rw [settled] at listed
    exact met.initializer_of_string shipped web earliest given listed shown isString isQuoted
  | face visits isFont named bound kept family =>
    obtain ⟨_, _, _, _, _, -, -, -, name_eq, literal, effects_eq⟩ := face_of_fontBinder bound
    rw [named, Option.some.injEq] at name_eq
    subst name_eq
    obtain ⟨-, rfl⟩ := Effect.font.inj (List.cons.inj effects_eq).1
    exact (Option.some.inj family).symm.trans (Option.some.inj literal).symm
  | group visits isTypograph holds found named bound kept family =>
    obtain ⟨none_given, -⟩ |
        ⟨_, _, _, _, _, _, -, holds', found', named', literal, -, effects_eq⟩ :=
      class_of_typographBinder bound
    · cases none_given
    · rw [holds, Option.some.injEq] at holds'
      subst holds'
      rw [found, Option.some.injEq] at found'
      subst found'
      rw [named, Option.some.injEq] at named'
      subst named'
      obtain ⟨-, rfl⟩ := Effect.ruleGroup.inj (List.cons.inj effects_eq).1
      exact (Option.some.inj family).symm.trans (Option.some.inj literal).symm

/-- What is placed is declared. -/
theorem Places.declares {tokens : Style.Tokens} (shows : Shows tokens output.styles)
    (places : Places around output s token) : tokens.Declares token := by
  cases places with
  | property earliest given listed unbound shown isString isQuoted kept =>
    have entry := OrderedMap.mem_entries_of_get? kept
    rw [← shows.variables_eq] at entry
    obtain ⟨v, member, same⟩ := List.mem_map.mp entry
    rw [← (Prod.mk.inj same).2]
    exact .ofVariable member
  | face visits isFont named bound kept family =>
    rw [← shows.fonts_eq] at kept
    exact .ofFace kept (OrderedMap.mem_entries_of_get? family)
  | group visits isTypograph holds found named bound kept family =>
    have entry := OrderedMap.mem_entries_of_get? kept
    rw [← shows.classes_eq] at entry
    exact .ofClass entry (OrderedMap.mem_entries_of_get? family)

/-- When the style sheets denote what the design says. A run of the web target with the bindings of
the library stores both style sheets, and each text that it places stands in both of them as a
token. The token is a string of style sheets. It is that of the text exactly if the text has no
other characters than the printable ones of ASCII. -/
theorem placed_text_is_denoted_iff {program? : Option Program} {result : CompilationResult}
    (web : setup.target = .web) (shipped : setup.bindings = setup.target.bindings setup.installed)
    (ran : (run setup program?).Yields before result after) :
    ∃ assets sheets files tokens,
      before.tree.Stores (assets ++ (sheets ++ files)) after.tree ∧
      sheets.map (fun stored => (stored.path, stored.content)) =
        Stock.styleLanguages.map (fun language =>
          ((staticRootInUse setup after).joinText ("styles." ++ language),
            String.toUTF8 (tokens.sheet language))) ∧
      Shows tokens after.output.styles ∧
      ∀ s token, Places (setup.aroundRun before after.program) after.output s token →
        (∀ language ∈ Stock.styleLanguages,
          (": " ++ token).toList <:+: (tokens.sheet language).toList) ∧
        (∃ t, Css.IsString token t) ∧
        (Css.IsString token s ↔ ∀ c ∈ s.toList, IsPrintable c) := by
  obtain ⟨visits, components, met, settled⟩ := exists_walked_of_run ran
  obtain ⟨assets, sheets, files, tokens, stores, -, shown, contents, -, -⟩ :=
    exists_sheets_of_run ran
  have shows := shown web
  rw [web] at contents
  refine ⟨assets, sheets, files, tokens, stores, contents, shows, fun s token places => ?_⟩
  have declares := places.declares shows
  obtain rfl := places.token_eq shipped web met settled
  refine ⟨fun language _ => Style.infix_sheet_of_declares declares language, ?_,
    Css.isString_quoted_self_iff⟩
  exact ⟨String.ofList _, Css.isString_quoted_iff.mpr String.toList_ofList.symm⟩

/-! A page with the given title. -/

namespace Titled

def page (title : String) : Instance := ⟨"home", "Page", ⟨[("title", .text title)]⟩⟩

def design (title : String) : Program where
  projectName := "Site"
  projectRoot := ⟨"/", ["site"]⟩
  graph := {
    types := Prefab.types.insert "Page" ⟨"Page", [⟨"title", "string", 0⟩]⟩
    instances := ⟨[("home", page title)]⟩ }
  roots := ⟨[("Page", "home")]⟩

def webSetup (title : String) : Setup :=
  .ofProgram .web ⟨"/", []⟩ (Target.bindings ⟨"/", []⟩ .web) (.ok "localhost") (design title)

def compiler (title : String) : Compiler :=
  (webSetup title).compiler (design title) Tinted.files

theorem isEarliest_page (title : String) : IsEarliest (design title) "Page" (page title) :=
  ⟨[page title], .single .nil, rfl⟩

/-- What is left of the walk does not depend on the title, but for the one property. -/
theorem plainJobs_eq (title : String) :
    plainJobs (webSetup title) (walkOutcome (webSetup title) (compiler title)).2.output =
      plainJobs (webSetup "") {} := by
  have assets_eq : (walkOutcome (webSetup title) (compiler title)).2.output.assets = ∅ := by rfl
  have bound_eq :
      boundFiles (walkOutcome (webSetup title) (compiler title)).2.output.components = [] := by rfl
  have none_bound : boundFiles ({} : Output).components = [] := rfl
  unfold plainJobs staticJobs
  rw [assets_eq, bound_eq, none_bound]
  rfl

theorem promotedProperties_eq (title : String) :
    Style.promotedProperties Style.scalarTypes (packageClasses (webSetup title) (compiler title)) =
      [⟨"Page", "title", ⟨"string", quoted .ascii title, false⟩⟩] := by rfl

set_option maxRecDepth 10000 in
/-- The file tree has room for the package. -/
theorem taken (title : String) : Tinted.files.takes [] (plainJobs (webSetup title)
    (walkOutcome (webSetup title) (compiler title)).2.output) = true := by
  rw [plainJobs_eq]
  with_unfolding_all rfl

/-- The title is placed as the literal of it. -/
theorem exists_run (title : String) :
    ∃ result after, (run (webSetup title) none).Yields (compiler title) result after ∧
      Places ((webSetup title).aroundRun (compiler title) after.program) after.output title
        (quoted .ascii title) := by
  have succeeds : (walkOutcome (webSetup title) (compiler title)).1.isOk = true := by rfl
  have inside : (walkOutcome (webSetup title) (compiler title)).2.output.assets.keys.all isInside =
      true := by rfl
  obtain ⟨result, after, ran, program_eq, components_eq, variables_eq, -⟩ :=
    exists_styled_run_of_takes rfl rfl rfl succeeds inside (taken title)
  refine ⟨result, after, ran, ?_⟩
  obtain ⟨visits, components, met, settled⟩ := exists_walked_of_run ran
  have promoted := promotedProperties_eq title
  rw [← components_eq] at promoted
  have isPromoted : (⟨"Page", "title", ⟨"string", quoted .ascii title, false⟩⟩ : Style.Promoted) ∈
      Style.promotedProperties Style.scalarTypes after.output.components := by
    rw [promoted]
    exact List.mem_singleton_self _
  obtain ⟨component, listed, unbound, shown, -⟩ := Style.mem_promotedProperties.mp isPromoted
  rw [settled] at listed
  have found := OrderedMap.get?_of_mem_entries met.nodup_keys_settledAll listed
  have declared := OrderedMap.get?_of_mem_entries (met.nodup_keys_properties found) shown
  rw [← settled] at found
  have kept : after.output.styles.styleVariables.get? (Style.tokenName "Page" "title") =
      some (quoted .ascii title) := by
    rw [variables_eq, packageVariables, ← components_eq, promoted]
    exact OrderedMap.get?_insert_self _ _ _
  have earliest : IsEarliest after.program "Page" (page title) :=
    program_eq ▸ isEarliest_page title
  have given : (page title).values.get? "title" = some (.text title) := rfl
  exact .property earliest given found unbound declared rfl (isQuoted_quoted title) kept

end Titled

/-- A title in printable ASCII, quotes included, is denoted. -/
theorem title_of_page_is_denoted :
    let setup := Titled.webSetup "The \"Old\" Inn"
    let before := Titled.compiler "The \"Old\" Inn"
    setup.target = .web ∧ setup.bindings = setup.target.bindings setup.installed ∧
    ∃ result after token, (run setup none).Yields before result after ∧
      Places (setup.aroundRun before after.program) after.output "The \"Old\" Inn" token ∧
      Css.IsString token "The \"Old\" Inn" := by
  intro setup before
  obtain ⟨result, after, ran, places⟩ := Titled.exists_run "The \"Old\" Inn"
  obtain ⟨_, _, _, _, -, -, -, denoted⟩ := placed_text_is_denoted_iff rfl rfl ran
  obtain ⟨-, -, denotes⟩ := denoted _ _ places
  have printable : ∀ c ∈ "The \"Old\" Inn".toList, IsPrintable c :=
    List.all_iff_forall_prop.mp (by decide)
  exact ⟨rfl, rfl, result, after, _, ran, places, denotes.mpr printable⟩

/-- An accent is written as scripts write it, which style sheets read as other characters. -/
theorem title_of_page_is_misread :
    let setup := Titled.webSetup "Café"
    let before := Titled.compiler "Café"
    let token := "\"Caf\\u00e9\""
    setup.target = .web ∧ setup.bindings = setup.target.bindings setup.installed ∧
    ∃ result after, (run setup none).Yields before result after ∧
      Places (setup.aroundRun before after.program) after.output "Café" token ∧
      ¬ Css.IsString token "Café" ∧ Css.IsString token "Cafu00e9" := by
  intro setup before token
  obtain ⟨result, after, ran, places⟩ := Titled.exists_run "Café"
  have token_eq : quoted .ascii "Café" = token := by decide
  rw [token_eq] at places
  refine ⟨rfl, rfl, result, after, ran, places, ?_, ?_⟩
  · rw [← token_eq, Css.isString_quoted_self_iff]
    exact mt List.all_iff_forall_prop.mpr (by decide)
  · rw [← token_eq, Css.isString_quoted_iff]
    decide

end Compilation

end DesignGraph
