import DesignGraph.Compile.Package
import DesignGraph.Proofs.Template
import DesignGraph.Proofs.Template.Kinds

/-!
# Stock templates

The templates that come with the library render whatever a package holds: each is safe for the kinds
of its data, and the data are of these kinds.
-/

namespace DesignGraph

open Template
open Compilation (specData classTemplate)

namespace Stock

/-- What class and declaration templates know of their data. -/
def classKinds : Kinds :=
  [("component_name", .defined), ("properties", .mapping), ("singleton", .defined)]

def declarationKinds : Kinds := [("component_name", .defined), ("properties", .mapping)]

/-- What style sheet templates know of their data. -/
def styleKinds : Kinds :=
  [("style_variables", .list .defined),
    ("style_rule_groups", .list (.record "rules" (.list .pair))),
    ("style_fonts", .list (.list .pair))]

/-- What the files of a skeleton know of their data. -/
def packageKinds : Target → Kinds
  | .web => [("module_name", .defined), ("sdk_version", .defined),
      ("dependencies", .list .defined), ("sources", .list .defined),
      ("declarations", .list .defined), ("declaration_imports", .list .defined),
      ("static_url", .script)]
  | .ios => [("module_name", .defined), ("dependencies", .list .defined),
      ("deployment_target", .defined)]

/-! ## The templates -/

-- In each case the characters of the templates are written out, since decoding a text is slow.

theorem isSafe_code :
    isSafeText classKinds Web.component = true ∧ isSafeText classKinds Ios.component = true ∧
      isSafeText declarationKinds Web.declaration = true := by
  unfold isSafeText parse tokens Web.component Ios.component Web.declaration
  simp only [Text.toList_ofLines, List.flatMap_cons, List.flatMap_nil]
  repeat rw [String.toList_ofList]
  decide +kernel

theorem isSafe_styleSheets :
    isSafeText styleKinds Web.css = true ∧ isSafeText styleKinds Web.scss = true := by
  unfold isSafeText parse tokens Web.css Web.scss
  simp only [Text.toList_ofLines, List.flatMap_cons, List.flatMap_nil]
  repeat rw [String.toList_ofList]
  decide +kernel

theorem isSafe_skeleton :
    (∀ text ∈ [Web.readme, Web.indexDeclarations, Web.index, Web.manifest],
      isSafeText (packageKinds .web) text = true) ∧
      isSafeText (packageKinds .ios) Ios.manifest = true := by
  unfold isSafeText parse tokens Web.readme Web.indexDeclarations Web.index Web.manifest
    Ios.manifest
  simp only [List.forall_mem_cons, List.not_mem_nil, false_implies, implies_true, and_true,
    Text.toList_ofLines, List.flatMap_cons, List.flatMap_nil]
  repeat rw [String.toList_ofList]
  decide +kernel

/-! ## The data -/

theorem dataFit_class (spec : Spec) (hasDefaults : Bool) :
    DataFit classKinds (specData spec ++ [("singleton", .bool hasDefaults)]) := by
  simp only [DataFit, classKinds, List.forall_mem_cons, List.not_mem_nil, false_implies,
    implies_true, and_true]
  exact ⟨⟨_, rfl, rfl⟩, ⟨_, rfl, _, rfl⟩, ⟨_, rfl, rfl⟩⟩

theorem dataFit_declaration (spec : Spec) : DataFit declarationKinds (specData spec) := by
  simp only [DataFit, declarationKinds, List.forall_mem_cons, List.not_mem_nil, false_implies,
    implies_true, and_true]
  exact ⟨⟨_, rfl, rfl⟩, ⟨_, rfl, _, rfl⟩⟩

/-- A list whose items are of a kind. -/
theorem holds_list {kind : Kind} {α : Type} {item : α → Value} (items : List α)
    (each : ∀ a, kind.Holds (.value (item a))) :
    (Kind.list kind).Holds (.value (.list (items.map item))) := by
  refine ⟨_, rfl, ?_⟩
  simp only [List.mem_map]
  rintro _ ⟨_, ⟨a, -, rfl⟩, rfl⟩
  exact each a

theorem holds_rulesValue (rules : StyleRules) :
    (Kind.list .pair).Holds (.value (Style.rulesValue rules)) :=
  holds_list _ fun _ => ⟨_, _, rfl⟩

theorem dataFit_style (tokens : Style.Tokens) : DataFit styleKinds tokens.data := by
  simp only [DataFit, styleKinds, List.forall_mem_cons, List.not_mem_nil, false_implies,
    implies_true, and_true]
  refine ⟨⟨_, rfl, ?_⟩, ⟨_, rfl, ?_⟩, ⟨_, rfl, ?_⟩⟩
  · exact holds_list _ fun _ => rfl
  · exact holds_list _ fun group => ⟨rfl, _, rfl, holds_rulesValue group.2⟩
  · exact holds_list _ holds_rulesValue

/-! ## Rendering -/

variable (installed : Path)

/-- Each template that is asked for by name stands below the directory it is sought in. -/
theorem templateName?_eq : ∀ name ∈ ["js.component.j2", "swift.component.j2", "js.declaration.j2",
    "styles.css.j2", "styles.scss.j2"], templateName? name = some name := by
  decide +kernel

theorem render_of_stocked {target : Target} {name text content : String}
    {data : List (String × Value)} (named : templateName? name = some name)
    (stocked : (filesOf target).lookup name = some text)
    (rendered : Template.render text data = .ok content) :
    render installed target name data = .ok content := by
  have found : find? target name = some text := Option.bind_eq_some_iff.mpr ⟨_, named, stocked⟩
  rw [render, found]
  exact renderAt_eq_ok rendered

theorem exists_render {target : Target} {name text : String} {known : Kinds}
    {data : List (String × Value)} (named : templateName? name = some name)
    (stocked : (filesOf target).lookup name = some text) (safe : isSafeText known text = true)
    (fit : DataFit known data) (notSelf : data.lookup "self" = none) :
    ∃ content, render installed target name data = .ok content := by
  obtain ⟨content, rendered⟩ := Template.exists_render safe fit notSelf
  exact ⟨content, render_of_stocked installed named stocked rendered⟩

theorem exists_render_class (target : Target) (spec : Spec) (hasDefaults : Bool) :
    ∃ text, render installed target (classTemplate target)
      (specData spec ++ [("singleton", .bool hasDefaults)]) = .ok text := by
  cases target with
  | web =>
    have stocked : (filesOf .web).lookup "js.component.j2" = some Web.component := by
      simp [filesOf, Web.files, List.lookup_cons]
    exact exists_render installed (templateName?_eq _ (by simp [classTemplate])) stocked
      isSafe_code.1 (dataFit_class spec hasDefaults) rfl
  | ios =>
    have stocked : (filesOf .ios).lookup "swift.component.j2" = some Ios.component := by
      simp [filesOf, Ios.files, List.lookup_cons]
    exact exists_render installed (templateName?_eq _ (by simp [classTemplate])) stocked
      isSafe_code.2.1 (dataFit_class spec hasDefaults) rfl

theorem exists_render_declaration (spec : Spec) :
    ∃ text, render installed .web "js.declaration.j2" (specData spec) = .ok text := by
  have stocked : (filesOf .web).lookup "js.declaration.j2" = some Web.declaration := by
    simp [filesOf, Web.files, List.lookup_cons]
  exact exists_render installed (templateName?_eq _ (by simp)) stocked isSafe_code.2.2
    (dataFit_declaration spec) rfl

/-- The languages that style sheets are written in. -/
def styleLanguages : List String := ["css", "scss"]

theorem lookup_styleSheets : (filesOf .web).lookup "styles.css.j2" = some Web.css ∧
    (filesOf .web).lookup "styles.scss.j2" = some Web.scss := by
  simp [filesOf, Web.files, List.lookup_cons]

theorem exists_render_styleSheet {language : String} (listed : language ∈ styleLanguages)
    (tokens : Style.Tokens) :
    ∃ text, render installed .web ("styles." ++ language ++ ".j2") tokens.data = .ok text := by
  obtain ⟨css, scss⟩ := lookup_styleSheets
  simp only [styleLanguages, List.mem_cons, List.not_mem_nil, or_false] at listed
  rcases listed with rfl | rfl
  · exact exists_render installed (templateName?_eq "styles.css.j2" (by simp)) css
      isSafe_styleSheets.1 (dataFit_style tokens) rfl
  · exact exists_render installed (templateName?_eq "styles.scss.j2" (by simp)) scss
      isSafe_styleSheets.2 (dataFit_style tokens) rfl

/-! ## The skeleton of a package -/

/-- Whether statements are nothing but a text. -/
def areText (text : String) : List Statement → Bool
  | [.text s] => s == text
  | _ => false

/-- A name without tags. -/
def isPlainName (name : String) : Bool := (parse name).toOption.any (areText name)

theorem renderText_of_isPlainName {name : String} {data : List (String × Value)}
    (plain : isPlainName name = true) (notSelf : data.lookup "self" = none) :
    renderText name data = .ok name := by
  unfold isPlainName at plain
  cases parsed : parse name with
  | error reason =>
    rw [parsed] at plain
    cases plain
  | ok statements =>
    rw [parsed] at plain
    change areText name statements = true at plain
    unfold areText at plain
    split at plain
    · next s =>
      obtain rfl := beq_iff_eq.mp plain
      have whole : renderAll (.ofData data) [.text s] = .ok (s, .ofData data) := by
        simp only [renderAll, renderOne, Answers.bind_eq_ok_iff]
        exact ⟨_, rfl, _, rfl, by simp [pure, Except.pure]⟩
      have rendered : Template.render s data = .ok s := by
        simp only [Template.render, parsed, notSelf, Answers.bind_eq_ok_iff]
        refine ⟨_, rfl, ?_⟩
        rw [if_neg (by simp), Answers.bind_eq_ok_iff]
        exact ⟨_, whole, rfl⟩
      simp only [renderText, rendered]
    · cases plain

/-- A file of a skeleton that can be filled in with data of these kinds. -/
structure IsFillable (known : Kinds) (piece : Piece) : Prop where
  isTemplate : piece.isTemplate = true
  isPlain : isPlainName piece.name = true
  safe : ∃ source, piece.text = some source ∧ isSafeText known source = true

/-- Where the files of the skeletons are stocked, and their names. -/
def skeletonNames : List (String × String) :=
  [("sdk/README.md.j2", "README.md.j2"), ("sdk/index.d.ts.j2", "index.d.ts.j2"),
    ("sdk/index.js.j2", "index.js.j2"), ("sdk/package.json.j2", "package.json.j2"),
    ("sdk/Package.swift.j2", "Package.swift.j2")]

theorem names_of_mem_skeletonNames : ∀ file ∈ skeletonNames,
    Path.ofString file.1 = ⟨"", ["sdk", file.2]⟩ ∧
      String.ofList (Path.suffixOf file.2.toList) = suffix ∧ isPlainName file.2 = true := by
  decide +kernel

theorem isFillable {known : Kinds} {target : Target} {stocked name text : String}
    (listed : (stocked, name) ∈ skeletonNames) (safe : isSafeText known text = true) :
    IsFillable known ⟨name, path installed target stocked, some text⟩ := by
  obtain ⟨split, suffixed, plain⟩ := names_of_mem_skeletonNames _ listed
  refine ⟨?_, plain, text, rfl, safe⟩
  have named : (path installed target stocked).name = name := by
    simp [path, Path.joinText, Path.join, split, Path.isAbsolute, Path.name]
  simp only [Piece.isTemplate, Path.suffix, named, suffixed, decide_true]

/-- The template of the manifest. -/
def manifestPiece : Piece :=
  ⟨"package.json.j2", path installed .web "sdk/package.json.j2", some Web.manifest⟩

/-- The manifest is the last file of a web package. -/
theorem skeleton_web : skeleton installed .web = [
    ⟨"README.md.j2", path installed .web "sdk/README.md.j2", some Web.readme⟩,
    ⟨"index.d.ts.j2", path installed .web "sdk/index.d.ts.j2", some Web.indexDeclarations⟩,
    ⟨"index.js.j2", path installed .web "sdk/index.js.j2", some Web.index⟩,
    manifestPiece installed] := by
  simp only [skeleton, filesOf, Web.files, List.filterMap_cons]
  rfl

/-- The manifest is the only file of an iOS package. -/
theorem skeleton_ios : skeleton installed .ios = [
    ⟨"Package.swift.j2", path installed .ios "sdk/Package.swift.j2", some Ios.manifest⟩] := by
  simp only [skeleton, filesOf, Ios.files, List.filterMap_cons]
  rfl

theorem isFillable_of_mem_skeleton {target : Target} {piece : Piece}
    (listed : piece ∈ skeleton installed target) : IsFillable (packageKinds target) piece := by
  cases target with
  | web =>
    have safe := isSafe_skeleton.1
    simp only [List.forall_mem_cons, List.not_mem_nil, false_implies, implies_true,
      and_true] at safe
    obtain ⟨readme, declarations, index, manifest⟩ := safe
    simp only [skeleton_web, List.mem_cons, List.not_mem_nil, or_false] at listed
    rcases listed with rfl | rfl | rfl | rfl
    · exact isFillable installed (by simp [skeletonNames]) readme
    · exact isFillable installed (by simp [skeletonNames]) declarations
    · exact isFillable installed (by simp [skeletonNames]) index
    · exact isFillable installed (by simp [skeletonNames]) manifest
  | ios =>
    rw [skeleton_ios, List.mem_singleton] at listed
    subst listed
    exact isFillable installed (by simp [skeletonNames]) isSafe_skeleton.2

end Stock

end DesignGraph
