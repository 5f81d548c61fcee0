import DesignGraph.Proofs.Compile.Dependencies
import DesignGraph.Proofs.Compile.KeptAssets
import DesignGraph.Proofs.Json.Layout

/-!
# The manifest of a web package

The manifest is a text template, and the name of the package, its version and its dependencies are
put between quotes as they are. What a run writes is the layout of the manifest, whatever the
number of dependencies, and it is read back as JSON exactly if nothing in it has to be escaped.
-/

namespace DesignGraph

namespace Template

/-- The last file of a skeleton holds what it renders to. -/
theorem read_of_fillAll {before after : FileTree} {data : List (String × Value)}
    {destination : Path} {known : Kinds} {pieces : List Piece} {piece : Piece} {files : List Path}
    (isLast : pieces.getLast? = some piece) (fillable : Stock.IsFillable known piece)
    (notSelf : data.lookup "self" = none)
    (ran : (fillAll pieces destination data).run.run before = (.ok files, after)) :
    ∃ text, renderAt piece.origin piece.text data = .ok text ∧
      after.read (piece.target destination) = .ok (String.toUTF8 text) := by
  obtain ⟨front, rfl⟩ := List.getLast?_eq_some_iff.mp isLast
  obtain ⟨⟨⟩, _, -, filled⟩ := Disk.exists_of_run_bind ran
  rw [List.mapM_append] at filled
  obtain ⟨_, _, -, filled⟩ := Disk.exists_of_run_bind filled
  obtain ⟨_, _, filled, ended⟩ := Disk.exists_of_run_bind filled
  cases ended
  rw [List.mapM_cons] at filled
  obtain ⟨path, _, filled, ended⟩ := Disk.exists_of_run_bind filled
  cases ended
  obtain ⟨rfl, place, text, rendered, stores⟩ := stores_of_fill fillable notSelf filled
  rw [← List.nil_append [_]] at stores
  exact ⟨text, rendered, stores.read_eq⟩

end Template

namespace Compilation

open Template

variable {name version : String} {dependencies : List Dependency}

/-! ## The template -/

/-- What the template has between the version and the dependencies. -/
def fixedEntries : String :=
  Text.ofLines [
    "\",",
    "  \"main\": \"index.js\",",
    "  \"types\": \"index.d.ts\",",
    "  \"files\": [",
    "    \"index.js\",",
    "    \"index.d.ts\",",
    "    \"static\"",
    "  ],",
    "  \"dependencies\": \x7b"]

def dependencyStatements : List Statement := [
  .text "    \"", .print (.field (.name "dependency") "name"), .text "\": \"",
  .print (.field (.name "dependency") "version_constraint"), .text "\"",
  .print (.choice (.negation (.field (.name "loop") "last")) (.literal (.text ","))
    (some (.literal (.text "")))),
  .text "\n"]

def manifestStatements : List Statement := [
  .text "\x7b\n  \"name\": \"", .print (.name "module_name"), .text "\",\n  \"version\": \"",
  .print (.name "sdk_version"), .text fixedEntries,
  .loop (.one "dependency") (.name "dependencies") none dependencyStatements [],
  .text "  \x7d\n\x7d\n"]

set_option maxRecDepth 4000 in
theorem parse_manifest : parse Stock.Web.manifest = .ok manifestStatements := by
  have spelled : fixedEntries = String.ofList fixedEntries.toList := String.ofList_toList.symm
  unfold parse tokens Stock.Web.manifest manifestStatements
  rw [spelled]
  unfold fixedEntries
  simp only [Text.toList_ofLines, List.flatMap_cons, List.flatMap_nil]
  repeat rw [String.toList_ofList]
  rfl

/-! ## Its texts -/

/-- What the template receives of a dependency. -/
def dependencyEntry (d : Dependency) : Value :=
  .map [(.text "name", .text d.name), (.text "version_constraint", .text d.versionConstraint)]

def dependencyTexts (d : Dependency) (isLast : Bool) : List String :=
  ["    \"", d.name, "\": \"", d.versionConstraint, "\"", if isLast then "" else ",", "\n"]

def dependenciesText (dependencies : List Dependency) : String :=
  String.join (dependencies.zipIdx.map fun entry =>
    String.join (dependencyTexts entry.1 (entry.2 + 1 == dependencies.length)))

def manifestTexts (name version : String) (dependencies : List Dependency) : List String :=
  ["\x7b\n  \"name\": \"", name, "\",\n  \"version\": \"", version, fixedEntries,
    dependenciesText dependencies, "  \x7d\n\x7d\n"]

theorem renderPass_dependency (scope : Scope) (length : Nat) (d : Dependency) (index : Nat) :
    renderPass scope (.one "dependency") dependencyStatements length
        (.value (dependencyEntry d), index) =
      .ok (String.join (dependencyTexts d (index + 1 == length))) := by
  have isLast : (Datum.loop ⟨index, length, scope.depth + 1⟩).field "last" =
      .ok (.value (.bool (index + 1 == length))) := rfl
  rw [renderPass, Scope.bindPattern, Answers.bind_eq_ok_iff]
  refine ⟨_, rfl, ?_⟩
  rw [Answers.bind_eq_ok_iff]
  refine ⟨_, renderAll_of_forall₂ (.cons rfl (.cons (renderOne_print (d := .ofText d.name) rfl)
    (.cons rfl (.cons (renderOne_print (d := .ofText d.versionConstraint) rfl) (.cons rfl
      (.cons (renderOne_print (d := .ofText (if index + 1 == length then "" else ",")) ?_)
        (.cons rfl .nil))))))), rfl⟩
  cases last : index + 1 == length
  all_goals
    rw [last] at isLast
    simp only [evaluate, Answers.bind_eq_ok_iff]
    exact ⟨_, ⟨_, ⟨_, rfl, isLast⟩, rfl⟩, rfl⟩

theorem renderOne_dependencies {scope : Scope}
    (listed : scope.find "dependencies" = .value (.list (dependencies.map dependencyEntry))) :
    renderOne scope
        (.loop (.one "dependency") (.name "dependencies") none dependencyStatements []) =
      .ok (dependenciesText dependencies, scope) := by
  refine renderOne_loop_of_passes (by rw [evaluate, listed]) ?_
  rw [List.length_map, List.map_map, List.zipIdx_map, List.forall₂_map_left_iff,
    List.forall₂_map_right_iff, List.forall₂_same]
  rintro ⟨d, index⟩ -
  exact renderPass_dependency _ _ _ _

/-! ## Its layout -/

/-- The manifest of a web package. -/
def manifest (name version : String) (dependencies : List Dependency) : Value :=
  .map (Value.textKeyed [
    ("name", .text name), ("version", .text version), ("main", .text "index.js"),
    ("types", .text "index.d.ts"),
    ("files", .list [.text "index.js", .text "index.d.ts", .text "static"]),
    ("dependencies", .map (Value.textKeyed
      (dependencies.map fun d => (d.name, .text d.versionConstraint))))])

/-- The lines of the dependencies and the brace after them. A line ends where the layout begins the
next, so they are compared from the line feed before the first. -/
theorem toList_dependencyTexts (dependencies : List Dependency) (index : Nat) :
    '\n' :: ((dependencies.zipIdx index).flatMap fun entry =>
        (dependencyTexts entry.1 (entry.2 + 1 == index + dependencies.length)).flatMap
          String.toList) ++ [' ', ' ', '\x7d'] =
      Json.shownEntries 1 (Value.textKeyed
        (dependencies.map fun d => (d.name, .text d.versionConstraint))) := by
  induction dependencies generalizing index with
  | nil => rfl
  | cons d rest ih =>
    have last : (index + 1 == index + (rest.length + 1)) = rest.isEmpty := by
      cases rest <;> simp
    have total : index + (rest.length + 1) = index + 1 + rest.length := by omega
    have noMore : (Value.textKeyed
        (rest.map fun d => (d.name, Value.text d.versionConstraint))).isEmpty = rest.isEmpty := by
      cases rest <;> rfl
    rw [List.map_cons]
    change _ = Json.shownEntries 1 ((.text d.name, .text d.versionConstraint) ::
      Value.textKeyed _)
    rw [Json.shownEntries, ← ih (index + 1), List.zipIdx_cons, List.flatMap_cons,
      List.length_cons, last, total]
    simp only [dependencyTexts, Json.shown, Json.quoted, Json.indent, Json.separator, noMore]
    cases rest.isEmpty <;> simp

set_option maxRecDepth 4000 in
/-- The template spells the layout of the manifest. -/
theorem toList_manifestTexts (name version : String) (dependencies : List Dependency) :
    (String.join (manifestTexts name version dependencies)).toList =
      Json.shown 0 (manifest name version dependencies) ++ ['\n'] := by
  have lines := toList_dependencyTexts dependencies 0
  simp only [Value.textKeyed, Nat.zero_add] at lines
  simp only [manifest, Value.textKeyed, Json.shown, Json.shownEntries, List.map_cons,
    List.map_nil, Json.shownItems]
  rw [← lines]
  simp only [manifestTexts, fixedEntries, dependenciesText, String.join_cons, String.join_nil,
    String.toList_append, Text.toList_ofLines, List.flatMap_cons, List.flatMap_nil, Json.quoted,
    Json.indent, Json.separator, List.isEmpty_cons, List.isEmpty_nil, if_true, if_false,
    Bool.false_eq_true]
  repeat rw [String.toList_ofList]
  simp only [List.cons_append, List.append_assoc, List.nil_append, String.toList_join,
    List.flatMap_map, List.replicate_succ, List.replicate_zero, Nat.zero_add, Nat.mul_one,
    Nat.reduceMul, Nat.reduceAdd]

/-- The text of the manifest: its layout and a line feed. -/
def manifestText (name version : String) (dependencies : List Dependency) : String :=
  String.ofList (Json.shown 0 (manifest name version dependencies) ++ ['\n'])

theorem render_manifest {others : List (String × Value)} (notSelf : others.lookup "self" = none) :
    Template.render Stock.Web.manifest (("module_name", .text name) ::
      ("sdk_version", .text version) ::
      ("dependencies", .list (dependencies.map dependencyEntry)) :: others) =
        .ok (manifestText name version dependencies) := by
  rw [manifestText, ← toList_manifestTexts, String.ofList_toList]
  refine render_of_parse parse_manifest notSelf ?_
  exact renderAll_of_forall₂ (.cons rfl (.cons (renderOne_print (d := .ofText name) rfl)
    (.cons rfl (.cons (renderOne_print (d := .ofText version) rfl) (.cons rfl
      (.cons (renderOne_dependencies rfl) (.cons rfl .nil)))))))

/-! ## Reading it back -/

/-- Whether a text stands between quotes as it is. -/
def isPlainText (s : String) : Bool := s.toList.all Json.isPlain

/-- Nothing in a manifest has to be escaped. -/
def IsPlainManifest (name version : String) (dependencies : List Dependency) : Prop :=
  isPlainText name = true ∧ isPlainText version = true ∧
    ∀ d ∈ dependencies, isPlainText d.name = true ∧ isPlainText d.versionConstraint = true

theorem isTree_manifest (distinct : (dependencies.map Dependency.name).Nodup) :
    Json.IsTree (manifest name version dependencies) := by
  have inner : Json.IsTree (.map (Value.textKeyed
      (dependencies.map fun d => (d.name, .text d.versionConstraint)))) := by
    refine Json.isTree_textKeyed ?_ (List.forall_mem_map.mpr fun d _ => trivial)
    rw [List.map_map]
    exact distinct
  refine Json.isTree_textKeyed ?_ ?_
  · simp only [List.map_cons, List.map_nil]
    decide
  · simp only [List.forall_mem_cons, List.not_mem_nil, false_implies, implies_true, and_true]
    exact ⟨trivial, trivial, trivial, trivial, ⟨trivial, trivial, trivial, trivial⟩, inner⟩

/-- What the template has of its own is plain. -/
theorem plain_manifest_iff :
    (∀ c ∈ Json.charsOf (manifest name version dependencies), Json.isPlain c = true) ↔
      IsPlainManifest name version dependencies := by
  simp only [IsPlainManifest, isPlainText, List.all_eq_true, manifest, Json.charsOf,
    Json.charsOfItems, Json.forall_mem_charsOfEntries, List.forall_mem_cons, List.forall_mem_map,
    List.forall_mem_append, List.append_nil, List.not_mem_nil, false_implies, implies_true,
    and_true]
  constructor
  · rintro ⟨⟨-, name⟩, ⟨-, version⟩, -, -, -, -, each⟩
    exact ⟨name, version, each⟩
  · rintro ⟨name, version, each⟩
    refine ⟨⟨?_, name⟩, ⟨?_, version⟩, ⟨?_, ?_⟩, ⟨?_, ?_⟩, ⟨?_, ?_, ?_, ?_⟩, ?_, each⟩
    all_goals exact List.all_eq_true.mp (by decide)

theorem read_manifestText_iff (distinct : (dependencies.map Dependency.name).Nodup) :
    Json.read (manifestText name version dependencies) = .ok (manifest name version dependencies) ↔
      IsPlainManifest name version dependencies := by
  have blank : ∀ c ∈ ['\n'], Json.isBlank c = true := List.forall_mem_singleton.mpr rfl
  exact (Json.read_shown_iff (isTree_manifest distinct) blank).trans plain_manifest_iff

/-! ## Runs -/

variable {setup : Setup} {before after : Compiler}

theorem target_manifestPiece (installed destination : Path) :
    (Stock.manifestPiece installed).target destination = destination.joinText "package.json" := by
  have listed : "package.json" ∈ skeletonFiles .web := by simp [skeletonFiles]
  exact (withoutSuffix_of_skeletonFiles listed destination).2

/-- What the skeleton of a web package receives. -/
theorem packageData_web {data : List (String × Value)} (web : setup.target = .web)
    (gathered : (packageData setup).Yields before data after) :
    ∃ others : List (String × Value), others.lookup "self" = none ∧
      data = ("module_name", .text setup.moduleName) ::
        ("sdk_version", .text before.program.options.sdkVersion) ::
        ("dependencies", .list (before.output.dependencies.items.map dependencyEntry)) ::
          others := by
  obtain ⟨values, contents, declared, entered, -, -, rfl, -⟩ :=
    (yields_packageData_web web).mp gathered
  have entry : ∀ d value, dependencyValue .web d = .ok value → dependencyEntry d = value := by
    rintro ⟨name, url, constraint⟩ value answered
    cases url <;> cases answered
    rfl
  have entries : before.output.dependencies.items.map dependencyEntry = values := by
    rw [← List.forall₂_eq_eq_eq, List.forall₂_map_left_iff]
    exact (Answers.mapM_eq_ok_iff.mp entered).imp entry
  refine ⟨_, ?_, by rw [entries]; rfl⟩
  rfl

/-- The last file of the package that a run leaves holds what it renders to, with the data of the
program and the dependencies that the run ends with. -/
theorem lastFile_of_run {program? : Option Program} {result : CompilationResult} {piece : Piece}
    (isLast : (Stock.skeleton setup.installed setup.target).getLast? = some piece)
    (ran : (run setup program?).Yields before result after) :
    ∃ filled : Compiler, (packageData setup).Yields filled result.data filled ∧
      filled.program = after.program ∧ filled.output.dependencies = after.output.dependencies ∧
      ∃ text, renderAt piece.origin piece.text result.data = .ok text ∧
        after.tree.read (piece.target setup.sdkRoot) = .ok (String.toUTF8 text) := by
  obtain ⟨walked, package, last, walking, written, rfl, rfl⟩ := run_yields.mp ran
  obtain ⟨-, -, -, visits, met⟩ := walkRoots_of_run walking
  obtain ⟨-, parts, filled, -, stored, gathered, filling⟩ :=
    (writePackage_yields met.nodup_keys).mp written
  obtain ⟨tree, rfl⟩ := writeAssets_yields stored
  obtain ⟨final, fills, rfl⟩ := yields_onDisk_iff.mp filling
  have fillable := Stock.isFillable_of_mem_skeleton setup.installed
    (List.mem_of_getLast? isLast)
  exact ⟨_, gathered, rfl, rfl,
    read_of_fillAll isLast fillable (lookup_self_of_packageData gathered) fills⟩

/-- The manifest that a run leaves in its package. -/
theorem manifest_of_run {program? : Option Program} {result : CompilationResult}
    (web : setup.target = .web) (ran : (run setup program?).Yields before result after) :
    after.output.dependencies = Dependency.mergeAll ⟨[]⟩ (dependenciesOf after.output.components) ∧
      after.tree.read (setup.sdkRoot.joinText "package.json") =
        .ok (manifestText setup.moduleName after.program.options.sdkVersion
          after.output.dependencies.items).toUTF8 := by
  refine ⟨dependencies_of_run ran, ?_⟩
  have isLast : (Stock.skeleton setup.installed setup.target).getLast? =
      some (Stock.manifestPiece setup.installed) := by
    rw [web, Stock.skeleton_web]
    rfl
  obtain ⟨filled, gathered, program_eq, dependencies_eq, text, rendered, read⟩ :=
    lastFile_of_run isLast ran
  obtain ⟨others, notSelf, data_eq⟩ := packageData_web web gathered
  rw [data_eq, program_eq, dependencies_eq] at rendered
  rw [target_manifestPiece] at read
  have expected := (renderAt_eq_ok (render_manifest notSelf)).symm.trans rendered
  rw [← Except.ok.inj expected] at read
  exact read

/-- A run leaves a valid manifest exactly if nothing in it has to be escaped. The dependencies of
the package are those that the bindings of its components contribute, the first of each name in the
order in which the names arrive. The manifest is a text for any number of them; it is read as the
object that has the name of the module, the version as it is given, and an entry from the name to
the version constraint of each dependency in their order, exactly if all these texts stand between
quotes as they are. -/
theorem manifest_is_read_back_iff_plain {program? : Option Program} {result : CompilationResult}
    (web : setup.target = .web) (ran : (run setup program?).Yields before result after) :
    let version := after.program.options.sdkVersion
    let contributed := dependenciesOf after.output.components
    let merged := after.output.dependencies.items
    merged.map Dependency.name = (contributed.map Dependency.name).eraseDups ∧
      (∀ d ∈ merged, contributed.find? (·.name == d.name) = some d) ∧
      ∃ text, after.tree.read (setup.sdkRoot.joinText "package.json") = .ok (String.toUTF8 text) ∧
        (Json.read text = .ok (manifest setup.moduleName version merged) ↔
          IsPlainManifest setup.moduleName version merged) := by
  intro version contributed merged
  obtain ⟨merges, read⟩ := manifest_of_run web ran
  obtain ⟨names, firsts⟩ := Dependency.items_mergeAll contributed
  rw [← merges] at names firsts
  refine ⟨names, firsts, _, read, read_manifestText_iff ?_⟩
  rw [names]
  exact OrderedSet.nodup_eraseDups _

namespace Bundled

theorem moduleName_eq (version : String) : (webSetup version).moduleName = "tessera-site" := by
  have hyphenated : Naming.hyphenateWords "Site".toList = "Site".toList := by
    simp [Naming.hyphenateWords, Naming.isCapital]
  have finished : Naming.kebab "Site" = "site" := by
    rw [Naming.kebab, Naming.kebabChars, hyphenated]
    decide
  change "tessera-" ++ Naming.kebab "Site" = _
  rw [finished]
  rfl

end Bundled

/-- Three dependencies, the first in the version that the label asks for. -/
theorem manifest_of_bundle_is_read_back :
    let setup := Bundled.webSetup "1.0.0"
    let dependencies := [Bundled.lit, Bundled.clsx, Bundled.tslib]
    setup.target = .web ∧ ∃ result after text,
      (run setup none).Yields (Bundled.compiler "1.0.0") result after ∧
      after.output.dependencies.items = dependencies ∧
      after.tree.read (setup.sdkRoot.joinText "package.json") = .ok (String.toUTF8 text) ∧
      Json.read text = .ok (manifest "tessera-site" "1.0.0" dependencies) := by
  intro setup dependencies
  obtain ⟨result, after, ran, program_eq, components_eq⟩ :=
    Bundled.exists_run "1.0.0" (by decide +kernel) (by decide +kernel) (by decide +kernel)
  obtain ⟨names, firsts, text, read, back⟩ := manifest_is_read_back_iff_plain rfl ran
  have contributed : dependenciesOf after.output.components =
      [Bundled.lit, Bundled.clsx, ⟨"lit", none, "^2.0"⟩, Bundled.tslib] := by
    rw [components_eq]
    decide +kernel
  rw [contributed] at names firsts
  have merged : after.output.dependencies.items = dependencies := by
    rw [Dependency.eq_filterMap_of_firsts firsts, names]
    decide +kernel
  rw [merged, program_eq, Bundled.moduleName_eq] at back
  have plain : IsPlainManifest "tessera-site" "1.0.0" dependencies := by
    unfold IsPlainManifest
    decide +kernel
  exact ⟨rfl, result, after, text, ran, merged, read, back.mpr plain⟩

/-- A version with quotes is put into the manifest as it is, and the manifest is no JSON. -/
theorem manifest_of_quoted_version_is_malformed :
    let setup := Bundled.webSetup "1.0 \"beta\""
    setup.target = .web ∧ ∃ result after text,
      (run setup none).Yields (Bundled.compiler "1.0 \"beta\"") result after ∧
      after.program.options.sdkVersion = "1.0 \"beta\"" ∧
      after.tree.read (setup.sdkRoot.joinText "package.json") = .ok (String.toUTF8 text) ∧
      ∀ v, Json.read text ≠ .ok v := by
  intro setup
  obtain ⟨result, after, ran, program_eq, components_eq⟩ :=
    Bundled.exists_run "1.0 \"beta\"" (by decide +kernel) (by decide +kernel) (by decide +kernel)
  obtain ⟨merges, read⟩ := manifest_of_run rfl ran
  have contributed : (Dependency.mergeAll ⟨[]⟩ (dependenciesOf after.output.components)).items =
      [Bundled.lit, Bundled.clsx, Bundled.tslib] := by
    rw [components_eq]
    decide +kernel
  have malformed : (Json.read (manifestText "tessera-site" "1.0 \"beta\""
      [Bundled.lit, Bundled.clsx, Bundled.tslib])).isOk = false := by
    -- The characters are read as they are, since decoding a text is slow.
    unfold Json.read manifestText
    rw [String.toList_ofList]
    decide +kernel
  rw [merges, contributed, program_eq, Bundled.moduleName_eq] at read
  refine ⟨rfl, result, after, _, ran, by rw [program_eq]; rfl, read, fun v readBack => ?_⟩
  change Json.read (manifestText "tessera-site" "1.0 \"beta\"" _) = _ at readBack
  rw [readBack] at malformed
  cases malformed

end Compilation

end DesignGraph
