import DesignGraph.Proofs.Compile.Assembly
import DesignGraph.Proofs.Compile.Frame
import DesignGraph.Proofs.Compile.Run
import DesignGraph.Proofs.Template

/-!
# Contents of packages

The sources, declarations and imports of a package in closed form: those that every package of the
target begins with, the contributions of the components in the order in which they were met, and the
hot component. Of what is added again only the first is kept. A class and a generated declaration
are rendered for one component each, so they are there exactly once.
-/

namespace DesignGraph

/-- Whether a source is the text that was rendered for a component. -/
def Source.isRenderedFor (type : String) : Source → Bool
  | .file _ => false
  | .rendered component _ _ => component == type

namespace Setup

/-- The runtime, which every package begins with. -/
def runtime (setup : Setup) : Path :=
  match setup.target with
  | .web => Stock.path setup.installed .web "core/Tessera.js"
  | .ios => Stock.path setup.installed .ios "core/Tessera.swift"

/-- The declarations of the runtime. -/
def runtimeDeclarations (setup : Setup) : Path :=
  Stock.path setup.installed .web "core/Tessera.d.ts"

theorem sources_seed (setup : Setup) :
    (setup.target.seed setup.installed).sources = ⟨[.file setup.runtime]⟩ := by
  unfold runtime
  cases setup.target <;> rfl

end Setup

namespace Compilation

variable {setup : Setup} {types : List String} {parts : List Contribution}

/-- The sources of a package as they are added, repetitions included. -/
def addedSources (setup : Setup) (hot : Bool) (parts : List Contribution) : List Source :=
  .file setup.runtime :: parts.flatMap Contribution.sources ++
    if hot then [.file setup.hotComponent] else []

/-- The declarations of a web package as they are added. -/
def addedDeclarations (setup : Setup) (parts : List Contribution) : List Source :=
  .file setup.runtimeDeclarations :: parts.flatMap Contribution.declarations

/-- The imports of an iOS package as they are added. -/
def addedImports (parts : List Contribution) : List String :=
  "Foundation" :: parts.flatMap Contribution.imports

/-! ## What was rendered for a component -/

/-- Without repetitions, a list in which one element alone passes a test holds it once. -/
private theorem filter_eraseDups_eq_singleton {α : Type} [BEq α] [LawfulBEq α] {test : α → Bool}
    {items : List α} {a : α} (member : a ∈ items) (passes : test a = true)
    (only : ∀ b ∈ items, test b = true → b = a) : items.eraseDups.filter test = [a] := by
  have distinct : (items.eraseDups.filter test).Nodup :=
    (OrderedSet.nodup_eraseDups items).filter test
  refine OrderedSet.eq_singleton_of_nodup distinct fun b => ?_
  rw [List.mem_filter, List.mem_eraseDups]
  constructor
  · rintro ⟨listed, passed⟩
    exact only b listed passed
  · rintro rfl
    exact ⟨member, passes⟩

/-- A list of sources to which components add files and texts that are rendered for themselves. -/
def OwnTexts (setup : Setup) (types : List String) (list : Contribution → List Source) : Prop :=
  ∀ {type : String} {component : Component} {part : Contribution},
    contribution setup types (type, component) = .ok part → ∀ source ∈ list part, ∀ other,
      source.isRenderedFor other = true → component.spec.componentName = other

private theorem not_isRenderedFor_file {paths : List Path} {source : Source} {type : String}
    (listed : source ∈ paths.map Source.file) (own : source.isRenderedFor type = true) : False := by
  obtain ⟨path, _, rfl⟩ := List.mem_map.mp listed
  cases own

theorem ownTexts_sources : OwnTexts setup types Contribution.sources := by
  intro type component part contributed source listed other own
  obtain ⟨text, _, _, -, rfl⟩ := contribution_eq_ok_iff.mp contributed
  rcases List.mem_cons.mp listed with rfl | file
  · exact beq_iff_eq.mp own
  · exact (not_isRenderedFor_file file own).elim

theorem ownTexts_declarations : OwnTexts setup types Contribution.declarations := by
  intro type component part contributed source listed other own
  obtain ⟨_, declarations, -, declared, rfl⟩ := contribution_eq_ok_iff.mp contributed
  change source ∈ declarations at listed
  unfold declarationsOf at declared
  cases target : setup.target with
  | ios =>
    simp only [target, Except.ok.injEq] at declared
    simp [← declared] at listed
  | web =>
    simp only [target] at declared
    split_ifs at declared
    · obtain ⟨text, _, ⟨⟩⟩ := Answers.bind_eq_ok_iff.mp declared
      rw [List.mem_singleton] at listed
      subst listed
      exact beq_iff_eq.mp own
    · cases declared
      exact (not_isRenderedFor_file listed own).elim

/-- Every component of the package bears the name of its type. -/
def Named (components : OrderedMap String Component) : Prop :=
  ∀ type component, components.get? type = some component → component.spec.componentName = type

section own

variable {components : OrderedMap String Component} {type : String} {component : Component}
  {part : Contribution} (distinct : components.keys.Nodup) (named : Named components)
  (contributions : components.entries.mapM (contribution setup types) = .ok parts)
  (found : components.get? type = some component)

include distinct named contributions found

/-- Whatever was rendered for a component was added by it. -/
theorem mem_own_part {list : Contribution → List Source} (texts : OwnTexts setup types list)
    (contributed : contribution setup types (type, component) = .ok part) {source : Source}
    (listed : source ∈ parts.flatMap list) (own : source.isRenderedFor type = true) :
    source ∈ list part := by
  obtain ⟨other, member, source_mem⟩ := List.mem_flatMap.mp listed
  obtain ⟨⟨name, owner⟩, entry, answered⟩ :=
    Answers.exists_item (Answers.mapM_eq_ok_iff.mp contributions) member
  have ownerFound := OrderedMap.get?_of_mem_entries distinct entry
  have sameName := texts answered source source_mem type own
  rw [named name owner ownerFound] at sameName
  subst sameName
  cases found.symm.trans ownerFound
  cases contributed.symm.trans answered
  exact source_mem

omit distinct named in
theorem exists_part : ∃ part ∈ parts, contribution setup types (type, component) = .ok part :=
  Answers.exists_answer (Answers.mapM_eq_ok_iff.mp contributions)
    (OrderedMap.mem_entries_of_get? found)

/-- The class of a component is the one source that was rendered for it. -/
theorem rendered_addedSources (hot : Bool) :
    ∃ text, classText setup (classSpec setup types component)
        (component.spec.isPublic || types.contains type) = .ok text ∧
      (addedSources setup hot parts).eraseDups.filter (·.isRenderedFor type) =
        [.rendered type (classSuffix setup.target) text] := by
  obtain ⟨part, listed, contributed⟩ := exists_part contributions found
  have owned : ∀ source ∈ parts.flatMap Contribution.sources, source.isRenderedFor type = true →
      source ∈ part.sources := fun _ =>
    mem_own_part distinct named contributions found ownTexts_sources contributed
  obtain ⟨text, _, rendered, -, rfl⟩ := contribution_eq_ok_iff.mp contributed
  rw [named type component found] at listed owned
  refine ⟨text, rendered, filter_eraseDups_eq_singleton ?_ (by simp [Source.isRenderedFor]) ?_⟩
  · exact List.mem_append_left _ (List.mem_cons_of_mem _
      (List.mem_flatMap.mpr ⟨_, listed, List.mem_cons_self⟩))
  · intro source added own
    have fromPart : source ∈ parts.flatMap Contribution.sources := by
      rcases List.mem_append.mp added with added | served
      · rcases List.mem_cons.mp added with rfl | added
        · cases own
        · exact added
      · cases hot with
        | false => cases served
        | true =>
          rw [if_pos rfl, List.mem_singleton] at served
          subst served
          cases own
    rcases List.mem_cons.mp (owned source fromPart own) with rfl | file
    · rfl
    · exact (not_isRenderedFor_file file own).elim

/-- A component of a web package whose binding has no declarations has one generated text. -/
theorem rendered_addedDeclarations (web : setup.target = .web)
    (generated : (component.binding.getD {}).declarations = []) :
    ∃ text, declarationText setup (classSpec setup types component) = .ok text ∧
      (addedDeclarations setup parts).eraseDups.filter (·.isRenderedFor type) =
        [.rendered type ".d.ts" text] := by
  obtain ⟨part, listed, contributed⟩ := exists_part contributions found
  have owned : ∀ source ∈ parts.flatMap Contribution.declarations,
      source.isRenderedFor type = true → source ∈ part.declarations := fun _ =>
    mem_own_part distinct named contributions found ownTexts_declarations contributed
  obtain ⟨_, declarations, -, declared, rfl⟩ := contribution_eq_ok_iff.mp contributed
  simp only [declarationsOf, web, generated, List.isEmpty_nil, if_true] at declared
  obtain ⟨text, rendered, ⟨⟩⟩ := Answers.bind_eq_ok_iff.mp declared
  have own_eq : (classSpec setup types component).componentName = type :=
    named type component found
  rw [own_eq] at listed owned
  refine ⟨text, rendered, filter_eraseDups_eq_singleton ?_ (by simp [Source.isRenderedFor]) ?_⟩
  · exact List.mem_cons_of_mem _
      (List.mem_flatMap.mpr ⟨_, listed, List.mem_singleton_self _⟩)
  · intro source added own
    rcases List.mem_cons.mp added with rfl | added
    · cases own
    · exact List.mem_singleton.mp (owned source added own)

end own

/-! ## The package of a run -/

theorem Walked.named {program : Program} {visits : List Instance}
    {components : OrderedMap String Component} (walked : Walked setup program visits components) :
    Named components := by
  intro type component found
  obtain ⟨first, represents⟩ := walked.exists_represents found
  exact represents.name_eq

/-- What the skeleton of a package receives is told by the components, what they contribute, and the
files that there are. -/
structure IsAssembled (setup : Setup) (hot : Bool) (met : OrderedMap String Component)
    (parts : List Contribution) (tree : FileTree) (data : List (String × Value)) : Prop where
  sources : ∃ contents,
    (addedSources setup hot parts).eraseDups.mapM (readSource tree) = .ok contents ∧
      data.lookup "sources" = some (texts contents)
  classes : ∀ type component, met.get? type = some component →
    ∃ text, classText setup (classSpec setup (singletons met) component)
        (component.spec.isPublic || (singletons met).contains type) = .ok text ∧
      (addedSources setup hot parts).eraseDups.filter (·.isRenderedFor type) =
        [.rendered type (classSuffix setup.target) text]
  declarations : setup.target = .web → ∃ contents,
    (addedDeclarations setup parts).eraseDups.mapM (readSource tree) = .ok contents ∧
      data.lookup "declarations" = some (texts contents)
  generated : setup.target = .web → ∀ type component, met.get? type = some component →
    (component.binding.getD {}).declarations = [] →
    ∃ text, declarationText setup (classSpec setup (singletons met) component) = .ok text ∧
      (addedDeclarations setup parts).eraseDups.filter (·.isRenderedFor type) =
        [.rendered type ".d.ts" text]
  imports : setup.target = .ios →
    data.lookup "imports" = some (texts (addedImports parts).eraseDups)

/-- The walk of a run leaves the files and the lists of the package as the run has begun with. -/
theorem walkRoots_of_run {program : Program} {before walked : Compiler}
    (walking : (walkRoots setup).Yields (begun setup program before) () walked) :
    walked.program = program ∧ walked.tree = before.tree ∧
      listsOf walked.output = listsOf (setup.target.seed setup.installed) ∧
      ∃ visits, Walked setup program visits walked.output.components := by
  have same : keptByWalk setup walked = keptByWalk setup (begun setup program before) :=
    preserves_walkRoots.of_yields walking
  obtain ⟨program_eq, visits, met⟩ := walkRoots_walked (components_seed _ _) walking
  exact ⟨program_eq, congrArg (·.1.tree) same, congrArg (·.2.2) same, visits, met⟩

section begun

variable {output : Output}
  (lists_eq : listsOf output = listsOf (setup.target.seed setup.installed))

include lists_eq

/-- No dependencies are listed before the package is written. -/
theorem dependencies_of_begun : output.dependencies = ⟨[]⟩ := by
  have same : output.dependencies = (setup.target.seed setup.installed).dependencies :=
    congrArg (·.2.2.2) lists_eq
  rw [same]
  cases setup.target <;> rfl

theorem sources_of_begun (hot : Bool) (parts : List Contribution) :
    ((assembled setup hot parts output).styled setup.target).sources.items =
      (addedSources setup hot parts).eraseDups := by
  have seed : output.sources = ⟨[.file setup.runtime]⟩ :=
    (congrArg (·.1) lists_eq).trans setup.sources_seed
  rw [Output.sources_styled, sources_assembled, seed, OrderedSet.items_insertAll_singleton]
  rfl

theorem declarations_of_begun (web : setup.target = .web) (hot : Bool)
    (parts : List Contribution) :
    ((assembled setup hot parts output).styled setup.target).declarations.items =
      (addedDeclarations setup parts).eraseDups := by
  have seed : output.declarations = ⟨[.file setup.runtimeDeclarations]⟩ := by
    rw [web] at lists_eq
    exact congrArg (·.2.1) lists_eq
  rw [Output.declarations_styled, declarations_assembled, seed,
    OrderedSet.items_insertAll_singleton]
  rfl

theorem imports_of_begun (ios : setup.target = .ios) (hot : Bool) (parts : List Contribution) :
    ((assembled setup hot parts output).styled setup.target).imports.items =
      (addedImports parts).eraseDups := by
  have seed : output.imports = ⟨["Foundation"]⟩ := by
    rw [ios] at lists_eq
    exact congrArg (·.2.2.1) lists_eq
  rw [Output.imports_styled, imports_assembled, seed, OrderedSet.items_insertAll_singleton]
  rfl

end begun

/-- A package that is written over the lists that every package begins with. -/
theorem writePackage_isAssembled {before after : Compiler} {package : Package}
    (lists_eq : listsOf before.output = listsOf (setup.target.seed setup.installed))
    (distinct : before.output.components.keys.Nodup) (named : Named before.output.components)
    (success : (writePackage setup).Yields before package after) :
    ∃ parts ready filled,
      before.output.components.entries.mapM
        (contribution setup (singletons before.output.components)) = .ok parts ∧
      ready.tree = before.tree ∧ (writeAssets setup).Yields ready () filled ∧
      (onDisk (Template.fillAll (Stock.skeleton setup.installed setup.target) setup.sdkRoot
        package.data)).Yields filled package.files after ∧
      after.program = before.program ∧
      IsAssembled setup before.program.hot before.output.components parts filled.tree
        package.data := by
  obtain ⟨-, parts, filled, contributions, stored, gathered, filledIn⟩ :=
    (writePackage_yields distinct).mp success
  refine ⟨parts, _, filled, contributions, ?_, stored, filledIn,
    preserves_writePackage.of_yields success, ?_⟩
  · rfl
  obtain ⟨-, sources, declarations, imports⟩ := packageData_yields gathered
  obtain ⟨tree, rfl⟩ := writeAssets_yields stored
  constructor
  case sources =>
    rw [← sources_of_begun lists_eq]
    exact sources
  case classes =>
    exact fun type component found =>
      rendered_addedSources distinct named contributions found before.program.hot
  case declarations =>
    intro web
    rw [← declarations_of_begun lists_eq web before.program.hot]
    exact declarations web
  case generated =>
    exact fun web type component found =>
      rendered_addedDeclarations distinct named contributions found web
  case imports =>
    intro ios
    rw [← imports_of_begun lists_eq ios before.program.hot]
    exact imports ios

/-- Package assembly loses and repeats nothing. Of a successful run let `met` be the components in
the order in which their types were met, and `parts` what they contribute. The sources that the
skeleton receives are the runtime, the class of each component with the files of its binding after
it, and the hot component, each once and at its first place; no class is missing. The declarations
of a web package and the imports of an iOS package are made up in the same way. The files are those
on disk when the assets have been written. -/
theorem package_is_assembled {program? : Option Program} {before after : Compiler}
    {result : CompilationResult} (success : (run setup program?).Yields before result after) :
    ∃ visits met parts ready filled,
      Walked setup after.program visits met ∧
      met.keys = (visits.map after.program.graph.componentName).eraseDups ∧
      met.entries.mapM (contribution setup (singletons met)) = .ok parts ∧
      ready.tree = before.tree ∧ (writeAssets setup).Yields ready () filled ∧
      (onDisk (Template.fillAll (Stock.skeleton setup.installed setup.target) setup.sdkRoot
        result.data)).Yields filled result.files { after with isRunning := filled.isRunning } ∧
      IsAssembled setup after.program.hot met parts filled.tree result.data := by
  obtain ⟨walked, package, final, walking, written, rfl, rfl⟩ := run_yields.mp success
  obtain ⟨program_eq, tree_eq, lists_eq, visits, met⟩ := walkRoots_of_run walking
  obtain ⟨parts, ready, filled, contributions, ready_eq, stored, filledIn, final_eq, contents⟩ :=
    writePackage_isAssembled lists_eq met.nodup_keys met.named written
  rw [← program_eq, ← final_eq] at met
  rw [← final_eq] at contents
  refine ⟨visits, walked.output.components, parts, ready, filled, met, met.keys_eq, contributions,
    ready_eq.trans tree_eq, stored, ?_, contents⟩
  obtain ⟨tree, rfl⟩ := yields_onDisk filledIn
  exact filledIn

/-! A page with a label whose class has a file of its own, compiled for iOS. -/

namespace Labelled

def program : Program where
  projectName := "Site"
  projectRoot := ⟨"/", []⟩
  graph := {
    types := ⟨[("Page", ⟨"Page", [⟨"title", "Label", 0⟩]⟩), ("Label", ⟨"Label", []⟩)]⟩
    instances := ⟨[
      ("home", ⟨"home", "Page", ⟨[("title", .text "name")]⟩⟩),
      ("name", ⟨"name", "Label", ⟨[]⟩⟩)]⟩ }
  roots := ⟨[("Page", "home")]⟩

def labelFile : Path := ⟨"/", ["ios", "Label.swift"]⟩

def binding : Binding where
  sources := [labelFile]
  imports := ["UIKit"]

def iosSetup : Setup :=
  .ofProgram .ios ⟨"/", []⟩ ⟨[("Label", binding)]⟩ (.ok "localhost") program

/-- The files that the package is made from, and the directories that it is written to. -/
def files : FileTree where
  entries := ⟨[
    (["ios"], .directory), (["ios", "core"], .directory),
    (["ios", "core", "Tessera.swift"], .file ⟨#[]⟩), (["ios", "Label.swift"], .file ⟨#[]⟩),
    (["build"], .directory), (["build", "tessera-Site-ios"], .directory),
    (["build", "tessera-Site-ios", "Sources"], .directory),
    (["build", "tessera-Site-ios", "Sources", "TesseraSite"], .directory),
    (["build", "tessera-Site-ios", "Sources", "TesseraSite", "Static"], .directory)]⟩

def before : Compiler := iosSetup.compiler program files

def page : Component where
  spec := ⟨"Page", ⟨[("title", ⟨"Label", "Label()", false⟩)]⟩, true⟩
  instances := ⟨["home"]⟩

def label : Component where
  spec := ⟨"Label", ∅, false⟩
  binding := some binding
  instances := ⟨["name"]⟩

def components : OrderedMap String Component := ⟨[("Page", page), ("Label", label)]⟩

def walked : Compiler :=
  { begun iosSetup program before with
    output := { iosSetup.target.seed iosSetup.installed with components := components } }

theorem walks : (walkRoots iosSetup).Yields (begun iosSetup program before) () walked := by
  rfl

/-- The data that the class of a component is rendered from. -/
def classData (entry : String × Component) : List (String × Value) :=
  specData (classSpec iosSetup (singletons components) entry.2) ++
    [("singleton", .bool (entry.2.spec.isPublic || (singletons components).contains entry.1))]

def text (entry : String × Component) : String :=
  (Template.render Stock.Ios.component (classData entry)).toOption.getD ""

theorem classText_eq {entry : String × Component} (listed : entry ∈ components.entries) :
    classText iosSetup (classSpec iosSetup (singletons components) entry.2)
      (entry.2.spec.isPublic || (singletons components).contains entry.1) = .ok (text entry) := by
  have found : Stock.find? .ios "swift.component.j2" = some Stock.Ios.component := by
    have named : Stock.templateName? "swift.component.j2" = some "swift.component.j2" := by
      decide +kernel
    have stocked : (Stock.filesOf .ios).lookup "swift.component.j2" =
        some Stock.Ios.component := by
      simp [Stock.filesOf, Stock.Ios.files, List.lookup_cons]
    exact Option.bind_eq_some_iff.mpr ⟨_, named, stocked⟩
  have succeeds : ∀ entry ∈ components.entries,
      (Template.render Stock.Ios.component (classData entry)).isOk = true := by
    -- The characters of the template are written out, since decoding its text is slow.
    unfold Template.render Template.parse Template.tokens Stock.Ios.component
    simp only [Text.toList_ofLines, List.flatMap_cons, List.flatMap_nil]
    repeat rw [String.toList_ofList]
    decide +kernel
  have located : Template.renderAt (Stock.path iosSetup.installed .ios "swift.component.j2")
      (some Stock.Ios.component) (classData entry) = .ok (text entry) :=
    Template.renderAt_eq_ok (Answers.eq_ok_of_isOk "" (succeeds entry listed))
  rw [← found] at located
  exact located

def added : List Contribution := [
  ⟨[.rendered "Page" ".swift" (text ("Page", page))], [], [], []⟩,
  ⟨[.rendered "Label" ".swift" (text ("Label", label)), .file labelFile], [], ["UIKit"], []⟩]

theorem contributes :
    components.entries.mapM (contribution iosSetup (singletons components)) = .ok added := by
  have page_listed : ("Page", page) ∈ components.entries := List.mem_cons_self
  have label_listed : ("Label", label) ∈ components.entries :=
    List.mem_cons_of_mem _ List.mem_cons_self
  refine Answers.mapM_eq_ok_iff.mpr (.cons ?_ (.cons ?_ .nil))
  · have rendered := classText_eq page_listed
    refine contribution_eq_ok_iff.mpr ⟨text ("Page", page), [], ?_, rfl, rfl⟩
    exact rendered
  · have rendered := classText_eq label_listed
    refine contribution_eq_ok_iff.mpr ⟨text ("Label", label), [], ?_, rfl, rfl⟩
    exact rendered

/-- The compiler once every component is settled. -/
def ready : Compiler :=
  { walked with output := assembled iosSetup false added walked.output }

theorem stores : (writeAssets iosSetup).Yields ready () ready := by
  have present : files.makeDirectories iosSetup.staticRoot = .ok files :=
    FileTree.makeDirectories_of_isStraight (by decide +kernel) (by rfl)
  have made : (onDisk (Disk.makeDirectories iosSetup.staticRoot)).Yields ready () ready :=
    yields_onDisk_iff.mpr ⟨files, Disk.run_makeDirectories present, rfl⟩
  exact (yields_writeAssets_ios rfl).mpr ⟨ready, made, rfl⟩

theorem readFile_eq {path : Path} (straight : files.isStraight path = true)
    (empty : files.entry? path.parts = some (.file ⟨#[]⟩)) : readFile files path = .ok "" := by
  simp only [readFile, FileTree.read_of_isStraight straight empty]
  rfl

def contents : List String :=
  ["", asRead (text ("Page", page)), asRead (text ("Label", label)), ""]

def data : List (String × Value) := [
  ("module_name", .text "TesseraSite"), ("sdk_version", .text program.options.sdkVersion),
  ("dependencies", .list []), ("sources", texts contents),
  ("deployment_target", .text "13.0"), ("imports", texts ["Foundation", "UIKit"]),
  ("hot_url", .null)]

theorem gathers : (packageData iosSetup).Yields ready data ready := by
  have read : ready.output.sources.items.mapM (readSource files) = .ok contents := by
    refine Answers.mapM_eq_ok_iff.mpr (.cons ?_ (.cons rfl (.cons rfl (.cons ?_ .nil))))
    · exact readFile_eq (by decide +kernel) (by rfl)
    · exact readFile_eq (by decide +kernel) (by rfl)
  exact (yields_packageData_ios rfl).mpr ⟨[], contents, rfl, read, rfl, rfl⟩

def manifest : Path := ⟨"/", ["build", "tessera-Site-ios", "Package.swift"]⟩

/-- The one file of the skeleton. -/
def manifestPiece : Template.Piece :=
  ⟨"Package.swift.j2", ⟨"/", ["ios", "sdk", "Package.swift.j2"]⟩, some Stock.Ios.manifest⟩

def manifestText : String := (Template.render Stock.Ios.manifest data).toOption.getD ""

def filled : FileTree := files.set manifest.parts (.file manifestText.toUTF8)

theorem fills :
    (onDisk (Template.fillAll (Stock.skeleton iosSetup.installed .ios) iosSetup.sdkRoot
      data)).Yields ready [manifest] { ready with tree := filled } := by
  have skeleton : Stock.skeleton iosSetup.installed .ios = [manifestPiece] := by
    simp only [Stock.skeleton, Stock.filesOf, Stock.Ios.files, List.filterMap_cons]
    rfl
  have made : files.makeDirectories iosSetup.sdkRoot = .ok files :=
    FileTree.makeDirectories_of_isStraight (by decide +kernel) (by rfl)
  have named : Template.renderText manifestPiece.name data = .ok "Package.swift.j2" := by
    have succeeds : (Template.renderText manifestPiece.name data).isOk = true := by
      decide +kernel
    have unchanged : (Template.renderText manifestPiece.name data).toOption.getD "" =
        "Package.swift.j2" := by
      decide +kernel
    rw [Answers.eq_ok_of_isOk "" succeeds, unchanged]
  have rendered : Template.render Stock.Ios.manifest data = .ok manifestText := by
    apply Answers.eq_ok_of_isOk
    unfold Template.render Template.parse Template.tokens Stock.Ios.manifest
    simp only [Text.toList_ofLines, List.flatMap_cons, List.flatMap_nil]
    repeat rw [String.toList_ofList]
    decide +kernel
  have absent : files.entry? manifest.parts = none := by rfl
  have written : files.write manifest manifestText.toUTF8 = .ok filled :=
    FileTree.write_of_isStraight (by decide +kernel) (by simp [absent]) _
  have piece : (manifestPiece.fill iosSetup.sdkRoot data).run.run files = (.ok manifest, filled) :=
    Template.Piece.fill_template (by decide +kernel) rfl named made rendered written
  have pieces : (Template.fillAll [manifestPiece] iosSetup.sdkRoot data).run.run files =
      (.ok [manifest], filled) := by
    rw [Template.fillAll, Disk.run_bind (Disk.run_makeDirectories made), List.mapM_cons,
      Disk.run_bind piece]
    rfl
  rw [skeleton]
  exact yields_onDisk_iff.mpr ⟨filled, pieces, rfl⟩

theorem runs : (run iosSetup none).Yields before ⟨iosSetup.sdkRoot, [manifest], [], data⟩
    { ready with tree := filled, isRunning := false } := by
  have distinct : walked.output.components.keys.Nodup := by decide
  have written : (writePackage iosSetup).Yields walked ⟨[manifest], data⟩
      { ready with tree := filled } :=
    (writePackage_yields distinct).mpr
      ⟨fun _ => rfl, added, ready, contributes, stores, gathers, fills⟩
  exact run_yields.mpr ⟨walked, _, _, walks, written, rfl, rfl⟩

end Labelled

theorem package_of_label_is_assembled :
    ∃ result after, (run Labelled.iosSetup none).Yields Labelled.before result after ∧
      ∃ visits met parts filled,
        Walked Labelled.iosSetup after.program visits met ∧
        met.entries.mapM (contribution Labelled.iosSetup (singletons met)) = .ok parts ∧
        IsAssembled Labelled.iosSetup after.program.hot met parts filled result.data := by
  obtain ⟨visits, met, parts, _, filled, walked, -, contributions, -, -, -, contents⟩ :=
    package_is_assembled Labelled.runs
  exact ⟨_, _, Labelled.runs, visits, met, parts, filled.tree, walked, contributions, contents⟩

end Compilation

end DesignGraph
