import DesignGraph.Proofs.Compile.Contents
import DesignGraph.Proofs.Stock

/-!
# What a package asks of the disk

The directories, files and copies of a package are told by the walked output alone, and so are the
files that it is made from (`packageJobs`). If the file tree admits these jobs, whatever is written,
then writing the package cannot fail: every class, style sheet and file of the skeleton renders.
-/

namespace DesignGraph

/-- Something that is asked of a file tree. -/
inductive DiskJob
  | directories (path : Path)
  | write (path : Path)
  | copy (source target : Path)
  | read (path : Path)

open Compilation (readFile)

/-- Whether the jobs can be done in this order, whatever is written. -/
def FileTree.Admits (tree : FileTree) : List DiskJob → Prop
  | [] => True
  | .directories path :: rest => ∃ after, tree.makeDirectories path = .ok after ∧ after.Admits rest
  | .write path :: rest =>
      ∀ content, ∃ after, tree.write path content = .ok after ∧ after.Admits rest
  | .copy source target :: rest => ∃ after, tree.copy source target = .ok after ∧ after.Admits rest
  | .read path :: rest => (∃ text, readFile tree path = .ok text) ∧ tree.Admits rest

theorem FileTree.admits_reads {tree : FileTree} {paths : List Path} {rest : List DiskJob} :
    tree.Admits (paths.map .read ++ rest) ↔
      (∀ path ∈ paths, ∃ text, readFile tree path = .ok text) ∧ tree.Admits rest := by
  induction paths with
  | nil => simp
  | cons path paths ih =>
    rw [List.map_cons, List.cons_append, Admits, ih, List.forall_mem_cons, and_assoc]

namespace Disk

variable {α β : Type} {jobs more : List DiskJob}

/-- The step does these jobs, and fails only if one of them does. -/
def Carries (jobs : List DiskJob) (step : Disk α) : Prop :=
  ∀ tree rest, tree.Admits (jobs ++ rest) →
    ∃ a after, step.run.run tree = (.ok a, after) ∧ after.Admits rest

theorem carries_pure (a : α) : Carries [] (pure a) := fun tree _ admits => ⟨a, tree, rfl, admits⟩

theorem carries_makeDirectories (path : Path) :
    Carries [.directories path] (makeDirectories path) := by
  rintro tree rest ⟨after, made, admits⟩
  exact ⟨(), after, run_makeDirectories made, admits⟩

theorem carries_write (path : Path) (content : ByteArray) :
    Carries [.write path] (write path content) := by
  intro tree rest admits
  obtain ⟨after, written, admits⟩ := admits content
  exact ⟨(), after, run_change written, admits⟩

theorem carries_copy (source target : Path) :
    Carries [.copy source target] (copy source target) := by
  rintro tree rest ⟨after, copied, admits⟩
  exact ⟨(), after, run_change copied, admits⟩

theorem Carries.bind {step : Disk α} {next : α → Disk β} (head : Carries jobs step)
    (tail : ∀ a, Carries more (next a)) : Carries (jobs ++ more) (step >>= next) := by
  intro tree rest admits
  rw [List.append_assoc] at admits
  obtain ⟨a, between, first, admits⟩ := head tree _ admits
  obtain ⟨b, after, second, admits⟩ := tail a between rest admits
  exact ⟨b, after, (run_bind first).trans second, admits⟩

theorem carries_mapM {step : α → Disk β} {jobsOf : α → List DiskJob} {items : List α}
    (each : ∀ item ∈ items, Carries (jobsOf item) (step item)) :
    Carries (items.flatMap jobsOf) (items.mapM step) := by
  induction items with
  | nil =>
    rw [List.mapM_nil]
    exact carries_pure []
  | cons item items ih =>
    rw [List.mapM_cons, List.flatMap_cons]
    refine (each item List.mem_cons_self).bind fun b => ?_
    rw [← List.append_nil (items.flatMap jobsOf)]
    exact (ih fun other member => each other (List.mem_cons_of_mem _ member)).bind
      fun bs => carries_pure (b :: bs)

end Disk

/-! ## The skeleton -/

namespace Template

open Disk (Carries)

/-- What a file of a skeleton asks for. -/
def Piece.jobs (destination : Path) (piece : Piece) : List DiskJob :=
  let target := destination.joinText piece.name
  [.directories target.parent, .write target.withoutSuffix]

theorem carries_fill {known : Kinds} {data : List (String × Value)} {piece : Piece}
    (fillable : Stock.IsFillable known piece) (fit : DataFit known data)
    (notSelf : data.lookup "self" = none) (destination : Path) :
    Carries (piece.jobs destination) (piece.fill destination data) := by
  obtain ⟨source, sourced, safe⟩ := fillable.safe
  obtain ⟨content, rendered⟩ := exists_render safe fit notSelf
  have named := Stock.renderText_of_isPlainName fillable.isPlain notSelf
  have read : piece.source = pure source := by
    unfold Piece.source
    rw [sourced]
  have located : renderAt piece.origin (some source) data = .ok content := renderAt_eq_ok rendered
  have opened : piece.fill destination data = (do
      Disk.makeDirectories (destination.joinText piece.name).parent
      Disk.writeText (destination.joinText piece.name).withoutSuffix content
      pure (destination.joinText piece.name).withoutSuffix) := by
    simp only [Piece.fill, named, fillable.isTemplate, if_true, read, pure_bind, located]
    rfl
  rw [opened]
  refine (Disk.carries_makeDirectories _).bind fun _ => ?_
  exact (Disk.carries_write _ _).bind fun _ => Disk.carries_pure _

theorem carries_fillAll {known : Kinds} {data : List (String × Value)} {pieces : List Piece}
    (fillable : ∀ piece ∈ pieces, Stock.IsFillable known piece) (fit : DataFit known data)
    (notSelf : data.lookup "self" = none) (destination : Path) :
    Carries (.directories destination :: pieces.flatMap (Piece.jobs destination))
      (fillAll pieces destination data) :=
  (Disk.carries_makeDirectories destination).bind fun _ =>
    Disk.carries_mapM fun piece listed => carries_fill (fillable piece listed) fit notSelf _

end Template

namespace Compilation

variable {setup : Setup} {before after : Compiler}

/-! ## The assets -/

def assetJob (destination : Path) : Asset → DiskJob
  | .copyOf path => .copy (Path.ofString path) destination
  | .bytes _ => .write destination
  | .text _ => .write destination

/-- What a static asset asks for. -/
def assetJobs (root : Path) (entry : String × Asset) : List DiskJob :=
  [.directories (root.joinText entry.1).parent, assetJob (root.joinText entry.1) entry.2]

def styleSheetJobs (root : Path) (language : String) : List DiskJob :=
  [.directories root, .write (root.joinText ("styles." ++ language))]

/-- What the static assets and the style sheets ask for. -/
def staticJobs (setup : Setup) (output : Output) : List DiskJob :=
  let assets := output.assets.entries.flatMap (assetJobs setup.staticRoot)
  match setup.target with
  | .web => assets ++ Stock.styleLanguages.flatMap (styleSheetJobs setup.staticRoot)
  | .ios => .directories setup.staticRoot :: assets

theorem onDisk_yields (before : Compiler) {α : Type} {jobs rest : List DiskJob} {step : Disk α}
    (carries : Disk.Carries jobs step) (room : before.tree.Admits (jobs ++ rest)) :
    ∃ answer tree, (onDisk step).Yields before answer { before with tree := tree } ∧
      tree.Admits rest := by
  obtain ⟨answer, tree, ran, admits⟩ := carries before.tree rest room
  exact ⟨answer, tree, yields_onDisk_iff.mpr ⟨tree, ran, rfl⟩, admits⟩

theorem writeAsset_carries (before : Compiler) {root : Path} {name : String} {asset : Asset}
    {rest : List DiskJob}
    (inside : isInside name = true)
    (room : before.tree.Admits (assetJobs root (name, asset) ++ rest)) :
    ∃ tree, (writeAsset root name asset).Yields before () { before with tree := tree } ∧
      tree.Admits rest := by
  have carries : Disk.Carries (assetJobs root (name, asset)) (do
      Disk.makeDirectories (root.joinText name).parent
      match asset with
      | .copyOf path => Disk.copy (Path.ofString path) (root.joinText name)
      | .bytes content => Disk.write (root.joinText name) content
      | .text content => Disk.writeText (root.joinText name) content) := by
    refine (Disk.carries_makeDirectories _).bind fun _ => ?_
    cases asset with
    | copyOf path => exact Disk.carries_copy _ _
    | bytes content => exact Disk.carries_write _ _
    | text content => exact Disk.carries_write _ _
  obtain ⟨⟨⟩, tree, written, admits⟩ := onDisk_yields before carries room
  refine ⟨tree, ?_, admits⟩
  simp only [writeAsset, inside, Bool.not_true, Bool.false_eq_true, if_false]
  exact written

theorem writeAssets_forM_carries (before : Compiler) {root : Path}
    {assets : List (String × Asset)} {rest : List DiskJob}
    (inside : ∀ entry ∈ assets, isInside entry.1 = true)
    (room : before.tree.Admits (assets.flatMap (assetJobs root) ++ rest)) :
    ∃ tree, (assets.forM fun (name, asset) => writeAsset root name asset).Yields before ⟨⟩
        { before with tree := tree } ∧ tree.Admits rest := by
  induction assets generalizing before with
  | nil => exact ⟨before.tree, yields_forM_nil.mpr rfl, room⟩
  | cons entry assets ih =>
    obtain ⟨name, asset⟩ := entry
    rw [List.flatMap_cons, List.append_assoc] at room
    obtain ⟨between, first, room⟩ := writeAsset_carries before (inside _ List.mem_cons_self) room
    obtain ⟨tree, others, admits⟩ :=
      ih { before with tree := between }
        (fun other member => inside other (List.mem_cons_of_mem _ member)) room
    exact ⟨tree, yields_forM_cons.mpr ⟨_, first, others⟩, admits⟩

theorem staticRootInUse_of_not_hot {before : Compiler} (notHot : before.program.hot = false) :
    staticRootInUse setup before = setup.staticRoot := by
  simp only [staticRootInUse, notHot, Bool.false_eq_true, if_false]

theorem writeStyleSheet_carries (before : Compiler) {language : String} (tokens : Style.Tokens)
    {rest : List DiskJob} (listed : language ∈ Stock.styleLanguages)
    (notHot : before.program.hot = false)
    (room : before.tree.Admits (styleSheetJobs setup.staticRoot language ++ rest)) :
    ∃ tree, (writeStyleSheet setup language tokens).Yields before () { before with tree := tree } ∧
      tree.Admits rest := by
  obtain ⟨text, rendered⟩ := Stock.exists_render_styleSheet setup.installed listed tokens
  obtain ⟨⟨⟩, between, made, room⟩ :=
    onDisk_yields before (Disk.carries_makeDirectories setup.staticRoot) room
  obtain ⟨⟨⟩, tree, written, admits⟩ := onDisk_yields { before with tree := between }
    (Disk.carries_write (setup.staticRoot.joinText ("styles." ++ language)) text.toUTF8) room
  refine ⟨tree, yields_writeStyleSheet.mpr ?_, admits⟩
  rw [staticRootInUse_of_not_hot notHot]
  exact ⟨_, made, text, rendered, written⟩

/-- Assets with names that stay inside the package are written if there is room for them. -/
theorem writeAssets_carries (before : Compiler) {rest : List DiskJob}
    (inside : ∀ entry ∈ before.output.assets.entries, isInside entry.1 = true)
    (notHot : before.program.hot = false)
    (room : before.tree.Admits (staticJobs setup before.output ++ rest)) :
    ∃ tree, (writeAssets setup).Yields before ()
        { before with tree := tree, output := before.output.styled setup.target } ∧
      tree.Admits rest := by
  unfold staticJobs at room
  cases target : setup.target with
  | web =>
    simp only [target, Stock.styleLanguages, List.flatMap_cons, List.flatMap_nil,
      List.append_nil, List.append_assoc] at room
    obtain ⟨copied, assets, room⟩ := writeAssets_forM_carries before inside room
    let styled : Compiler := { before with tree := copied, output := before.output.styled .web }
    obtain ⟨half, css, room⟩ := writeStyleSheet_carries styled
      (Style.tokens before.output).1 (by decide) notHot room
    obtain ⟨tree, scss, admits⟩ := writeStyleSheet_carries { styled with tree := half }
      (Style.tokens before.output).1 (by decide) notHot room
    refine ⟨tree, (yields_writeAssets_web target).mpr ?_, admits⟩
    rw [staticRootInUse_of_not_hot notHot]
    exact ⟨_, assets, _, css, scss⟩
  | ios =>
    simp only [target] at room
    obtain ⟨⟨⟩, made, first, room⟩ :=
      onDisk_yields before (Disk.carries_makeDirectories setup.staticRoot) room
    obtain ⟨tree, assets, admits⟩ :=
      writeAssets_forM_carries { before with tree := made } inside room
    refine ⟨tree, (yields_writeAssets_ios target).mpr ⟨_, first, ?_⟩, admits⟩
    have sameRoot : staticRootInUse setup { before with tree := made } = setup.staticRoot :=
      staticRootInUse_of_not_hot notHot
    rw [sameRoot]
    exact assets

/-! ## The data of the skeleton -/

/-- The files that every package begins with. -/
def runtimeFiles (setup : Setup) : List Path :=
  match setup.target with
  | .web => [setup.runtime, setup.runtimeDeclarations]
  | .ios => [setup.runtime]

/-- The files that the bindings of components contribute. -/
def boundFiles (components : OrderedMap String Component) : List Path :=
  components.entries.flatMap fun entry =>
    (entry.2.binding.getD {}).sources ++ (entry.2.binding.getD {}).declarations

/-- A source that can be read. -/
def IsReadable (tree : FileTree) (source : Source) : Prop :=
  ∃ text, readSource tree source = .ok text

theorem exists_encode_urlValue (url : Option String) :
    ∃ s, Template.Script.encode (urlValue url) = .ok s := by
  cases url with
  | none => exact ⟨_, rfl⟩
  | some s => exact ⟨_, rfl⟩

/-- The data are gathered from files that can be read, and are what the skeleton asks for. -/
theorem exists_packageData (before : Compiler)
    (suited : ∀ d ∈ before.output.dependencies.items,
      ∃ value, dependencyValue setup.target d = .ok value)
    (sources : ∀ source ∈ before.output.sources.items, IsReadable before.tree source)
    (declarations : setup.target = .web →
      ∀ source ∈ before.output.declarations.items, IsReadable before.tree source) :
    ∃ data, (packageData setup).Yields before data before ∧
      Template.DataFit (Stock.packageKinds setup.target) data ∧ data.lookup "self" = none := by
  obtain ⟨contents, read⟩ := Answers.exists_mapM_eq_ok sources
  obtain ⟨values, entered⟩ := Answers.exists_mapM_eq_ok suited
  obtain ⟨encoded, encodes⟩ := exists_encode_urlValue before.hotUrl
  have fitTexts : ∀ items, (Template.Kind.list .defined).Holds (.value (texts items)) :=
    fun items => Stock.holds_list items fun _ => rfl
  have fitValues : (Template.Kind.list .defined).Holds (.value (.list values)) := by
    rw [← List.map_id values]
    exact Stock.holds_list values fun _ => rfl
  cases target : setup.target with
  | web =>
    obtain ⟨declared, readDeclared⟩ := Answers.exists_mapM_eq_ok (declarations target)
    refine ⟨webData setup before values contents declared,
      (yields_packageData_web target).mpr
        ⟨values, contents, declared, target ▸ entered, read, readDeclared, rfl, rfl⟩, ?_, rfl⟩
    simp only [Template.DataFit, Stock.packageKinds, List.forall_mem_cons, List.not_mem_nil,
      false_implies, implies_true, and_true]
    exact ⟨⟨_, rfl, rfl⟩, ⟨_, rfl, rfl⟩, ⟨_, rfl, fitValues⟩, ⟨_, rfl, fitTexts _⟩,
      ⟨_, rfl, fitTexts _⟩, ⟨_, rfl, fitTexts _⟩, ⟨_, rfl, _, _, rfl, encodes⟩⟩
  | ios =>
    refine ⟨iosData setup before values contents,
      (yields_packageData_ios target).mpr
        ⟨values, contents, target ▸ entered, read, rfl, rfl⟩, ?_, rfl⟩
    simp only [Template.DataFit, Stock.packageKinds, List.forall_mem_cons, List.not_mem_nil,
      false_implies, implies_true, and_true]
    exact ⟨⟨_, rfl, rfl⟩, ⟨_, rfl, fitValues⟩, ⟨_, rfl, rfl⟩⟩

/-! ## The package -/

/-- What a package asks for, its program not being served hot. -/
def packageJobs (setup : Setup) (output : Output) : List DiskJob :=
  staticJobs setup output ++
    ((runtimeFiles setup ++ boundFiles output.components).map .read ++
      (.directories setup.sdkRoot ::
        (Stock.skeleton setup.installed setup.target).flatMap (Template.Piece.jobs setup.sdkRoot)))

/-- The file sources of a contribution are those of its binding. -/
theorem isReadable_of_contribution {tree : FileTree} {types : List String}
    {entry : String × Component} {part : Contribution}
    (contributed : contribution setup types entry = .ok part)
    (bound : ∀ path ∈ (entry.2.binding.getD {}).sources ++ (entry.2.binding.getD {}).declarations,
      ∃ text, readFile tree path = .ok text) :
    ∀ source ∈ part.sources ++ part.declarations, IsReadable tree source := by
  obtain ⟨type, component⟩ := entry
  obtain ⟨text, declarations, -, declared, rfl⟩ := contribution_eq_ok_iff.mp contributed
  simp only [List.forall_mem_append, List.forall_mem_cons, List.forall_mem_map] at bound ⊢
  refine ⟨⟨⟨_, rfl⟩, bound.1⟩, ?_⟩
  unfold declarationsOf at declared
  cases target : setup.target with
  | ios =>
    simp only [target, Except.ok.injEq] at declared
    simp [← declared]
  | web =>
    simp only [target] at declared
    split_ifs at declared
    · obtain ⟨generated, -, ⟨⟩⟩ := Answers.bind_eq_ok_iff.mp declared
      intro source listed
      obtain rfl := List.mem_singleton.mp listed
      exact ⟨_, rfl⟩
    · cases declared
      exact List.forall_mem_map.mpr bound.2

/-- Every component has a contribution: its class and its declarations render. -/
theorem exists_contribution (setup : Setup) (types : List String) (entry : String × Component) :
    ∃ part, contribution setup types entry = .ok part := by
  obtain ⟨type, component⟩ := entry
  obtain ⟨text, rendered⟩ := Stock.exists_render_class setup.installed setup.target
    (classSpec setup types component) (component.spec.isPublic || types.contains type)
  obtain ⟨generated, declared⟩ :=
    Stock.exists_render_declaration setup.installed (classSpec setup types component)
  have declarations : ∃ declarations, declarationsOf setup (classSpec setup types component)
      (component.binding.getD {}).declarations = .ok declarations := by
    unfold declarationsOf
    cases setup.target with
    | ios => exact ⟨_, rfl⟩
    | web =>
      by_cases none : (component.binding.getD {}).declarations.isEmpty = true
      · exact ⟨_, (if_pos none).trans (Answers.bind_eq_ok_iff.mpr ⟨generated, declared, rfl⟩)⟩
      · exact ⟨_, if_neg none⟩
  obtain ⟨declarations, listed⟩ := declarations
  exact ⟨_, contribution_eq_ok_iff.mpr ⟨text, declarations, rendered, listed, rfl⟩⟩

/-- Whatever has been rendered, a package is written if there is room for it. -/
theorem exists_writePackage (running : before.isRunning = true)
    (notHot : before.program.hot = false)
    (lists_eq : listsOf before.output = listsOf (setup.target.seed setup.installed))
    (distinct : before.output.components.keys.Nodup)
    (suited : ∀ d ∈ dependenciesOf before.output.components,
      ∃ value, dependencyValue setup.target d = .ok value)
    (inside : ∀ entry ∈ before.output.assets.entries, isInside entry.1 = true)
    (room : before.tree.Admits (packageJobs setup before.output)) :
    ∃ package after, (writePackage setup).Yields before package after ∧
      after.warnings = before.warnings := by
  obtain ⟨parts, contributions⟩ := Answers.exists_mapM_eq_ok fun entry _ =>
    exists_contribution setup (singletons before.output.components) entry
  let ready : Compiler := { before with output := assembled setup false parts before.output }
  obtain ⟨tree, stored, room⟩ := writeAssets_carries ready inside notHot room
  obtain ⟨readable, room⟩ := FileTree.admits_reads.mp room
  obtain ⟨runtime, bound⟩ := List.forall_mem_append.mp readable
  let filled : Compiler :=
    { ready with tree := tree, output := ready.output.styled setup.target }
  have fromPart : ∀ part ∈ parts, ∀ source ∈ part.sources ++ part.declarations,
      IsReadable tree source := by
    intro part listed
    obtain ⟨entry, member, contributed⟩ :=
      Answers.exists_item (Answers.mapM_eq_ok_iff.mp contributions) listed
    exact isReadable_of_contribution contributed fun path file =>
      bound path (List.mem_flatMap.mpr ⟨entry, member, file⟩)
  have dependencies : ∀ d ∈ filled.output.dependencies.items,
      ∃ value, dependencyValue setup.target d = .ok value := by
    intro d listed
    rw [Output.dependencies_styled, dependencies_assembled, dependencies_of_begun lists_eq,
      dependencies_of_contributions contributions] at listed
    exact suited d (List.mem_of_find?_eq_some ((Dependency.items_mergeAll _).2 d listed))
  have sources : ∀ source ∈ filled.output.sources.items, IsReadable tree source := by
    intro source listed
    rw [sources_of_begun lists_eq, List.mem_eraseDups, addedSources, if_neg Bool.false_ne_true,
      List.append_nil, List.mem_cons] at listed
    rcases listed with rfl | listed
    · exact runtime _ (by unfold runtimeFiles; split <;> simp)
    · obtain ⟨part, member, own⟩ := List.mem_flatMap.mp listed
      exact fromPart part member source (List.mem_append_left _ own)
  have declarations : setup.target = .web →
      ∀ source ∈ filled.output.declarations.items, IsReadable tree source := by
    intro web source listed
    rw [declarations_of_begun lists_eq web, List.mem_eraseDups, addedDeclarations,
      List.mem_cons] at listed
    rcases listed with rfl | listed
    · exact runtime _ (by simp [runtimeFiles, web])
    · obtain ⟨part, member, own⟩ := List.mem_flatMap.mp listed
      exact fromPart part member source (List.mem_append_right _ own)
  obtain ⟨data, gathered, fit, notSelf⟩ :=
    exists_packageData filled dependencies sources declarations
  rw [← List.append_nil (DiskJob.directories setup.sdkRoot :: _)] at room
  obtain ⟨files, final, written, -⟩ := onDisk_yields filled
    (Template.carries_fillAll
      (fun piece listed => Stock.isFillable_of_mem_skeleton setup.installed listed) fit notSelf
      setup.sdkRoot) room
  refine ⟨⟨files, data⟩, _, (writePackage_yields distinct).mpr
    ⟨fun _ => running, parts, filled, contributions, ?_, gathered, written⟩, rfl⟩
  rw [notHot]
  exact stored

end Compilation

end DesignGraph
