import DesignGraph.Proofs.Compile.Assets
import DesignGraph.Proofs.Compile.Completion
import DesignGraph.Proofs.Compile.Containment
import DesignGraph.Proofs.Style.Sheet

/-!
# What becomes of the assets of a package

A run stores the assets one after the other, and the style sheets and the files of the skeleton
after them. So the file of an asset is kept if nothing else is stored in its place after it. Here is
the log of a run, and the exact condition under which every reached file and drawing is in the
package at the end of it.
-/

namespace DesignGraph

/-- The bytes of an asset, as the tree is. -/
def Asset.contentIn (tree : FileTree) : Asset → Except FileTree.Refusal ByteArray
  | .copyOf path => tree.read (Path.ofString path)
  | .bytes content => .ok content
  | .text s => .ok s.toUTF8

/-- What is generated is a text. -/
def AreTexts (log : List Stored) : Prop :=
  ∀ stored ∈ log, ∃ text, stored.content = String.toUTF8 text

namespace Template

variable {before after : FileTree} {data : List (String × Value)} {destination : Path}

/-- Where a template of a skeleton with a plain name is filled in. -/
def Piece.target (destination : Path) (piece : Piece) : Path :=
  (destination.joinText piece.name).withoutSuffix

/-- A file of a stock skeleton is stored as the text that it renders to. -/
theorem stores_of_fill {known : Kinds} {piece : Piece} {path : Path}
    (fillable : Stock.IsFillable known piece) (notSelf : data.lookup "self" = none)
    (ran : (piece.fill destination data).run.run before = (.ok path, after)) :
    path = piece.target destination ∧ ∃ place text,
      renderAt piece.origin piece.text data = .ok text ∧
      before.Stores [⟨path, place, String.toUTF8 text⟩] after := by
  obtain ⟨source, sourced, -⟩ := fillable.safe
  have read : piece.source = pure source := by
    unfold Piece.source
    rw [sourced]
  simp only [Piece.fill, fillable.isTemplate, if_true, read, pure_bind,
    Stock.renderText_of_isPlainName fillable.isPlain notSelf] at ran
  obtain ⟨name, _, named, making⟩ := Disk.exists_of_run_bind ran
  obtain ⟨⟨⟩, _, made, rendering⟩ := Disk.exists_of_run_bind making
  obtain ⟨content, _, rendered, writing⟩ := Disk.exists_of_run_bind rendering
  obtain ⟨⟨⟩, _, written, answering⟩ := Disk.exists_of_run_bind writing
  cases answering
  obtain ⟨same, rfl⟩ := Disk.of_run_ofExcept named
  obtain ⟨content_eq, rfl⟩ := Disk.of_run_ofExcept rendered
  obtain ⟨place, stores⟩ := FileTree.stores_of_write (Disk.of_run_change written)
  have directories := FileTree.stores_of_makeDirectories (Disk.of_run_makeDirectories made)
  refine ⟨by rw [Piece.target, Except.ok.inj same], place, content, ?_, directories.append stores⟩
  rw [sourced, content_eq]

theorem stores_of_mapM_fill {known : Kinds} {pieces : List Piece} {files : List Path}
    (fillable : ∀ piece ∈ pieces, Stock.IsFillable known piece)
    (notSelf : data.lookup "self" = none)
    (ran : (pieces.mapM fun piece : Piece => piece.fill destination data).run.run before =
      (Except.ok files, after)) :
    files = pieces.map (Piece.target destination) ∧
      ∃ log : List Stored, before.Stores log after ∧ log.map Stored.path = files ∧
        AreTexts log := by
  induction pieces generalizing before files with
  | nil =>
    rw [List.mapM_nil] at ran
    cases ran
    exact ⟨rfl, [], .nil _, rfl, fun stored member => nomatch member⟩
  | cons piece pieces ih =>
    rw [List.mapM_cons] at ran
    obtain ⟨path, _, first, ran⟩ := Disk.exists_of_run_bind ran
    obtain ⟨others, _, rest, ran⟩ := Disk.exists_of_run_bind ran
    cases ran
    obtain ⟨rfl, place, text, -, stores⟩ :=
      stores_of_fill (fillable piece List.mem_cons_self) notSelf first
    obtain ⟨rfl, log, more, paths, texts⟩ :=
      ih (fun other member => fillable other (List.mem_cons_of_mem _ member)) rest
    refine ⟨rfl, _, stores.append more, by simp [paths], ?_⟩
    exact List.forall_mem_append.mpr ⟨by simp, texts⟩

/-- Filling in a stock skeleton stores its files. -/
theorem stores_of_fillAll {known : Kinds} {pieces : List Piece} {files : List Path}
    (fillable : ∀ piece ∈ pieces, Stock.IsFillable known piece)
    (notSelf : data.lookup "self" = none)
    (ran : (fillAll pieces destination data).run.run before = (.ok files, after)) :
    files = pieces.map (Piece.target destination) ∧
      ∃ log : List Stored, before.Stores log after ∧ log.map Stored.path = files ∧
        AreTexts log := by
  obtain ⟨⟨⟩, _, made, filled⟩ := Disk.exists_of_run_bind ran
  obtain ⟨files_eq, log, stores, paths, texts⟩ := stores_of_mapM_fill fillable notSelf filled
  exact ⟨files_eq, log,
    (FileTree.stores_of_makeDirectories (Disk.of_run_makeDirectories made)).append stores, paths,
    texts⟩

end Template

namespace Compilation

variable {setup : Setup} {before after : Compiler} {root : Path}

/-! ## The log of a run -/

/-- What is stored for an asset: a file under its name, with the bytes of the asset as the tree was
at that time. -/
structure StoredFor (tree : FileTree) (log : List Stored) (root : Path) (entry : String × Asset)
    (stored : Stored) : Prop where
  path_eq : stored.path = root.joinText entry.1
  content : ∃ early between, early <+: log ∧ tree.Stores early between ∧
    entry.2.contentIn between = .ok stored.content

theorem StoredFor.later {tree between : FileTree} {early log : List Stored}
    {entry : String × Asset} {stored : Stored} (first : tree.Stores early between)
    (storedFor : StoredFor between log root entry stored) :
    StoredFor tree (early ++ log) root entry stored := by
  obtain ⟨path_eq, before, at_, top, stores, content⟩ := storedFor
  exact ⟨path_eq, early ++ before, at_, (List.prefix_append_right_inj early).mpr top,
    first.append stores, content⟩

theorem paths_of_storedFor {tree : FileTree} {log files : List Stored}
    {entries : List (String × Asset)}
    (paired : List.Forall₂ (StoredFor tree log root) entries files) :
    files.map Stored.path = entries.map fun entry => root.joinText entry.1 := by
  induction paired with
  | nil => rfl
  | cons first _ ih => rw [List.map_cons, List.map_cons, first.path_eq, ih]

theorem stores_of_writeAsset {name : String} {asset : Asset}
    (written : (writeAsset root name asset).Yields before () after) :
    ∃ stored tree, after = { before with tree := tree } ∧ before.tree.Stores [stored] tree ∧
      StoredFor before.tree [stored] root (name, asset) stored := by
  simp only [writeAsset] at written
  split_ifs at written
  · exact absurd written yields_throw
  obtain ⟨tree, ran, rfl⟩ := yields_onDisk_iff.mp written
  obtain ⟨⟨⟩, between, made, ran⟩ := Disk.exists_of_run_bind ran
  have directories := FileTree.stores_of_makeDirectories (Disk.of_run_makeDirectories made)
  obtain ⟨content, held, copied⟩ : ∃ content, asset.contentIn between = .ok content ∧
      between.write (root.joinText name) content = .ok tree := by
    cases asset with
    | copyOf path => exact FileTree.write_of_copy (Disk.of_run_change ran)
    | bytes content => exact ⟨content, rfl, Disk.of_run_change ran⟩
    | text content => exact ⟨content.toUTF8, rfl, Disk.of_run_change ran⟩
  obtain ⟨place, stores⟩ := FileTree.stores_of_write copied
  exact ⟨_, tree, rfl, directories.append stores, rfl, [], between, List.nil_prefix, directories,
    held⟩

theorem stores_of_writeAssets_forM {entries : List (String × Asset)}
    (written : (entries.forM fun (name, asset) => writeAsset root name asset).Yields before ⟨⟩
      after) :
    ∃ log tree, after = { before with tree := tree } ∧ before.tree.Stores log tree ∧
      List.Forall₂ (StoredFor before.tree log root) entries log := by
  induction entries generalizing before with
  | nil =>
    obtain rfl := yields_forM_nil.mp written
    exact ⟨[], _, rfl, .nil _, .nil⟩
  | cons entry entries ih =>
    obtain ⟨between, first, others⟩ := yields_forM_cons.mp written
    obtain ⟨stored, tree, rfl, stores, storedFor⟩ := stores_of_writeAsset first
    obtain ⟨log, last, rfl, more, paired⟩ := ih others
    refine ⟨stored :: log, last, rfl, stores.append more, .cons ?_ ?_⟩
    · obtain ⟨path_eq, early, at_, top, earlier, content⟩ := storedFor
      exact ⟨path_eq, early, at_, top.trans (List.prefix_append [stored] log), earlier, content⟩
    · exact paired.imp fun _ _ => StoredFor.later stores

theorem stores_of_writeStyleSheet {language : String} (listed : language ∈ Stock.styleLanguages)
    {tokens : Style.Tokens}
    (written : (writeStyleSheet setup language tokens).Yields before () after) :
    ∃ place tree, after = { before with tree := tree } ∧ before.tree.Stores
      [⟨(staticRootInUse setup before).joinText ("styles." ++ language), place,
        String.toUTF8 (tokens.sheet language)⟩] tree := by
  obtain ⟨_, made, text, rendered, written⟩ := yields_writeStyleSheet.mp written
  rw [Style.render_sheet setup.installed listed] at rendered
  obtain rfl := Except.ok.inj rendered
  obtain ⟨between, ran, rfl⟩ := yields_onDisk_iff.mp made
  obtain ⟨tree, ranToo, rfl⟩ := yields_onDisk_iff.mp written
  obtain ⟨place, stores⟩ := FileTree.stores_of_write (Disk.of_run_change ranToo)
  have directories := FileTree.stores_of_makeDirectories (Disk.of_run_makeDirectories ran)
  exact ⟨place, tree, rfl, directories.append stores⟩

/-- The paths of the style sheets. -/
def sheetPaths (target : Target) (root : Path) : List Path :=
  match target with
  | .web => [root.joinText "styles.css", root.joinText "styles.scss"]
  | .ios => []

/-- The style sheets and what they hold. -/
def sheetFiles (target : Target) (root : Path) (tokens : Style.Tokens) : List (Path × ByteArray) :=
  match target with
  | .web => Stock.styleLanguages.map fun language =>
      (root.joinText ("styles." ++ language), String.toUTF8 (tokens.sheet language))
  | .ios => []

theorem paths_sheetFiles (target : Target) (root : Path) (tokens : Style.Tokens) :
    (sheetFiles target root tokens).map Prod.fst = sheetPaths target root := by
  cases target with
  | web => rfl
  | ios => rfl

theorem areTexts_of_sheetFiles {target : Target} {tokens : Style.Tokens} {sheets : List Stored}
    (contents : sheets.map (fun stored => (stored.path, stored.content)) =
      sheetFiles target root tokens) : AreTexts sheets := by
  intro stored member
  have listed : (stored.path, stored.content) ∈ sheetFiles target root tokens :=
    contents ▸ List.mem_map_of_mem member
  cases target with
  | web =>
    obtain ⟨language, -, same⟩ := List.mem_map.mp listed
    exact ⟨_, (Prod.mk.inj same).2.symm⟩
  | ios => cases listed

/-- What `writeAssets` stores: a file for each asset in their order, and the style sheets. -/
theorem stores_of_writeAssets (written : (writeAssets setup).Yields before () after) :
    ∃ log sheets tree,
      after = { before with tree := tree, output := before.output.styled setup.target } ∧
      before.tree.Stores (log ++ sheets) tree ∧
      List.Forall₂ (StoredFor before.tree log (staticRootInUse setup before))
        before.output.assets.entries log ∧
      sheets.map (fun stored => (stored.path, stored.content)) =
        sheetFiles setup.target (staticRootInUse setup before) (Style.tokens before.output).1 := by
  cases target : setup.target with
  | web =>
    obtain ⟨_, assets, _, first, second⟩ := (yields_writeAssets_web target).mp written
    obtain ⟨log, _, rfl, stores, paired⟩ := stores_of_writeAssets_forM assets
    obtain ⟨place, _, rfl, storesFirst⟩ := stores_of_writeStyleSheet (by decide) first
    obtain ⟨placeToo, tree, rfl, storesSecond⟩ := stores_of_writeStyleSheet (by decide) second
    exact ⟨log, _, tree, rfl, stores.append (storesFirst.append storesSecond), paired, rfl⟩
  | ios =>
    obtain ⟨_, made, assets⟩ := (yields_writeAssets_ios target).mp written
    obtain ⟨between, ran, rfl⟩ := yields_onDisk_iff.mp made
    have directories := FileTree.stores_of_makeDirectories (Disk.of_run_makeDirectories ran)
    obtain ⟨log, tree, rfl, stores, paired⟩ := stores_of_writeAssets_forM assets
    refine ⟨log, [], tree, rfl, ?_, paired.imp fun _ _ => StoredFor.later directories, rfl⟩
    rw [List.append_nil]
    exact directories.append stores

/-- The data of a package do not name the template itself. -/
theorem lookup_self_of_packageData {data : List (String × Value)}
    (gathered : (packageData setup).Yields before data after) : data.lookup "self" = none := by
  cases target : setup.target with
  | web =>
    obtain ⟨_, _, _, -, -, -, rfl, -⟩ := (yields_packageData_web target).mp gathered
    rfl
  | ios =>
    obtain ⟨_, _, -, -, rfl, -⟩ := (yields_packageData_ios target).mp gathered
    rfl

/-- The paths of the files that are generated, in the order in which they are stored. -/
def generatedPaths (setup : Setup) (root : Path) : List Path :=
  sheetPaths setup.target root ++
    (Stock.skeleton setup.installed setup.target).map (Template.Piece.target setup.sdkRoot)

/-- The tokens that the style sheets of a web package show are its styles. -/
structure Shows (tokens : Style.Tokens) (styles : Styles) : Prop where
  variables_eq : tokens.styleVariables.map (fun v => (v.name, v.value)) =
    styles.styleVariables.entries
  classes_eq : tokens.ruleGroups = styles.ruleGroups.entries
  fonts_eq : tokens.fonts = styles.fonts.values

theorem shows_tokens (output : Output) :
    Shows (Style.tokens output).1 (output.styled .web).styles where
  variables_eq := by
    simp only [Style.tokens, List.map_map, Output.styled]
    exact List.map_id _
  classes_eq := rfl
  fonts_eq := rfl

/-- The log of a run: a file for each asset in their order, the style sheets and the files of the
skeleton. -/
theorem exists_sheets_of_run {program? : Option Program} {result : CompilationResult}
    (ran : (run setup program?).Yields before result after) :
    ∃ log sheets files tokens, before.tree.Stores (log ++ (sheets ++ files)) after.tree ∧
      List.Forall₂ (StoredFor before.tree log (staticRootInUse setup after))
        after.output.assets.entries log ∧
      (setup.target = .web → Shows tokens after.output.styles) ∧
      sheets.map (fun stored => (stored.path, stored.content)) =
        sheetFiles setup.target (staticRootInUse setup after) tokens ∧
      files.map Stored.path = (Stock.skeleton setup.installed setup.target).map
        (Template.Piece.target setup.sdkRoot) ∧
      AreTexts files := by
  obtain ⟨walked, package, last, walking, written, rfl, rfl⟩ := run_yields.mp ran
  obtain ⟨-, tree_eq, -, visits, met⟩ := walkRoots_of_run walking
  obtain ⟨-, parts, filled, -, stored, gathered, filling⟩ :=
    (writePackage_yields met.nodup_keys).mp written
  have notSelf := lookup_self_of_packageData gathered
  obtain ⟨log, sheets, tree, rfl, stores, paired, contents⟩ := stores_of_writeAssets stored
  obtain ⟨final, fills, rfl⟩ := yields_onDisk_iff.mp filling
  obtain ⟨files_eq, files, more, filePaths, fileTexts⟩ := Template.stores_of_fillAll
    (fun piece listed => Stock.isFillable_of_mem_skeleton setup.installed listed) notSelf fills
  rw [tree_eq] at stores paired
  refine ⟨log, sheets, files, _, ?_, ?_, ?_, contents, filePaths.trans files_eq, fileTexts⟩
  · rw [← List.append_assoc]
    exact stores.append more
  · change List.Forall₂ _ (Output.styled setup.target _).assets.entries log
    rw [assets_styled]
    exact paired
  · intro web
    change Shows _ (Output.styled setup.target _).styles
    rw [web]
    exact shows_tokens _

/-- The log of a run, with all that is generated at the end. -/
theorem exists_log_of_run {program? : Option Program} {result : CompilationResult}
    (ran : (run setup program?).Yields before result after) :
    ∃ log generated, before.tree.Stores (log ++ generated) after.tree ∧
      List.Forall₂ (StoredFor before.tree log (staticRootInUse setup after))
        after.output.assets.entries log ∧
      generated.map Stored.path = generatedPaths setup (staticRootInUse setup after) ∧
      AreTexts generated := by
  obtain ⟨log, sheets, files, tokens, stores, paired, -, contents, filePaths, fileTexts⟩ :=
    exists_sheets_of_run ran
  refine ⟨log, sheets ++ files, stores, paired, ?_,
    List.forall_mem_append.mpr ⟨areTexts_of_sheetFiles contents, fileTexts⟩⟩
  rw [generatedPaths, ← paths_sheetFiles _ _ tokens, ← contents, ← filePaths, List.map_append,
    List.map_map]
  rfl

/-! ## What is owed -/

/-- An instance has registered a file of this content under this name. -/
def Owes (around : Surroundings) (inst : Instance) (name : String) (content : ByteArray) : Prop :=
  ∃ asset, Registers around inst name asset ∧ asset.contentIn around.tree = .ok content

theorem Owes.unique {around : Surroundings} {inst : Instance} {name other : String}
    {content new : ByteArray} (first : Owes around inst name content)
    (second : Owes around inst other new) : name = other ∧ content = new := by
  obtain ⟨asset, registers, held⟩ := first
  obtain ⟨again, registersAgain, heldAgain⟩ := second
  obtain ⟨rfl, rfl⟩ := registers.unique registersAgain
  exact ⟨rfl, Except.ok.inj (held.symm.trans heldAgain)⟩

/-- What is registered is there: a copied file can be read. -/
theorem Registers.exists_content {around : Surroundings} {inst : Instance} {name : String}
    {asset : Asset} (registers : Registers around inst name asset)
    (slashless : Path.Slashless (around.tree.absolute around.program.projectRoot)) :
    ∃ content, asset.contentIn around.tree = .ok content := by
  cases registers with
  | copy _ _ located =>
    obtain ⟨-, -, _, -, -, -, isFile⟩ := locate_eq_ok_iff.mp located
    obtain ⟨place, content, found⟩ := FileTree.isFile_iff.mp isFile
    refine ⟨content, ?_⟩
    rw [Asset.contentIn, ofString_toText_of_locate slashless located]
    exact FileTree.read_eq_ok_iff.mpr ⟨place, found⟩
  | page => exact ⟨_, rfl⟩

/-- The bytes of an asset do not change while its source is not overwritten. -/
theorem contentIn_of_untouched {tree between : FileTree} {early : List Stored} {asset : Asset}
    {content : ByteArray} (stores : tree.Stores early between)
    (readable : ∃ content, asset.contentIn tree = .ok content)
    (untouched : ∀ stored ∈ early, ∀ path, asset = .copyOf path →
      tree.place true (Path.ofString path) ≠ .ok stored.place)
    (held : asset.contentIn between = .ok content) : asset.contentIn tree = .ok content := by
  cases asset with
  | bytes | text => exact held
  | copyOf path =>
    obtain ⟨old, before⟩ := readable
    obtain ⟨place, found⟩ := FileTree.read_eq_ok_iff.mp before
    obtain ⟨placed, present⟩ := FileTree.lookup_eq_ok_iff.mp found
    have kept : between.entry? place = some (.file old) := by
      refine (stores.content_iff fun stored member same => ?_).mpr present
      exact untouched stored member path rfl (same ▸ placed)
    have again : between.read (Path.ofString path) = .ok old :=
      FileTree.read_eq_ok_iff.mpr
        ⟨place, FileTree.lookup_eq_ok_iff.mpr ⟨stores.keeps.place_eq placed, kept⟩⟩
    obtain rfl : old = content := Except.ok.inj (again.symm.trans held)
    exact before

/-- A file that the package owes to some instance that the walk has met. -/
def IsOwed (around : Surroundings) (name : String) (content : ByteArray) : Prop :=
  ∃ inst, around.program.Meets inst ∧ Owes around inst name content

/-- In a log in which something owed is stored under each name, and nothing else before what is
generated, everything owed is kept exactly if what leads to one place agrees, the last generated
file there included. -/
theorem kept_iff_agree {tree last : FileTree} {log generated : List Stored}
    {owed : String → ByteArray → Prop} (stores : tree.Stores (log ++ generated) last)
    (isOwed : ∀ stored ∈ log, ∃ name, stored.path = root.joinText name ∧ owed name stored.content)
    (isStored : ∀ name content, owed name content →
      ∃ stored ∈ log, stored.path = root.joinText name) :
    (∀ name content, owed name content → last.read (root.joinText name) = .ok content) ↔
      (∀ name other content new, owed name content → owed other new →
        last.place true (root.joinText name) = last.place true (root.joinText other) →
        content = new) ∧
      ∀ name content place newer, owed name content →
        last.place true (root.joinText name) = .ok place →
        (FileTree.lastStored generated).get? place = some newer → content = newer := by
  have leads : ∀ stored ∈ log, last.place true stored.path = .ok stored.place :=
    fun stored member => stores.place_eq (List.mem_append_left _ member)
  constructor
  · intro kept
    have holds : ∀ {name content place}, owed name content →
        last.place true (root.joinText name) = .ok place →
        last.entry? place = some (.file content) := by
      intro name content place owes placed
      obtain ⟨found, there⟩ := FileTree.read_eq_ok_iff.mp (kept name content owes)
      obtain ⟨placedToo, present⟩ := FileTree.lookup_eq_ok_iff.mp there
      obtain rfl : found = place := Except.ok.inj (placedToo.symm.trans placed)
      exact present
    constructor
    · intro name other content new first second same
      obtain ⟨stored, member, path_eq⟩ := isStored name content first
      have placed := path_eq ▸ leads stored member
      have there := (holds first placed).symm.trans (holds second (same ▸ placed))
      cases there
      rfl
    · intro name content place newer owes placed found
      have replaced : last.entry? place = some (.file newer) :=
        stores.content_eq (by rw [FileTree.lastStored_append, found, Option.some_or])
      cases (holds owes placed).symm.trans replaced
      rfl
  · rintro ⟨agree, agreeLast⟩ name content owes
    obtain ⟨stored, member, path_eq⟩ := isStored name content owes
    have placed : last.place true (root.joinText name) = .ok stored.place :=
      path_eq ▸ leads stored member
    refine FileTree.read_eq_ok_iff.mpr ⟨stored.place, FileTree.lookup_eq_ok_iff.mpr
      ⟨placed, stores.content_eq ?_⟩⟩
    rw [FileTree.lastStored_append]
    cases later : (FileTree.lastStored generated).get? stored.place with
    | some newer => rw [agreeLast name content _ newer owes placed later, Option.some_or]
    | none =>
      obtain ⟨final, found⟩ := FileTree.exists_lastStored member
      obtain ⟨writer, listed, place_eq, rfl⟩ := FileTree.mem_of_lastStored found
      obtain ⟨other, otherPath, owesOther⟩ := isOwed writer listed
      have same : last.place true (root.joinText name) = last.place true (root.joinText other) := by
        rw [placed, ← otherPath, leads writer listed, place_eq]
      rw [Option.none_or, found, agree name other content _ owes owesOther same]

/-- Whether no asset is stored where a file lies that another is copied from. -/
def LeavesSources (around : Surroundings) (stored : List Stored) : Prop :=
  ∀ file ∈ stored, ∀ inst name path, around.program.Meets inst →
    Registers around inst name (.copyOf path) →
    around.tree.place true (Path.ofString path) ≠ .ok file.place

/-- What is stored for a registered asset is owed to its instance. -/
theorem StoredFor.isOwed {around : Surroundings} {stored : List Stored}
    {entry : String × Asset} {file : Stored} {inst : Instance}
    (storedFor : StoredFor around.tree stored root entry file)
    (slashless : Path.Slashless (around.tree.absolute around.program.projectRoot))
    (leaves : LeavesSources around stored) (met : around.program.Meets inst)
    (registers : Registers around inst entry.1 entry.2) : IsOwed around entry.1 file.content := by
  obtain ⟨-, early, between, top, stores, held⟩ := storedFor
  refine ⟨inst, met, entry.2, registers, ?_⟩
  refine contentIn_of_untouched stores (registers.exists_content slashless) ?_ held
  intro other member path copied
  exact leaves other (top.subset member) inst entry.1 path met (copied ▸ registers)

/-- No asset is lost unless something else is stored in its place. In a successful run with the
bindings of the library every file and drawing that the walk meets is owed under its name if it has
a source. The run stores a file for each asset, then the style sheets and the files of the skeleton.
If none is stored where a file lies that is copied, all that is owed is in the static root at the
end exactly if what leads to one place there agrees: the owed files among each other, and with the
last that is generated at their place. -/
theorem reached_assets_are_kept_iff {program? : Option Program} {result : CompilationResult}
    (shipped : setup.bindings = setup.target.bindings setup.installed)
    (ran : (run setup program?).Yields before result after)
    (slashless : Path.Slashless (before.tree.absolute after.program.projectRoot)) :
    let around := setup.aroundRun before after.program
    let root := staticRootInUse setup after
    (∀ inst source, after.program.Meets inst →
      (after.program.graph.componentName inst = "File" ∨
        after.program.graph.componentName inst = "SVG") →
      inst.values.get? "src" = some (.text source) → source ≠ "" → ∃ content, Owes around inst
        (assetName setup.target (after.program.graph.componentName inst) source) content) ∧
    ∃ stored generated, before.tree.Stores (stored ++ generated) after.tree ∧
      (∀ name, name ∈ after.output.assets.keys ↔ ∃ content, IsOwed around name content) ∧
      stored.map Stored.path = after.output.assets.keys.map root.joinText ∧
      generated.map Stored.path = generatedPaths setup root ∧ AreTexts generated ∧
      (LeavesSources around stored →
        ((∀ name content, IsOwed around name content →
            after.tree.read (root.joinText name) = .ok content) ↔
          (∀ name other content new, IsOwed around name content → IsOwed around other new →
            after.tree.place true (root.joinText name) =
              after.tree.place true (root.joinText other) → content = new) ∧
          ∀ name content place newer, IsOwed around name content →
            after.tree.place true (root.joinText name) = .ok place →
            (FileTree.lastStored generated).get? place = some newer → content = newer)) := by
  intro around root
  obtain ⟨stored, generated, stores, paired, paths, texts⟩ := exists_log_of_run ran
  obtain ⟨done, effects, add⟩ := exists_added_of_run ran
  have registered : ∀ entry ∈ after.output.assets.entries,
      ∃ inst, after.program.Meets inst ∧ Registers around inst entry.1 entry.2 := by
    intro entry listed
    rw [add.assets_eq] at listed
    exact (add.asset_mem_iff shipped rfl).mp (OrderedMap.mem_of_mem_entries_ofList listed)
  have isKey : ∀ {inst name asset}, after.program.Meets inst → Registers around inst name asset →
      name ∈ after.output.assets.keys := by
    intro inst name asset met registers
    have listed := (add.asset_mem_iff shipped rfl).mpr ⟨inst, met, registers⟩
    rw [OrderedMap.mem_keys, add.assets_eq]
    exact OrderedMap.isSome_get?_ofList.mpr ⟨asset, listed⟩
  refine ⟨?_, stored, generated, stores, fun name => ⟨?_, ?_⟩, ?_, paths, texts, fun leaves => ?_⟩
  · intro inst source met isFile value notBlank
    obtain ⟨asset, registers⟩ := add.exists_registers shipped rfl met isFile value notBlank
    obtain ⟨content, held⟩ := registers.exists_content slashless
    exact ⟨content, asset, registers, held⟩
  · intro listed
    obtain ⟨entry, member, rfl⟩ := List.mem_map.mp listed
    obtain ⟨inst, met, registers⟩ := registered entry member
    obtain ⟨content, held⟩ := registers.exists_content slashless
    exact ⟨content, inst, met, entry.2, registers, held⟩
  · rintro ⟨content, inst, met, asset, registers, -⟩
    exact isKey met registers
  · rw [OrderedMap.keys, List.map_map, paths_of_storedFor paired]
    rfl
  · refine kept_iff_agree stores ?_ ?_
    · intro file member
      obtain ⟨entry, listed, storedFor⟩ := Answers.exists_item paired member
      obtain ⟨inst, met, registers⟩ := registered entry listed
      exact ⟨entry.1, storedFor.path_eq, storedFor.isOwed slashless leaves met registers⟩
    · rintro name content ⟨inst, met, asset, registers, -⟩
      obtain ⟨entry, member, rfl⟩ := List.mem_map.mp (isKey met registers)
      obtain ⟨file, isStored, storedFor⟩ := Answers.exists_answer paired member
      exact ⟨file, isStored, storedFor.path_eq⟩

/-- No text is encoded as a byte that begins nothing. -/
theorem toUTF8_ne (text : String) : text.toUTF8 ≠ ⟨#[0xFF]⟩ := by
  intro same
  have valid : (⟨#[0xFF]⟩ : ByteArray).IsValidUTF8 := same ▸ text.isValidUTF8
  rw [← ByteArray.isSome_utf8Decode?_iff] at valid
  revert valid
  decide +kernel

/-! A page with a file of the given name, which holds the given bytes. -/

namespace Filed

def page : Instance := ⟨"home", "Page", ⟨[("doc", .text "sheet")]⟩⟩

def file (source : String) : Instance := ⟨"sheet", "File", ⟨[("src", .text source)]⟩⟩

def program (source : String) : Program where
  projectName := "Site"
  projectRoot := ⟨"/", ["site"]⟩
  graph := {
    types := Prefab.types.insert "Page" ⟨"Page", [⟨"doc", "File", 0⟩]⟩
    instances := ⟨[("home", page), ("sheet", file source)]⟩ }
  roots := ⟨[("Page", "home")]⟩

def webSetup (source : String) : Setup :=
  .ofProgram .web ⟨"/", []⟩ (Target.bindings ⟨"/", []⟩ .web) (.ok "localhost") (program source)

def files (source : String) (byte : UInt8) : FileTree where
  entries := ⟨[
    (["web"], .directory), (["web", "core"], .directory), (["web", "bindings"], .directory),
    (["web", "core", "Tessera.js"], .file ⟨#[]⟩), (["web", "core", "Tessera.d.ts"], .file ⟨#[]⟩),
    (["web", "bindings", "File.js"], .file ⟨#[]⟩),
    (["web", "bindings", "File.d.ts"], .file ⟨#[]⟩),
    (["site"], .directory), (["site", source], .file ⟨#[byte]⟩),
    (["site", "build"], .directory), (["site", "build", "tessera-Site-web"], .directory),
    (["site", "build", "tessera-Site-web", "static"], .directory)]⟩

def compiler (source : String) (byte : UInt8) : Compiler :=
  (webSetup source).compiler (program source) (files source byte)

def static (name : String) : List String := ["site", "build", "tessera-Site-web", "static", name]

theorem meets_file (source : String) : (program source).Meets (file source) := by
  have met : (program source).Meets page := ⟨page, List.mem_singleton_self _, .refl⟩
  have refers : (program source).graph.RefersAt page ⟨"doc", "File", 0⟩ (.text "sheet") :=
    ⟨rfl, _, rfl, List.mem_cons_self, _, rfl, .here _⟩
  exact met.inner refers rfl

theorem eq_of_meets {source : String} {inst : Instance} (met : (program source).Meets inst) :
    inst = page ∨ inst = file source :=
  met.eq_or_eq rfl rfl rfl

/-- What is owed is the one file. -/
theorem eq_of_isOwed {source : String} {byte : UInt8} (given : source ≠ "")
    (isFile : IsProjectFile (files source byte) (program source).projectRoot source)
    (read : (files source byte).read (Path.ofString
      (projectFile (files source byte) (program source).projectRoot source).toText) =
        .ok ⟨#[byte]⟩) :
    ∀ name content, IsOwed ((webSetup source).aroundRun (compiler source byte) (program source))
      name content ↔ name = source ∧ content = ⟨#[byte]⟩ := by
  have owes : Owes ((webSetup source).aroundRun (compiler source byte) (program source))
      (file source) source ⟨#[byte]⟩ :=
    ⟨_, .copy (.inl rfl) (sourceOf?_eq_some_iff.mpr ⟨rfl, given⟩) isFile.locate_eq, read⟩
  intro name content
  constructor
  · rintro ⟨inst, met, owed⟩
    rcases eq_of_meets met with rfl | rfl
    · obtain ⟨asset, registers, -⟩ := owed
      rcases registers.source.1 with isFile | isDrawing
      · exact absurd (show "Page" = "File" from isFile) (by decide)
      · exact absurd (show "Page" = "SVG" from isDrawing) (by decide)
    · exact owed.unique owes
  · rintro ⟨rfl, rfl⟩
    exact ⟨_, meets_file name, owes⟩

end Filed

/-- A file of a plain name is in the static root at the end. -/
theorem logo_of_site_is_kept :
    let setup := Filed.webSetup "logo.svg"
    let before := Filed.compiler "logo.svg" 0x58
    setup.bindings = setup.target.bindings setup.installed ∧
    ∃ result after, (run setup none).Yields before result after ∧
      after.program.Meets (Filed.file "logo.svg") ∧
      after.tree.read (setup.staticRoot.joinText "logo.svg") = .ok ⟨#[0x58]⟩ := by
  intro setup before
  obtain ⟨result, after, ran, program_eq, -⟩ := exists_run_of_takes
    (show setup.bindings = _ from rfl) (show before.program.hot = false from rfl)
    (by decide +kernel) (by decide +kernel) (by decide +kernel)
  have root_eq : staticRootInUse setup after = setup.staticRoot :=
    staticRootInUse_of_not_hot (by rw [program_eq]; rfl)
  have slashless : Path.Slashless (before.tree.absolute after.program.projectRoot) := by
    rw [program_eq]
    unfold Path.Slashless
    decide +kernel
  have isFile : IsProjectFile before.tree before.program.projectRoot "logo.svg" := by
    constructor <;> decide +kernel
  have read : before.tree.read (Path.ofString
      (projectFile before.tree before.program.projectRoot "logo.svg").toText) =
        .ok ⟨#[0x58]⟩ :=
    FileTree.read_eq_ok_iff.mpr ⟨["site", "logo.svg"], FileTree.lookup_eq_ok_iff.mpr
      ⟨by decide +kernel, rfl⟩⟩
  have owed := Filed.eq_of_isOwed (by decide) isFile read
  have static : before.tree.place true (setup.staticRoot.joinText "logo.svg") =
      .ok (Filed.static "logo.svg") := by decide +kernel
  obtain ⟨-, stored, generated, stores, keys, paths, generatedAre, -, kept⟩ :=
    reached_assets_are_kept_iff rfl ran slashless
  rw [program_eq] at keys
  rw [root_eq, program_eq] at kept
  refine ⟨rfl, result, after, ran, program_eq ▸ Filed.meets_file "logo.svg", ?_⟩
  refine (kept ?_).mpr ⟨?_, ?_⟩ "logo.svg" ⟨#[0x58]⟩ ((owed _ _).mpr ⟨rfl, rfl⟩)
  · intro file member inst name path met registers same
    obtain ⟨content, held⟩ := registers.exists_content (program_eq ▸ slashless)
    obtain ⟨rfl, -⟩ := (owed _ _).mp ⟨inst, met, _, registers, held⟩
    obtain ⟨located, relocated, copied⟩ := registers.copy_of_name rfl
    have located_eq : projectFile before.tree before.program.projectRoot "logo.svg" = located :=
      Except.ok.inj (isFile.locate_eq.symm.trans relocated)
    have listed : file.path ∈ after.output.assets.keys.map setup.staticRoot.joinText :=
      root_eq ▸ paths ▸ List.mem_map_of_mem member
    obtain ⟨key, isKey, path_eq⟩ := List.mem_map.mp listed
    obtain ⟨content, owes⟩ := (keys key).mp isKey
    obtain ⟨rfl, -⟩ := (owed _ _).mp owes
    have fromHere : before.tree.place true (Path.ofString path) = .ok ["site", "logo.svg"] := by
      rw [Asset.copyOf.inj copied, ← located_eq]
      decide +kernel
    have isThere := stores.eq_of_place (List.mem_append_left generated member) (path_eq ▸ static)
    rw [isThere] at same
    exact absurd (Except.ok.inj (fromHere.symm.trans same)) (by decide)
  · intro name other content new first second _
    rw [((owed _ _).mp first).2, ((owed _ _).mp second).2]
  · intro name content place newer owes placed found
    obtain ⟨rfl, -⟩ := (owed _ _).mp owes
    rw [stores.keeps.place_eq static] at placed
    cases placed
    obtain ⟨file, member, isThere, -⟩ := FileTree.mem_of_lastStored found
    have elsewhere : ∀ path ∈ generatedPaths setup setup.staticRoot,
        ((before.tree.place true path).toOption.any (· != Filed.static "logo.svg")) = true :=
      List.all_eq_true.mp (by decide +kernel)
    have listed : file.path ∈ generatedPaths setup setup.staticRoot :=
      root_eq ▸ generatedAre ▸ List.mem_map_of_mem member
    have apart := elsewhere _ listed
    cases before_eq : before.tree.place true file.path with
    | error refusal => simp [before_eq, Except.toOption] at apart
    | ok place =>
      have place_eq := stores.eq_of_place (List.mem_append_right stored member) before_eq
      rw [before_eq, ← place_eq, isThere] at apart
      simp [Except.toOption] at apart

/-- A file that is called like the style sheet is replaced by it. -/
theorem styles_of_site_are_replaced :
    let setup := Filed.webSetup "styles.css"
    let before := Filed.compiler "styles.css" 0xFF
    setup.bindings = setup.target.bindings setup.installed ∧
    ∃ result after, (run setup none).Yields before result after ∧
      after.program.Meets (Filed.file "styles.css") ∧
      Owes (setup.aroundRun before after.program) (Filed.file "styles.css") "styles.css"
        ⟨#[0xFF]⟩ ∧
      after.tree.read (setup.staticRoot.joinText "styles.css") ≠ .ok ⟨#[0xFF]⟩ := by
  intro setup before
  obtain ⟨result, after, ran, program_eq, -⟩ := exists_run_of_takes
    (show setup.bindings = _ from rfl) (show before.program.hot = false from rfl)
    (by decide +kernel) (by decide +kernel) (by decide +kernel)
  have root_eq : staticRootInUse setup after = setup.staticRoot :=
    staticRootInUse_of_not_hot (by rw [program_eq]; rfl)
  have isFile : IsProjectFile before.tree before.program.projectRoot "styles.css" := by
    constructor <;> decide +kernel
  have read : before.tree.read (Path.ofString
      (projectFile before.tree before.program.projectRoot "styles.css").toText) =
        .ok ⟨#[0xFF]⟩ :=
    FileTree.read_eq_ok_iff.mpr ⟨["site", "styles.css"], FileTree.lookup_eq_ok_iff.mpr
      ⟨by decide +kernel, rfl⟩⟩
  refine ⟨rfl, result, after, ran, program_eq ▸ Filed.meets_file "styles.css", ?_, ?_⟩
  · rw [program_eq]
    exact ⟨_, .copy (.inl rfl) rfl isFile.locate_eq, read⟩
  · obtain ⟨stored, generated, stores, -, paths, texts⟩ := exists_log_of_run ran
    have listed : setup.staticRoot.joinText "styles.css" ∈ generated.map Stored.path := by
      rw [paths, root_eq]
      exact List.mem_append_left _ List.mem_cons_self
    obtain ⟨sheet, member, path_eq⟩ := List.mem_map.mp listed
    obtain ⟨newer, last⟩ := FileTree.exists_lastStored member
    obtain ⟨writer, isText, -, rfl⟩ := FileTree.mem_of_lastStored last
    obtain ⟨text, text_eq⟩ := texts writer isText
    have replaced : after.tree.read sheet.path = .ok writer.content := by
      refine stores.read_of_lastStored (List.mem_append_right stored member) ?_
      rw [FileTree.lastStored_append, last, Option.some_or]
    rw [← path_eq, replaced, text_eq]
    exact fun same => toUTF8_ne text (Except.ok.inj same)

end Compilation

end DesignGraph
