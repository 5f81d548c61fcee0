import DesignGraph.Proofs.Compile.Assets
import DesignGraph.Proofs.Compile.Ending
import DesignGraph.Proofs.Stores

/-!
# Assets stay inside their roots

On the side that is read, the file of an asset has a path below that of the project root once its
links are followed, and it is read from below that root whatever is stored in between. On the side
that is written, everything that is stored has a path below the static root by its segments, and an
asset whose name leads out of it ends the step before it is stored.
-/

namespace DesignGraph

/-! ## What is read -/

/-- The path leads to a regular file below the root, and goes on leading there whatever is stored in
the tree. -/
def FileTree.ReadsBelow (tree : FileTree) (root path : Path) : Prop :=
  ∃ place, root.parts <+: place ∧ ∀ log later, tree.Stores log later →
    ∃ content, later.lookup path = .ok (place, .file content)

section reading

variable {tree : FileTree} {root realRoot path : Path} {source : String} {place : List String}

theorem eq_realPath_of_resolve (resolved : tree.resolve root = .ok path) :
    path = tree.realPath root := by
  unfold FileTree.resolve at resolved
  split at resolved
  · cases resolved
  · exact (Except.ok.inj resolved).symm

/-- A regular file whose path ends is found where the path says. -/
theorem lookup_of_leads {n : Nat} (leads : tree.Leads n [] (tree.absolute path) place)
    (isFile : tree.isFile ⟨"/", place⟩ = true) :
    ∃ content, tree.lookup ⟨"/", place⟩ = .ok (place, .file content) := by
  obtain ⟨found, content, there⟩ := FileTree.isFile_iff.mp isFile
  have named := leads.isNamed fun part member => nomatch member
  have free := leads.isLinkFree (FileTree.isLinkFree_nil tree)
  obtain rfl := FileTree.lookup_of_isLinkFree named free there
  exact ⟨content, there⟩

/-- A located path is read again from its written form. -/
theorem ofString_toText_of_locate (slashless : Path.Slashless (tree.absolute root))
    (located : Asset.locate tree root source = .ok path) : Path.ofString path.toText = path := by
  obtain ⟨-, -, realRoot, resolved, pathResolved, -⟩ := locate_eq_ok_iff.mp located
  obtain rfl := eq_realPath_of_resolve resolved
  obtain rfl := eq_realPath_of_resolve pathResolved
  obtain ⟨absolute, written⟩ := FileTree.isWritten_realPath slashless
  refine Path.ofString_toText (FileTree.isWritten_realPath ?_).2
  simp only [FileTree.absolute, Path.isAbsolute_joinText absolute, if_true]
  exact fun part member => ((Path.isWritten_joinText written source).segments part member).2.2

/-- The file of an asset is read from below the root, if the links on the way to it end. -/
theorem readsBelow_of_locate (located : Asset.locate tree root source = .ok path)
    (resolved : tree.resolve root = .ok realRoot)
    (ends : ∃ n place, tree.Leads n [] (tree.absolute (realRoot.joinText source)) place) :
    tree.ReadsBelow realRoot path := by
  obtain ⟨n, place, leads⟩ := ends
  obtain ⟨-, -, other, resolvedToo, pathResolved, covered, isFile⟩ := locate_eq_ok_iff.mp located
  rw [resolved] at resolvedToo
  cases resolvedToo
  obtain rfl : path = ⟨"/", place⟩ :=
    (eq_realPath_of_resolve pathResolved).trans (FileTree.realPath_of_leads leads)
  obtain ⟨content, there⟩ := lookup_of_leads leads isFile
  simp only [Path.covers, Bool.and_eq_true, List.isPrefixOf_iff_prefix] at covered
  exact ⟨place, covered.2, fun log later stores => stores.keeps.lookup_file there⟩

/-- What a binder of files or drawings adds: a copy of the file that the source of the instance
names, or a page around what it holds. The file is a regular one, and its path is that of the
project root or leads on from it. -/
structure ReadsAsset (around : Surroundings) (inst : Instance) (realRoot path : Path)
    (source : String) (effect : Effect) : Prop where
  given : Asset.sourceOf? inst = .ok (some source)
  resolved : around.tree.resolve around.program.projectRoot = .ok realRoot
  located : Asset.locate around.tree around.program.projectRoot source = .ok path
  covered : realRoot.covers path = true
  isFile : around.tree.isFile path = true
  effect_eq : effect = .asset source (.copyOf path.toText) ∨
    ∃ drawing, Ios.readDrawing around.tree path = .ok drawing ∧
      effect = .asset (source ++ ".html") (.text (Ios.page drawing))

theorem exists_readsAsset {around : Surroundings} {inst : Instance} {reference : Option Reference}
    {effects : List Effect} (answered : Asset.fileBinder around inst reference = .ok effects ∨
      Ios.svgBinder around inst reference = .ok effects) {effect : Effect}
    (member : effect ∈ effects) :
    ∃ realRoot path source, ReadsAsset around inst realRoot path source effect := by
  have found : ∀ {source path}, Asset.sourceOf? inst = .ok (some source) →
      Asset.locate around.tree around.program.projectRoot source = .ok path →
      (effect = .asset source (.copyOf path.toText) ∨
        ∃ drawing, Ios.readDrawing around.tree path = .ok drawing ∧
          effect = .asset (source ++ ".html") (.text (Ios.page drawing))) →
      ∃ realRoot path source, ReadsAsset around inst realRoot path source effect := by
    intro source path given located effect_eq
    obtain ⟨-, -, realRoot, resolved, -, covered, isFile⟩ := locate_eq_ok_iff.mp located
    exact ⟨realRoot, path, source, given, resolved, located, covered, isFile, effect_eq⟩
  rcases answered with copied | wrapped
  · rcases fileBinder_eq_ok_iff.mp copied with ⟨-, rfl⟩ | ⟨source, path, given, located, rfl⟩
    · cases member
    · exact found given located (.inl (List.mem_singleton.mp member))
  · rcases svgBinder_eq_ok_iff.mp wrapped with
      ⟨-, rfl⟩ | ⟨source, path, drawing, given, located, read, rfl⟩
    · cases member
    · exact found given located (.inr ⟨drawing, read, List.mem_singleton.mp member⟩)

end reading

namespace Compilation

variable {α β : Type} {setup : Setup} {root : Path} {allowed : Path → Prop}

/-! ## What is written -/

/-- However the step ends, the static root in use stays, and the files that were stored were
written to allowed paths. -/
def StoresIn (setup : Setup) (root : Path) (allowed : Path → Prop) (step : Compilation α) : Prop :=
  ∀ compiler : Compiler, staticRootInUse setup compiler = root →
    staticRootInUse setup (outcome step compiler).2 = root ∧
    ∃ log : List Stored, compiler.tree.Stores log (outcome step compiler).2.tree ∧
      ∀ stored ∈ log, allowed stored.path

theorem storesIn_pure (a : α) : StoresIn setup root allowed (pure a) :=
  fun compiler rooted => ⟨rooted, [], .nil compiler.tree, by simp⟩

theorem storesIn_throw (fault : Fault) :
    StoresIn setup root allowed (throw fault : Compilation α) :=
  fun compiler rooted => ⟨rooted, [], .nil compiler.tree, by simp⟩

theorem storesIn_ofExcept (result : Except Fault α) :
    StoresIn setup root allowed (ofExcept result) := by
  cases result with
  | error fault => exact storesIn_throw fault
  | ok a => exact storesIn_pure a

theorem storesIn_changeOutput (change : Output → Output) :
    StoresIn setup root allowed (changeOutput change) :=
  fun compiler rooted => ⟨rooted, [], .nil compiler.tree, by simp⟩

theorem storesIn_onDisk {step : Disk α} (stores : Disk.StoresOnly allowed step) :
    StoresIn setup root allowed (onDisk step) := by
  intro compiler rooted
  rw [outcome_onDisk]
  exact ⟨rooted, stores compiler.tree⟩

theorem storesIn_get_bind {next : Compiler → Compilation α}
    (each : ∀ compiler, staticRootInUse setup compiler = root →
      StoresIn setup root allowed (next compiler)) :
    StoresIn setup root allowed (get >>= next) := by
  intro compiler rooted
  rw [outcome_get_bind]
  exact each compiler rooted compiler rooted

theorem StoresIn.bind {step : Compilation α} {next : α → Compilation β}
    (head : StoresIn setup root allowed step)
    (tail : ∀ a, StoresIn setup root allowed (next a)) :
    StoresIn setup root allowed (step >>= next) := by
  intro compiler rooted
  obtain ⟨stays, log, stores, allow⟩ := head compiler rooted
  rw [outcome_bind]
  rcases ending : outcome step compiler with ⟨fault | a, between⟩
  · rw [ending] at stays stores
    exact ⟨stays, log, stores, allow⟩
  · rw [ending] at stays stores
    obtain ⟨staysToo, more, others, allowMore⟩ := tail a between stays
    exact ⟨staysToo, log ++ more, stores.append others,
      List.forall_mem_append.mpr ⟨allow, allowMore⟩⟩

theorem storesIn_forM {step : α → Compilation PUnit} {items : List α}
    (each : ∀ a ∈ items, StoresIn setup root allowed (step a)) :
    StoresIn setup root allowed (items.forM step) := by
  induction items with
  | nil => exact storesIn_pure _
  | cons a rest ih =>
    exact (each a List.mem_cons_self).bind fun _ =>
      ih fun b member => each b (List.mem_cons_of_mem a member)

theorem writeAsset_of_outside {name : String} (outside : isInside name = false) (root : Path)
    (asset : Asset) :
    writeAsset root name asset = throw (.compilation (.destinationOutside name)) := by
  simp only [writeAsset, outside, Bool.not_false, if_true]
  rfl

/-- An asset is stored under its name, and only if the name stays inside. -/
theorem storesIn_writeAsset {name : String} {asset : Asset}
    (allow : isInside name = true → allowed (root.joinText name)) :
    StoresIn setup root allowed (writeAsset root name asset) := by
  cases inside : isInside name with
  | false =>
    rw [writeAsset_of_outside inside]
    exact storesIn_throw _
  | true =>
    simp only [writeAsset, inside, Bool.not_true, Bool.false_eq_true, if_false]
    refine storesIn_onDisk ((Disk.storesOnly_makeDirectories _).bind fun _ => ?_)
    cases asset with
    | copyOf path => exact Disk.storesOnly_copy (allow inside)
    | bytes content => exact Disk.storesOnly_write (allow inside) content
    | text content => exact Disk.storesOnly_write (allow inside) content.toUTF8

theorem storesIn_writeStyleSheet {language : String} (tokens : Style.Tokens)
    (allow : allowed (root.joinText ("styles." ++ language))) :
    StoresIn setup root allowed (writeStyleSheet setup language tokens) := by
  refine storesIn_get_bind fun compiler rooted => ?_
  rw [rooted]
  refine (storesIn_onDisk (Disk.storesOnly_makeDirectories _)).bind fun _ => ?_
  refine (storesIn_ofExcept _).bind fun text => ?_
  exact storesIn_onDisk (Disk.storesOnly_write allow text.toUTF8)

/-- A name that stays inside leads to a path below the root. -/
theorem covers_of_isInside {name : String} (inside : isInside name = true) (root : Path) :
    root.normal.covers (root.joinText name).normal = true := by
  simp only [isInside, Bool.and_eq_true, Bool.not_eq_true', List.contains_eq_mem,
    decide_eq_false_iff_not] at inside
  have joined : root.joinText name = ⟨root.anchor, root.parts ++ (Path.ofString name).parts⟩ := by
    simp only [Path.joinText, Path.join, inside.1, Bool.false_eq_true, if_false]
  exact Path.covers_normal_of_below (by rw [joined]) (by rw [joined]) inside.2

/-- Whatever is stored for assets and style sheets is stored below the static root in use. -/
theorem storesIn_writeAssets :
    StoresIn setup root (fun path => root.normal.covers path.normal = true)
      (writeAssets setup) := by
  have copied : ∀ entries : List (String × Asset), StoresIn setup root
      (fun path => root.normal.covers path.normal = true)
      (entries.forM fun entry => writeAsset root entry.1 entry.2) :=
    fun entries => storesIn_forM fun _ _ => storesIn_writeAsset fun inside =>
      covers_of_isInside inside root
  have sheets : ∀ language tokens, isInside ("styles." ++ language) = true → StoresIn setup root
      (fun path => root.normal.covers path.normal = true)
      (writeStyleSheet setup language tokens) :=
    fun language tokens inside => storesIn_writeStyleSheet tokens (covers_of_isInside inside root)
  unfold writeAssets
  cases target : setup.target with
  | web =>
    simp only [reduceCtorEq, if_false, if_true]
    refine storesIn_get_bind fun compiler rooted => ?_
    rw [rooted]
    refine (copied _).bind fun _ => ?_
    have promoted : StoresIn setup root (fun path => root.normal.covers path.normal = true)
        styleTokens :=
      storesIn_get_bind fun _ _ => (storesIn_changeOutput _).bind fun _ => storesIn_pure _
    exact promoted.bind fun tokens => (sheets "css" tokens (by decide)).bind fun _ =>
      sheets "scss" tokens (by decide)
  | ios =>
    simp only [reduceCtorEq, if_false, if_true]
    refine (storesIn_onDisk (Disk.storesOnly_makeDirectories _)).bind fun _ => ?_
    refine storesIn_get_bind fun compiler rooted => ?_
    rw [rooted]
    exact (copied _).bind fun _ => storesIn_pure _

/-! ## Assets that lead out -/

/-- What `writeAssets` does for the first assets. -/
def writeFront (setup : Setup) (front : List (String × Asset)) : Compilation Unit := do
  if setup.target = .ios then onDisk (Disk.makeDirectories setup.staticRoot)
  let root := staticRootInUse setup (← get)
  front.forM fun (name, asset) => writeAsset root name asset

theorem storesIn_writeFront (front : List (String × Asset)) :
    StoresIn setup root (fun path => ∃ entry ∈ front, path = root.joinText entry.1)
      (writeFront setup front) := by
  have copied : StoresIn setup root (fun path => ∃ entry ∈ front, path = root.joinText entry.1)
      (front.forM fun (name, asset) => writeAsset root name asset) :=
    storesIn_forM fun entry member => storesIn_writeAsset fun _ => ⟨entry, member, rfl⟩
  have last : StoresIn setup root (fun path => ∃ entry ∈ front, path = root.joinText entry.1) (do
      let root := staticRootInUse setup (← get)
      front.forM fun (name, asset) => writeAsset root name asset) :=
    storesIn_get_bind fun compiler rooted => by rwa [rooted]
  unfold writeFront
  split_ifs
  · exact (storesIn_onDisk (Disk.storesOnly_makeDirectories _)).bind fun _ => last
  · exact last

/-- A step that ends with a fault after its first part ends so whatever would follow. -/
theorem outcome_bind_of_faults {first : Compilation Unit} {step : Compilation α}
    {next : α → Compilation β} {fault : Fault} {compiler : Compiler}
    (faults : outcome step compiler = outcome (do first; throw fault) compiler) :
    outcome (step >>= next) compiler = outcome (do first; throw fault) compiler := by
  rw [outcome_bind, faults, outcome_bind, outcome_bind]
  rcases outcome first compiler with ⟨other | ⟨⟩, between⟩ <;> rfl

theorem outcome_forM_of_outside (root : Path) (front back : List (String × Asset))
    {bad : String × Asset} (outside : isInside bad.1 = false) (compiler : Compiler) :
    outcome ((front ++ bad :: back).forM fun (name, asset) => writeAsset root name asset)
        compiler =
      outcome (do
        front.forM fun (name, asset) => writeAsset root name asset
        throw (.compilation (.destinationOutside bad.1))) compiler := by
  induction front generalizing compiler with
  | nil =>
    change outcome (writeAsset root bad.1 bad.2 >>= _) compiler = _
    rw [writeAsset_of_outside outside]
    rfl
  | cons entry front ih =>
    change outcome (writeAsset root entry.1 entry.2 >>= fun _ => (front ++ bad :: back).forM _)
        compiler =
      outcome ((writeAsset root entry.1 entry.2 >>= fun _ => front.forM _) >>= _) compiler
    rw [outcome_bind, outcome_bind, outcome_bind]
    rcases outcome (writeAsset root entry.1 entry.2) compiler with ⟨fault | ⟨⟩, between⟩
    · rfl
    · have others := ih between
      rw [outcome_bind] at others
      exact others

/-- The assets before one that leads out are written, and that is all. -/
theorem outcome_writeAssets_of_outside {compiler : Compiler} {front back : List (String × Asset)}
    {bad : String × Asset} (listed : compiler.output.assets.entries = front ++ bad :: back)
    (outside : isInside bad.1 = false) :
    outcome (writeAssets setup) compiler = outcome (do
      writeFront setup front
      throw (.compilation (.destinationOutside bad.1))) compiler := by
  unfold writeAssets writeFront
  cases target : setup.target with
  | web =>
    simp only [reduceCtorEq, if_false, if_true]
    rw [outcome_get_bind, bind_assoc, outcome_get_bind, listed]
    exact outcome_bind_of_faults (outcome_forM_of_outside _ front back outside compiler)
  | ios =>
    simp only [reduceCtorEq, if_false, if_true]
    rw [outcome_bind, bind_assoc, outcome_bind]
    rcases ending : outcome (onDisk (Disk.makeDirectories setup.staticRoot)) compiler with
      ⟨fault | ⟨⟩, between⟩
    · rfl
    · have same : between.output = compiler.output := by
        rw [outcome_onDisk] at ending
        rw [← (Prod.mk.inj ending).2]
      change outcome (get >>= _) between = outcome ((get >>= _) >>= _) between
      rw [outcome_get_bind, bind_assoc, outcome_get_bind, same, listed]
      exact outcome_bind_of_faults (outcome_forM_of_outside _ front back outside between)

/-- Of names some of which lead out, one is the first. -/
theorem exists_first_outside {entries : List (String × Asset)} {name : String}
    (listed : name ∈ entries.map (·.1)) (outside : isInside name = false) :
    ∃ front bad back, entries = front ++ bad :: back ∧ isInside bad.1 = false ∧
      ∀ entry ∈ front, isInside entry.1 = true := by
  obtain ⟨entry, member, rfl⟩ := List.mem_map.mp listed
  have some_outside : (entries.find? fun entry => !isInside entry.1).isSome = true :=
    List.find?_isSome.mpr ⟨entry, member, by simp [outside]⟩
  obtain ⟨bad, found⟩ := Option.isSome_iff_exists.mp some_outside
  obtain ⟨isBad, front, back, split, before⟩ := List.find?_eq_some_iff_append.mp found
  exact ⟨front, bad, back, split, by simpa using isBad, by simpa using before⟩

/-! ## Both sides -/

/-- Assets stay inside their roots. Whatever `writeAssets` stores, its path is that of the static
root in use or leads on from it, once parent segments are applied. If some name leads out, it ends
with an error at the first such name and has stored assets before it at most. What a binder of files
or drawings copies or wraps is a regular file, and it is read from below the root of the project
with every link followed, if the links on the way to it end. -/
theorem assets_stay_inside_roots (setup : Setup) (compiler : Compiler) :
    (∃ log : List Stored, compiler.tree.Stores log (outcome (writeAssets setup) compiler).2.tree ∧
      ∀ stored ∈ log,
        (staticRootInUse setup compiler).normal.covers stored.path.normal = true) ∧
    (∀ name ∈ compiler.output.assets.keys, isInside name = false →
      ∃ front bad back, compiler.output.assets.entries = front ++ bad :: back ∧
        isInside bad.1 = false ∧ (∀ entry ∈ front, isInside entry.1 = true) ∧
        outcome (writeAssets setup) compiler = outcome (do
          writeFront setup front
          throw (.compilation (.destinationOutside bad.1))) compiler ∧
        ∃ log : List Stored,
          compiler.tree.Stores log (outcome (writeAssets setup) compiler).2.tree ∧
          ∀ stored ∈ log, ∃ entry ∈ front,
            stored.path = (staticRootInUse setup compiler).joinText entry.1) ∧
    ∀ (around : Surroundings) (inst : Instance) (reference : Option Reference)
      (effects : List Effect),
      Asset.fileBinder around inst reference = .ok effects ∨
        Ios.svgBinder around inst reference = .ok effects →
      ∀ effect ∈ effects, ∃ realRoot path source,
        ReadsAsset around inst realRoot path source effect ∧
        (Path.Slashless (around.tree.absolute around.program.projectRoot) →
          Path.ofString path.toText = path) ∧
        ((∃ n place, around.tree.Leads n [] (around.tree.absolute (realRoot.joinText source))
          place) → around.tree.ReadsBelow realRoot path) := by
  refine ⟨(storesIn_writeAssets compiler rfl).2, ?_, ?_⟩
  · intro name listed outside
    obtain ⟨front, bad, back, split, isBad, before⟩ := exists_first_outside listed outside
    have ended : outcome (writeAssets setup) compiler = _ :=
      outcome_writeAssets_of_outside split isBad
    refine ⟨front, bad, back, split, isBad, before, ended, ?_⟩
    have stored : StoresIn setup (staticRootInUse setup compiler)
        (fun path => ∃ entry ∈ front, path = (staticRootInUse setup compiler).joinText entry.1)
        (do writeFront setup front
            throw (.compilation (.destinationOutside bad.1)) : Compilation Unit) :=
      (storesIn_writeFront front).bind fun _ => storesIn_throw _
    rw [ended]
    exact (stored compiler rfl).2
  · intro around inst reference effects answered effect member
    obtain ⟨realRoot, path, source, reads⟩ := exists_readsAsset answered member
    exact ⟨realRoot, path, source, reads,
      fun slashless => ofString_toText_of_locate slashless reads.located,
      readsBelow_of_locate reads.located reads.resolved⟩

namespace Circular

/-- A project beside a file of somebody else. The link `entry` leads through one that leads back to
itself, and from there out of the project. -/
def files : FileTree where
  entries := ⟨[
    (["site"], .directory),
    (["site", "loop"], .link "loop"),
    (["site", "out.svg"], .link "../secret.svg"),
    (["site", "entry"], .link "loop/../out.svg"),
    (["site", "logo.svg"], .file ⟨#[0x58]⟩),
    (["site", "alias"], .link "./logo.svg"),
    (["secret.svg"], .file ⟨#[0x53]⟩)]⟩

def program : Program where
  projectName := "Site"
  projectRoot := ⟨"/", ["site"]⟩
  graph := {}

def around : Surroundings := ⟨.web, files, program, none⟩

def sheet (source : String) : Instance := ⟨"sheet", "File", ⟨[("src", .text source)]⟩⟩

def webSetup : Setup := .ofProgram .web ⟨"/", []⟩ ⟨[]⟩ (.ok "localhost") program

def compiler : Compiler :=
  { webSetup.compiler program files with output := { assets := ⟨[
      ("alias", .copyOf "/site/logo.svg"), ("up/../down", .text ""), ("late", .text "")]⟩ } }

theorem isProjectFile_alias : IsProjectFile files program.projectRoot "alias" := by
  constructor <;> decide +kernel

theorem isProjectFile_entry : IsProjectFile files program.projectRoot "entry" := by
  constructor <;> decide +kernel

end Circular

/-- A file is read through a link below the project root; the asset after it leads out and ends the
step. -/
theorem alias_of_site_stays_inside :
    (∃ path, Asset.fileBinder Circular.around (Circular.sheet "alias") none =
        .ok [.asset "alias" (.copyOf path.toText)] ∧
      Circular.files.ReadsBelow ⟨"/", ["site"]⟩ path) ∧
    ∃ front bad back, Circular.compiler.output.assets.entries = front ++ bad :: back ∧
      isInside bad.1 = false ∧ outcome (writeAssets Circular.webSetup) Circular.compiler =
        outcome (do
          writeFront Circular.webSetup front
          throw (.compilation (.destinationOutside bad.1))) Circular.compiler := by
  obtain ⟨-, refusal, reading⟩ := assets_stay_inside_roots Circular.webSetup Circular.compiler
  have answered : Asset.fileBinder Circular.around (Circular.sheet "alias") none = .ok
      [.asset "alias" (.copyOf
        (projectFile Circular.files Circular.program.projectRoot "alias").toText)] :=
    fileBinder_eq_ok_iff.mpr (.inr ⟨"alias", _, rfl, Circular.isProjectFile_alias.locate_eq, rfl⟩)
  constructor
  · obtain ⟨realRoot, path, source, reads, -, below⟩ := reading Circular.around _ none _
      (.inl answered) _ (List.mem_singleton_self _)
    have root_eq : realRoot = ⟨"/", ["site"]⟩ :=
      (eq_realPath_of_resolve reads.resolved).trans (by decide +kernel)
    obtain rfl : "alias" = source := Option.some.inj (Except.ok.inj reads.given)
    have path_eq : projectFile Circular.files Circular.program.projectRoot "alias" = path :=
      Except.ok.inj (Circular.isProjectFile_alias.locate_eq.symm.trans reads.located)
    have ends : Circular.files.realFrom [] [] (Circular.files.absolute
        ((⟨"/", ["site"]⟩ : Path).joinText "alias")) = .place ["site", "logo.svg"] := by
      decide +kernel
    subst root_eq path_eq
    obtain ⟨steps, leads⟩ := FileTree.realFrom_eq_place_iff.mp ends
    exact ⟨_, answered, below ⟨steps, _, leads⟩⟩
  · obtain ⟨front, bad, back, split, outside, -, ended, -⟩ :=
      refusal "up/../down" (by decide) (by decide)
    exact ⟨front, bad, back, split, outside, ended⟩

/-- Through a link that leads back to itself a file is read that lies outside the project. -/
theorem entry_of_site_is_read_outside :
    ∃ path content, Circular.files.resolve Circular.program.projectRoot = .ok ⟨"/", ["site"]⟩ ∧
      Asset.fileBinder Circular.around (Circular.sheet "entry") none =
        .ok [.asset "entry" (.copyOf path)] ∧
      Circular.files.lookup (Path.ofString path) = .ok (["secret.svg"], .file content) ∧
      ¬ ["site"] <+: ["secret.svg"] := by
  have located := Circular.isProjectFile_entry.locate_eq
  obtain ⟨-, -, realRoot, resolved, -⟩ := locate_eq_ok_iff.mp located
  have root_eq : realRoot = ⟨"/", ["site"]⟩ :=
    (eq_realPath_of_resolve resolved).trans (by decide +kernel)
  refine ⟨_, ⟨#[0x53]⟩, root_eq ▸ resolved, fileBinder_eq_ok_iff.mpr (.inr ⟨"entry", _, rfl,
    located, rfl⟩), FileTree.lookup_eq_ok_iff.mpr ⟨by decide +kernel, rfl⟩, by decide⟩

end Compilation

end DesignGraph
