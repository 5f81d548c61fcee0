import DesignGraph.Proofs.Directories
import DesignGraph.Proofs.Template.Skeleton

/-!
# Skeletons in a file tree

Each file of a skeleton has a path below the destination (`Piece.filledPath`) and a content
(`Piece.filledContent`), which are told by the data and by the file alone. As long as no such path
leads into the skeleton, its files are read as they were in the beginning, so filling it in stores
one file for each of them (`Fills`). A second time the same is stored in the same places, and a file
that could not be filled in is refused again.
-/

namespace DesignGraph.Template

section

variable {piece : Piece} {destination target path : Path} {data : List (String × Value)}
  {tree before after other : FileTree} {root : Path} {place : List String} {pieces : List Piece}
  {paths : List Path} {log more : List Stored} {fault : Fault}

namespace Piece

/-! ## One file -/

/-- Where a file of a skeleton is written: below the destination under its rendered name, without
the suffix of a template. -/
def filledPath (piece : Piece) (destination : Path) (data : List (String × Value)) :
    Except Fault Path :=
  (renderText piece.name data).map fun name =>
    if piece.isTemplate then (destination.joinText name).withoutSuffix
    else destination.joinText name

/-- The text of a template: lines end with a line feed. -/
def sourceOf (content : ByteArray) : Except Fault String :=
  match String.fromUTF8? content with
  | some s => .ok (String.ofList (Text.unifyLineEnds s.toList))
  | none => .error .encoding

/-- What is written: a template is rendered, and any other file is taken as it is. -/
def filledContent (piece : Piece) (data : List (String × Value)) (content : ByteArray) :
    Except Fault ByteArray :=
  if piece.isTemplate then do
    let text ← renderAt piece.origin (some (← sourceOf content)) data
    pure text.toUTF8
  else .ok content

/-- Write the file into a tree in which its directory is there. -/
def enter (piece : Piece) (target : Path) (data : List (String × Value)) (tree : FileTree) :
    Except Fault FileTree :=
  if piece.isTemplate then do
    let content ← (tree.read piece.origin).mapError Fault.ofRefusal
    let filled ← piece.filledContent data content
    (tree.write target filled).mapError Fault.ofRefusal
  else (tree.copy piece.origin target).mapError Fault.ofRefusal

theorem sourceOf_toUTF8 (s : String) :
    sourceOf s.toUTF8 = .ok (String.ofList (Text.unifyLineEnds s.toList)) := by
  have decoded : String.fromUTF8? s.toUTF8 = some s := by
    unfold String.fromUTF8?
    split
    · rfl
    · next invalid => exact absurd s.isValidUTF8 invalid
  rw [sourceOf, decoded]

theorem filledContent_of_render (template : piece.isTemplate = true) {content : ByteArray}
    {source text : String} (read : sourceOf content = .ok source)
    (rendered : render source data = .ok text) :
    piece.filledContent data content = .ok text.toUTF8 := by
  rw [filledContent, if_pos template, read]
  change (renderAt piece.origin (some source) data >>= fun text => pure text.toUTF8) = _
  rw [renderAt_eq_ok rendered]
  rfl

theorem run_source (untexted : piece.text = none) (tree : FileTree) :
    piece.source.run.run tree =
      ((tree.read piece.origin).mapError Fault.ofRefusal >>= sourceOf, tree) := by
  have reading := Disk.run_read_eq piece.origin tree
  simp only [source, untexted, Disk.readText, bind_assoc]
  cases read : tree.read piece.origin with
  | error refusal =>
    rw [read] at reading
    exact Disk.run_bind_error reading
  | ok content =>
    rw [read] at reading
    rw [Disk.run_bind reading]
    change _ = (sourceOf content, tree)
    unfold sourceOf
    cases String.fromUTF8? content <;> rfl

theorem run_enter_template (template : piece.isTemplate = true) (untexted : piece.text = none)
    (target : Path) (data : List (String × Value)) (tree : FileTree) :
    (do
        let text ← Disk.ofExcept (renderAt piece.origin (some (← piece.source)) data)
        Disk.writeText target text
        pure target : Disk Path).run.run tree =
      Disk.outcome tree target (piece.enter target data tree) := by
  have sourcing := run_source untexted tree
  have entered : piece.enter target data tree =
      (tree.read piece.origin).mapError Fault.ofRefusal >>= sourceOf >>= fun source =>
        renderAt piece.origin (some source) data >>= fun text =>
          (tree.write target text.toUTF8).mapError Fault.ofRefusal := by
    simp only [enter, filledContent, if_pos template, bind_assoc, pure_bind]
  rw [entered]
  cases sourced : (tree.read piece.origin).mapError Fault.ofRefusal >>= sourceOf with
  | error fault =>
    rw [sourced] at sourcing
    exact Disk.run_bind_error sourcing
  | ok source =>
    rw [sourced] at sourcing
    rw [Disk.run_bind sourcing]
    change _ = Disk.outcome tree target (renderAt piece.origin (some source) data >>= fun text =>
      (tree.write target text.toUTF8).mapError Fault.ofRefusal)
    cases renderAt piece.origin (some source) data with
    | error fault => exact Disk.run_bind_error rfl
    | ok text =>
      rw [Disk.run_bind (Disk.run_ofExcept_ok text tree)]
      exact Disk.run_change_pure (·.write target text.toUTF8) target tree

/-- A file that is read from the tree is filled in with all of its changes but the directories, or
with none. -/
theorem run_fill (untexted : piece.text = none) (destination : Path) (data : List (String × Value))
    (before : FileTree) :
    (piece.fill destination data).run.run before =
      match piece.filledPath destination data with
      | .error fault => (.error fault, before)
      | .ok target => match (Disk.makeDirectories target.parent).run.run before with
          | (.error fault, left) => (.error fault, left)
          | (.ok _, made) => Disk.outcome made target (piece.enter target data made) := by
  unfold fill filledPath
  cases named : renderText piece.name data with
  | error fault => exact Disk.run_bind_error rfl
  | ok name =>
    rw [Disk.run_bind (Disk.run_ofExcept_ok name before)]
    have parent : Path.parent (if piece.isTemplate then (destination.joinText name).withoutSuffix
        else destination.joinText name) = (destination.joinText name).parent := by
      split_ifs
      · exact Path.parent_withoutSuffix _
      · rfl
    simp only [Except.map, parent]
    rcases making : (Disk.makeDirectories (destination.joinText name).parent).run.run before with
      ⟨fault | ⟨⟩, made⟩
    · exact Disk.run_bind_error making
    · rw [Disk.run_bind making]
      by_cases template : piece.isTemplate
      · simp only [if_pos template]
        exact run_enter_template template untexted _ data made
      · simp only [if_neg template, untexted, enter]
        exact Disk.run_change_pure (·.copy piece.origin (destination.joinText name)) _ made

theorem run_fill_eq_ok_iff (untexted : piece.text = none) :
    (piece.fill destination data).run.run before = (.ok path, after) ↔
      piece.filledPath destination data = .ok path ∧ ∃ made,
        before.makeDirectories path.parent = .ok made ∧ piece.enter path data made = .ok after := by
  rw [run_fill untexted]
  cases named : piece.filledPath destination data with
  | error fault =>
    constructor
    · intro ran
      cases ran
    · rintro ⟨refused, -⟩
      cases refused
  | ok target =>
    constructor
    · intro ran
      dsimp only at ran
      split at ran
      · cases ran
      · next made making =>
        obtain ⟨rfl, entered⟩ := Disk.outcome_eq_ok_iff.mp ran
        exact ⟨rfl, made, Disk.of_run_makeDirectories making, entered⟩
    · rintro ⟨⟨⟩, made, making, entered⟩
      simp only [Disk.run_makeDirectories making]
      exact Disk.outcome_eq_ok_iff.mpr ⟨rfl, entered⟩

/-- Why a file is not filled in, and what is left then: it has no path, its directory is not made,
or it is not read, rendered or written. -/
inductive Fails (piece : Piece) (destination : Path) (data : List (String × Value))
    (before : FileTree) (fault : Fault) : FileTree → Prop
  | unnamed (named : piece.filledPath destination data = .error fault) :
      Fails piece destination data before fault before
  | unplaced {target : Path} {after : FileTree}
      (named : piece.filledPath destination data = .ok target)
      (making : (Disk.makeDirectories target.parent).run.run before = (.error fault, after)) :
      Fails piece destination data before fault after
  | refused {target : Path} {after : FileTree}
      (named : piece.filledPath destination data = .ok target)
      (making : before.makeDirectories target.parent = .ok after)
      (entering : piece.enter target data after = .error fault) :
      Fails piece destination data before fault after

theorem run_fill_eq_error_iff (untexted : piece.text = none) :
    (piece.fill destination data).run.run before = (.error fault, after) ↔
      piece.Fails destination data before fault after := by
  rw [run_fill untexted]
  constructor
  · intro ran
    cases named : piece.filledPath destination data with
    | error other =>
      simp only [named] at ran
      cases ran
      exact .unnamed named
    | ok target =>
      simp only [named] at ran
      split at ran
      · next making =>
        cases ran
        exact .unplaced named making
      · next making =>
        obtain ⟨rfl, entering⟩ := Disk.outcome_eq_error_iff.mp ran
        exact .refused named (Disk.of_run_makeDirectories making) entering
  · intro fails
    cases fails with
    | unnamed named => simp only [named]
    | unplaced named making => simp only [named, making]
    | refused named making entering =>
      simp only [named, Disk.run_makeDirectories making]
      exact Disk.outcome_eq_error_iff.mpr ⟨rfl, entering⟩

/-! ## One file of a skeleton in a tree -/

/-- The piece is a regular file in the skeleton at a place. -/
structure IsPieceOf (tree : FileTree) (root : Path) (place : List String) (piece : Piece) :
    Prop where
  untexted : piece.text = none
  found : ∃ parts content, piece.origin = { root with parts := root.parts ++ parts } ∧
    tree.entry? (place ++ parts) = some (.file content)

/-- What is stored for a file of a skeleton in a tree. -/
structure IsFilledAs (tree : FileTree) (destination : Path) (data : List (String × Value))
    (piece : Piece) (stored : Stored) : Prop where
  path_eq : piece.filledPath destination data = .ok stored.path
  content_eq : ∃ content, tree.read piece.origin = .ok content ∧
    piece.filledContent data content = .ok stored.content

/-- The piece is not to be written into the skeleton at a place. -/
def IsClear (tree : FileTree) (place : List String) (destination : Path)
    (data : List (String × Value)) (piece : Piece) : Prop :=
  ∀ target, piece.filledPath destination data = .ok target →
    (⟨"/", place⟩ : Path).covers (tree.realPath target) = false

/-- As long as the skeleton is spared, the piece is found as it was. -/
theorem IsPieceOf.lookup (isPiece : piece.IsPieceOf tree root place)
    (skeleton : tree.IsSkeleton root place) : ∃ parts content,
      ∀ other, tree.Spares place other →
        other.lookup piece.origin = .ok (place ++ parts, .file content) := by
  obtain ⟨parts, content, located, isFile⟩ := isPiece.found
  refine ⟨parts, content, fun other spares => ?_⟩
  rw [located]
  exact (skeleton.later spares).lookup_origin (spares.content_iff.mpr isFile)

theorem blankless_filledPath (blankless : "" ∉ tree.absolute destination)
    (named : piece.filledPath destination data = .ok path) : "" ∉ tree.absolute path := by
  unfold filledPath at named
  cases rendered : renderText piece.name data with
  | error fault =>
    rw [rendered] at named
    cases named
  | ok name =>
    rw [rendered] at named
    obtain rfl := Except.ok.inj named
    have joined := FileTree.blankless_joinText blankless name
    split_ifs
    · exact FileTree.blankless_withoutSuffix joined
    · exact joined

/-- A piece that is clear of the skeleton goes on leading elsewhere. -/
theorem IsClear.not_prefix (clear : piece.IsClear tree place destination data)
    (blankless : "" ∉ tree.absolute destination)
    (named : piece.filledPath destination data = .ok path) (keeps : tree.Keeps other)
    {at_ : List String} (placed : other.place true path = .ok at_) : ¬ place <+: at_ := by
  have outside := clear path named
  rw [keeps.realPath_of_place (blankless_filledPath blankless named) placed] at outside
  intro below
  simp [Path.covers, List.isPrefixOf_iff_prefix.mpr below] at outside

theorem enter_eq_ok_iff {from_ : List String} {content : ByteArray}
    (found : tree.lookup piece.origin = .ok (from_, .file content))
    (apart : tree.place true target ≠ .ok from_) :
    piece.enter target data tree = .ok after ↔ ∃ filled,
      piece.filledContent data content = .ok filled ∧ tree.write target filled = .ok after := by
  have mapError_iff {result : Except FileTree.Refusal FileTree} :
      result.mapError Fault.ofRefusal = .ok after ↔ result = .ok after := by
    cases result <;> simp [Except.mapError]
  have read : tree.read piece.origin = .ok content := FileTree.read_eq_ok_iff.mpr ⟨_, found⟩
  unfold enter
  split_ifs with template
  · simp only [read, Answers.bind_eq_ok_iff, mapError_iff]
    constructor
    · rintro ⟨_, ⟨⟩, filled⟩
      exact filled
    · exact fun filled => ⟨_, rfl, filled⟩
  · have elsewhere : ((tree.place true target).toOption == some from_) = false := by
      rw [beq_eq_false_iff_ne]
      intro same
      cases placed : tree.place true target with
      | error refusal =>
        rw [placed] at same
        cases same
      | ok at_ =>
        rw [placed] at same apart
        exact apart (congrArg Except.ok (Option.some.inj same))
    rw [mapError_iff]
    simp only [FileTree.copy, found, bind, Except.bind, elsewhere, Bool.false_eq_true, if_false,
      filledContent, if_neg template, Except.ok.injEq, exists_eq_left']

end Piece

/-! ## Runs -/

/-- The pieces of a skeleton in a tree are filled in between two others. -/
structure Fills (tree : FileTree) (place : List String) (destination : Path)
    (data : List (String × Value)) (pieces : List Piece) (before : FileTree) (log : List Stored)
    (after : FileTree) : Prop where
  each : List.Forall₂ (Piece.IsFilledAs tree destination data) pieces log
  stores : before.Stores log after
  spares : tree.Spares place after

/-- Making directories spares everything, also if it is refused. -/
theorem spares_of_makeDirectories {result : Except Fault Unit} (spares : tree.Spares place before)
    (ran : (Disk.makeDirectories path).run.run before = (result, after)) :
    before.Stores [] after ∧ tree.Spares place after := by
  have left := Disk.tree_of_makeDirectories path before
  rw [ran] at left
  have stores := FileTree.stores_of_makeDirectoriesTo before path path.parts.length
  have proper := spares.proper.makeDirectoriesTo path path.parts.length
  rw [← left] at stores proper
  exact ⟨stores, spares.stores stores proper (by simp)⟩

/-- A piece that is not filled in stores nothing, and fails again in what it leaves. -/
theorem spares_of_fill_error (untexted : piece.text = none) (spares : tree.Spares place before)
    (ran : (piece.fill destination data).run.run before = (.error fault, after)) :
    before.Stores [] after ∧ tree.Spares place after ∧
      (piece.fill destination data).run.run after = (.error fault, after) := by
  cases (Piece.run_fill_eq_error_iff untexted).mp ran with
  | unnamed => exact ⟨.nil _, spares, ran⟩
  | unplaced named making =>
    obtain ⟨stores, spares⟩ := spares_of_makeDirectories spares making
    have again := Disk.run_makeDirectories_again making
    exact ⟨stores, spares, (Piece.run_fill_eq_error_iff untexted).mpr (.unplaced named again)⟩
  | refused named making entering =>
    obtain ⟨stores, spares⟩ :=
      spares_of_makeDirectories spares (Disk.run_makeDirectories making)
    have again := FileTree.makeDirectories_again making (.refl after)
    exact ⟨stores, spares,
      (Piece.run_fill_eq_error_iff untexted).mpr (.refused named again entering)⟩

section

variable (skeleton : tree.IsSkeleton root place) (blankless : "" ∉ tree.absolute destination)

include skeleton blankless

/-- Filling in a piece stores it. Doing so again, whatever has been stored since, stores the
same. -/
theorem fills_of_fill (isPiece : piece.IsPieceOf tree root place)
    (clear : piece.IsClear tree place destination data) (spares : tree.Spares place before)
    (ran : (piece.fill destination data).run.run before = (.ok path, after)) : ∃ stored : Stored,
      stored.path = path ∧ Fills tree place destination data [piece] before [stored] after ∧
      ∀ other, after.Keeps other → tree.Spares place other →
        (piece.fill destination data).run.run other = (.ok path, other.storeAll [stored]) := by
  obtain ⟨named, made, making, entered⟩ := (Piece.run_fill_eq_ok_iff isPiece.untexted).mp ran
  obtain ⟨parts, content, found⟩ := isPiece.lookup skeleton
  obtain ⟨directories, sparesMade⟩ :=
    spares_of_makeDirectories spares (Disk.run_makeDirectories making)
  have apart {other : FileTree} (spares : tree.Spares place other) :
      other.place true path ≠ .ok (place ++ parts) := fun placed =>
    clear.not_prefix blankless named spares.keeps placed (List.prefix_append place parts)
  obtain ⟨filled, content_eq, written⟩ :=
    (Piece.enter_eq_ok_iff (found made sparesMade) (apart sparesMade)).mp entered
  obtain ⟨at_, placed, noDirectory, rfl⟩ := FileTree.write_eq_ok_iff.mp written
  have stores : made.Stores [⟨path, at_, filled⟩] (made.set at_ (.file filled)) :=
    .file placed noDirectory (.nil _)
  have outside := clear.not_prefix blankless named sparesMade.keeps placed
  have read : tree.read piece.origin = .ok content :=
    FileTree.read_eq_ok_iff.mpr ⟨_, found tree (.refl skeleton.proper place)⟩
  refine ⟨⟨path, at_, filled⟩, rfl, ⟨?_, directories.append stores, ?_⟩, ?_⟩
  · exact .cons ⟨named, content, read, content_eq⟩ .nil
  · exact sparesMade.stores stores (sparesMade.proper.write written) (by simpa using outside)
  · intro other keeps sparesOther
    refine (Piece.run_fill_eq_ok_iff isPiece.untexted).mpr ⟨named, other, ?_, ?_⟩
    · exact FileTree.makeDirectories_again making (stores.keeps.trans keeps)
    · refine (Piece.enter_eq_ok_iff (found other sparesOther) (apart sparesOther)).mpr
        ⟨filled, content_eq, FileTree.write_eq_ok_iff.mpr ⟨at_, ?_, ?_, rfl⟩⟩
      · exact (stores.keeps.trans keeps).place_eq placed
      · have last : (FileTree.lastStored [⟨path, at_, filled⟩]).get? at_ = some filled := by
          simp [FileTree.lastStored, OrderedMap.ofList]
        have there := stores.content_eq last
        obtain ⟨newer, there⟩ := keeps.file there
        simp [there]

/-- Filling in pieces one after the other stores them. Doing so again, whatever has been stored
since, stores the same. -/
theorem fills_of_mapM_fill (arePieces : ∀ piece ∈ pieces, piece.IsPieceOf tree root place)
    (clear : ∀ piece ∈ pieces, piece.IsClear tree place destination data)
    (spares : tree.Spares place before)
    (ran : (pieces.mapM fun piece : Piece => piece.fill destination data).run.run before =
      (Except.ok paths, after)) : ∃ log : List Stored,
      paths = log.map Stored.path ∧ Fills tree place destination data pieces before log after ∧
      ∀ other, after.Keeps other → tree.Spares place other →
        (pieces.mapM fun piece : Piece => piece.fill destination data).run.run other =
          (Except.ok paths, other.storeAll log) := by
  induction pieces generalizing before paths with
  | nil =>
    rw [List.mapM_nil] at ran
    cases ran
    exact ⟨[], rfl, ⟨.nil, .nil _, spares⟩, fun other _ _ => rfl⟩
  | cons piece pieces ih =>
    obtain ⟨isPiece, arePieces⟩ := List.forall_mem_cons.mp arePieces
    obtain ⟨clearHere, clear⟩ := List.forall_mem_cons.mp clear
    rw [List.mapM_cons] at ran
    obtain ⟨path, between, first, ran⟩ := Disk.exists_of_run_bind ran
    obtain ⟨others, _, rest, ran⟩ := Disk.exists_of_run_bind ran
    cases ran
    obtain ⟨stored, rfl, filled, again⟩ :=
      fills_of_fill skeleton blankless isPiece clearHere spares first
    obtain ⟨log, rfl, filledRest, againRest⟩ := ih arePieces clear filled.spares rest
    refine ⟨stored :: log, rfl, ⟨?_, filled.stores.append filledRest.stores, filledRest.spares⟩, ?_⟩
    · cases filled.each with
      | cons one => exact .cons one filledRest.each
    · intro other keeps sparesOther
      have next := again other (filledRest.stores.keeps.trans keeps) sparesOther
      obtain ⟨_, -, filledAgain, -⟩ :=
        fills_of_fill skeleton blankless isPiece clearHere sparesOther next
      have keepsAgain := keeps.trans filledAgain.stores.keeps
      rw [List.mapM_cons, Disk.run_bind next,
        Disk.run_bind (againRest _ keepsAgain filledAgain.spares)]
      rfl

end

/-! ## Skeletons -/

/-- Pieces have been filled in between two trees. The log has a file for each of them. A place holds
what was stored there last, and everywhere else there are the files that were there before. -/
structure IsFilledIn (destination : Path) (data : List (String × Value)) (pieces : List Piece)
    (before : FileTree) (log : List Stored) (after : FileTree) : Prop where
  each : List.Forall₂ (Piece.IsFilledAs before destination data) pieces log
  placed : ∀ stored ∈ log, after.place true stored.path = .ok stored.place
  last : ∀ front stored back, log = front ++ stored :: back →
    (∀ later ∈ back, later.place ≠ stored.place) →
    ∀ path, after.place true path = .ok stored.place → after.read path = .ok stored.content
  others {place : List String} {content : ByteArray}
    (untouched : ∀ stored ∈ log, stored.place ≠ place) :
    after.entry? place = some (.file content) ↔ before.entry? place = some (.file content)
  keeps : before.Keeps after

theorem isFilledIn_of_stores
    (each : List.Forall₂ (Piece.IsFilledAs before destination data) pieces log)
    (stores : before.Stores log after) : IsFilledIn destination data pieces before log after where
  each := each
  placed _ := stores.place_eq
  last := by
    rintro front stored back rfl unmatched path placed
    have own := FileTree.lastStored_of_unmatched front unmatched
    exact FileTree.read_eq_ok_iff.mpr
      ⟨_, FileTree.lookup_eq_ok_iff.mpr ⟨placed, stores.content_eq own⟩⟩
  others := stores.content_iff
  keeps := stores.keeps

/-- A piece is filled in as one file only. -/
theorem Piece.IsFilledAs.path_content_eq {stored : Stored} {path : Path}
    {content filled : ByteArray} (isFilledAs : piece.IsFilledAs tree destination data stored)
    (named : piece.filledPath destination data = .ok path)
    (read : tree.read piece.origin = .ok content)
    (content_eq : piece.filledContent data content = .ok filled) :
    stored.path = path ∧ stored.content = filled := by
  obtain ⟨sameContent, readToo, filledToo⟩ := isFilledAs.content_eq
  obtain rfl : content = sameContent := Except.ok.inj (read.symm.trans readToo)
  exact ⟨Except.ok.inj (isFilledAs.path_eq.symm.trans named),
    Except.ok.inj (filledToo.symm.trans content_eq)⟩

/-- What is stored at its place last is read there. -/
theorem IsFilledIn.read_eq {log : List Stored} {stored : Stored}
    (isFilledIn : IsFilledIn destination data pieces before log after) (front back : List Stored)
    (split : log = front ++ stored :: back)
    (unmatched : ∀ later ∈ back, later.place ≠ stored.place) :
    after.read stored.path = .ok stored.content :=
  isFilledIn.last front stored back split unmatched _ (isFilledIn.placed stored (by simp [split]))

theorem isPieceOf_of_mem (skeleton : tree.IsSkeleton root place)
    (member : piece ∈ piecesBelow tree root) : piece.IsPieceOf tree root place := by
  obtain ⟨parts, listed, rfl⟩ := List.mem_map.mp member
  obtain ⟨content, isFile⟩ := skeleton.mem_filesBelow_iff.mp listed
  exact ⟨rfl, parts, content, rfl, isFile⟩

/-- The skeleton of a directory is the pieces that are found in it. -/
theorem run_fillSkeleton (found : tree.isDirectory root = true) (destination : Path)
    (data : List (String × Value)) : (fillSkeleton root destination data).run.run tree =
      (fillAll (piecesBelow tree root) destination data).run.run tree := by
  have tell : (Disk.tree).run.run tree = (.ok tree, tree) := rfl
  have asked : (Disk.ofExcept (tree.ask FileTree.isDirectory root)).run.run tree =
      (.ok true, tree) := by
    rw [FileTree.ask_of_isDirectory found]
    rfl
  unfold fillSkeleton
  rw [Disk.run_bind tell, Disk.run_bind asked]
  rfl

/-- Filling in pieces of a skeleton that are clear of it, and doing so again in what is left. -/
theorem fillAll_of_run (skeleton : before.IsSkeleton root place)
    (blankless : "" ∉ before.absolute destination)
    (arePieces : ∀ piece ∈ pieces, piece.IsPieceOf before root place)
    (clear : ∀ piece ∈ pieces, piece.IsClear before place destination data)
    (ran : (fillAll pieces destination data).run.run before = (.ok paths, after)) :
    ∃ log : List Stored, paths = log.map Stored.path ∧
      Fills before place destination data pieces before log after ∧
      (fillAll pieces destination data).run.run after = (.ok paths, after) := by
  obtain ⟨⟨⟩, made, making, filling⟩ := Disk.exists_of_run_bind ran
  obtain ⟨directories, spares⟩ :=
    spares_of_makeDirectories (.refl skeleton.proper place) making
  obtain ⟨log, rfl, filled, again⟩ :=
    fills_of_mapM_fill skeleton blankless arePieces clear spares filling
  have stores : before.Stores log after := directories.append filled.stores
  refine ⟨log, rfl, ⟨filled.each, stores, filled.spares⟩, ?_⟩
  have there := FileTree.makeDirectories_again (Disk.of_run_makeDirectories making)
    filled.stores.keeps
  rw [fillAll, Disk.run_bind (Disk.run_makeDirectories there),
    again after (.refl after) filled.spares, stores.storeAll_eq filled.spares.proper.distinct]

theorem fillAll_of_run_error (skeleton : before.IsSkeleton root place)
    (blankless : "" ∉ before.absolute destination)
    (arePieces : ∀ piece ∈ pieces, piece.IsPieceOf before root place)
    (clear : ∀ piece ∈ pieces, piece.IsClear before place destination data)
    (ran : (fillAll pieces destination data).run.run before = (.error fault, after)) :
    before.Spares place after ∧
      (fillAll pieces destination data).run.run after = (.error fault, after) ∧
      ((Disk.makeDirectories destination).run.run before = (.error fault, after) ∧
          before.Stores [] after ∨
        ∃ front piece back log between, pieces = front ++ piece :: back ∧
          List.Forall₂ (Piece.IsFilledAs before destination data) front log ∧
          before.Stores log between ∧ before.Stores log after ∧
          piece.Fails destination data between fault after) := by
  rcases Disk.of_run_bind_error ran with making | ⟨⟨⟩, made, making, filling⟩
  · obtain ⟨stores, spares⟩ := spares_of_makeDirectories (.refl skeleton.proper place) making
    exact ⟨spares, Disk.run_bind_error (Disk.run_makeDirectories_again making),
      .inl ⟨making, stores⟩⟩
  · obtain ⟨directories, spares⟩ :=
      spares_of_makeDirectories (.refl skeleton.proper place) making
    obtain ⟨front, piece, back, answers, between, rfl, early, refused⟩ :=
      Disk.exists_of_run_mapM_error filling
    obtain ⟨arePiecesEarly, arePieces⟩ := List.forall_mem_append.mp arePieces
    obtain ⟨isPiece, -⟩ := List.forall_mem_cons.mp arePieces
    obtain ⟨clearEarly, -⟩ := List.forall_mem_append.mp clear
    obtain ⟨log, rfl, filled, again⟩ :=
      fills_of_mapM_fill skeleton blankless arePiecesEarly clearEarly spares early
    obtain ⟨left, sparesLeft, refusedAgain⟩ :=
      spares_of_fill_error isPiece.untexted filled.spares refused
    have stores : before.Stores log between := directories.append filled.stores
    have storesLeft : before.Stores log after := by simpa using stores.append left
    have there := FileTree.makeDirectories_again (Disk.of_run_makeDirectories making)
      (filled.stores.append left).keeps
    have earlyAgain := again after left.keeps sparesLeft
    rw [storesLeft.storeAll_eq sparesLeft.proper.distinct] at earlyAgain
    refine ⟨sparesLeft, ?_, .inr ⟨front, piece, back, log, between, rfl, filled.each, stores,
      storesLeft, (Piece.run_fill_eq_error_iff isPiece.untexted).mp refused⟩⟩
    rw [fillAll, Disk.run_bind (Disk.run_makeDirectories there)]
    exact Disk.run_mapM_error earlyAgain refusedAgain back

/-- A skeleton is filled in file by file, in the order of their paths. Where several files lead to
one place the last of them stays, and every other file is left alone. A fault at one file leaves the
files before it filled in and stores nothing else. Doing it again ends in the same way and changes
nothing. -/
theorem skeleton_is_filled_in_file_by_file {result : Except Fault (List Path)}
    (skeleton : before.IsSkeleton root place) (blankless : "" ∉ before.absolute destination)
    (clear : ∀ piece ∈ piecesBelow before root, piece.IsClear before place destination data)
    (ran : (fillSkeleton root destination data).run.run before = (result, after)) :
    (before.filesBelow root).Pairwise FileTree.Precedes ∧
      (∀ parts, parts ∈ before.filesBelow root ↔
        ∃ content, before.entry? (place ++ parts) = some (.file content)) ∧
      (∀ paths, result = .ok paths → ∃ log : List Stored, paths = log.map Stored.path ∧
        IsFilledIn destination data (piecesBelow before root) before log after) ∧
      (∀ fault, result = .error fault →
        (Disk.makeDirectories destination).run.run before = (.error fault, after) ∧
            IsFilledIn destination data [] before [] after ∨
          ∃ front piece back log between, piecesBelow before root = front ++ piece :: back ∧
            IsFilledIn destination data front before log between ∧
            piece.Fails destination data between fault after ∧
            IsFilledIn destination data front before log after) ∧
      (fillSkeleton root destination data).run.run after = (result, after) := by
  have arePieces : ∀ piece ∈ piecesBelow before root, piece.IsPieceOf before root place :=
    fun piece => isPieceOf_of_mem skeleton
  have isDirectory : before.isDirectory root = true :=
    FileTree.isDirectory_iff.mpr ⟨place, skeleton.found⟩
  have again (spares : before.Spares place after) :
      (fillSkeleton root destination data).run.run after =
        (fillAll (piecesBelow before root) destination data).run.run after := by
    rw [run_fillSkeleton (spares.keeps.isDirectory isDirectory), piecesBelow, piecesBelow,
      skeleton.filesBelow_later spares]
  refine ⟨skeleton.pairwise_filesBelow, fun parts => skeleton.mem_filesBelow_iff, ?_⟩
  rw [run_fillSkeleton isDirectory] at ran
  cases result with
  | ok paths =>
    obtain ⟨log, paths_eq, filled, ranAgain⟩ :=
      fillAll_of_run skeleton blankless arePieces clear ran
    refine ⟨?_, nofun, (again filled.spares).trans ranAgain⟩
    rintro _ ⟨⟩
    exact ⟨log, paths_eq, isFilledIn_of_stores filled.each filled.stores⟩
  | error fault =>
    obtain ⟨spares, ranAgain, ended⟩ :=
      fillAll_of_run_error skeleton blankless arePieces clear ran
    refine ⟨nofun, ?_, (again spares).trans ranAgain⟩
    rintro _ ⟨⟩
    rcases ended with
      ⟨making, stores⟩ | ⟨front, piece, back, log, between, split, each, stores, left, fails⟩
    · exact .inl ⟨making, isFilledIn_of_stores .nil stores⟩
    · exact .inr ⟨front, piece, back, log, between, split, isFilledIn_of_stores each stores,
        fails, isFilledIn_of_stores each left⟩

end

/-- A piece is filled in by what is written, if its file, its directory and its target are all found
without a link on the way. -/
theorem Piece.run_fill_of_isStraight {piece : Piece} {tree : FileTree} {target : Path}
    {destination : Path} {data : List (String × Value)} {content filled : ByteArray}
    (untexted : piece.text = none) (named : piece.filledPath destination data = .ok target)
    (straight : ∀ path ∈ [piece.origin, target.parent, target], tree.isStraight path = true)
    (found : tree.entry? piece.origin.parts = some (.file content))
    (directory : tree.entry? target.parent.parts = some .directory)
    (notDirectory : tree.entry? target.parts ≠ some .directory)
    (apart : target.parts ≠ piece.origin.parts)
    (content_eq : piece.filledContent data content = .ok filled) :
    (piece.fill destination data).run.run tree =
      (.ok target, tree.set target.parts (.file filled)) := by
  simp only [List.forall_mem_cons, List.not_mem_nil, false_implies, implies_true,
    and_true] at straight
  obtain ⟨fromHere, parent, toThere⟩ := straight
  have elsewhere : tree.place true target ≠ .ok piece.origin.parts := by
    rw [FileTree.place_of_isStraight toThere true]
    exact fun same => apart (Except.ok.inj same)
  refine (run_fill_eq_ok_iff untexted).mpr
    ⟨named, tree, FileTree.makeDirectories_of_isStraight parent directory, ?_⟩
  exact (enter_eq_ok_iff (FileTree.lookup_of_isStraight fromHere found) elsewhere).mpr
    ⟨filled, content_eq, FileTree.write_of_isStraight toThere notDirectory filled⟩

/-! A skeleton of a greeting, of notes, and of a template that is filled in at the place of the
greeting. -/

namespace Greeting

def template : String := "\x7b\x7b name \x7d\x7d.txt.j2"

def source : String := "Hello \x7b\x7b name \x7d\x7d"

def draft : ByteArray := "Dear Ada".toUTF8

def notes : ByteArray := "None yet".toUTF8

def files : FileTree where
  entries := ⟨[(["skeleton"], .directory), (["skeleton", template], .file source.toUTF8),
    (["skeleton", "notes.txt"], .file notes), (["skeleton", "Ada.txt"], .file draft),
    (["out"], .directory)]⟩

def root : Path := ⟨"/", ["skeleton"]⟩

def destination : Path := ⟨"/", ["out"]⟩

def data : List (String × Value) := [("name", .text "Ada")]

def piece (name : String) : Piece := ⟨name, ⟨"/", ["skeleton", name]⟩, none⟩

/-- The pieces in the order of their paths. -/
def pieces : List Piece := [piece "Ada.txt", piece "notes.txt", piece template]

def target (name : String) : Path := ⟨"/", ["out", name]⟩

def drafted : FileTree := files.set (target "Ada.txt").parts (.file draft)

def noted : FileTree := drafted.set (target "notes.txt").parts (.file notes)

def filled : FileTree := noted.set (target "Ada.txt").parts (.file "Hello Ada".toUTF8)

theorem mem_entries {place : List String} {entry : FileTree.Entry}
    (found : files.entry? place = some entry) (below : place ≠ []) :
    (place, entry) ∈ files.entries.entries := by
  rw [FileTree.entry_eq_get? below] at found
  exact OrderedMap.mem_entries_of_get? found

theorem exists_file_iff {parts : List String} :
    (∃ content, files.entry? (["skeleton"] ++ parts) = some (.file content)) ↔
      parts ∈ [["Ada.txt"], ["notes.txt"], [template]] := by
  constructor
  · rintro ⟨content, found⟩
    have member := mem_entries found (by simp)
    simp only [files, List.mem_cons, List.not_mem_nil, or_false, Prod.mk.injEq, List.cons_append,
      List.nil_append, List.cons.injEq] at member ⊢
    tauto
  · intro member
    simp only [List.mem_cons, List.not_mem_nil, or_false] at member
    rcases member with rfl | rfl | rfl <;> exact ⟨_, rfl⟩

theorem skeleton : files.IsSkeleton root ["skeleton"] where
  proper := ⟨by decide, by unfold FileTree.IsDotless; decide⟩
  found := FileTree.lookup_of_isStraight rfl rfl
  noLink parts target linked := by
    have member := mem_entries linked (by simp)
    simp [files] at member
  straight parts content isFile := by
    have member := exists_file_iff.mp ⟨content, isFile⟩
    simp only [List.mem_cons, List.not_mem_nil, or_false] at member
    rcases member with rfl | rfl | rfl <;> rfl

theorem pieces_eq : piecesBelow files root = pieces := by
  have sorted : [["Ada.txt"], ["notes.txt"], [template]].Pairwise FileTree.Precedes := by
    unfold FileTree.Precedes
    decide
  have listing : files.filesBelow root = [["Ada.txt"], ["notes.txt"], [template]] :=
    skeleton.filesBelow_eq sorted fun parts => exists_file_iff.symm
  rw [piecesBelow, listing]
  rfl

theorem filledPath_eq {name : String} {path : Path} (rendered : String)
    (isRendered : (renderText name data).toOption = some rendered)
    (path_eq : (if (piece name).isTemplate then (destination.joinText rendered).withoutSuffix
      else destination.joinText rendered) = path) :
    (piece name).filledPath destination data = .ok path := by
  cases found : renderText name data with
  | error _ =>
    rw [found] at isRendered
    cases isRendered
  | ok text =>
    rw [found] at isRendered
    cases isRendered
    have named : renderText (piece name).name data = .ok rendered := found
    rw [Piece.filledPath, named, ← path_eq]
    rfl

theorem draft_named : (piece "Ada.txt").filledPath destination data = .ok (target "Ada.txt") :=
  filledPath_eq "Ada.txt" (by decide +kernel) (by decide +kernel)

theorem notes_named : (piece "notes.txt").filledPath destination data = .ok (target "notes.txt") :=
  filledPath_eq "notes.txt" (by decide +kernel) (by decide +kernel)

theorem template_named : (piece template).filledPath destination data = .ok (target "Ada.txt") :=
  filledPath_eq "Ada.txt.j2" (by decide +kernel) (by decide +kernel)

theorem content_eq : (piece template).filledContent data source.toUTF8 =
    .ok "Hello Ada".toUTF8 := by
  have lines : String.ofList (Text.unifyLineEnds source.toList) = source := by decide +kernel
  have read : Piece.sourceOf source.toUTF8 = .ok source := by
    rw [Piece.sourceOf_toUTF8, lines]
  have rendered : render source data = .ok "Hello Ada" := by
    have succeeds : (render source data).isOk = true := by decide +kernel
    have text : (render source data).toOption.getD "" = "Hello Ada" := by decide +kernel
    rw [Answers.eq_ok_of_isOk "" succeeds, text]
  exact Piece.filledContent_of_render rfl read rendered

theorem clear : ∀ piece ∈ piecesBelow files root,
    piece.IsClear files ["skeleton"] destination data := by
  have outside {name : String} {piece : Piece}
      (named : piece.filledPath destination data = .ok (target name))
      (straight : files.isStraight (target name) = true) (given : name ≠ "") :
      piece.IsClear files ["skeleton"] destination data := by
    intro path found
    obtain rfl := Except.ok.inj (named.symm.trans found)
    have placed := FileTree.place_of_isStraight straight true
    have blankless : "" ∉ files.absolute (target name) := by
      simp [FileTree.absolute, target, Path.isAbsolute, given.symm]
    rw [(FileTree.Keeps.refl files).realPath_of_place blankless placed]
    rfl
  rw [pieces_eq]
  simp only [pieces, List.forall_mem_cons, List.not_mem_nil, false_implies, implies_true, and_true]
  exact ⟨outside draft_named rfl (by decide), outside notes_named rfl (by decide),
    outside template_named rfl (by decide)⟩

theorem ran : (fillSkeleton root destination data).run.run files =
    (.ok [target "Ada.txt", target "notes.txt", target "Ada.txt"], filled) := by
  have isDirectory : files.isDirectory root = true :=
    FileTree.isDirectory_iff.mpr ⟨_, skeleton.found⟩
  have out : files.makeDirectories destination = .ok files :=
    FileTree.makeDirectories_of_isStraight rfl rfl
  have first : ((piece "Ada.txt").fill destination data).run.run files =
      (.ok (target "Ada.txt"), drafted) :=
    Piece.run_fill_of_isStraight rfl draft_named (by decide +kernel) rfl rfl nofun (by decide) rfl
  have second : ((piece "notes.txt").fill destination data).run.run drafted =
      (.ok (target "notes.txt"), noted) :=
    Piece.run_fill_of_isStraight rfl notes_named (by decide +kernel) rfl rfl nofun (by decide) rfl
  have third : ((piece template).fill destination data).run.run noted =
      (.ok (target "Ada.txt"), filled) :=
    Piece.run_fill_of_isStraight rfl template_named (by decide +kernel) rfl rfl nofun (by decide)
      content_eq
  simp only [run_fillSkeleton isDirectory, pieces_eq, pieces, fillAll, List.mapM_cons, bind_assoc,
    Disk.run_bind (Disk.run_makeDirectories out), Disk.run_bind first, Disk.run_bind second,
    Disk.run_bind third]
  rfl

/-- A copy and a template for one file, and a copy of another between them. What the template is
filled in to is what the file holds. -/
theorem files_of_one_target_are_filled_in :
    let paths := [target "Ada.txt", target "notes.txt", target "Ada.txt"]
    files.IsSkeleton root ["skeleton"] ∧ "" ∉ files.absolute destination ∧
      (∀ piece ∈ piecesBelow files root, piece.IsClear files ["skeleton"] destination data) ∧
      (fillSkeleton root destination data).run.run files = (.ok paths, filled) ∧
      (∃ log : List Stored, paths = log.map Stored.path ∧
        IsFilledIn destination data (piecesBelow files root) files log filled) ∧
      filled.read (target "notes.txt") = .ok notes ∧
      filled.read (target "Ada.txt") = .ok "Hello Ada".toUTF8 ∧
      (fillSkeleton root destination data).run.run filled = (.ok paths, filled) := by
  intro paths
  have blankless : "" ∉ files.absolute destination := by decide
  obtain ⟨-, -, ended, -, again⟩ :=
    skeleton_is_filled_in_file_by_file skeleton blankless clear ran
  obtain ⟨log, paths_eq, isFilledIn⟩ := ended _ rfl
  refine ⟨skeleton, blankless, clear, ran, ⟨log, paths_eq, isFilledIn⟩, ?_⟩
  have each := isFilledIn.each
  rw [pieces_eq, pieces] at each
  rcases each with _ | @⟨_, first, _, _, -, _ | @⟨_, second, _, _, isNotes, _ |
    @⟨_, third, _, _, isGreeting, ⟨⟩⟩⟩⟩
  obtain ⟨second_path, second_content⟩ :=
    isNotes.path_content_eq notes_named (FileTree.read_of_isStraight rfl rfl) rfl
  obtain ⟨third_path, third_content⟩ :=
    isGreeting.path_content_eq template_named (FileTree.read_of_isStraight rfl rfl) content_eq
  have apart : third.place ≠ second.place := by
    have secondPlaced := isFilledIn.placed second (by simp)
    have thirdPlaced := isFilledIn.placed third (by simp)
    rw [second_path, FileTree.place_of_isStraight rfl] at secondPlaced
    rw [third_path, FileTree.place_of_isStraight rfl] at thirdPlaced
    rw [← Except.ok.inj secondPlaced, ← Except.ok.inj thirdPlaced]
    decide
  refine ⟨?_, ?_, again⟩
  · rw [← second_path, ← second_content]
    exact isFilledIn.read_eq [first] [third] rfl (by simpa using apart)
  · rw [← third_path, ← third_content]
    exact isFilledIn.read_eq [first, second] [] rfl (by simp)

end Greeting

end DesignGraph.Template
