import DesignGraph.Proofs.Export.Protocol
import DesignGraph.Proofs.Text.Trimmed

/-!
# The exported file

An export looks for the source as it is given, and hands the source without blanks at its ends to
the tool. The tool opens what it is given as an operating system does, where a path that ends in a
slash is one of a directory. So the file that is exported need not be the one that was accepted.
-/

namespace DesignGraph

/-- The place of the regular file that a path leads to. -/
def FileTree.fileAt? (tree : FileTree) (path : Path) : Option (List String) :=
  match tree.lookup path with
  | .ok (place, .file _) => some place
  | _ => none

theorem FileTree.isSome_fileAt? {tree : FileTree} {path : Path} (isFile : tree.isFile path = true) :
    (tree.fileAt? path).isSome = true := by
  obtain ⟨place, content, found⟩ := isFile_iff.mp isFile
  rw [fileAt?, found]
  rfl

namespace Sketch

open Exporting

/-- Whether a written path is one of a directory, whatever is there. -/
def asksForDirectory (s : String) : Bool :=
  match (Path.segments s).getLast? with
  | some last => last = "" || last = "."
  | none => true

/-- The place of the regular file that a command opens under a written path. -/
def fileNamed? (tree : FileTree) (s : String) : Option (List String) :=
  if asksForDirectory s then none else tree.fileAt? (Path.ofString s)

/-- Every command but the query has as its last argument, which is its source, the accepted file. -/
def NamesAccepted (tree : FileTree) (source : String) (run : List (List String)) : Prop :=
  ∀ command ∈ run, command ≠ query → ∃ named place, command.getLast? = some named ∧
    fileNamed? tree named = some place ∧ tree.fileAt? (Path.ofString source) = some place

variable {tree : FileTree} {source : String} {output : Path}

theorem canParse_eq_ok_true_iff : canParse tree source = .ok true ↔
    (Path.ofString (Text.trimmed source)).suffix = extension ∧
      tree.isFile (Path.ofString source) = true := by
  unfold canParse
  split_ifs with right
  · rw [FileTree.ask_isFile_iff, and_iff_right right]
  · simp [right]

/-- A source without blanks at its ends is named as it is. -/
theorem trimmed_of_isTrimmed (unpadded : Text.IsTrimmed source.toList) :
    Text.trimmed source = source := by
  rw [Text.trimmed, Text.trim_of_isTrimmed unpadded, String.ofList_toList]

/-- A command of an export is the query, or exports a part of the source without blanks. -/
theorem eq_of_mem_commands {found : String} {command : List String}
    (member : command ∈ commands tree source output found) (notQuery : command ≠ query) :
    ∃ tool, ∃ part ∈ parts, command = exportCommand tool output (Text.trimmed source) part := by
  rcases List.mem_cons.mp member with first | later
  · exact absurd first notQuery
  · split at later
    · next tool _ =>
      obtain ⟨part, listed, rfl⟩ := List.mem_map.mp later
      exact ⟨tool, part, listed, rfl⟩
    · cases later

/-- The exported file is the accepted one exactly if nothing is exported, or if the source without
blanks leads where the source itself leads. A source without blanks at its ends does, unless it is
written as a directory. -/
theorem exported_file_is_accepted_iff (tree : FileTree) (host source : String) (output : Path)
    (before : Transcript) :
    ∃ run, (outcome (exportAssets tree host source output) before).2.calls = before.calls ++ run ∧
      (∀ command ∈ run, (tree.fileAt? (Path.ofString source)).isSome = true ∧
        (command = query ∨ ∃ tool, ∃ part ∈ parts,
          command = exportCommand tool output (Text.trimmed source) part)) ∧
      (NamesAccepted tree source run ↔ ((∃ command ∈ run, command ≠ query) →
        fileNamed? tree (Text.trimmed source) = tree.fileAt? (Path.ofString source))) ∧
      (Text.IsTrimmed source.toList → asksForDirectory source = false →
        NamesAccepted tree source run) := by
  obtain ⟨run, calls, ordered, guarded⟩ := exists_run tree host source output before
  have accepted : ∀ command ∈ run, (tree.fileAt? (Path.ofString source)).isSome = true := by
    intro command member
    obtain ⟨parsed, -⟩ := guarded (List.ne_nil_of_mem member)
    exact FileTree.isSome_fileAt? (canParse_eq_ok_true_iff.mp parsed).2
  have exports : ∀ command ∈ run, command ≠ query → ∃ tool, ∃ part ∈ parts,
      command = exportCommand tool output (Text.trimmed source) part :=
    fun command member => eq_of_mem_commands (ordered.subset member)
  have names_iff : NamesAccepted tree source run ↔ ((∃ command ∈ run, command ≠ query) →
      fileNamed? tree (Text.trimmed source) = tree.fileAt? (Path.ofString source)) := by
    constructor
    · rintro names ⟨command, member, notQuery⟩
      obtain ⟨named, place, last, opened, checked⟩ := names command member notQuery
      obtain ⟨tool, part, -, rfl⟩ := exports command member notQuery
      obtain rfl : Text.trimmed source = named := by simpa [exportCommand] using last
      rw [opened, checked]
    · intro same command member notQuery
      obtain ⟨place, checked⟩ := Option.isSome_iff_exists.mp (accepted command member)
      obtain ⟨tool, part, -, rfl⟩ := exports command member notQuery
      exact ⟨_, place, rfl, (same ⟨_, member, notQuery⟩).trans checked, checked⟩
  refine ⟨run, calls, fun command member => ⟨accepted command member, ?_⟩, names_iff, ?_⟩
  · by_cases first : command = query
    · exact .inl first
    · exact .inr (exports command member first)
  · intro unpadded noDirectory
    rw [names_iff, trimmed_of_isTrimmed unpadded, fileNamed?, noDirectory]
    exact fun _ => rfl

/-- A design file whose name ends in a blank is accepted, and one that is not there is exported. -/
theorem padded_source_is_not_exported :
    let tree := installedTree "icons.sketch "
    let before : Transcript := { answers := [.finished "/Sketch.app\n" "" 0] }
    let ending := outcome (exportAssets tree platform "/icons.sketch " ⟨"/", ["out"]⟩) before
    ending.2.calls = query :: parts.map
        (exportCommand ⟨"/", "Sketch.app" :: toolPath.parts⟩ ⟨"/", ["out"]⟩ "/icons.sketch") ∧
      tree.fileAt? (Path.ofString "/icons.sketch ") = some ["icons.sketch "] ∧
      fileNamed? tree "/icons.sketch" = none ∧
      ¬ NamesAccepted tree "/icons.sketch " ending.2.calls := by
  intro tree before ending
  have calls : ending.2.calls = query :: parts.map
      (exportCommand ⟨"/", "Sketch.app" :: toolPath.parts⟩ ⟨"/", ["out"]⟩ "/icons.sketch") := by
    decide +kernel
  have absent : fileNamed? tree "/icons.sketch" = none := by decide +kernel
  refine ⟨calls, by decide +kernel, absent, fun names => ?_⟩
  rw [calls] at names
  obtain ⟨named, place, last, opened, -⟩ := names _ (.tail _ (.head _)) (by decide)
  obtain rfl : "/icons.sketch" = named := by simpa [exportCommand] using last
  rw [absent] at opened
  cases opened

end Sketch

end DesignGraph
