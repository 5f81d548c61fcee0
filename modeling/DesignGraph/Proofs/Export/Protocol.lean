import DesignGraph.Proofs.Export.Commands
import DesignGraph.Proofs.FileTree

/-!
# The protocol of an export

An export asks for the installations of the design program and then exports one part of the file
after the other, with the tool of the first installation that has it. `FollowsProtocol` is what the
transcript and the end of an export have to be. They are so unless the list of installations has a
line with a name that is too long before the first one with the tool: that line is not passed over
like others that lead nowhere, and the fault of the file system takes the place of the tool's.
-/

namespace DesignGraph.Sketch

open Exporting

variable {tree : FileTree} {host source : String} {output : Path} {before : Transcript}

/-- The tool of the first installation that has it, on a list of installations. -/
def installedTool (tree : FileTree) (found : String) : Option Path :=
  (toolsIn found).find? tree.isPresent

/-- Whether a list of installations leads to a name that is too long before it leads to the tool. -/
def LeadsTooFar (tree : FileTree) (found : String) : Prop :=
  ∃ tool ∈ (toolsIn found).takeWhile fun tool => !tree.isPresent tool,
    tree.lookup tool = .error .nameTooLong

/-- The commands of an export, by the answer to the first of them. -/
def commands (tree : FileTree) (source : String) (output : Path) (found : String) :
    List (List String) :=
  query :: match installedTool tree found with
    | some tool => parts.map (exportCommand tool output (Text.trimmed source))
    | none => []

/-- What an export is to do: the commands `run` are those that it has added to the transcript. -/
structure FollowsProtocol (tree : FileTree) (host source : String) (output : Path)
    (before : Transcript) (ending : Except Fault Unit × Transcript)
    (run : List (List String)) : Prop where
  calls : ending.2.calls = before.calls ++ run
  ordered : run <+: commands tree source output (before.answer 0).text
  guarded : run ≠ [] → canParse tree source = .ok true ∧ host = platform
  /-- A command is run exactly if all before it succeed. -/
  reaches : canParse tree source = .ok true → host = platform →
    ∀ n < (commands tree source output (before.answer 0).text).length,
      n < run.length ↔ ∀ m < n, (before.answer m).succeeds = true
  returns : ending.1 = .ok () ↔ run.length = 3 ∧ ∀ n < 3, (before.answer n).succeeds = true
  /-- The source is looked at before the platform is. -/
  invalidSource : canParse tree source = .ok false →
    ending.1 = .error (.exporter .invalidSource)
  unsupportedPlatform : canParse tree source = .ok true → host ≠ platform →
    ending.1 = .error (.exporter .unsupportedPlatform)
  fails : canParse tree source = .ok true → host = platform → ∀ fault, ending.1 = .error fault →
    ∃ message, fault = .exporter (.tool message)

/-! ## The search for the tool -/

theorem findM?_ask_eq_ok {places : List Path}
    (short : ∀ place ∈ places.takeWhile fun place => !tree.isPresent place,
      tree.lookup place ≠ .error .nameTooLong) :
    places.findM? (tree.ask FileTree.isPresent) = .ok (places.find? tree.isPresent) := by
  induction places with
  | nil => rfl
  | cons place places ih =>
    cases present : tree.isPresent place with
    | true =>
      have asked : tree.ask FileTree.isPresent place = .ok true := by
        refine FileTree.ask_eq_ok_iff.mpr ⟨fun tooLong => ?_, present⟩
        rw [FileTree.isPresent, tooLong] at present
        cases present
      rw [List.findM?, asked, List.find?_cons_of_pos present]
      rfl
    | false =>
      rw [List.takeWhile_cons_of_pos (by simp [present]), List.forall_mem_cons] at short
      have asked : tree.ask FileTree.isPresent place = .ok false :=
        FileTree.ask_eq_ok_iff.mpr ⟨short.1, present⟩
      rw [List.findM?, asked, List.find?_cons_of_neg (by simp [present])]
      exact ih short.2

theorem findM?_ask_eq_error {places : List Path}
    (tooFar : ∃ place ∈ places.takeWhile fun place => !tree.isPresent place,
      tree.lookup place = .error .nameTooLong) :
    places.findM? (tree.ask FileTree.isPresent) = .error .fileSystem := by
  induction places with
  | nil => simp at tooFar
  | cons place places ih =>
    cases present : tree.isPresent place with
    | true =>
      rw [List.takeWhile_cons_of_neg (by simp [present])] at tooFar
      simp at tooFar
    | false =>
      rw [List.takeWhile_cons_of_pos (by simp [present])] at tooFar
      by_cases tooLong : tree.lookup place = .error .nameTooLong
      · rw [List.findM?, FileTree.ask, tooLong]
        rfl
      · have asked : tree.ask FileTree.isPresent place = .ok false :=
          FileTree.ask_eq_ok_iff.mpr ⟨tooLong, present⟩
        rw [List.findM?, asked]
        obtain ⟨other, listed, found⟩ := tooFar
        rcases List.mem_cons.mp listed with rfl | later
        · exact absurd found tooLong
        · exact ih ⟨other, later, found⟩

/-! ## The steps of an export -/

/-- What an export does with a list of installations. -/
def exportWith (tree : FileTree) (source : String) (output : Path) (found : String) :
    Exporting Unit := do
  match ← Exporting.ofExcept ((toolsIn found).findM? (tree.ask FileTree.isPresent)) with
  | some tool => parts.forM fun part => exportPart tool output (Text.trimmed source) part
  | none => fail "Unable to locate a Sketch installation with sketchtool."

theorem exportWith_of_near {found : String} (near : ¬ LeadsTooFar tree found) :
    exportWith tree source output found =
      match installedTool tree found with
      | some tool => parts.forM fun part => exportPart tool output (Text.trimmed source) part
      | none => fail "Unable to locate a Sketch installation with sketchtool." := by
  have found_eq : (toolsIn found).findM? (tree.ask FileTree.isPresent) =
      .ok (installedTool tree found) :=
    findM?_ask_eq_ok fun tool listed tooLong => near ⟨tool, listed, tooLong⟩
  rw [exportWith, found_eq]
  exact pure_bind _ _

theorem exportWith_of_far {found : String} (far : LeadsTooFar tree found) :
    exportWith tree source output found = throw .fileSystem := by
  rw [exportWith, findM?_ask_eq_error far]
  rfl

/-- An export that is not refused asks for the installations first. -/
theorem exportAssets_of_accepted (accepted : canParse tree source = .ok true) :
    exportAssets tree platform source output =
      (report "Locating sketchtool" >>= fun _ =>
        runCommand query standardTimeout >>= exportWith tree source output) := by
  simp only [exportAssets, locateTool, accepted, Exporting.ofExcept, pure_bind, bind_assoc,
    Bool.not_true, Bool.false_eq_true, if_false, ne_eq, not_true_eq_false]
  refine congrArg _ (funext fun _ => congrArg _ (funext fun found => ?_))
  unfold exportWith
  refine congrArg _ (funext fun tool? => ?_)
  cases tool? with
  | none => rfl
  | some tool => exact pure_bind tool _

theorem outcome_exportAssets_of_refused (refused : canParse tree source = .ok false)
    (before : Transcript) :
    outcome (exportAssets tree host source output) before =
      (.error (.exporter .invalidSource), before) := by
  rw [exportAssets, refused]
  rfl

theorem outcome_exportAssets_of_fault {fault : Fault}
    (unanswered : canParse tree source = .error fault) (before : Transcript) :
    outcome (exportAssets tree host source output) before = (.error fault, before) := by
  rw [exportAssets, unanswered]
  rfl

theorem outcome_exportAssets_of_elsewhere (accepted : canParse tree source = .ok true)
    (elsewhere : host ≠ platform) (before : Transcript) :
    outcome (exportAssets tree host source output) before =
      (.error (.exporter .unsupportedPlatform), before) := by
  rw [exportAssets, accepted, Exporting.ofExcept, pure_bind]
  simp only [Bool.not_true, Bool.false_eq_true, if_false, if_pos elsewhere]
  rfl

theorem exists_runsInOrder_exportPart (tool : Path) (source part : String) (before : Transcript) :
    ∃ count, RunsInOrder [exportCommand tool output source part] before
      (outcome (exportPart tool output source part) before) count := by
  refine exists_runsInOrder_report_bind _ fun between _ => ?_
  rw [← List.append_nil [exportCommand tool output source part]]
  exact exists_runsInOrder_bind (exists_runsInOrder_runCommand _ _ between)
    fun _ later _ => ⟨0, runsInOrder_pure () later⟩

/-- The transcript of an export that has asked for the installations. -/
def asked (before : Transcript) : Transcript :=
  (before.reported "Locating sketchtool").noted query

theorem outcome_exportAssets_of_succeeds (accepted : canParse tree source = .ok true)
    (succeeds : (before.answer 0).succeeds = true) :
    outcome (exportAssets tree platform source output) before =
      outcome (exportWith tree source output (before.answer 0).text) (asked before) := by
  have told : ((before.reported "Locating sketchtool").answer 0).succeeds = true := succeeds
  rw [exportAssets_of_accepted accepted, outcome_report_bind, outcome_bind,
    outcome_runCommand_of_succeeds told]
  rfl

theorem outcome_exportAssets_of_fails (accepted : canParse tree source = .ok true)
    (fails : (before.answer 0).succeeds = false) :
    ∃ message, outcome (exportAssets tree platform source output) before =
      (.error (.exporter (.tool message)), asked before) := by
  have told : ((before.reported "Locating sketchtool").answer 0).succeeds = false := fails
  obtain ⟨message, ran⟩ := outcome_runCommand_of_fails told query standardTimeout
  rw [exportAssets_of_accepted accepted, outcome_report_bind, outcome_bind, ran]
  exact ⟨message, rfl⟩

/-- With a tool at hand, or with nothing said about installations, the commands are run in order. -/
theorem exists_runsInOrder_exportAssets (accepted : canParse tree source = .ok true)
    {tool : Path} (installed : installedTool tree (before.answer 0).text = some tool)
    (near : (before.answer 0).succeeds = true → ¬ LeadsTooFar tree (before.answer 0).text) :
    ∃ count, RunsInOrder (commands tree source output (before.answer 0).text) before
      (outcome (exportAssets tree platform source output) before) count := by
  rw [exportAssets_of_accepted accepted, commands, installed, ← List.singleton_append]
  refine exists_runsInOrder_report_bind _ fun between same => ?_
  have answer_eq : between.answer 0 = before.answer 0 := by
    rw [Transcript.answer, same, Transcript.answer]
  refine exists_runsInOrder_bind (exists_runsInOrder_runCommand _ _ between)
    fun found later ran => ?_
  cases succeeds : (before.answer 0).succeeds with
  | false =>
    obtain ⟨message, failed⟩ := outcome_runCommand_of_fails (answer_eq ▸ succeeds) query
      standardTimeout
    rw [failed] at ran
    cases ran
  | true =>
    rw [outcome_runCommand_of_succeeds (answer_eq ▸ succeeds), answer_eq] at ran
    cases ran
    rw [exportWith_of_near (near succeeds), installed]
    exact exists_runsInOrder_forM (exists_runsInOrder_exportPart tool (Text.trimmed source)) parts _

/-! ## The protocol -/

/-- An export with a tool at hand follows the protocol by running its commands in order. -/
theorem followsProtocol_of_runsInOrder (accepted : canParse tree source = .ok true)
    {tool : Path} (installed : installedTool tree (before.answer 0).text = some tool)
    {ending : Except Fault Unit × Transcript} {count : Nat}
    (inOrder : RunsInOrder (commands tree source output (before.answer 0).text) before ending
      count) :
    FollowsProtocol tree platform source output before ending
      ((commands tree source output (before.answer 0).text).take count) := by
  have three : (commands tree source output (before.answer 0).text).length = 3 := by
    rw [commands, installed]
    rfl
  have run : ((commands tree source output (before.answer 0).text).take count).length = count :=
    List.length_take_of_le inOrder.within
  constructor
  · exact inOrder.calls
  · exact List.take_prefix _ _
  · exact fun _ => ⟨accepted, rfl⟩
  · rw [run]
    exact fun _ _ => inOrder.reaches
  · have returns := inOrder.returns
    rw [three] at returns
    rw [run, ← returns]
    constructor
    · intro done
      have returned : ending.1.isOk = true := by rw [done]; rfl
      exact ⟨three ▸ inOrder.count_of_returns returned, returned⟩
    · rintro ⟨-, returned⟩
      exact Answers.eq_ok_of_isOk () returned
  · exact fun refused => by simp [accepted] at refused
  · exact fun _ elsewhere => absurd rfl elsewhere
  · exact fun _ _ => inOrder.fails

/-- An export without a tool follows the protocol by ending with a fault of the tool after the first
command. -/
theorem followsProtocol_of_asked (accepted : canParse tree source = .ok true)
    (absent : installedTool tree (before.answer 0).text = none) {message : String} :
    FollowsProtocol tree platform source output before
      (.error (.exporter (.tool message)), asked before) [query] := by
  have one : commands tree source output (before.answer 0).text = [query] := by
    rw [commands, absent]
  constructor <;> simp [one, asked, accepted]

/-- An export that is refused, or does not know of its source, follows the protocol by running
nothing. -/
theorem followsProtocol_of_refused {fault : Fault}
    (refused : canParse tree source = .ok true → host ≠ platform)
    (invalid : canParse tree source = .ok false → fault = .exporter .invalidSource)
    (elsewhere : canParse tree source = .ok true → fault = .exporter .unsupportedPlatform) :
    FollowsProtocol tree host source output before (.error fault, before) [] := by
  constructor
  · simp
  · exact List.nil_prefix
  · exact fun given => absurd rfl given
  · exact fun accepted here => absurd here (refused accepted)
  · simp
  · exact fun rejected => by rw [invalid rejected]
  · exact fun accepted _ => by rw [elsewhere accepted]
  · exact fun accepted here => absurd here (refused accepted)

/-- An export whose list of installations does not lead to a name that is too long. -/
theorem exists_followsProtocol_of_near
    (near : canParse tree source = .ok true → host = platform → (before.answer 0).succeeds = true →
      ¬ LeadsTooFar tree (before.answer 0).text) :
    ∃ run, FollowsProtocol tree host source output before
      (outcome (exportAssets tree host source output) before) run := by
  rcases parsed : canParse tree source with fault | (_ | _)
  · rw [outcome_exportAssets_of_fault parsed]
    exact ⟨[], followsProtocol_of_refused (by simp [parsed]) (by simp [parsed]) (by simp [parsed])⟩
  · rw [outcome_exportAssets_of_refused parsed]
    exact ⟨[], followsProtocol_of_refused (by simp [parsed]) (by simp) (by simp [parsed])⟩
  by_cases here : host = platform
  · subst here
    cases installed : installedTool tree (before.answer 0).text with
    | some tool =>
      obtain ⟨count, inOrder⟩ := exists_runsInOrder_exportAssets parsed installed (near parsed rfl)
      exact ⟨_, followsProtocol_of_runsInOrder parsed installed inOrder⟩
    | none =>
      refine ⟨[query], ?_⟩
      cases succeeds : (before.answer 0).succeeds with
      | true =>
        rw [outcome_exportAssets_of_succeeds parsed succeeds,
          exportWith_of_near (near parsed rfl succeeds), installed]
        exact followsProtocol_of_asked parsed installed
      | false =>
        obtain ⟨message, ended⟩ := outcome_exportAssets_of_fails parsed succeeds
        rw [ended]
        exact followsProtocol_of_asked parsed installed
  · rw [outcome_exportAssets_of_elsewhere parsed here]
    exact ⟨[], followsProtocol_of_refused (fun _ => here) (by simp [parsed]) (by simp)⟩

theorem outcome_exportAssets_of_far (accepted : canParse tree source = .ok true)
    (succeeds : (before.answer 0).succeeds = true)
    (far : LeadsTooFar tree (before.answer 0).text) :
    outcome (exportAssets tree platform source output) before =
      (.error .fileSystem, asked before) := by
  rw [outcome_exportAssets_of_succeeds accepted succeeds, exportWith_of_far far, outcome_throw]

/-- However an export ends, it has run its commands from the first on up to some of them, and none
unless the source is accepted on the platform of the tool. -/
theorem exists_run (tree : FileTree) (host source : String) (output : Path) (before : Transcript) :
    ∃ run, (outcome (exportAssets tree host source output) before).2.calls = before.calls ++ run ∧
      run <+: commands tree source output (before.answer 0).text ∧
      (run ≠ [] → canParse tree source = .ok true ∧ host = platform) := by
  by_cases far : canParse tree source = .ok true ∧ host = platform ∧
      (before.answer 0).succeeds = true ∧ LeadsTooFar tree (before.answer 0).text
  · obtain ⟨accepted, rfl, succeeds, far⟩ := far
    rw [outcome_exportAssets_of_far accepted succeeds far]
    exact ⟨[query], rfl, List.prefix_append [query] _, fun _ => ⟨accepted, rfl⟩⟩
  · obtain ⟨run, follows⟩ := exists_followsProtocol_of_near
      fun accepted here succeeds tooFar => far ⟨accepted, here, succeeds, tooFar⟩
    exact ⟨run, follows.calls, follows.ordered, follows.guarded⟩

/-- An export follows its protocol exactly as long as the list of installations does not lead to a
name that is too long before it leads to the tool. Where it does, the export ends there, with the
fault of the file system. -/
theorem export_follows_protocol_iff (tree : FileTree) (host source : String) (output : Path)
    (before : Transcript) :
    let ending := outcome (exportAssets tree host source output) before
    let tooFar := canParse tree source = .ok true ∧ host = platform ∧
      (before.answer 0).succeeds = true ∧ LeadsTooFar tree (before.answer 0).text
    ((∃ run, FollowsProtocol tree host source output before ending run) ↔ ¬ tooFar) ∧
    (tooFar → ending.1 = .error .fileSystem ∧ ending.2.calls = before.calls ++ [query]) ∧
    (∀ fault, canParse tree source = .error fault → ending = (.error fault, before)) := by
  intro ending tooFar
  have ended : tooFar → ending = (.error .fileSystem, asked before) := by
    rintro ⟨accepted, rfl, succeeds, far⟩
    exact outcome_exportAssets_of_far accepted succeeds far
  refine ⟨⟨?_, fun near => ?_⟩, fun far => ?_, fun fault unanswered => ?_⟩
  · rintro ⟨run, follows⟩ far
    obtain ⟨accepted, here, -, -⟩ := id far
    obtain ⟨message, tool⟩ := follows.fails accepted here .fileSystem (by rw [ended far])
    cases tool
  · exact exists_followsProtocol_of_near fun accepted here succeeds far =>
      near ⟨accepted, here, succeeds, far⟩
  · rw [ended far]
    exact ⟨rfl, rfl⟩
  · exact outcome_exportAssets_of_fault unanswered before

/-! A design file next to an installation of its program. -/

def installedTree (file : String) : FileTree where
  entries := ⟨[
    ([file], .file ⟨#[]⟩),
    (["Sketch.app"], .directory), (["Sketch.app", "Contents"], .directory),
    (["Sketch.app", "Contents", "Resources"], .directory),
    (["Sketch.app", "Contents", "Resources", "sketchtool"], .directory),
    (["Sketch.app", "Contents", "Resources", "sketchtool", "bin"], .directory),
    (["Sketch.app", "Contents", "Resources", "sketchtool", "bin", "sketchtool"], .file ⟨#[]⟩)]⟩

theorem listed_installation_is_used :
    let tree := installedTree "icons.sketch"
    let before : Transcript := { answers := [.finished "/Sketch.app\n" "" 0] }
    let ending := outcome (exportAssets tree platform "/icons.sketch" ⟨"/", ["out"]⟩) before
    ∃ run, FollowsProtocol tree platform "/icons.sketch" ⟨"/", ["out"]⟩ before ending run ∧
      run.length = 3 := by
  intro tree before ending
  have passed : (toolsIn (before.answer 0).text).takeWhile
      (fun tool => !tree.isPresent tool) = [] := by decide +kernel
  have returned : ending.1.isOk = true := by decide +kernel
  obtain ⟨run, follows⟩ :=
    (export_follows_protocol_iff tree platform "/icons.sketch" ⟨"/", ["out"]⟩ before).1.mpr <| by
      rintro ⟨-, -, -, tool, listed, -⟩
      rw [passed] at listed
      cases listed
  exact ⟨run, follows, (follows.returns.mp (Answers.eq_ok_of_isOk () returned)).1⟩

/-- A line that is no name of a file, as it is longer than the name of any. -/
def longLine : List Char := List.replicate 256 'x'

theorem toolsIn_longLine :
    toolsIn (Text.trimmed (String.ofList (longLine ++ "\n/Sketch.app\n".toList))) =
      [⟨"", String.ofList longLine :: toolPath.parts⟩, ⟨"/", "Sketch.app" :: toolPath.parts⟩] := by
  have lines : Text.lines (Text.trim (longLine ++ "\n/Sketch.app\n".toList)) =
      [longLine, "/Sketch.app".toList] := by decide +kernel
  have trimmed : Text.trim longLine = longLine := by decide +kernel
  have anchor : Path.anchorOf longLine = "" := by decide +kernel
  have pieces : (Text.cutAt '/' longLine).filter (fun cs => cs ≠ [] && cs ≠ ['.']) =
      [longLine] := by decide +kernel
  have line : Path.ofString (String.ofList longLine) = ⟨"", [String.ofList longLine]⟩ := by
    rw [Path.ofString, String.toList_ofList, anchor, pieces, List.map_singleton]
  rw [Text.trimmed, String.toList_ofList, toolsIn, String.toList_ofList, lines,
    List.map_cons, List.map_singleton, trimmed, line]
  rfl

theorem lookup_longLine (file : String) :
    (installedTree file).lookup ⟨"", String.ofList longLine :: toolPath.parts⟩ =
      .error .nameTooLong := by
  refine FileTree.lookup_of_longName rfl ?_ (by decide +kernel)
  rw [Path.isMalformed, List.any_cons, String.toList_ofList]
  decide +kernel

/-- The line before the installation leads nowhere, as no file has so long a name. -/
theorem installation_is_lost_behind_long_line :
    let tree := installedTree "icons.sketch"
    let before : Transcript :=
      { answers := [.finished (String.ofList (longLine ++ "\n/Sketch.app\n".toList)) "" 0] }
    let ending := outcome (exportAssets tree platform "/icons.sketch" ⟨"/", ["out"]⟩) before
    installedTool tree (before.answer 0).text = some ⟨"/", "Sketch.app" :: toolPath.parts⟩ ∧
      ¬ ∃ run, FollowsProtocol tree platform "/icons.sketch" ⟨"/", ["out"]⟩ before ending run := by
  intro tree before ending
  have listed : toolsIn (before.answer 0).text = _ := toolsIn_longLine
  have absent : tree.isPresent ⟨"", String.ofList longLine :: toolPath.parts⟩ = false := by
    rw [FileTree.isPresent, lookup_longLine]
    rfl
  have present : tree.isPresent ⟨"/", "Sketch.app" :: toolPath.parts⟩ = true := by decide +kernel
  have accepted : canParse tree "/icons.sketch" = .ok true :=
    FileTree.ask_isFile_iff.mpr (by decide +kernel)
  refine ⟨?_, fun follows => ?_⟩
  · rw [installedTool, listed, List.find?_cons_of_neg (by simp [absent]),
      List.find?_cons_of_pos present]
  · refine (export_follows_protocol_iff _ _ _ _ before).1.mp follows ⟨accepted, rfl, rfl, ?_⟩
    refine ⟨⟨"", String.ofList longLine :: toolPath.parts⟩, ?_, lookup_longLine _⟩
    rw [listed, List.takeWhile_cons_of_pos (by simp [absent])]
    exact List.mem_cons_self

end DesignGraph.Sketch
