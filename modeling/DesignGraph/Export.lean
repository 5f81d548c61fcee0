import DesignGraph.Disk
import DesignGraph.Text.Line

/-!
# Export of design files

Vector assets are exported from a design file by the tool of its design program, which runs as an
external command.  What the commands answer is given from outside; a transcript keeps the commands
that were run and the progress that was reported, also when the export fails.
-/

namespace DesignGraph

/-- How a command ended. -/
inductive CommandAnswer
  | notFound
  | timedOut
  | finished (output errors : String) (status : Int)

structure Transcript where
  /-- The answers to come; when they are used up, commands succeed and say nothing. -/
  answers : List CommandAnswer := []
  calls : List (List String) := []
  progress : List String := []

abbrev Exporting := ExceptT Fault (StateM Transcript)

namespace Exporting

/-- The names of the signals that can end a command. -/
def signalNames : List (Nat × String) :=
  [(1, "SIGHUP"), (2, "SIGINT"), (3, "SIGQUIT"), (4, "SIGILL"), (5, "SIGTRAP"), (6, "SIGABRT"),
    (7, "SIGBUS"), (8, "SIGFPE"), (9, "SIGKILL"), (10, "SIGUSR1"), (11, "SIGSEGV"),
    (12, "SIGUSR2"), (13, "SIGPIPE"), (14, "SIGALRM"), (15, "SIGTERM"), (16, "SIGSTKFLT"),
    (17, "SIGCHLD"), (18, "SIGCONT"), (19, "SIGSTOP"), (20, "SIGTSTP"), (21, "SIGTTIN"),
    (22, "SIGTTOU"), (23, "SIGURG"), (24, "SIGXCPU"), (25, "SIGXFSZ"), (26, "SIGVTALRM"),
    (27, "SIGPROF"), (28, "SIGWINCH"), (29, "SIGIO"), (30, "SIGPWR"), (31, "SIGSYS"),
    (34, "SIGRTMIN"), (64, "SIGRTMAX")]

/-- The report on a command that failed without saying why. -/
def failureText (args : List String) (status : Int) : String :=
  let command := "Command '" ++ (Value.list (args.map Value.text)).display ++ "' "
  if status < 0 then
    match signalNames.lookup status.natAbs with
    | some name =>
        command ++ "died with <Signals." ++ name ++ ": " ++ toString status.natAbs ++ ">."
    | none => command ++ "died with unknown signal " ++ toString status.natAbs ++ "."
  else command ++ "returned non-zero exit status " ++ toString status ++ "."

def firstNonempty (s t : String) : String := if s = "" then t else s

def fail {α : Type} (message : String) : Exporting α := throw (.exporter (.tool message))

/-- A step that runs no command. -/
def ofExcept {α : Type} (result : Except Fault α) : Exporting α :=
  match result with
  | .ok a => pure a
  | .error fault => throw fault

def report (message : String) : Exporting Unit :=
  modify fun t => { t with progress := t.progress ++ [message] }

/-- The answer to a command, which is noted. -/
def nextAnswer (args : List String) : Exporting CommandAnswer := do
  let t ← get
  set { t with answers := t.answers.tail, calls := t.calls ++ [args] }
  pure (t.answers.head?.getD (.finished "" "" 0))

/-- Run a command; its output without blanks at either end. -/
def runCommand (args : List String) (timeout : String) : Exporting String := do
  match ← nextAnswer args with
  | .notFound => fail ("Command not found: " ++ args.head?.getD "")
  | .timedOut => fail ("Command timed out after " ++ timeout ++ "s: " ++ " ".intercalate args)
  | .finished output errors status =>
      if status = 0 then pure (Text.trimmed output)
      else
        let message := Text.trimmed (firstNonempty errors output)
        fail (firstNonempty message (failureText args status))

/-- The time limit of a command in seconds. -/
def standardTimeout : String := "300"

end Exporting

namespace Sketch

def exporterName : String := "sketch"

def extension : String := ".sketch"

def toolPath : Path := Path.ofString "Contents/Resources/sketchtool/bin/sketchtool"

/-- The platform that the tool exists for. -/
def platform : String := "darwin"

/-- Whether a name has the right extension and belongs to a file. -/
def canParse (tree : FileTree) (source : String) : Except Fault Bool :=
  if (Path.ofString (Text.trimmed source)).suffix = extension then
    tree.ask FileTree.isFile (Path.ofString source)
  else .ok false

/-- The command that lists the installations of the design program. -/
def query : List String := ["mdfind", "kMDItemCFBundleIdentifier=com.bohemiancoding.sketch3"]

/-- Where the tool of an installation would be, for each line of a list of installations. -/
def toolsIn (found : String) : List Path :=
  (Text.lines found.toList).map fun line =>
    (Path.ofString (String.ofList (Text.trim line))).join toolPath

/-- The tool in the first installation that has it. -/
def locateTool (tree : FileTree) : Exporting Path := do
  let found ← Exporting.runCommand query Exporting.standardTimeout
  match ← Exporting.ofExcept ((toolsIn found).findM? (tree.ask FileTree.isPresent)) with
  | some tool => pure tool
  | none => Exporting.fail "Unable to locate a Sketch installation with sketchtool."

/-- The parts of a design file that are exported, each into a directory of its own. -/
def parts : List String := ["slices", "artboards"]

/-- The command that exports a part of a design file. -/
def exportCommand (tool output : Path) (source part : String) : List String :=
  [tool.toText, "export", "--format=svg", "--output=" ++ (output.joinText part).toText, part,
    source]

def exportPart (tool output : Path) (source part : String) : Exporting Unit := do
  Exporting.report ("Exporting " ++ part ++ " from " ++ source)
  let _ ← Exporting.runCommand (exportCommand tool output source part) Exporting.standardTimeout
  pure ()

/-- Export the vector assets of a design file into a directory. -/
def exportAssets (tree : FileTree) (host source : String) (output : Path) : Exporting Unit := do
  if !(← Exporting.ofExcept (canParse tree source)) then throw (.exporter .invalidSource)
  if host ≠ platform then throw (.exporter .unsupportedPlatform)
  Exporting.report "Locating sketchtool"
  let tool ← locateTool tree
  parts.forM fun part => exportPart tool output (Text.trimmed source) part

/-- The name of the exporter that can read a file. -/
def exporterFor (tree : FileTree) (source : String) : Except Fault String :=
  do if ← canParse tree source then pure exporterName else throw (.exporter .invalidSource)

end Sketch

end DesignGraph
