import DesignGraph.Config
import DesignGraph.Export
import DesignGraph.Registry
import DesignGraph.Version

/-!
# The command line

Three commands: `compile` compiles the graph of a project, `targets` lists the targets, and `export`
exports the vector assets of a design file.  Options may stand anywhere after their command, a long
one with its value after an equals sign, and short ones in one argument.
-/

namespace DesignGraph.CommandLine

inductive Command
  | version
  | help
  | compile (project : String) (target : Option String) (output : Option String)
  | targets
  | exportAssets (source output : String)
  deriving Repr, DecidableEq

/-- An option of a command, by its short and long form. -/
structure CommandOption where
  short : Option Char := none
  long : String
  takesValue : Bool

def helpOption : CommandOption := { long := "--help", takesValue := false }

def verboseOption : CommandOption := { long := "--verbose", takesValue := false }

def compileOptions : List CommandOption :=
  [{ short := some 'p', long := "--project", takesValue := true },
    { short := some 't', long := "--target", takesValue := true },
    { short := some 'o', long := "--output", takesValue := true }, verboseOption, helpOption]

def exportOptions : List CommandOption :=
  [{ short := some 'o', long := "--output", takesValue := true }, verboseOption, helpOption]

/-- Arguments sorted into option values, by long form, and the others. -/
structure Arguments where
  options : OrderedMap String String := ⟨[]⟩
  others : List String := []

namespace Arguments

def give (given : Arguments) (option : CommandOption) (value : String) : Arguments :=
  { given with options := given.options.insert option.long value }

def add (given : Arguments) (arg : String) : Arguments :=
  { given with others := given.others ++ [arg] }

end Arguments

/-- The text before and after the first equals sign. -/
def splitEquals (arg : String) : String × Option String :=
  match arg.toList.span (· ≠ '=') with
  | (name, _ :: value) => (String.ofList name, some (String.ofList value))
  | (name, []) => (String.ofList name, none)

/-- Short options in one argument. The first one with a value takes the rest of it, or the next
argument; what remains of the arguments is returned. -/
def readShort (options : List CommandOption) (given : Arguments) :
    List Char → List String → Option (Arguments × List String)
  | [], args => some (given, args)
  | c :: more, args =>
      match options.find? (·.short == some c) with
      | none => none
      | some option =>
          if !option.takesValue then readShort options (given.give option "") more args
          else match more, args with
            | [], value :: args => some (given.give option value, args)
            | [], [] => none
            | more, args => some (given.give option (String.ofList more), args)

/-- One argument that begins with a hyphen. -/
def readOption (options : List CommandOption) (given : Arguments) (arg : String)
    (args : List String) : Option (Arguments × List String) :=
  let (name, value) := splitEquals arg
  match options.find? (·.long == name) with
  | some option =>
      match option.takesValue, value, args with
      | true, some value, args => some (given.give option value, args)
      | true, none, value :: args => some (given.give option value, args)
      | true, none, [] => none
      | false, none, args => some (given.give option "", args)
      | false, some _, _ => none
  | none =>
      match arg.toList with
      | '-' :: '-' :: _ => none
      | _ :: letters => readShort options given letters args
      | [] => none

/-- Sort the arguments of a command. After two hyphens alone there are no more options. -/
def readArguments (bound : Nat) (options : List CommandOption) (given : Arguments)
    (args : List String) : Option Arguments :=
  match bound, args with
  | _, [] => some given
  | 0, _ => none
  | _ + 1, "--" :: args => some { given with others := given.others ++ args }
  | bound + 1, arg :: args =>
      if arg.startsWith "-" && arg.length > 1 then
        match readOption options given arg args with
        | some (given, args) => readArguments bound options given args
        | none => none
      else readArguments bound options (given.add arg) args

def sorted (options : List CommandOption) (args : List String) : Option Arguments :=
  readArguments args.length options {} args

/-- The command that arguments ask for, unless they are not understood. -/
def parse : List String → Option Command
  | "--version" :: _ => some .version
  | "--help" :: _ => some .help
  | "--" :: args => named args
  | args => named args
  where
  named : List String → Option Command
    | "compile" :: args => do
        let given ← sorted compileOptions args
        if given.options.contains "--help" then some .help
        else if !given.others.isEmpty then none
        else some (.compile ((given.options.get? "--project").getD ".")
          (given.options.get? "--target") (given.options.get? "--output"))
    | "targets" :: args => do
        let given ← sorted [helpOption] args
        if given.options.contains "--help" then some .help
        else if given.others.isEmpty then some .targets else none
    | "export" :: args => do
        let given ← sorted exportOptions args
        if given.options.contains "--help" then some .help
        else match given.others with
          | [source] => some (.exportAssets source ((given.options.get? "--output").getD "assets"))
          | _ => none
    | _ => none

/-- What a command needs to know about its host. -/
structure Host where
  /-- The directory of the stock files. -/
  installed : Path
  platform : String
  /-- The address of the host in its network, or why there is none. -/
  address : Except String String

/-- What a command changes, and the commands that it runs itself. -/
structure World where
  tree : FileTree
  transcript : Transcript := {}

/-- How a command ends. A fault is reported on the error channel. -/
structure Outcome where
  output : String := ""
  fault : Option Fault := none
  /-- The arguments were not understood. -/
  isMisused : Bool := false

namespace Outcome

def exitCode (outcome : Outcome) : Nat :=
  if outcome.isMisused then 2 else if outcome.fault.isSome then 1 else 0

/-- Whether a fault has a wording for the user. -/
def isWorded : Fault → Bool
  | .graph _ => true
  | .config _ => true
  | .compilation _ => true
  | .hostname _ => true
  | .exporter _ => true
  | _ => false

def errors (outcome : Outcome) : String :=
  match outcome.fault with
  | some fault => if isWorded fault then "Error: " ++ fault.message ++ "\n" else ""
  | none => ""

end Outcome

/-- Compile the project in a directory; the compiler then and the result. -/
def compileProject (host : Host) (tree : FileTree) (project : String) (target : Option String)
    (output : Option String) : Except Fault (Setup × CompilationResult × Compiler) × FileTree :=
  let prepared : Except Fault (Setup × Program) := do
    let config ← ProjectConfig.load tree (← tree.resolve (Path.ofString project))
    let program ← config.buildProgram tree target (output.map Path.ofString) false
    pure (← Registry.builtin.setup host.installed host.address program, program)
  match prepared with
  | .error fault => (.error fault, tree)
  | .ok (setup, program) =>
      match StateT.run (ExceptT.run (Compilation.start setup)) (setup.compiler program tree) with
      | (.ok result, compiler) => (.ok (setup, result, compiler), compiler.tree)
      | (.error fault, compiler) => (.error fault, compiler.tree)

def runCompile (host : Host) (world : World) (project : String) (target output : Option String) :
    Outcome × World :=
  match compileProject host world.tree project target output with
  | (.error fault, tree) => ({ fault := some fault }, { world with tree := tree })
  | (.ok (setup, result, compiler), tree) =>
      ({ output := Text.ofLines (result.warnings.map fun warning => "warning: " ++ warning.message)
          ++ Compilation.usage setup compiler ++ "\n" },
        { world with tree := tree })

def padRight (width : Nat) (s : String) : String :=
  s ++ String.ofList (List.replicate (width - s.length) ' ')

/-- A text in the middle of a line; an odd space goes to the right. -/
def centred (width : Nat) (s : String) : String :=
  padRight width (String.ofList (List.replicate ((width - s.length) / 2) ' ') ++ s)

/-- A table of two columns with a frame, a heavy head and a title above. -/
def table (title : String) (head : String × String) (rows : List (String × String)) : String :=
  let width (column : String × String → String) : Nat :=
    ((head :: rows).map fun row => (column row).length).foldl max 0
  let first := width (·.1)
  let second := width (·.2)
  let rule (left dash joint right : Char) : String :=
    String.ofList ([left] ++ List.replicate (first + 2) dash ++ [joint]
      ++ List.replicate (second + 2) dash ++ [right])
  let row (bar : String) (cells : String × String) : String :=
    bar ++ " " ++ padRight first cells.1 ++ " " ++ bar ++ " " ++ padRight second cells.2 ++ " "
      ++ bar
  Text.ofLines ([centred (first + second + 7) title, rule '┏' '━' '┳' '┓', row "┃" head,
    rule '┡' '━' '╇' '┩'] ++ rows.map (row "│") ++ [rule '└' '─' '┴' '┘'])

def targetsTable : String :=
  table "Targets" ("Name", "Description")
    (Registry.builtin.targets.entries.map fun (name, target) => (name, target.description))

def runExport (host : Host) (world : World) (source output : String) : Outcome × World :=
  let path := Path.ofString output
  let (result, transcript) := StateT.run
    (ExceptT.run (Sketch.exportAssets world.tree host.platform source path)) world.transcript
  let progress := Text.ofLines (transcript.progress.map ("  " ++ ·))
  let world := { world with transcript := transcript }
  match result with
  | .error fault => ({ output := progress, fault := some fault }, world)
  | .ok () =>
      let report := "Exported " ++ Text.trimmed source ++ " to " ++ path.toText
      ({ output := progress ++ Text.ofLines [report] }, world)

def usageText : String :=
  Text.ofLines ["Usage: tessera [--version] COMMAND [ARGUMENTS]", "",
    "  compile [-p DIRECTORY] [-t TARGET] [-o DIRECTORY]", "  targets",
    "  export SOURCE [-o DIRECTORY]"]

/-- The version of this release. -/
def release : String := "0.3.0"

def run (host : Host) (world : World) (args : List String) : Outcome × World :=
  match parse args with
  | none => ({ isMisused := true }, world)
  | some .version => ({ output := Text.ofLines ["Tessera " ++ release] }, world)
  | some .help => ({ output := usageText }, world)
  | some (.compile project target output) => runCompile host world project target output
  | some .targets => ({ output := targetsTable }, world)
  | some (.exportAssets source output) => runExport host world source output

end DesignGraph.CommandLine
