import DesignGraph.Validation

/-!
# Faults

Why a request has no result.  A fault is a cause with the data it is about; its wording is one
function.  Where the cause is a reader's or validator's complaint, the wording is a headline and,
after a colon, the complaint.
-/

namespace DesignGraph

/-- What a document reader can complain about. -/
inductive Malformed
  | expected (what : String)
  | unexpected (what : String)
  deriving Repr, DecidableEq

def Malformed.text : Malformed → String
  | expected what => "expected " ++ what
  | unexpected what => "unexpected " ++ what

/-- What is wrong with the mapping form of a declaration. -/
inductive DeclarationProblem
  /-- A key is no text, or the name is given a second time. -/
  | keys
  | issues (issues : List Issue)
  deriving Repr, DecidableEq

inductive GraphFault
  | documentMissing (path : Path)
  | documentMalformed (path : Path) (reason : Malformed)
  | notMapping
  | typeRedefined (name : Value)
  | propertiesNotMapping (type : Value)
  | declarationInvalid (property : Value) (problem : DeclarationProblem)
  | declarationKind (property given : Value)
  | typeNotDeclared (id : Value)
  | typeNotKnown (id type : Value)
  | circular (ids : List String)
  | rootNotKnown (root id : String)
  | unknownType (name : Value)
  | unknownInstance (id : Value)
  | programInvalid (issues : List Issue)

inductive ConfigFault
  | missing (path : Path)
  | malformed (path : Path) (reason : Malformed)
  | invalid (path : Path) (issues : List Issue)

inductive CompilationFault
  | templateMissing (path : Path)
  | templateFailed (path : Path) (reason : Malformed)
  | textTemplateFailed (source : String) (reason : Malformed)
  | skeletonMissing (path : Path)
  | assetAbsolute (source : String)
  | assetOutside (source : String)
  | assetMissing (source : String) (root : Path)
  | destinationOutside (key : String)
  | stagingClosed
  | sourceMissing (path : Path)
  | deploymentTarget (given : String)
  | targetTaken (name newcomer : String)
  | notCompiler (shown : String)
  | targetUnknown (name : String) (available : List String)

inductive ExportFault
  | invalidSource
  | unsupportedPlatform
  | tool (message : String)

/-- The cases after `invalid` are defects of the input that no rule of the library words. -/
inductive Fault
  | graph (cause : GraphFault)
  | config (cause : ConfigFault)
  | compilation (cause : CompilationFault)
  | hostname (reason : String)
  | exporter (cause : ExportFault)
  | invalid (issues : List Issue)
  /-- A value of a kind that the operation cannot take. -/
  | kind
  /-- A value of the right kind that does not denote anything. -/
  | content
  | missingKey
  | missingMember
  | missingItem
  | overflow
  | divisionByZero
  | fileSystem
  /-- A link that leads back to itself. -/
  | circularLink
  | encoding
  | malformedTable

/-- Why a document text has no value. -/
inductive Unreadable
  | malformed (reason : Malformed)
  /-- The text is well formed, but one of its scalars cannot be evaluated. -/
  | scalar (fault : Fault)

def describeIssues (issues : List Issue) : String :=
  "; ".intercalate (issues.map Issue.describe)

def DeclarationProblem.text : DeclarationProblem → String
  | keys => "keys must be distinct texts"
  | issues list => describeIssues list

def inQuotes (s : String) : String := "'" ++ s ++ "'"

namespace GraphFault

def headline : GraphFault → String
  | documentMissing path => "Graph document not found: " ++ path.toText
  | documentMalformed path _ => "Could not parse graph document " ++ path.toText
  | notMapping => "Graph document must be a mapping"
  | typeRedefined name => "Component type " ++ inQuotes name.plain ++ " is already defined"
  | propertiesNotMapping type => "Properties of " ++ inQuotes type.plain ++ " must be a mapping"
  | declarationInvalid property _ => "Invalid declaration for property " ++ inQuotes property.plain
  | declarationKind property given =>
      "Invalid declaration for property " ++ inQuotes property.plain ++ ": " ++ given.display
  | typeNotDeclared id => "Instance " ++ inQuotes id.plain ++ " must declare a type"
  | typeNotKnown id type =>
      "Instance " ++ inQuotes id.plain ++ " has unknown type " ++ inQuotes type.plain
  | circular ids => "Circular reference between instances: " ++ " -> ".intercalate ids
  | rootNotKnown root id =>
      "Root " ++ inQuotes root ++ " references unknown instance " ++ inQuotes id
  | unknownType name => "Unknown component type " ++ inQuotes name.plain
  | unknownInstance id => "Unknown component instance " ++ inQuotes id.plain
  | programInvalid _ => "Invalid program"

def detail? : GraphFault → Option String
  | documentMalformed _ reason => some reason.text
  | declarationInvalid _ problem => some problem.text
  | programInvalid issues => some (describeIssues issues)
  | _ => none

end GraphFault

namespace ConfigFault

def headline : ConfigFault → String
  | missing path => "No tessera.toml found at " ++ path.toText
  | malformed path _ => "Invalid TOML in " ++ path.toText
  | invalid path _ => "Invalid configuration in " ++ path.toText

def detail? : ConfigFault → Option String
  | missing _ => none
  | malformed _ reason => some reason.text
  | invalid _ issues => some (describeIssues issues)

end ConfigFault

namespace CompilationFault

def headline : CompilationFault → String
  | templateMissing path => "Template not found: " ++ path.toText
  | templateFailed path _ => "Failed to render template " ++ path.toText
  | textTemplateFailed source _ =>
      "Failed to render template string " ++ Value.displayText source
  | skeletonMissing path => "Package template not found: " ++ path.toText
  | assetAbsolute source => "Asset path must be relative to the project root: " ++ source
  | assetOutside source => "Asset path leaves the project root: " ++ source
  | assetMissing source root =>
      "Asset not found: " ++ source ++ " (looked in " ++ root.toText ++ ")"
  | destinationOutside key => "Asset destination leaves the static root: " ++ key
  | stagingClosed => "Staged files can only be created during a run"
  | sourceMissing path => "Source file not found: " ++ path.toText
  | deploymentTarget given =>
      "Invalid iOS deployment_target " ++ inQuotes given ++ "; expected a version such as '13.0'"
  | targetTaken name newcomer =>
      "Target " ++ inQuotes name ++ " is already registered. Cannot register " ++ newcomer ++ "."
  | notCompiler shown => "Target class " ++ shown ++ " must extend TargetCompiler"
  | targetUnknown name available =>
      "Target " ++ inQuotes name ++ " not found. Available targets: "
        ++ (Value.list (available.map Value.text)).display

def detail? : CompilationFault → Option String
  | templateFailed _ reason => some reason.text
  | textTemplateFailed _ reason => some reason.text
  | _ => none

end CompilationFault

def ExportFault.message : ExportFault → String
  | invalidSource => "Invalid source file."
  | unsupportedPlatform => "Sketch export is only supported on macOS."
  | tool message => message

namespace Fault

/-- The wording of a fault, without the complaint of a reader or validator. -/
def headline : Fault → String
  | graph cause => cause.headline
  | config cause => cause.headline
  | compilation cause => cause.headline
  | hostname reason => "Could not resolve a hostname for hot serving: " ++ reason
  | exporter cause => cause.message
  | invalid issues => describeIssues issues
  | kind => "a value has a kind that is not supported here"
  | content => "a value does not denote anything here"
  | missingKey => "a key is missing"
  | missingMember => "a part is missing"
  | missingItem => "a text or list is too short"
  | overflow => "a number is too large"
  | divisionByZero => "a number is divided by zero"
  | fileSystem => "the file system refused an operation"
  | circularLink => "a link leads back to itself"
  | encoding => "a text file is not encoded in UTF-8"
  | malformedTable => "a table document is malformed"

/-- The complaint of a reader or validator that a fault passes on. -/
def detail? : Fault → Option String
  | graph cause => cause.detail?
  | config cause => cause.detail?
  | compilation cause => cause.detail?
  | _ => none

def message (fault : Fault) : String :=
  match fault.detail? with
  | some detail => fault.headline ++ ": " ++ detail
  | none => fault.headline

/-- The issues that a fault reports field by field. -/
def issues : Fault → List Issue
  | graph (.declarationInvalid _ (.issues list)) => list
  | graph (.programInvalid list) => list
  | config (.invalid _ list) => list
  | invalid list => list
  | _ => []

end Fault

end DesignGraph
