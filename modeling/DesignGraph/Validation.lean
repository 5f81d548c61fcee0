import DesignGraph.Number.Numeral
import DesignGraph.OrderedMap
import DesignGraph.Path
import DesignGraph.Value.Shown

/-!
# Validation of settings

Typed fields read from values.  A field takes every value that stands for its type without loss: an
integer field takes a truth value, a whole float or a numeral, a switch takes the usual words.  All
fields of a record are checked, so that one answer lists every issue in the order of the fields.
-/

namespace DesignGraph

/-- One step on the way to a faulty value. -/
inductive Issue.Step
  | key (name : String)
  | index (n : Int)
  deriving Repr, DecidableEq

inductive Issue.Kind
  | missing
  | textKind
  | textTooShort
  | integerKind
  | integerText
  | integerTextSize
  | integerFraction
  | notFinite
  | tooSmall
  | tooLarge
  | switchKind
  | switchText
  | pathKind
  | mappingKind
  | recordKind
  /-- A rule over several fields, with its own wording. -/
  | rule (text : String)
  deriving Repr, DecidableEq

structure Issue where
  location : List Issue.Step := []
  kind : Issue.Kind
  deriving Repr, DecidableEq

namespace Issue

/-- The stable name of an issue kind. -/
def Kind.label : Kind → String
  | missing => "missing"
  | textKind => "string_type"
  | textTooShort => "string_too_short"
  | integerKind => "int_type"
  | integerText => "int_parsing"
  | integerTextSize => "int_parsing_size"
  | integerFraction => "int_from_float"
  | notFinite => "finite_number"
  | tooSmall => "greater_than_equal"
  | tooLarge => "less_than_equal"
  | switchKind => "bool_type"
  | switchText => "bool_parsing"
  | pathKind => "path_type"
  | mappingKind => "dict_type"
  | recordKind => "model_type"
  | rule _ => "value_error"

def Step.text : Step → String
  | key name => name
  | index n => toString n

def describe (issue : Issue) : String :=
  let place := ".".intercalate (issue.location.map Step.text)
  let what := match issue.kind with
    | .rule text => text
    | kind => kind.label
  if place = "" then what else place ++ ": " ++ what

end Issue

/-- A checked value, or all that is wrong with it. -/
abbrev Checked (α : Type) := Except (List Issue) α

namespace Checked

variable {α β : Type}

def fail (kind : Issue.Kind) : Checked α := .error [⟨[], kind⟩]

/-- Both values, or the issues of both in order. -/
def both (a : Checked α) (b : Checked β) : Checked (α × β) :=
  match a, b with
  | .ok a, .ok b => .ok (a, b)
  | .error is, .error js => .error (is ++ js)
  | .error is, .ok _ => .error is
  | .ok _, .error js => .error js

/-- The issues of a part seen from the whole. -/
def under (step : Issue.Step) (a : Checked α) : Checked α :=
  a.mapError fun issues => issues.map fun issue =>
    { issue with location := step :: issue.location }

def text : Value → Checked String
  | .text s => .ok s
  | _ => fail .textKind

/-- Drop leading zeros and the underscores among them; the digit before a point stays. A text of
zeros alone keeps its last character. -/
def dropLeadingZeros (cs : List Char) : Option (List Char) :=
  match cs with
  | [] => none
  | '0' :: rest =>
      match rest.dropWhile fun c => c = '0' || c = '_' with
      | [] => some (cs.drop (cs.length - 1))
      | '.' :: tail =>
          some ((cs.drop (cs.length - tail.length - 2)).take 1 ++ '.' :: tail)
      | c :: tail => if c.isDigit then some (c :: tail) else none
  | c :: _ => if c.isDigit || c = '-' then some cs else none

/-- Drop a point that only zeros follow. -/
def dropZeroFraction (cs : List Char) : List Char :=
  match cs.span (· ≠ '.') with
  | (whole, '.' :: zeros) => if zeros.all (· = '0') then whole else cs
  | _ => cs

def doubledUnderscore : List Char → Bool
  | '_' :: '_' :: _ => true
  | _ :: rest => doubledUnderscore rest
  | [] => false

/-- Drop single underscores between other characters. -/
def dropInnerUnderscores (cs : List Char) : List Char :=
  if cs.head? = some '_' || cs.getLast? = some '_' || doubledUnderscore cs then cs
  else cs.filter (· ≠ '_')

/-- The integer that a numeral without exponent stands for. -/
def integerText? (s : String) : Option Int := do
  let cs ← match Text.trimBy Text.isSpace s.toList with
    | '+' :: '-' :: _ => none
    | '+' :: rest => some rest
    | cs => some cs
  let cs := dropInnerUnderscores (dropZeroFraction (← dropLeadingZeros cs))
  let (negative, digits) := match cs with
    | '-' :: rest => (true, rest)
    | cs => (false, cs)
  if digits.isEmpty || !digits.all Char.isDigit then none
  else some (Binary64.signed negative (Numeral.digitsValue digits))

/-- Floats outside the 64-bit integers are refused even when they are whole. -/
def integerOfFloat (x : Binary64) : Checked Int :=
  if !x.isFinite then fail .notFinite
  else match x.whole? with
    | none => fail .integerFraction
    | some n => if n.natAbs < Nat.pow 2 63 then .ok n else fail .integerTextSize

def integer : Value → Checked Int
  | .int n => .ok n
  | .bool b => .ok (if b then 1 else 0)
  | .float x => integerOfFloat x
  | .text s => match integerText? s with
      | some n => .ok n
      | none => fail .integerText
  | _ => fail .integerKind

def atLeast (least : Int) (n : Int) : Checked Int := if n < least then fail .tooSmall else .ok n

def atMost (greatest : Int) (n : Int) : Checked Int :=
  if greatest < n then fail .tooLarge else .ok n

def natural (v : Value) : Checked Nat := do pure (← atLeast 0 (← integer v)).toNat

/-- A port number. -/
def port (v : Value) : Checked Nat := do
  pure (← atMost 65535 (← atLeast 1 (← integer v))).toNat

def switchText (s : String) : Checked Bool :=
  let word := String.ofList (s.toList.map Char.toLower)
  if ["1", "t", "y", "on", "yes", "true"].contains word then .ok true
  else if ["0", "f", "n", "no", "off", "false"].contains word then .ok false
  else fail .switchText

def switchNumber (n : Int) : Checked Bool :=
  if n = 1 then .ok true else if n = 0 then .ok false else fail .switchText

def switch : Value → Checked Bool
  | .bool b => .ok b
  | .int n => switchNumber n
  | .text s => switchText s
  | .float x => match x.whole? with
      | some n => switchNumber n
      | none => fail .switchKind
  | _ => fail .switchKind

def path : Value → Checked Path
  | .text s => .ok (Path.ofString s)
  | _ => fail .pathKind

/-- How a location names a key of a mapping. -/
def stepOfKey : Value → Issue.Step
  | .text s => .key s
  | .int n => .index n
  | .bool b => .index (if b then 1 else 0)
  | v => .key v.display

/-- The entries of a mapping with text keys, their values read by `read`. -/
def entries (read : Value → Checked α) :
    List (Value × Value) → Checked (List (String × α))
  | [] => .ok []
  | (k, v) :: rest =>
      let key := (((text k).under (.key "[key]")).under (stepOfKey k))
      let value := (read v).under (stepOfKey k)
      ((both (both key value) (entries read rest))).map fun (entry, rest) => entry :: rest

def mapping (read : Value → Checked α) : Value → Checked (OrderedMap String α)
  | .map es => (entries read es).map OrderedMap.ofList
  | _ => fail .mappingKind

/-- A field that has to be given. -/
def required (name : String) (read : Value → Checked α) (given : Option Value) : Checked α :=
  match given with
  | some v => (read v).under (.key name)
  | none => (fail .missing : Checked α).under (.key name)

/-- A field with a value to fall back to when it is not given. -/
def optional (name : String) (fallback : α) (read : Value → Checked α) (given : Option Value) :
    Checked α :=
  match given with
  | some v => (read v).under (.key name)
  | none => .ok fallback

end Checked

end DesignGraph
