import DesignGraph.Template.Datum

/-!
# Filters and tests

Functions that a template may put behind a value.
-/

namespace DesignGraph.Template

namespace Script

/-- Characters that mean something in markup are written as escapes. -/
def encodeChar (c : Char) : List Char :=
  if c = '<' || c = '>' || c = '&' || c = '\'' then Text.Quoted.unit c.toNat else [c]

def keyLE (e f : Value × Value) : Bool :=
  match e.1, f.1 with
  | .text s, .text t => decide (s ≤ t)
  | _, _ => true

mutual

/-- The value with the entries of every mapping in the order of their keys. -/
def sorted : Value → Value
  | .list items => .list (sortedItems items)
  | .map entries => .map ((sortedEntries entries).mergeSort keyLE)
  | v => v

def sortedItems : List Value → List Value
  | [] => []
  | v :: vs => sorted v :: sortedItems vs

def sortedEntries : List (Value × Value) → List (Value × Value)
  | [] => []
  | (k, v) :: rest => (k, sorted v) :: sortedEntries rest

end

/-- A literal that can stand inside a script in markup. -/
def encode (v : Value) : Except Failure String :=
  match (sorted v).literal? .ascii with
  | some s => .ok (String.ofList (s.toList.flatMap encodeChar))
  | none => Datum.unsupported

end Script

namespace Filter

/-- An argument by its place or its name. -/
def argument? (place : Nat) (name : String) (args : List Datum) (named : List (String × Datum)) :
    Option Datum :=
  args[place]? <|> named.lookup name

def capitalised (s : String) : String :=
  match s.toList with
  | [] => ""
  | c :: rest => String.ofList (Text.upperChar c ++ Text.lower rest)

/-- The value, or another one if it is undefined or, on demand, does not count as given. -/
def orDefault (d : Datum) (args : List Datum) (named : List (String × Datum)) : Datum :=
  let other := (argument? 0 "default_value" args named).getD (.ofText "")
  let always := ((argument? 1 "boolean" args named).map Datum.isTruthy).getD false
  if d.isUndefined || (always && !d.isTruthy) then other else d

def joined (d : Datum) (args : List Datum) (named : List (String × Datum)) :
    Except Failure String := do
  let separator := ((argument? 0 "d" args named).map Datum.text).getD ""
  match argument? 1 "attribute" args named with
  | none => d.joinTexts separator
  | some key => do
      let parts ← (← d.elements).mapM fun e => e.item key
      pure (separator.intercalate (parts.map Datum.text))

def toInt (d : Datum) (args : List Datum) : Datum :=
  let found : Option Int := match d with
    | .value (.text s) => (Numeral.read? s).bind Binary64.truncated?
    | .value (.float x) => x.truncated?
    | .value (.int n) => some n
    | .value (.bool b) => some (if b then 1 else 0)
    | _ => none
  (found.map fun n => Datum.value (.int n)).getD (args.head?.getD (.value (.int 0)))

def reversed (d : Datum) : Except Failure Datum := do
  match d with
  | .value (.text s) => pure (.ofText (String.ofList s.toList.reverse))
  | d => pure (.value (.list ((← d.elements).reverse.map Datum.toValue)))

def toScript (d : Datum) : Except Failure String :=
  match d with
  | .value v => Script.encode v
  | .tuple items => Script.encode (.list items)
  | _ => Datum.unsupported

def apply (name : String) (d : Datum) (args : List Datum) (named : List (String × Datum)) :
    Except Failure Datum :=
  match name with
  | "capitalize" => .ok (.ofText (capitalised d.text))
  | "count" => do pure (.value (.int (← d.size)))
  | "d" => .ok (orDefault d args named)
  | "default" => .ok (orDefault d args named)
  | "first" => do pure ((← d.elements).head?.getD .undefined)
  | "int" => .ok (toInt d args)
  | "join" => do pure (.ofText (← joined d args named))
  | "last" => do pure ((← d.elements).getLast?.getD .undefined)
  | "length" => do pure (.value (.int (← d.size)))
  | "list" => do pure (.value (.list ((← d.elements).map Datum.toValue)))
  | "lower" => .ok (.ofText (Datum.lower d.text))
  | "replace" => match args with
      | [old, new] => .ok (.ofText (Datum.replaced d.text old.text new.text))
      | _ => Datum.unsupported
  | "reverse" => reversed d
  | "safe" => .ok d
  | "string" => .ok (.ofText d.text)
  | "tojson" => do pure (.ofText (← toScript d))
  | "trim" => .ok (.ofText (Text.trimmed d.text))
  | "upper" => .ok (.ofText (Datum.upper d.text))
  | _ => .error (.template (.unexpected "an unknown filter"))

end Filter

/-- Whether a test holds. -/
def testHolds (name : String) (d : Datum) (args : List Datum) : Except Failure Bool :=
  let isA (kind : Value → Bool) : Except Failure Bool := .ok (match d with
    | .value v => kind v
    | _ => false)
  match name with
  | "defined" => .ok (!d.isUndefined)
  | "undefined" => .ok d.isUndefined
  | "none" => isA fun
      | .null => true
      | _ => false
  | "string" => isA fun
      | .text _ => true
      | _ => false
  | "number" => isA fun v => v.quantity?.isSome
  | "boolean" => isA fun
      | .bool _ => true
      | _ => false
  | "integer" => isA fun
      | .int _ => true
      | _ => false
  | "float" => isA fun
      | .float _ => true
      | _ => false
  | "mapping" => isA fun
      | .map _ => true
      | _ => false
  | "sequence" => isA fun v => (Datum.valueElements? v).isSome
  | "iterable" => .ok (d.elements.isOk)
  | "even" => match d with
      | .value (.int n) => .ok (n % 2 == 0)
      | _ => Datum.unsupported
  | "odd" => match d with
      | .value (.int n) => .ok (n % 2 == 1)
      | _ => Datum.unsupported
  | "equalto" => .ok (args.any d.isEqual)
  | "eq" => .ok (args.any d.isEqual)
  | "ne" => .ok (!args.any d.isEqual)
  | "in" => match args with
      | [e] => e.contains d
      | _ => Datum.unsupported
  | _ => .error (.template (.unexpected "an unknown test"))

end DesignGraph.Template
