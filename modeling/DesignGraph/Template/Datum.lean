import DesignGraph.Template.Expression
import DesignGraph.Text.Case
import DesignGraph.Value.Quoted

/-!
# Data of templates

What an expression can stand for: a value, a tuple, something callable, the state of a loop, or
nothing at all.  A name without a value is *undefined*: it prints as nothing and has no elements,
but it has no parts either, and calculating with it is a fault of the template.
-/

namespace DesignGraph.Template

/-- Why a template was not rendered: it is at fault itself, or it was given data that it cannot
use. -/
inductive Failure
  | template (reason : Malformed)
  | data (fault : Fault)

def Failure.ofMalformed {α : Type} (result : Except Malformed α) : Except Failure α :=
  result.mapError .template

structure LoopState where
  index : Nat
  length : Nat
  depth : Nat

inductive Datum
  | value (v : Value)
  | undefined
  | tuple (items : List Value)
  /-- The entries of a mapping, each a tuple of its key and its value. -/
  | pairs (entries : List (Value × Value))
  | method (owner : Value) (name : String)
  | loop (state : LoopState)
  | cycle (state : LoopState)
  | range

namespace Datum

def ofText (s : String) : Datum := value (.text s)

def isUndefined : Datum → Bool
  | undefined => true
  | _ => false

def undefinedUse {α : Type} : Except Failure α :=
  .error (.template (.unexpected "an undefined value"))

def unsupported {α : Type} : Except Failure α := .error (.data .kind)

/-- The value that a datum is inside a list or mapping. -/
def toValue : Datum → Value
  | value v => v
  | tuple items => .list items
  | pairs entries => .list (entries.map fun (k, v) => .list [k, v])
  | _ => .null

/-- The printed text. -/
def text : Datum → String
  | value v => v.plain
  | tuple items => match items with
      | [v] => "(" ++ v.display ++ ",)"
      | vs => "(" ++ ", ".intercalate (vs.map Value.display) ++ ")"
  | _ => ""

def isTruthy : Datum → Bool
  | value v => v.isTruthy
  | undefined => false
  | tuple items => !items.isEmpty
  | pairs entries => !entries.isEmpty
  | _ => true

/-- The elements of a value: items, keys or characters. -/
def valueElements? : Value → Option (List Value)
  | .list items => some items
  | .map entries => some (entries.map (·.1))
  | .text s => some (s.toList.map fun c => .text (String.singleton c))
  | _ => none

def elements : Datum → Except Failure (List Datum)
  | value v => match valueElements? v with
      | some vs => .ok (vs.map value)
      | none => unsupported
  | tuple items => .ok (items.map value)
  | pairs entries => .ok (entries.map fun (k, v) => tuple [k, v])
  | undefined => .ok []
  | _ => unsupported

def size : Datum → Except Failure Nat
  | value (.text s) => .ok s.length
  | value (.list items) => .ok items.length
  | value (.map entries) => .ok entries.length
  | tuple items => .ok items.length
  | pairs entries => .ok entries.length
  | undefined => .ok 0
  | _ => unsupported

def mappingMethods : List String := ["keys", "values", "items", "get"]

def textMethods : List String :=
  ["upper", "lower", "strip", "startswith", "endswith", "replace", "split", "join"]

def hasMethod (v : Value) (name : String) : Bool :=
  match v with
  | .map _ => mappingMethods.contains name
  | .text _ => textMethods.contains name
  | _ => false

/-- The item at an index; a negative one counts from the end. -/
def at? {α : Type} (items : List α) (index : Int) : Option α :=
  if 0 ≤ index then items[index.toNat]?
  else if index.natAbs ≤ items.length then items[items.length - index.natAbs]?
  else none

/-- The part of a value under a key or an index. -/
def part? (v key : Value) : Option Value :=
  match v, key with
  | .map entries, key => entries.lookup key
  | .list items, .int n => at? items n
  | .text s, .int n => (at? s.toList n).map fun c => .text (String.singleton c)
  | _, _ => none

/-- The parts of a loop's state: its place counted from either end. -/
def LoopState.part? (s : LoopState) (name : String) : Option Datum :=
  let int (n : Nat) : Option Datum := some (value (.int n))
  match name with
  | "index" => int (s.index + 1)
  | "index0" => int s.index
  | "revindex" => int (s.length - s.index)
  | "revindex0" => int (s.length - s.index - 1)
  | "first" => some (value (.bool (s.index == 0)))
  | "last" => some (value (.bool (s.index + 1 == s.length)))
  | "length" => int s.length
  | "depth" => int s.depth
  | "depth0" => int (s.depth - 1)
  | "cycle" => some (cycle s)
  | _ => none

/-- The part named after a dot: a method before an entry of that name. -/
def field (d : Datum) (name : String) : Except Failure Datum :=
  match d with
  | undefined => undefinedUse
  | value v =>
      if hasMethod v name then .ok (method v name)
      else .ok (((part? v (.text name)).map value).getD undefined)
  | loop s => .ok ((LoopState.part? s name).getD undefined)
  | _ => .ok undefined

/-- The part between brackets: an entry before a method of that name. -/
def item (d key : Datum) : Except Failure Datum :=
  match d, key with
  | undefined, _ => undefinedUse
  | value v, value k => match part? v k, k with
      | some found, _ => .ok (value found)
      | none, .text name => if hasMethod v name then .ok (method v name) else .ok undefined
      | none, _ => .ok undefined
  | tuple items, value (.int n) => .ok (((at? items n).map value).getD undefined)
  | loop s, value (.text name) => .ok ((LoopState.part? s name).getD undefined)
  | _, _ => .ok undefined

/-- Replace every occurrence of a text, from left to right. -/
def replaceAll (old new : List Char) (bound : Nat) (cs : List Char) : List Char :=
  match bound, cs with
  | bound + 1, c :: rest =>
      if old.isPrefixOf cs && !old.isEmpty then
        new ++ replaceAll old new bound (cs.drop old.length)
      else c :: replaceAll old new bound rest
  | _, cs => cs

def replaced (s old new : String) : String :=
  String.ofList (replaceAll old.toList new.toList (s.length + 1) s.toList)

def upper (s : String) : String := String.ofList (s.toList.flatMap Text.upperChar)

def lower (s : String) : String := String.ofList (Text.lower s.toList)

/-- The texts of all elements with a separator between them. -/
def joinTexts (separator : String) (d : Datum) : Except Failure String := do
  pure (separator.intercalate ((← d.elements).map text))

def callMapping (entries : List (Value × Value)) (name : String) (args : List Datum) :
    Except Failure Datum :=
  match name, args with
  | "keys", [] => .ok (value (.list (entries.map (·.1))))
  | "values", [] => .ok (value (.list (entries.map (·.2))))
  | "items", [] => .ok (pairs entries)
  | "get", [value key] => .ok (value ((entries.lookup key).getD .null))
  | "get", [value key, other] => .ok (((entries.lookup key).map value).getD other)
  | _, _ => unsupported

def callText (s : String) (name : String) (args : List Datum) : Except Failure Datum :=
  match name, args with
  | "upper", [] => .ok (ofText (upper s))
  | "lower", [] => .ok (ofText (lower s))
  | "strip", [] => .ok (ofText (Text.trimmed s))
  | "startswith", [value (.text t)] => .ok (value (.bool (t.toList.isPrefixOf s.toList)))
  | "endswith", [value (.text t)] => .ok (value (.bool (t.toList.isSuffixOf s.toList)))
  | "replace", [value (.text old), value (.text new)] => .ok (ofText (replaced s old new))
  | "split", [value (.text t)] =>
      if t = "" then .error (.data .content)
      else .ok (value (.list ((s.splitOn t).map Value.text)))
  | "join", [items] => do pure (ofText (← joinTexts s items))
  | _, _ => unsupported

def call (d : Datum) (args : List Datum) : Except Failure Datum :=
  match d with
  | undefined => undefinedUse
  | method (.map entries) name => callMapping entries name args
  | method (.text s) name => callText s name args
  | cycle s =>
      if args.isEmpty then unsupported
      else .ok (args[s.index % args.length]?.getD undefined)
  | range => match args with
      | [value (.int n)] => .ok (value (.list ((List.range n.toNat).map fun (k : Nat) => .int k)))
      | [value (.int first), value (.int last)] =>
          let counts := List.range (last - first).toNat
          .ok (value (.list (counts.map fun (k : Nat) => .int (first + k))))
      | _ => unsupported
  | _ => unsupported

def quantity? : Datum → Option Value.Quantity
  | value v => v.quantity?
  | _ => none

def arithmeticInt (op : Operator) (n k : Int) : Except Failure Datum :=
  match op with
  | .plus => .ok (value (.int (n + k)))
  | .minus => .ok (value (.int (n - k)))
  | .times => .ok (value (.int (n * k)))
  | .quotient =>
      if k = 0 then .error (.data .divisionByZero)
      else .ok (value (.float
        (Binary64.ofQuotient ((n < 0) != (k < 0) && n != 0) n.natAbs k.natAbs)))
  | .floor => if k = 0 then .error (.data .divisionByZero) else .ok (value (.int (n.fdiv k)))
  | .remainder => if k = 0 then .error (.data .divisionByZero) else .ok (value (.int (n.fmod k)))
  | .power =>
      let p := Int.pow n k.natAbs
      if 0 ≤ k then .ok (value (.int p))
      else if n = 0 then .error (.data .divisionByZero)
      else .ok (value (.float (Binary64.ofQuotient (p < 0) 1 p.natAbs)))

def arithmeticFloat (op : Operator) (x y : Binary64) : Except Failure Datum :=
  match op with
  | .plus => .ok (value (.float (x.add y)))
  | .minus => .ok (value (.float (x.add (y.mul (Binary64.ofInt (-1))))))
  | .times => .ok (value (.float (x.mul y)))
  | _ => unsupported

def toFloat : Value.Quantity → Binary64
  | .whole n => Binary64.ofInt n
  | .inexact x => x

def arithmetic (op : Operator) (d e : Datum) : Except Failure Datum :=
  if d.isUndefined || e.isUndefined then undefinedUse
  else match d.quantity?, e.quantity? with
    | some (.whole n), some (.whole k) => arithmeticInt op n k
    | some p, some q => arithmeticFloat op (toFloat p) (toFloat q)
    | _, _ => match op, d, e with
        | .plus, value (.text s), value (.text t) => .ok (ofText (s ++ t))
        | .plus, value (.list vs), value (.list ws) => .ok (value (.list (vs ++ ws)))
        | .times, value (.text s), value (.int n) =>
            .ok (ofText (String.join (List.replicate n.toNat s)))
        | .times, value (.int n), value (.text s) =>
            .ok (ofText (String.join (List.replicate n.toNat s)))
        | _, _, _ => unsupported

def opposite (d : Datum) : Except Failure Datum :=
  if d.isUndefined then undefinedUse
  else match d.quantity? with
    | some (.whole n) => .ok (value (.int (-n)))
    | some (.inexact x) => .ok (value (.float (x.mul (Binary64.ofInt (-1)))))
    | none => unsupported

def isEqual : Datum → Datum → Bool
  | value v, value w => v == w
  | undefined, undefined => true
  | tuple vs, tuple ws => Value.sameItems vs ws
  | _, _ => false

/-- Numeric order, or the order of texts by their characters. -/
def order (d e : Datum) : Except Failure (Option Ordering) :=
  if d.isUndefined || e.isUndefined then undefinedUse
  else match d.quantity?, e.quantity? with
    | some p, some q => .ok (p.compare q)
    | _, _ => match d, e with
        | value (.text s), value (.text t) => .ok (some (compare s t))
        | _, _ => unsupported

def hasInfix (part : List Char) : List Char → Bool
  | [] => part.isEmpty
  | c :: rest => part.isPrefixOf (c :: rest) || hasInfix part rest

def contains (d e : Datum) : Except Failure Bool :=
  match d, e with
  | value (.text s), value (.text t) => .ok (hasInfix t.toList s.toList)
  | value (.text _), _ => unsupported
  | d, e => do pure ((← d.elements).any (isEqual e))

def compare (c : Comparison) (d e : Datum) : Except Failure Bool :=
  match c with
  | .equal => .ok (isEqual d e)
  | .unequal => .ok (!isEqual d e)
  | .less => do pure ((← order d e) == some .lt)
  | .lessOrEqual => do
      let o ← order d e
      pure (o == some .lt || o == some .eq)
  | .greater => do pure ((← order d e) == some .gt)
  | .greaterOrEqual => do
      let o ← order d e
      pure (o == some .gt || o == some .eq)
  | .member => contains e d
  | .nonMember => do pure (!(← contains e d))

end Datum

end DesignGraph.Template
