import DesignGraph.Text.Case
import DesignGraph.Yaml.Node

/-!
# Reading YAML

The value of a YAML 1.1 text with one document.  Mappings keep the order of their keys; of two equal
keys the first gives the place and the last the value.  A merge key adds the entries of other
mappings in front of the own ones.

Of several faulty nodes the one nearest to the root is reported, and of those at one distance the
first.
-/

namespace DesignGraph.Yaml

/-- The integer of a numeral in a base, which the base's own mark may precede. -/
def wholeIn? (base : Nat) (cs : List Char) : Option Int :=
  let (negative, cs) := DesignGraph.Numeral.splitSign
    ((Text.trimBy Text.isSpace cs).map DesignGraph.Numeral.asciiDigit)
  let digits := match cs with
    | '0' :: mark :: rest =>
        let mark := mark.toLower
        if (base = 2 && mark = 'b') || (base = 8 && mark = 'o') || (base = 16 && mark = 'x') then
          rest
        else cs
    | _ => cs
  if digits.isEmpty || !digits.all (fun c => (Text.hexValue? c).any (· < base)) then none
  else if base = 10 && digits.length > 4300 then none
  else
    let n := digits.foldl (fun n c => n * base + (Text.hexValue? c).getD 0) 0
    some (Binary64.signed negative n)

/-- The number of base-60 groups, the last one the least. -/
def baseSixty (groups : List Int) : Int := groups.foldl (fun n group => n * 60 + group) 0

def baseSixtyFloat (groups : List Binary64) : Binary64 :=
  (groups.reverse.foldl
    (fun (total, base) group => (Binary64.add total (group.mul (Binary64.ofInt base)), base * 60))
    (Binary64.ofInt 0, (1 : Int))).1

def orFault {α : Type} (found : Option α) (fault : Fault) : Except Unreadable α :=
  match found with
  | some a => .ok a
  | none => .error (.scalar fault)

/-- The sign of a numeral and what follows it; underscores do not count. -/
def signed (s : String) : Bool × List Char :=
  DesignGraph.Numeral.splitSign (s.toList.filter (· ≠ '_'))

def integerValue (s : String) : Except Unreadable Int := do
  let (negative, cs) := signed s
  let n ← match cs with
    | [] => throw (.scalar .missingItem)
    | ['0'] => pure 0
    | '0' :: 'b' :: rest => orFault (wholeIn? 2 rest) .content
    | '0' :: 'x' :: rest => orFault (wholeIn? 16 rest) .content
    | '0' :: _ => orFault (wholeIn? 8 cs) .content
    | _ =>
        if cs.contains ':' then do
          let groups ← orFault ((Text.cutAt ':' cs).mapM (wholeIn? 10)) .content
          pure (baseSixty groups)
        else orFault (wholeIn? 10 cs) .content
  pure (if negative then -n else n)

def floatValue (s : String) : Except Unreadable Binary64 := do
  let (negative, cs) := signed s
  let cs := Text.lower cs
  let read (cs : List Char) := DesignGraph.Numeral.read? (String.ofList cs)
  let x ← match String.ofList cs with
    | "" => throw (.scalar (if negative || s.startsWith "+" then .content else .missingItem))
    | ".inf" => pure (Binary64.infinite false)
    | ".nan" => pure Binary64.nan
    | _ =>
        if cs.contains ':' then do
          pure (baseSixtyFloat (← orFault ((Text.cutAt ':' cs).mapM read) .content))
        else orFault (read cs) .content
  pure (if negative then x.mul (Binary64.ofInt (-1)) else x)

def timestampValue (s : String) : Except Unreadable Value :=
  match Timestamp.read? s.toList with
  | none => .error (.scalar .missingMember)
  | some v => if v.isOnCalendar then .ok v else .error (.scalar .content)

def scalarValue (tag : Tag) (s : String) : Except Unreadable Value :=
  match tag with
  | .null => .ok .null
  | .bool => (orFault (truthWords.lookup (String.ofList (Text.lower s.toList))) .missingKey).map
      Value.bool
  | .int => (integerValue s).map Value.int
  | .float => (floatValue s).map Value.float
  | .timestamp => timestampValue s
  | .text => .ok (.text s)
  | _ => unexpected "a tag that no scalar can have"

def isScalarTag (tag : Tag) : Bool :=
  [.null, .bool, .int, .float, .timestamp, .text].contains tag

/-- A value, or what is wrong and how far from the root. -/
abbrev Placed (α : Type) := Except (Nat × Unreadable) α

namespace Placed

variable {α β : Type}

def at_ (depth : Nat) (result : Except Unreadable α) : Placed α :=
  result.mapError fun reason => (depth, reason)

def fail (depth : Nat) (what : String) : Placed α := at_ depth (unexpected what)

/-- Both values, or what is wrong nearer to the root. -/
def both (a : Placed α) (b : Placed β) : Placed (α × β) :=
  match a, b with
  | .ok a, .ok b => .ok (a, b)
  | .error e, .ok _ => .error e
  | .ok _, .error e => .error e
  | .error e, .error f => .error (if f.1 < e.1 then f else e)

end Placed

/-- The text that a mapping gives as its default value. -/
def defaultText? : List (Node × Node) → Option String
  | [] => none
  | (key, value) :: rest =>
      if key.tag = .default then
        match value with
        | .scalar _ s => some s
        | _ => none
      else defaultText? rest

/-- The key of an entry. The default key is a text among others. -/
def keyTag (tag : Tag) : Tag := if tag = .default then .text else tag

mutual

def value (depth : Nat) : Node → Placed Value
  | .scalar tag s => Placed.at_ depth (scalarValue tag s)
  | .list tag nodes =>
      match tag with
      | .list => (values (depth + 1) nodes).map .list
      | .mapping => Placed.fail (depth + 1) "a list"
      | _ => Placed.fail depth "a list"
  | .mapping tag entries =>
      match tag with
      | .mapping =>
          (pairs (depth + 1) entries).map fun (merged, own) =>
            .map (Value.ofPairs (merged ++ own))
      | .list => Placed.fail (depth + 1) "a mapping"
      | _ => match isScalarTag tag, defaultText? entries with
          | true, some s => Placed.at_ depth (scalarValue tag s)
          | _, _ => Placed.fail depth "a mapping"

def values (depth : Nat) : List Node → Placed (List Value)
  | [] => .ok []
  | node :: rest =>
      (Placed.both (value depth node) (values depth rest)).map fun (v, vs) => v :: vs

/-- The entries that a mapping takes from others, and its own. -/
def pairs (depth : Nat) :
    List (Node × Node) → Placed (List (Value × Value) × List (Value × Value))
  | [] => .ok ([], [])
  | (key, node) :: rest =>
      if key.tag = .merge then
        (Placed.both (merged depth node) (pairs depth rest)).map fun (taken, merged, own) =>
          (taken ++ merged, own)
      else
        let keyValue := match key with
          | .scalar tag s => Placed.at_ depth (scalarValue (keyTag tag) s)
          | _ => Placed.fail depth "a collection as a key"
        (Placed.both (Placed.both keyValue (value depth node)) (pairs depth rest)).map
          fun (pair, merged, own) => (merged, pair :: own)

/-- The entries that a merge key takes from a mapping or from a list of them, of which the first
takes precedence. -/
def merged (depth : Nat) : Node → Placed (List (Value × Value))
  | .mapping _ entries => (pairs depth entries).map fun (merged, own) => merged ++ own
  | .list _ nodes => mergedAll depth nodes
  | .scalar .. => Placed.fail depth "a scalar to merge"

def mergedAll (depth : Nat) : List Node → Placed (List (Value × Value))
  | [] => .ok []
  | .mapping _ entries :: rest =>
      (Placed.both (pairs depth entries) (mergedAll depth rest)).map
        fun ((merged, own), later) => later ++ (merged ++ own)
  | _ :: _ => Placed.fail depth "a node to merge that is no mapping"

end

/-- The value of a text. -/
def read (s : String) : Except Unreadable Value := do
  let node ← Node.ofTokens (← tokens s)
  (value 0 node).mapError (·.2)

end DesignGraph.Yaml
