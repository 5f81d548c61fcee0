import DesignGraph.Number.Binary64

/-!
# Values

What a decoded document holds: the scalars, dates and times of the document formats, lists, and
mappings that keep the order of their entries.  The keys of a mapping may be any scalars.

Equality is by what a value stands for: a truth value equals the number zero or one, an integer
equals a float of the same size, and what is not a number equals nothing, itself included.
-/

namespace DesignGraph

structure Date where
  year : Nat
  month : Nat
  day : Nat
  deriving Repr, DecidableEq

structure Clock where
  hour : Nat
  minute : Nat
  second : Nat
  microsecond : Nat
  deriving Repr, DecidableEq

/-- `offset` counts minutes east of universal time. -/
structure Moment where
  date : Date
  clock : Clock
  offset : Option Int
  deriving Repr, DecidableEq

inductive Value
  | null
  | bool (b : Bool)
  | int (n : Int)
  | float (x : Binary64)
  | text (s : String)
  | date (d : Date)
  | moment (m : Moment)
  | clock (c : Clock)
  | list (items : List Value)
  | map (entries : List (Value × Value))
  deriving Repr

namespace Value

instance : Inhabited Value := ⟨null⟩

/-- The number that a scalar stands for in comparisons. -/
inductive Quantity
  | whole (n : Int)
  | inexact (x : Binary64)

def quantity? : Value → Option Quantity
  | bool b => some (.whole (if b then 1 else 0))
  | int n => some (.whole n)
  | float x => some (.inexact x)
  | _ => none

def Quantity.compare : Quantity → Quantity → Option Ordering
  | whole n, whole k => some (Ord.compare n k)
  | whole n, inexact x => (x.compareInt n).map Ordering.swap
  | inexact x, whole n => x.compareInt n
  | inexact x, inexact y => x.compareTo y

/-- Equality of scalars. -/
def sameScalar (v w : Value) : Bool :=
  match v.quantity?, w.quantity? with
  | some p, some q => p.compare q == some .eq
  | none, none =>
      match v, w with
      | null, null => true
      | text s, text t => s == t
      | date d, date e => d == e
      | moment m, moment k => m == k
      | clock c, clock d => c == d
      | _, _ => false
  | _, _ => false

mutual

/-- Equality; two mappings are equal when they have equal values under equal keys, in any order. -/
def same : Value → Value → Bool
  | list vs, list ws => sameItems vs ws
  | map es, map fs => es.length == fs.length && sameEntries es fs
  | list _, _ => false
  | map _, _ => false
  | v, w => sameScalar v w

def sameItems : List Value → List Value → Bool
  | [], [] => true
  | v :: vs, w :: ws => same v w && sameItems vs ws
  | _, _ => false

/-- Every entry of the first mapping has its equal in the second. -/
def sameEntries : List (Value × Value) → List (Value × Value) → Bool
  | [], _ => true
  | (k, v) :: rest, fs => fs.any (fun f => sameScalar k f.1 && same v f.2) && sameEntries rest fs

end

instance : BEq Value := ⟨same⟩

/-- Lists and mappings cannot be keys or members of a set. -/
def isKey : Value → Bool
  | list _ => false
  | map _ => false
  | _ => true

/-- Whether a value counts as given: null, false, zero and everything empty do not. -/
def isTruthy : Value → Bool
  | null => false
  | bool b => b
  | int n => n != 0
  | float x => !x.isZero
  | text s => s != ""
  | list items => !items.isEmpty
  | map entries => !entries.isEmpty
  | _ => true

/-- The value under a text key. -/
def field? (entries : List (Value × Value)) (name : String) : Option Value :=
  entries.lookup (text name)

/-- The value under a text key, if it counts as given; otherwise the empty mapping. -/
def fieldOrEmpty (entries : List (Value × Value)) (name : String) : Value :=
  match field? entries name with
  | some v => if v.isTruthy then v else map []
  | none => map []

/-- Set the value under a key of a mapping: a present key keeps its place. -/
def setEntry (entries : List (Value × Value)) (key value : Value) : List (Value × Value) :=
  match entries with
  | [] => [(key, value)]
  | (k, v) :: rest =>
      if same k key then (k, value) :: rest else (k, v) :: setEntry rest key value

/-- A mapping from pairs: a repeated key keeps its first place and its last value. -/
def ofPairs (pairs : List (Value × Value)) : List (Value × Value) :=
  pairs.foldl (fun entries pair => setEntry entries pair.1 pair.2) []

end Value

end DesignGraph
