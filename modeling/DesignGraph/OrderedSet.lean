/-!
# Ordered sets

A duplicate-free collection in insertion order.  What is compiled lists its sources, imports and
dependencies in this order, so equal inputs give equal packages.

The binary operations fix an order of their own: a union lists the left side and then what the
right side adds, an intersection follows the *right* side, a difference the left side, and a
symmetric difference lists the left-only and then the right-only elements.
-/

namespace DesignGraph

structure OrderedSet (α : Type) where
  items : List α := []
  deriving Repr, DecidableEq

namespace OrderedSet

variable {α : Type} [BEq α]

instance : EmptyCollection (OrderedSet α) := ⟨⟨[]⟩⟩
instance : Inhabited (OrderedSet α) := ⟨∅⟩

def size (s : OrderedSet α) : Nat := s.items.length

def contains (s : OrderedSet α) (a : α) : Bool := s.items.any (· == a)

/-- A present element stays where it is. -/
def insert (s : OrderedSet α) (a : α) : OrderedSet α :=
  if s.contains a then s else ⟨s.items ++ [a]⟩

/-- An absent element is no error. -/
def erase (s : OrderedSet α) (a : α) : OrderedSet α := ⟨s.items.filter fun b => !(b == a)⟩

/-- Removal of an element that has to be present. -/
def remove? (s : OrderedSet α) (a : α) : Option (OrderedSet α) :=
  if s.contains a then some (s.erase a) else none

/-- The oldest element and the set without it. -/
def popFirst? (s : OrderedSet α) : Option (α × OrderedSet α) :=
  match s.items with
  | [] => none
  | a :: _ => some (a, s.erase a)

/-- Insert every element of a list in its order. -/
def insertAll (s : OrderedSet α) (items : List α) : OrderedSet α := items.foldl insert s

def eraseAll (s : OrderedSet α) (items : List α) : OrderedSet α := items.foldl erase s

def ofList (items : List α) : OrderedSet α := insertAll ∅ items

def union (s t : OrderedSet α) : OrderedSet α := ofList (s.items ++ t.items)

def inter (s t : OrderedSet α) : OrderedSet α := ofList (t.items.filter s.contains)

def diff (s t : OrderedSet α) : OrderedSet α :=
  ofList (s.items.filter fun a => !t.contains a)

def symmDiff (s t : OrderedSet α) : OrderedSet α := (s.diff t).union (t.diff s)

/-- Keep the elements of `t`, in place: the order of `s` stays. -/
def retain (s t : OrderedSet α) : OrderedSet α := s.eraseAll (s.diff t).items

/-- Remove a present element, add an absent one. -/
def toggle (s : OrderedSet α) (a : α) : OrderedSet α :=
  if s.contains a then s.erase a else s.insert a

/-- Toggle the elements of `t` one after the other. -/
def toggleAll (s t : OrderedSet α) : OrderedSet α := t.items.foldl toggle s

def isSubset (s t : OrderedSet α) : Bool :=
  s.size ≤ t.size && s.items.all t.contains

def isProperSubset (s t : OrderedSet α) : Bool := s.size < t.size && s.isSubset t

/-- Equality as sets: order does not count. -/
def sameElements (s t : OrderedSet α) : Bool := s.size == t.size && s.isSubset t

def isDisjoint (s t : OrderedSet α) : Bool := t.items.all fun a => !s.contains a

end OrderedSet

end DesignGraph
