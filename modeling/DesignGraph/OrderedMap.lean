/-!
# Ordered maps

A finite map that lists its keys in the order in which each was first given a value.  Giving a
present key another value moves nothing and keeps the key as first written.
-/

namespace DesignGraph

structure OrderedMap (κ α : Type) where
  entries : List (κ × α) := []
  deriving Repr, DecidableEq

namespace OrderedMap

variable {κ α β : Type}

instance : EmptyCollection (OrderedMap κ α) := ⟨⟨[]⟩⟩
instance : Inhabited (OrderedMap κ α) := ⟨∅⟩

def keys (m : OrderedMap κ α) : List κ := m.entries.map (·.1)

def values (m : OrderedMap κ α) : List α := m.entries.map (·.2)

def isEmpty (m : OrderedMap κ α) : Bool := m.entries.isEmpty

/-- The same keys in the same order, with each value replaced by its image. -/
def map (f : α → β) (m : OrderedMap κ α) : OrderedMap κ β :=
  ⟨m.entries.map fun entry => (entry.1, f entry.2)⟩

variable [BEq κ]

def get? (m : OrderedMap κ α) (key : κ) : Option α := m.entries.lookup key

def contains (m : OrderedMap κ α) (key : κ) : Bool := m.entries.any (·.1 == key)

def insertEntry (key : κ) (value : α) : List (κ × α) → List (κ × α)
  | [] => [(key, value)]
  | (k, a) :: rest =>
      if k == key then (k, value) :: rest else (k, a) :: insertEntry key value rest

def insert (m : OrderedMap κ α) (key : κ) (value : α) : OrderedMap κ α :=
  ⟨insertEntry key value m.entries⟩

def erase (m : OrderedMap κ α) (key : κ) : OrderedMap κ α :=
  ⟨m.entries.filter fun entry => !(entry.1 == key)⟩

/-- Insert the pairs one after the other: a repeated key keeps its first place and its last
value. -/
def ofList (pairs : List (κ × α)) : OrderedMap κ α :=
  pairs.foldl (fun m pair => m.insert pair.1 pair.2) ∅

end OrderedMap

end DesignGraph
