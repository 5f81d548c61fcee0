import DesignGraph.Toml.Quoted

/-!
# Tables of TOML

The document under construction: its entries, and the marks that keep a table from being defined
twice.  A table is *opened* by a header or by the dotted keys of an earlier section and may not be
opened again; an inline table or array is *sealed*, with everything below it.
-/

namespace DesignGraph.Toml

abbrev Key := List String

structure Marks where
  opened : List Key := []
  sealed : List Key := []
  /-- Opened by dotted keys; counts from the next header on. -/
  pending : List Key := []

namespace Marks

def isOpened (m : Marks) (key : Key) : Bool := m.opened.contains key

def isSealed (m : Marks) (key : Key) : Bool :=
  m.sealed.any fun parent => parent.isPrefixOf key

/-- Forget the marks at and below a key. -/
def forget (m : Marks) (key : Key) : Marks :=
  { m with
    opened := m.opened.filter fun k => !key.isPrefixOf k
    sealed := m.sealed.filter fun k => !key.isPrefixOf k }

def settle (m : Marks) : Marks := { m with opened := m.pending ++ m.opened, pending := [] }

end Marks

abbrev Entries := List (Value × Value)

def overwrites {α : Type} : Except Unreadable α :=
  .error (.malformed (.unexpected "a second value for a key"))

/-- Change the table at a key, making the tables that are missing on the way.  With `intoArrays` a
step on an array of tables leads into its last table. -/
def changeAt (intoArrays : Bool) (change : Entries → Except Unreadable Entries) :
    Key → Entries → Except Unreadable Entries
  | [], table => change table
  | name :: key, table =>
      match Value.field? table name with
      | none => do
          let inner ← changeAt intoArrays change key []
          pure (Value.setEntry table (.text name) (.map inner))
      | some (.map inner) => do
          let inner ← changeAt intoArrays change key inner
          pure (Value.setEntry table (.text name) (.map inner))
      | some (.list items) =>
          match intoArrays, items.getLast? with
          | true, some (.map inner) => do
              let inner ← changeAt intoArrays change key inner
              pure (Value.setEntry table (.text name) (.list (items.dropLast ++ [.map inner])))
          | _, _ => overwrites
      | some _ => overwrites

/-- Add a value under a new name. -/
def addNew (name : String) (value : Value) (table : Entries) : Except Unreadable Entries :=
  if (Value.field? table name).isSome then overwrites else .ok (table ++ [(.text name, value)])

/-- Add an empty table to the array under a name. -/
def addTable (name : String) (table : Entries) : Except Unreadable Entries :=
  match Value.field? table name with
  | none => .ok (table ++ [(.text name, .list [.map []])])
  | some (.list items) =>
      .ok (Value.setEntry table (.text name) (.list (items ++ [.map []])))
  | some _ => overwrites

/-- All but the last name of a key, and the last one. -/
def splitKey (key : Key) : Key × String := (key.dropLast, key.getLast?.getD "")

/-- The beginnings of a dotted key below a header, the key itself excluded. -/
def containers (header key : Key) : List Key :=
  (List.range (key.length - 1)).map fun n => header ++ key.take (n + 1)

/-- Whether a value keeps the tables below it from being extended. -/
def isSealing : Value → Bool
  | .map _ => true
  | .list _ => true
  | _ => false

structure Document where
  entries : Entries := []
  marks : Marks := {}
  /-- The table that a line with a key adds to. -/
  header : Key := []

namespace Document

/-- A line with a key and its value. -/
def define (doc : Document) (key : Key) (value : Value) : Except Unreadable Document := do
  let (parents, name) := splitKey key
  let inner := containers doc.header key
  if inner.any doc.marks.isOpened || doc.marks.isSealed (doc.header ++ parents) then overwrites
  else
    let entries ← changeAt true (addNew name value) (doc.header ++ parents) doc.entries
    let marks := { doc.marks with
      pending := inner ++ doc.marks.pending
      sealed := if isSealing value then (doc.header ++ key) :: doc.marks.sealed
        else doc.marks.sealed }
    pure { doc with entries := entries, marks := marks }

/-- A header between single brackets. -/
def openTable (doc : Document) (key : Key) : Except Unreadable Document := do
  let marks := doc.marks.settle
  if marks.isOpened key || marks.isSealed key then overwrites
  else
    let entries ← changeAt true .ok key doc.entries
    pure ⟨entries, { marks with opened := key :: marks.opened }, key⟩

/-- A header between double brackets. -/
def extendArray (doc : Document) (key : Key) : Except Unreadable Document := do
  let marks := doc.marks.settle
  if marks.isSealed key then overwrites
  else
    let marks := marks.forget key
    let (parents, name) := splitKey key
    let entries ← changeAt true (addTable name) parents doc.entries
    pure ⟨entries, { marks with opened := key :: marks.opened }, key⟩

end Document

end DesignGraph.Toml
