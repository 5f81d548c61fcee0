import DesignGraph.Toml.Table

/-!
# Reading TOML

The value of a TOML text: a mapping in which every key keeps the place where it first occurs.

The recursion is bounded by the length of the text.
-/

namespace DesignGraph.Toml

def isBare (c : Char) : Bool := c.isAlphanum || c = '-' || c = '_'

def keyPart (cs : Rest) : Except Unreadable (String × Rest) :=
  match cs with
  | c :: rest =>
      if isBare c then .ok (String.ofList (cs.takeWhile isBare), cs.dropWhile isBare)
      else if c = '"' || c = '\'' then do
        let (name, rest) ← oneLine c rest
        pure (String.ofList name, rest)
      else expected "a key"
  | [] => expected "a key"

/-- A key: parts with dots between them, blanks around each. -/
def key (bound : Nat) (cs : Rest) : Except Unreadable (Key × Rest) :=
  match bound with
  | 0 => expected "a key"
  | bound + 1 => do
      let (part, rest) ← keyPart cs
      match skipBlanks rest with
      | '.' :: rest => do
          let (parts, rest) ← key bound (skipBlanks rest)
          pure (part :: parts, rest)
      | rest => pure ([part], rest)

/-- A comment up to the end of its line, if one begins here. -/
def comment (cs : Rest) : Except Unreadable Rest :=
  match cs with
  | '#' :: rest =>
      let text := rest.takeWhile (· ≠ '\n')
      if text.any isControl then expected "no control character" else .ok (rest.drop text.length)
  | _ => .ok cs

/-- Blanks, line feeds and comments between the items of an array. -/
def arraySpace (bound : Nat) (cs : Rest) : Except Unreadable Rest :=
  match bound with
  | 0 => .ok cs
  | bound + 1 =>
      match skipLines cs with
      | '#' :: rest => do arraySpace bound (← comment ('#' :: rest))
      | rest => .ok rest

mutual

def value (bound : Nat) (cs : Rest) : Except Unreadable (Value × Rest) :=
  match bound with
  | 0 => expected "a value"
  | bound + 1 =>
      match quoted? cs with
      | some reading => reading.map fun (text, rest) => (.text (String.ofList text), rest)
      | none =>
          match cs with
          | 't' :: 'r' :: 'u' :: 'e' :: rest => .ok (.bool true, rest)
          | 'f' :: 'a' :: 'l' :: 's' :: 'e' :: rest => .ok (.bool false, rest)
          | '[' :: rest => do
              let (items, rest) ← items bound (← arraySpace rest.length rest)
              pure (.list items, rest)
          | '\x7b' :: rest =>
              match skipBlanks rest with
              | '\x7d' :: rest => .ok (.map [], rest)
              | rest => do
                  let (table, rest) ← inline bound [] {} rest
                  pure (.map table, rest)
          | _ =>
              match plain? cs with
              | some (checked, rest) => checked.map (·, rest)
              | none => expected "a value"

/-- The items of an array up to its closing bracket. -/
def items (bound : Nat) (cs : Rest) : Except Unreadable (List Value × Rest) :=
  match bound with
  | 0 => expected "an item"
  | bound + 1 =>
      match cs with
      | ']' :: rest => .ok ([], rest)
      | _ => do
          let (item, rest) ← value bound cs
          match ← arraySpace rest.length rest with
          | ']' :: rest => pure ([item], rest)
          | ',' :: rest => do
              let (more, rest) ← items bound (← arraySpace rest.length rest)
              pure (item :: more, rest)
          | _ => expected "a comma or a closing bracket"

/-- The entries of an inline table up to its closing brace, added to those before. -/
def inline (bound : Nat) (table : Entries) (marks : Marks) (cs : Rest) :
    Except Unreadable (Entries × Rest) :=
  match bound with
  | 0 => expected "an entry"
  | bound + 1 => do
      let (key, rest) ← key cs.length cs
      match rest with
      | '=' :: rest => do
          let (item, rest) ← value bound (skipBlanks rest)
          let (parents, name) := splitKey key
          if marks.isSealed key then overwrites
          let table ← changeAt false (addNew name item) parents table
          let marks := if isSealing item then { marks with sealed := key :: marks.sealed }
            else marks
          match skipBlanks rest with
          | '\x7d' :: rest => pure (table, rest)
          | ',' :: rest => inline bound table marks (skipBlanks rest)
          | _ => expected "a comma or a closing brace"
      | _ => expected "an equals sign"

end

/-- One line: nothing, a key with its value, or a header. -/
def statement (doc : Document) (cs : Rest) : Except Unreadable (Document × Rest) :=
  match cs with
  | '[' :: '[' :: rest => do
      let (key, rest) ← key (rest.length + 1) (skipBlanks rest)
      let doc ← doc.extendArray key
      match rest with
      | ']' :: ']' :: rest => pure (doc, rest)
      | _ => expected "two closing brackets"
  | '[' :: rest => do
      let (key, rest) ← key (rest.length + 1) (skipBlanks rest)
      let doc ← doc.openTable key
      match rest with
      | ']' :: rest => pure (doc, rest)
      | _ => expected "a closing bracket"
  | c :: _ =>
      if isBare c || c = '"' || c = '\'' then do
        let (key, rest) ← key (cs.length + 1) cs
        match rest with
        | '=' :: rest => do
            let (item, rest) ← value (rest.length + 1) (skipBlanks rest)
            pure (← doc.define key item, rest)
        | _ => expected "an equals sign"
      else .ok (doc, cs)
  | [] => .ok (doc, [])

def statements (bound : Nat) (doc : Document) (cs : Rest) : Except Unreadable Document :=
  match bound with
  | 0 => .ok doc
  | bound + 1 => do
      let (doc, rest) ← statement doc (skipBlanks cs)
      match ← comment (skipBlanks rest) with
      | '\n' :: rest => statements bound doc rest
      | [] => pure doc
      | _ => expected "the end of the line"

def joinLineEnds : List Char → List Char
  | '\r' :: '\n' :: rest => '\n' :: joinLineEnds rest
  | c :: rest => c :: joinLineEnds rest
  | [] => []

/-- The table that a whole text describes. -/
def read (s : String) : Except Unreadable Value := do
  let cs := joinLineEnds s.toList
  let doc ← statements (cs.length + 1) {} cs
  pure (.map doc.entries)

end DesignGraph.Toml
