import DesignGraph.Fault

/-!
# Cursors

A place in a document text with its line and column.  A line ends at a line feed, a next-line
character or one of the two Unicode separators; a byte order mark has no width.
-/

namespace DesignGraph.Yaml

def expected {α : Type} (what : String) : Except Unreadable α :=
  .error (.malformed (.expected what))

def unexpected {α : Type} (what : String) : Except Unreadable α :=
  .error (.malformed (.unexpected what))

def isBreak (c : Char) : Bool :=
  c = '\n' || c.toNat = 0x85 || c.toNat = 0x2028 || c.toNat = 0x2029

def isBlank (c : Char) : Bool := c = ' ' || c = '\t'

/-- The text is at its end, a blank or a line end. -/
def atGap : List Char → Bool
  | [] => true
  | c :: _ => isBlank c || isBreak c

/-- As `atGap`, but a tabulator is no gap. -/
def atStrictGap : List Char → Bool
  | [] => true
  | c :: _ => c = ' ' || isBreak c

/-- A document marker: three hyphens or three dots and then a gap. -/
def atMarker : List Char → Bool
  | '-' :: '-' :: '-' :: rest => atGap rest
  | '.' :: '.' :: '.' :: rest => atGap rest
  | _ => false

def byteOrderMark : Char := Char.ofNat 0xfeff

structure Cursor where
  rest : List Char
  index : Nat := 0
  line : Nat := 0
  column : Nat := 0

namespace Cursor

/-- Pass one character. -/
def forward (c : Cursor) : Cursor :=
  match c.rest with
  | [] => c
  | a :: rest =>
      if isBreak a then ⟨rest, c.index + 1, c.line + 1, 0⟩
      else ⟨rest, c.index + 1, c.line, if a = byteOrderMark then c.column else c.column + 1⟩

def skip (count : Nat) (c : Cursor) : Cursor :=
  match count with
  | 0 => c
  | count + 1 => skip count c.forward

/-- The longest run of such characters, and the place after it. -/
def takeRun (isMember : Char → Bool) (c : Cursor) : List Char × Cursor :=
  let run := c.rest.takeWhile isMember
  (run, c.skip run.length)

def skipRun (isMember : Char → Bool) (c : Cursor) : Cursor := (c.takeRun isMember).2

def skipSpaces (c : Cursor) : Cursor := c.skipRun (· = ' ')

def startsWith (a : Char) (c : Cursor) : Bool := c.rest.head? = some a

/-- A comment up to the end of its line, if one begins here. -/
def skipComment (c : Cursor) : Cursor :=
  if c.startsWith '#' then c.skipRun (!isBreak ·) else c

/-- The line end here, as it is kept in texts, and the place after it. -/
def lineEnd? (c : Cursor) : Option (Char × Cursor) :=
  match c.rest with
  | a :: _ =>
      if isBreak a then some (if a.toNat = 0x85 then '\n' else a, c.forward) else none
  | [] => none

/-- Blanks and a comment that may end a line, and its end. -/
def endLine (c : Cursor) : Except Unreadable Cursor :=
  let c := c.skipSpaces.skipComment
  match c.lineEnd? with
  | some (_, c) => .ok c
  | none => if c.rest.isEmpty then .ok c else expected "a comment or a line end"

end Cursor

end DesignGraph.Yaml
