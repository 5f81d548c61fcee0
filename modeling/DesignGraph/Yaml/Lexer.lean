import DesignGraph.Yaml.Token

/-!
# From text to tokens

The lexer passes through a document once.  Its state is the place reached, the indentations of the
open block collections, the depth of flow collections and the candidates for keys.
-/

namespace DesignGraph.Yaml

/-- A place where a key may have begun. `before` counts the tokens before it. -/
structure Candidate where
  before : Nat
  /-- The text can only be read if a key begins here. -/
  isRequired : Bool
  index : Nat
  line : Nat
  column : Nat

structure Lexer where
  cursor : Cursor
  /-- The tokens so far, the last one first. -/
  done : List Token := []
  count : Nat := 0
  /-- The column of the innermost block collection. -/
  indent : Int := -1
  outer : List Int := []
  flow : Nat := 0
  keyAllowed : Bool := true
  candidates : List (Nat × Candidate) := []

namespace Lexer

def ofString (s : String) : Lexer := { cursor := { rest := Text.unifyLineEnds s.toList } }

def inFlow (l : Lexer) : Bool := l.flow != 0

def emit (l : Lexer) (t : Token) : Lexer := { l with done := t :: l.done, count := l.count + 1 }

/-- Put tokens in front of all but the first `before` ones. -/
def emitAt (l : Lexer) (before : Nat) (ts : List Token) : Lexer :=
  let later := l.count - before
  { l with
    done := l.done.take later ++ ts.reverse ++ l.done.drop later
    count := l.count + ts.length }

def allowKey (l : Lexer) (allowed : Bool) : Lexer := { l with keyAllowed := allowed }

def moved (l : Lexer) (c : Cursor) : Lexer := { l with cursor := c }

def column (l : Lexer) : Int := l.cursor.column

def candidate? (l : Lexer) : Option Candidate := l.candidates.lookup l.flow

def dropCandidate (l : Lexer) : Lexer :=
  { l with candidates := l.candidates.filter (·.1 != l.flow) }

/-- Give up the candidate of this level. -/
def loseCandidate (l : Lexer) : Except Unreadable Lexer :=
  match l.candidate? with
  | some k => if k.isRequired then expected "a colon after a key" else .ok l.dropCandidate
  | none => .ok l

/-- Remember that a key may begin here. -/
def addCandidate (l : Lexer) : Except Unreadable Lexer :=
  if !l.keyAllowed then .ok l
  else do
    let l ← l.loseCandidate
    let k : Candidate := ⟨l.count, !l.inFlow && l.indent == l.column, l.cursor.index,
      l.cursor.line, l.cursor.column⟩
    pure { l with candidates := (l.flow, k) :: l.candidates }

def isStale (l : Lexer) (k : Candidate) : Bool :=
  k.line != l.cursor.line || l.cursor.index - k.index > 1024

def loseStale (l : Lexer) : Except Unreadable Lexer :=
  if l.candidates.any fun (_, k) => l.isStale k && k.isRequired then
    expected "a colon after a key"
  else .ok { l with candidates := l.candidates.filter fun (_, k) => !l.isStale k }

/-- Close the block collections to the right of a column. -/
def closeBlocks (column : Int) (indent : Int) (outer : List Int) (l : Lexer) : Lexer :=
  if indent ≤ column then { l with indent := indent, outer := outer }
  else match outer with
    | [] => { l with indent := indent, outer := [] }
    | next :: outer => closeBlocks column next outer (l.emit .blockEnd)

def unwind (l : Lexer) (column : Int) : Lexer :=
  if l.inFlow then l else closeBlocks column l.indent l.outer l

/-- Open a block collection at a column, unless it is open already; whether it was opened. -/
def indentTo (l : Lexer) (column : Int) : Lexer × Bool :=
  if l.indent < column then ({ l with indent := column, outer := l.indent :: l.outer }, true)
  else (l, false)

/-- Spaces, comments and line ends before the next token. A key may begin on a new line. -/
def skipToToken (bound : Nat) (l : Lexer) : Lexer :=
  match bound with
  | 0 => l
  | bound + 1 =>
      let c := l.cursor.skipSpaces.skipComment
      match c.lineEnd? with
      | some (_, c) =>
          skipToToken bound { l with cursor := c, keyAllowed := l.keyAllowed || !l.inFlow }
      | none => l.moved c

def streamEnd (l : Lexer) : Except Unreadable Lexer := do
  pure ((← (l.unwind (-1)).loseCandidate).emit .streamEnd)

def documentMarker (l : Lexer) (t : Token) : Except Unreadable Lexer := do
  let l ← (l.unwind (-1)).loseCandidate
  pure (((l.allowKey false).emit t).moved (l.cursor.skip 3))

def directive (l : Lexer) : Except Unreadable Lexer := do
  let l ← (l.unwind (-1)).loseCandidate
  let (d, c) ← Directive.scan l.cursor
  pure (((l.allowKey false).emit (.directive d)).moved c)

def flowStart (l : Lexer) (t : Token) : Except Unreadable Lexer := do
  let l ← l.addCandidate
  pure ({ l with flow := l.flow + 1, keyAllowed := true, cursor := l.cursor.forward }.emit t)

def flowEnd (l : Lexer) (t : Token) : Except Unreadable Lexer := do
  if l.flow = 0 then unexpected "a closing bracket"
  else
    let l ← l.loseCandidate
    pure ({ l with flow := l.flow - 1, keyAllowed := false, cursor := l.cursor.forward }.emit t)

def flowEntry (l : Lexer) : Except Unreadable Lexer := do
  let l ← l.loseCandidate
  pure (((l.allowKey true).emit .flowEntry).moved l.cursor.forward)

def blockEntry (l : Lexer) : Except Unreadable Lexer := do
  if !l.inFlow && !l.keyAllowed then unexpected "a list item"
  else
    let l := if l.inFlow then l else match l.indentTo l.column with
      | (l, true) => l.emit .blockSequenceStart
      | (l, false) => l
    let l ← l.loseCandidate
    pure (((l.allowKey true).emit .blockEntry).moved l.cursor.forward)

/-- Begin a block mapping at this column, if none is open there. -/
def mappingHere (l : Lexer) : Lexer :=
  if l.inFlow then l else match l.indentTo l.column with
    | (l, true) => l.emit .blockMappingStart
    | (l, false) => l

def explicitKey (l : Lexer) : Except Unreadable Lexer := do
  if !l.inFlow && !l.keyAllowed then unexpected "a key"
  else
    let l ← l.mappingHere.loseCandidate
    pure (((l.allowKey !l.inFlow).emit .key).moved l.cursor.forward)

/-- A colon turns the candidate of its level into a key. -/
def value (l : Lexer) : Except Unreadable Lexer := do
  let l ← match l.candidate? with
    | some k =>
        let l := l.dropCandidate
        let (l, opened) := if l.inFlow then (l, false) else l.indentTo k.column
        pure ((l.emitAt k.before (if opened then [.blockMappingStart, .key] else [.key])).allowKey
          false)
    | none =>
        if !l.inFlow && !l.keyAllowed then unexpected "a value"
        else (l.mappingHere.allowKey !l.inFlow).loseCandidate
  pure ((l.emit .value).moved l.cursor.forward)

/-- A token that may begin a key. -/
def property (l : Lexer) (scan : Cursor → Except Unreadable (Token × Cursor)) :
    Except Unreadable Lexer := do
  let l ← l.addCandidate
  let (t, c) ← scan l.cursor
  pure (((l.allowKey false).emit t).moved c)

def blockScalar (l : Lexer) (folded : Bool) : Except Unreadable Lexer := do
  let l ← (l.allowKey true).loseCandidate
  let (text, c) ← Block.scan folded l.indent l.cursor.forward
  pure ((l.emit (.scalar (String.ofList text) false)).moved c)

def quotedScalar (double : Bool) (c : Cursor) : Except Unreadable (Token × Cursor) := do
  let (text, c) ← Quoted.scan c.rest.length double [] c.forward
  pure (.scalar (String.ofList text) false, c)

def plainScalar (l : Lexer) : Except Unreadable Lexer := do
  let l ← l.addCandidate
  let (text, c, crossed) :=
    Plain.scan (l.cursor.rest.length + 1) l.inFlow (l.indent + 1) [] [] false l.cursor
  pure (((l.allowKey crossed).emit (.scalar (String.ofList text) true)).moved c)

/-- Whether a plain scalar may begin with this text. -/
def beginsPlain (inFlow : Bool) : List Char → Bool
  | [] => false
  | a :: rest =>
      !(isBlank a || isBreak a || "-?:,[]\x7b\x7d#&*!|>'\"%@`".toList.contains a)
        || (!atGap rest && (a = '-' || (!inFlow && (a = '?' || a = ':'))))

/-- Read the next token; the state has moved to where it begins. -/
def readToken (l : Lexer) : Except Unreadable Lexer :=
  let c := l.cursor
  match c.rest with
  | [] => l.streamEnd
  | a :: rest =>
      if a = '%' && c.column = 0 then l.directive
      else if c.column = 0 && atMarker c.rest then
        l.documentMarker (if a = '-' then .documentStart else .documentEnd)
      else if a = '[' then l.flowStart .flowSequenceStart
      else if a = '\x7b' then l.flowStart .flowMappingStart
      else if a = ']' then l.flowEnd .flowSequenceEnd
      else if a = '\x7d' then l.flowEnd .flowMappingEnd
      else if a = ',' then l.flowEntry
      else if a = '-' && atGap rest then l.blockEntry
      else if a = '?' && (l.inFlow || atGap rest) then l.explicitKey
      else if a = ':' && (l.inFlow || atGap rest) then l.value
      else if a = '*' then l.property fun c => do
        let (name, c) ← anchorName c.forward
        pure (.alias name, c)
      else if a = '&' then l.property fun c => do
        let (name, c) ← anchorName c.forward
        pure (.anchor name, c)
      else if a = '!' then l.property fun c => do
        let (text, c) ← TagText.scan c
        pure (.tag text, c)
      else if a = '|' && !l.inFlow then l.blockScalar false
      else if a = '>' && !l.inFlow then l.blockScalar true
      else if a = '\'' then l.property (quotedScalar false)
      else if a = '"' then l.property (quotedScalar true)
      else if beginsPlain l.inFlow c.rest then l.plainScalar
      else unexpected "a character that begins nothing"

def step (l : Lexer) : Except Unreadable Lexer := do
  let l ← (skipToToken (l.cursor.rest.length + 1) l).loseStale
  (l.unwind l.column).readToken

def run (bound : Nat) (l : Lexer) : Except Unreadable (List Token) :=
  match bound with
  | 0 => expected "a shorter text"
  | bound + 1 => do
      let l ← l.step
      match l.done with
      | .streamEnd :: _ => pure l.done.reverse
      | _ => run bound l

end Lexer

/-- Characters that a document may hold. -/
def isDocumentChar (c : Char) : Bool :=
  let code := c.toNat
  code = 0x9 || code = 0xa || code = 0xd || (0x20 ≤ code && code ≤ 0x7e) || code = 0x85
    || (0xa0 ≤ code && code ≤ 0xfffd) || 0x10000 ≤ code

/-- The tokens of a document. A byte order mark at its beginning does not count. -/
def tokens (s : String) : Except Unreadable (List Token) :=
  if !s.toList.all isDocumentChar then unexpected "a control character"
  else
    let l := Lexer.ofString s
    let l := if l.cursor.startsWith byteOrderMark then l.moved l.cursor.forward else l
    Lexer.run (l.cursor.rest.length + 2) l

end DesignGraph.Yaml
