import DesignGraph.Yaml.Cursor

/-!
# Scalar texts

The text of a scalar in each of its written forms: plain, quoted and block.  Where a text continues
on further lines, a single line end between two of them becomes a space, and of more line ends all
but the first remain.

Every loop is bounded by the length of the text that is left.
-/

namespace DesignGraph.Yaml

/-- How a run of line ends is kept: the first one gives a space unless others follow or it is one
of the Unicode separators, which stay. -/
def foldedEnds (first : Char) (others : List Char) : List Char :=
  if first ≠ '\n' then first :: others else if others.isEmpty then [' '] else others

namespace Plain

def isFlowIndicator (c : Char) : Bool :=
  c = ',' || c = '[' || c = ']' || c = '\x7b' || c = '\x7d'

/-- Whether a colon before this text is a value indicator. -/
def endsKey (inFlow : Bool) : List Char → Bool
  | [] => true
  | c :: _ => isBlank c || isBreak c || (inFlow && isFlowIndicator c)

/-- The characters up to the next gap or indicator. -/
def word (inFlow : Bool) : List Char → List Char
  | [] => []
  | c :: rest =>
      if isBlank c || isBreak c || (c = ':' && endsKey inFlow rest)
          || (inFlow && (isFlowIndicator c || c = '?')) then []
      else c :: word inFlow rest

/-- Line ends and the spaces around them, up to a document marker. -/
def breaks (bound : Nat) (done : List Char) (c : Cursor) : Option (List Char) × Cursor :=
  match bound with
  | 0 => (some done, c)
  | bound + 1 =>
      if c.startsWith ' ' then breaks bound done c.forward
      else match c.lineEnd? with
        | some (e, c) => if atMarker c.rest then (none, c) else breaks bound (done ++ [e]) c
        | none => (some done, c)

/-- What stands between two words. The flag says that a line has ended; before a document marker
nothing is kept. -/
def gap (c : Cursor) : List Char × Cursor × Bool :=
  let (spaces, c) := c.takeRun (· = ' ')
  match c.lineEnd? with
  | none => (spaces, c, false)
  | some (first, c) =>
      if atMarker c.rest then ([], c, true)
      else match breaks (c.rest.length + 1) [] c with
        | (some others, c) => (foldedEnds first others, c, true)
        | (none, c) => ([], c, true)

/-- A plain scalar.  Outside flow collections its further lines are indented by at least
`indent`.  The flag says that the place found is on another line than the last word. -/
def scan (bound : Nat) (inFlow : Bool) (indent : Int) (done between : List Char) (crossed : Bool)
    (c : Cursor) : List Char × Cursor × Bool :=
  match bound with
  | 0 => (done, c, crossed)
  | bound + 1 =>
      let run := word inFlow c.rest
      if run.isEmpty || c.startsWith '#' then (done, c, crossed)
      else
        let done := done ++ between ++ run
        let (between, c, crossed) := gap (c.skip run.length)
        if between.isEmpty || c.startsWith '#' || (!inFlow && c.column < indent) then
          (done, c, crossed)
        else scan bound inFlow indent done between crossed c

end Plain

namespace Quoted

/-- Line ends and the blanks around them. -/
def breaks (bound : Nat) (done : List Char) (c : Cursor) :
    Except Unreadable (List Char × Cursor) :=
  match bound with
  | 0 => .ok (done, c)
  | bound + 1 =>
      if atMarker c.rest then unexpected "a document marker in quoted text"
      else
        let c := c.skipRun isBlank
        match c.lineEnd? with
        | some (e, c) => breaks bound (done ++ [e]) c
        | none => .ok (done, c)

/-- Blanks, and the line ends after them. -/
def gap (c : Cursor) : Except Unreadable (List Char × Cursor) := do
  let (blanks, c) := c.takeRun isBlank
  match c.lineEnd? with
  | some (first, c) =>
      let (others, c) ← breaks (c.rest.length + 1) [] c
      pure (foldedEnds first others, c)
  | none => if c.rest.isEmpty then expected "a closing quote" else pure (blanks, c)

/-- The code of a character that one letter names. -/
def shortEscape? : Char → Option Nat
  | '0' => some 0x0
  | 'a' => some 0x7
  | 'b' => some 0x8
  | 't' => some 0x9
  | '\t' => some 0x9
  | 'n' => some 0xa
  | 'v' => some 0xb
  | 'f' => some 0xc
  | 'r' => some 0xd
  | 'e' => some 0x1b
  | ' ' => some 0x20
  | '"' => some 0x22
  | '\\' => some 0x5c
  | '/' => some 0x2f
  | 'N' => some 0x85
  | '_' => some 0xa0
  | 'L' => some 0x2028
  | 'P' => some 0x2029
  | _ => none

def escapeWidth? : Char → Option Nat
  | 'x' => some 2
  | 'u' => some 4
  | 'U' => some 8
  | _ => none

/-- The character of a code; half a surrogate pair is read as the replacement character. -/
def character (code : Nat) : Except Unreadable Char :=
  if 0x110000 ≤ code then .error (.scalar .content)
  else .ok (if 0xd800 ≤ code && code < 0xe000 then Char.ofNat 0xfffd else Char.ofNat code)

/-- What an escape stands for, from after its backslash. -/
def escape (c : Cursor) : Except Unreadable (List Char × Cursor) :=
  match c.rest with
  | [] => expected "an escape"
  | a :: rest =>
      match shortEscape? a, escapeWidth? a with
      | some code, _ => .ok ([Char.ofNat code], c.forward)
      | none, some width =>
          match Text.hexNumber? (rest.take width) with
          | some code =>
              if rest.length < width then expected "hexadecimal digits"
              else do
                let a ← character code
                pure ([a], c.skip (width + 1))
          | none => expected "hexadecimal digits"
      | none, none =>
          match c.lineEnd? with
          | some (_, c) => breaks (c.rest.length + 1) [] c
          | none => unexpected "an unknown escape"

/-- Quoted text from after its opening quote.  Single quotes know no escape but the doubled
quote. -/
def scan (bound : Nat) (double : Bool) (done : List Char) (c : Cursor) :
    Except Unreadable (List Char × Cursor) :=
  match bound, c.rest with
  | 0, _ => expected "a shorter text"
  | _, [] => expected "a closing quote"
  | bound + 1, a :: rest =>
      if double && a = '"' then .ok (done, c.forward)
      else if !double && a = '\'' then
        if rest.head? = some '\'' then scan bound double (done ++ ['\'']) (c.skip 2)
        else .ok (done, c.forward)
      else if double && a = '\\' then do
        let (cs, c) ← escape c.forward
        scan bound double (done ++ cs) c
      else if isBlank a || isBreak a then do
        let (cs, c) ← gap c
        scan bound double (done ++ cs) c
      else scan bound double (done ++ [a]) c.forward

end Quoted

namespace Block

inductive Chomping
  | strip
  | clip
  | keep
  deriving Repr, DecidableEq

structure Header where
  chomping : Chomping := .clip
  /-- The extra indentation, when the header gives it. -/
  increment : Option Nat := none

def chomping? (c : Cursor) : Option (Chomping × Cursor) :=
  match c.rest with
  | '+' :: _ => some (.keep, c.forward)
  | '-' :: _ => some (.strip, c.forward)
  | _ => none

def increment? (c : Cursor) : Except Unreadable (Option Nat × Cursor) :=
  match c.rest with
  | a :: _ =>
      if a = '0' then unexpected "an indentation of zero"
      else if a.isDigit then .ok (some (a.toNat - 0x30), c.forward)
      else .ok (none, c)
  | [] => .ok (none, c)

/-- The two marks may stand in either order. -/
def header (c : Cursor) : Except Unreadable (Header × Cursor) := do
  let (header, c) ← match chomping? c with
    | some (chomping, c) => do
        let (increment, c) ← increment? c
        pure (Header.mk chomping increment, c)
    | none => do
        let (increment, c) ← increment? c
        match increment, chomping? c with
        | some n, some (chomping, c) => pure (Header.mk chomping (some n), c)
        | increment, _ => pure (Header.mk .clip increment, c)
  if atStrictGap c.rest then pure (header, ← c.endLine)
  else expected "a chomping or an indentation mark"

/-- Line ends and spaces before the first line of text, and the deepest column among them. -/
def leading (bound deepest : Nat) (done : List Char) (c : Cursor) : List Char × Nat × Cursor :=
  match bound with
  | 0 => (done, deepest, c)
  | bound + 1 =>
      if c.startsWith ' ' then
        let c := c.forward
        leading bound (max deepest c.column) done c
      else match c.lineEnd? with
        | some (e, c) => leading bound deepest (done ++ [e]) c
        | none => (done, deepest, c)

/-- Spaces up to a column. -/
def skipIndent (indent : Nat) (c : Cursor) : Cursor :=
  c.skip (min (indent - c.column) (c.rest.takeWhile (· = ' ')).length)

/-- Empty lines. -/
def breaks (bound indent : Nat) (done : List Char) (c : Cursor) : List Char × Cursor :=
  match bound with
  | 0 => (done, c)
  | bound + 1 =>
      let c := skipIndent indent c
      match c.lineEnd? with
      | some (e, c) => breaks bound indent (done ++ [e]) c
      | none => (done, c)

def startsBlank (c : Cursor) : Bool := (c.rest.head?.map isBlank).getD false

/-- The lines of a block scalar. `between` holds the empty lines before the next line. -/
def lines (bound indent : Nat) (folded : Bool) (chomping : Chomping) (done between : List Char)
    (c : Cursor) : List Char × Cursor :=
  match bound with
  | 0 => (done, c)
  | bound + 1 =>
      let (line, next) := c.takeRun (!isBreak ·)
      let (last, next) := match next.lineEnd? with
        | some (e, next) => ([e], next)
        | none => ([], next)
      let (empty, next) := breaks (next.rest.length + 1) indent [] next
      let done := done ++ between ++ line
      if next.column = indent && !next.rest.isEmpty then
        let joint :=
          if folded && last = ['\n'] && !startsBlank c && !startsBlank next then
            (if empty.isEmpty then [' '] else [])
          else last
        lines bound indent folded chomping (done ++ joint) empty next
      else
        (match chomping with
          | .strip => done
          | .clip => done ++ last
          | .keep => done ++ last ++ empty, next)

/-- A block scalar from after its mark, inside a collection with the given indentation. -/
def scan (folded : Bool) (outer : Int) (c : Cursor) : Except Unreadable (List Char × Cursor) := do
  let (header, c) ← header c
  let least := (max (outer + 1) 1).toNat
  let (empty, indent, c) := match header.increment with
    | none =>
        let (empty, deepest, c) := leading (c.rest.length + 1) 0 [] c
        (empty, max least deepest, c)
    | some increment =>
        let indent := least + increment - 1
        let (empty, c) := breaks (c.rest.length + 1) indent [] c
        (empty, indent, c)
  if c.column = indent && !c.rest.isEmpty then
    pure (lines (c.rest.length + 1) indent folded header.chomping [] empty c)
  else pure (if header.chomping = .keep then empty else [], c)

end Block

end DesignGraph.Yaml
