import DesignGraph.Toml.Scalar

/-!
# Quoted text of TOML

Basic text has escapes and literal text has none.  Either form may span lines between three quotes;
then a line feed right after the opening does not count, and up to two quotes may stand before the
closing.
-/

namespace DesignGraph.Toml

def expected {α : Type} (what : String) : Except Unreadable α :=
  .error (.malformed (.expected what))

/-- Controls that text may not hold; a tabulator is no such control. -/
def isControl (c : Char) : Bool := (c.toNat < 0x20 && c ≠ '\t') || c.toNat = 0x7f

def skipBlanks (cs : Rest) : Rest := cs.dropWhile fun c => c = ' ' || c = '\t'

def skipLines (cs : Rest) : Rest := cs.dropWhile fun c => c = ' ' || c = '\t' || c = '\n'

/-- The character of so many hexadecimal digits. -/
def codePoint (count : Nat) (cs : Rest) : Except Unreadable (Char × Rest) :=
  let digits := cs.take count
  match Text.hexNumber? digits with
  | some code =>
      if digits.length = count && code < 0x110000 && !(0xd800 ≤ code && code < 0xe000) then
        .ok (Char.ofNat code, cs.drop count)
      else expected "a character code"
  | none => expected "hexadecimal digits"

def shortEscape? : Char → Option Char
  | 'b' => some '\x08'
  | 't' => some '\t'
  | 'n' => some '\n'
  | 'f' => some '\x0c'
  | 'r' => some '\r'
  | '"' => some '"'
  | '\\' => some '\\'
  | _ => none

/-- What an escape stands for, after its backslash.  In text of several lines a backslash at the
end of a line takes all blanks and line feeds after it. -/
def escape (multiline : Bool) (cs : Rest) : Except Unreadable (List Char × Rest) :=
  match cs with
  | 'u' :: rest => do
      let (c, rest) ← codePoint 4 rest
      pure ([c], rest)
  | 'U' :: rest => do
      let (c, rest) ← codePoint 8 rest
      pure ([c], rest)
  | c :: rest =>
      match shortEscape? c with
      | some c => .ok ([c], rest)
      | none =>
          if multiline && (c = ' ' || c = '\t' || c = '\n') then
            match skipBlanks cs with
            | [] => .ok ([], [])
            | '\n' :: rest => .ok ([], skipLines rest)
            | _ => expected "a line end after a backslash"
          else expected "a known escape"
  | [] => expected "a known escape"

/-- Basic text up to its closing quotes. `done` is what was read, last character first. -/
def basic (bound : Nat) (multiline : Bool) (done : List Char) (cs : Rest) :
    Except Unreadable (List Char × Rest) :=
  match bound, cs with
  | 0, _ => expected "a shorter text"
  | _, [] => expected "a closing quote"
  | bound + 1, '"' :: rest =>
      if !multiline then .ok (done.reverse, rest)
      else match rest with
        | '"' :: '"' :: rest => .ok (done.reverse, rest)
        | _ => basic bound multiline ('"' :: done) rest
  | bound + 1, '\\' :: rest => do
      let (cs, rest) ← escape multiline rest
      basic bound multiline (cs.reverse ++ done) rest
  | bound + 1, c :: rest =>
      if isControl c && !(multiline && c = '\n') then expected "no control character"
      else basic bound multiline (c :: done) rest

/-- Literal text up to its closing quotes. -/
def literal (multiline : Bool) (done : List Char) (cs : Rest) :
    Except Unreadable (List Char × Rest) :=
  match cs with
  | [] => expected "a closing quote"
  | '\'' :: rest =>
      if !multiline then .ok (done.reverse, rest)
      else match rest with
        | '\'' :: '\'' :: rest => .ok (done.reverse, rest)
        | _ => literal multiline ('\'' :: done) rest
  | c :: rest =>
      if isControl c && !(multiline && c = '\n') then expected "no control character"
      else literal multiline (c :: done) rest

/-- Up to two more quotes after the closing ones belong to the text. -/
def extraQuotes (quote : Char) (cs : List Char) (rest : Rest) : List Char × Rest :=
  let count := min 2 (rest.takeWhile (· = quote)).length
  (cs ++ List.replicate count quote, rest.drop count)

def multiline (quote : Char) (rest : Rest) : Except Unreadable (List Char × Rest) := do
  let rest := match rest with
    | '\n' :: rest => rest
    | _ => rest
  let (cs, rest) ← if quote = '"' then basic (rest.length + 1) true [] rest
    else literal true [] rest
  pure (extraQuotes quote cs rest)

def oneLine (quote : Char) (rest : Rest) : Except Unreadable (List Char × Rest) :=
  if quote = '"' then basic (rest.length + 1) false [] rest else literal false [] rest

/-- Quoted text, if one begins here. -/
def quoted? (cs : Rest) : Option (Except Unreadable (List Char × Rest)) :=
  match cs with
  | '"' :: '"' :: '"' :: rest => some (multiline '"' rest)
  | '\'' :: '\'' :: '\'' :: rest => some (multiline '\'' rest)
  | '"' :: rest => some (oneLine '"' rest)
  | '\'' :: rest => some (oneLine '\'' rest)
  | _ => none

end DesignGraph.Toml
