import DesignGraph.Template.Expression
import DesignGraph.Text.Line

/-!
# Tokens of templates

A template is cut into text and tags.  A statement tag or comment takes the blanks before it on its
line and one line feed after it; a hyphen at either side of a tag takes all blanks there, and a plus
sign none.  Text between `raw` and `endraw` holds no tags.

Every loop is bounded by the length of the text.
-/

namespace DesignGraph.Template

inductive Token
  | text (s : String)
  | printStart
  | printEnd
  | blockStart
  | blockEnd
  | word (s : String)
  | string (s : String)
  | int (n : Int)
  | float (x : Binary64)
  | symbol (s : String)
  deriving Repr, DecidableEq

def malformed {α : Type} (what : String) : Except Malformed α := .error (.unexpected what)

inductive TagKind
  | print
  | block
  | comment
  deriving DecidableEq

/-- The mark of whitespace control at the side of a tag. -/
inductive Control
  | strip
  | keep
  | standard
  deriving DecidableEq

def leadingControl : List Char → Control × List Char
  | '-' :: rest => (.strip, rest)
  | '+' :: rest => (.keep, rest)
  | cs => (.standard, cs)

/-- The text before a tag that begins with the given mark, last character first. `lineStart` says
whether the text begins on a new line. -/
def textBefore (kind : TagKind) (control : Control) (lineStart : Bool) (reversed : List Char) :
    List Char :=
  match control with
  | .strip => reversed.dropWhile Text.isBlank
  | .keep => reversed
  | .standard =>
      if kind = .print then reversed
      else
        let line := reversed.takeWhile (· ≠ '\n')
        let before := reversed.drop line.length
        if line.all Text.isBlank && (lineStart || !before.isEmpty) then before else reversed

/-- What follows the end of a statement or comment, and whether it is on a new line. -/
def afterBlock (strip : Bool) (rest : List Char) : List Char × Bool :=
  if strip then
    let blanks := rest.takeWhile Text.isBlank
    (rest.drop blanks.length, blanks.getLast? = some '\n')
  else match rest with
    | '\n' :: rest => (rest, true)
    | rest => (rest, false)

/-- The end of a statement: what follows it, and whether that is on a new line. -/
def blockEnd? : List Char → Option (List Char × Bool)
  | '+' :: '%' :: '\x7d' :: rest => some (rest, false)
  | '-' :: '%' :: '\x7d' :: rest => some (afterBlock true rest)
  | '%' :: '\x7d' :: rest => some (afterBlock false rest)
  | _ => none

def printEnd? : List Char → Option (List Char × Bool)
  | '-' :: '\x7d' :: '\x7d' :: rest => some (afterBlock true rest)
  | '\x7d' :: '\x7d' :: rest => some (rest, false)
  | _ => none

def tagEnd? (kind : TagKind) (cs : List Char) : Option (List Char × Bool) :=
  if kind = .print then printEnd? cs else blockEnd? cs

/-- The end of the comment that begins before this text. -/
def commentEnd? : List Char → Option (List Char × Bool)
  | [] => none
  | '+' :: '#' :: '\x7d' :: rest => some (rest, false)
  | '-' :: '#' :: '\x7d' :: rest => some (afterBlock true rest)
  | '#' :: '\x7d' :: rest => some (afterBlock false rest)
  | _ :: rest => commentEnd? rest

/-- A statement of one given word, from after its control mark. -/
def wordTag? (word : String) (cs : List Char) : Option (List Char) :=
  let cs := cs.dropWhile Text.isBlank
  let letters := word.toList
  if letters.isPrefixOf cs then some ((cs.drop letters.length).dropWhile Text.isBlank) else none

/-- The raw text up to its end tag, which follows as text before, text after and new line. -/
def rawText? (lineStart : Bool) (reversed : List Char) :
    List Char → Option (List Char × List Char × Bool)
  | [] => none
  | c :: rest =>
      let found := match c, rest with
        | '\x7b', '%' :: tag =>
            let (control, tag) := leadingControl tag
            ((wordTag? "endraw" tag).bind blockEnd?).map fun (after, newLine) =>
              ((textBefore .block control lineStart reversed).reverse, after, newLine)
        | _, _ => none
      match found with
      | some result => some result
      | none => rawText? lineStart (c :: reversed) rest

/-- What follows the opening tag of raw text, if one stands here. -/
def rawStart? (cs : List Char) : Option (Control × List Char × Bool) :=
  let (control, tag) := leadingControl cs
  match wordTag? "raw" tag with
  | some ('-' :: '%' :: '\x7d' :: rest) =>
      let (rest, newLine) := afterBlock true rest
      some (control, rest, newLine)
  | some ('%' :: '\x7d' :: rest) => some (control, rest, false)
  | _ => none

def isWordChar (c : Char) : Bool := c.isAlphanum || c = '_'

def symbolsOfTwo : List String := ["//", "**", "==", "!=", ">=", "<="]

def symbolsOfOne : List Char := "+-/*%~[]()\x7b\x7d><=.:|,;".toList

/-- The symbol at the front of a text. -/
def symbol? : List Char → Option (String × List Char)
  | [] => none
  | [a] => if symbolsOfOne.contains a then some (String.singleton a, []) else none
  | a :: b :: rest =>
      if symbolsOfTwo.contains (String.ofList [a, b]) then some (String.ofList [a, b], rest)
      else if symbolsOfOne.contains a then some (String.singleton a, b :: rest)
      else none

def closer? : String → Option String
  | "(" => some ")"
  | "[" => some "]"
  | "\x7b" => some "\x7d"
  | _ => none

def isCloser (s : String) : Bool := s = ")" || s = "]" || s = "\x7d"

/-- Digits with single underscores between them, the underscores left out. -/
def digits : List Char → List Char × List Char
  | '_' :: c :: rest =>
      if c.isDigit then
        let (ds, rest) := digits rest
        (c :: ds, rest)
      else ([], '_' :: c :: rest)
  | c :: rest =>
      if c.isDigit then
        let (ds, rest) := digits rest
        (c :: ds, rest)
      else ([], c :: rest)
  | [] => ([], [])

def startsDigit : List Char → Bool
  | c :: _ => c.isDigit
  | [] => false

def fraction : List Char → Option (List Char) × List Char
  | '.' :: rest =>
      if startsDigit rest then
        let (ds, rest) := digits rest
        (some ds, rest)
      else (none, '.' :: rest)
  | cs => (none, cs)

def exponent (cs : List Char) : Option Int × List Char :=
  match cs with
  | mark :: rest =>
      let (negative, ds) := Numeral.splitSign rest
      if (mark = 'e' || mark = 'E') && startsDigit ds then
        let (ds, rest) := digits ds
        (some (Binary64.signed negative (Numeral.digitsValue ds)), rest)
      else (none, cs)
  | [] => (none, cs)

/-- The number at the front of a text that begins with a digit. After a dot it is an index. -/
def number (afterDot : Bool) (cs : List Char) : Token × List Char :=
  let (whole, rest) := digits cs
  if afterDot then (.int (Numeral.digitsValue whole), rest)
  else
    let (part, after) := fraction rest
    let (power, after) := exponent after
    if part.isNone && power.isNone then (.int (Numeral.digitsValue whole), rest)
    else
      let ds := part.getD []
      (.float (Binary64.ofDecimal false (Numeral.digitsValue (whole ++ ds))
        (power.getD 0 - ds.length)), after)

def shortEscape? : Char → Option Char
  | 'n' => some '\n'
  | 't' => some '\t'
  | 'r' => some '\r'
  | 'b' => some '\x08'
  | 'f' => some '\x0c'
  | 'v' => some '\x0b'
  | 'a' => some '\x07'
  | '0' => some '\x00'
  | '\\' => some '\\'
  | '\'' => some '\''
  | '"' => some '"'
  | _ => none

def escapeWidth? : Char → Option Nat
  | 'x' => some 2
  | 'u' => some 4
  | 'U' => some 8
  | _ => none

/-- Quoted text from after its opening quote. An unknown escape stands for itself. -/
def string (bound : Nat) (quote : Char) (done : List Char) (cs : List Char) :
    Except Malformed (String × List Char) :=
  match bound, cs with
  | bound + 1, '\\' :: c :: rest =>
      match shortEscape? c, escapeWidth? c with
      | some a, _ => string bound quote (a :: done) rest
      | none, some width =>
          match Text.hexNumber? (rest.take width) with
          | some code =>
              if rest.length < width then malformed "a short escape"
              else string bound quote (Char.ofNat code :: done) (rest.drop width)
          | none => malformed "an escape without digits"
      | none, none =>
          if c = '\n' then string bound quote done rest
          else string bound quote (c :: '\\' :: done) rest
  | bound + 1, c :: rest =>
      if c = quote then .ok (String.ofList done.reverse, rest)
      else string bound quote (c :: done) rest
  | _, _ => malformed "a text without its closing quote"

/-- The tokens of a tag up to its end. `closers` are the closing brackets still to come, the next
one first. -/
def tag (bound : Nat) (kind : TagKind) (closers : List String) (afterDot : Bool) (cs : List Char) :
    Except Malformed (List Token × List Char × Bool) :=
  match bound, cs with
  | 0, _ => malformed "a long tag"
  | _, [] => malformed "the end of the template in a tag"
  | bound + 1, c :: rest =>
      match if closers.isEmpty then tagEnd? kind cs else none with
      | some (after, newLine) =>
          .ok ([if kind = .print then .printEnd else .blockEnd], after, newLine)
      | none =>
          if Text.isBlank c then tag bound kind closers false rest
          else if c.isDigit then do
            let (t, rest) := number afterDot cs
            let (ts, after) ← tag bound kind closers false rest
            pure (t :: ts, after)
          else if isWordChar c then do
            let name := cs.takeWhile isWordChar
            let (ts, after) ← tag bound kind closers false (cs.drop name.length)
            pure (.word (String.ofList name) :: ts, after)
          else if c = '"' || c = '\'' then do
            let (s, rest) ← string (rest.length + 1) c [] rest
            let (ts, after) ← tag bound kind closers false rest
            pure (.string s :: ts, after)
          else match symbol? cs with
            | none => malformed "a character outside the notation"
            | some (s, rest) => do
                let closers ← match closer? s, closers with
                  | some closer, _ => pure (closer :: closers)
                  | none, next :: others =>
                      if s = next then pure others
                      else if isCloser s then malformed "a closing bracket" else pure closers
                  | none, [] => if isCloser s then malformed "a closing bracket" else pure []
                let (ts, after) ← tag bound kind closers (s = ".") rest
                pure (.symbol s :: ts, after)

/-- A text token, unless the text is empty. -/
def textToken (cs : List Char) : List Token :=
  if cs.isEmpty then [] else [.text (String.ofList cs)]

/-- The tokens from a place outside tags. `reversed` is the text since the last tag, last character
first. -/
def tokensFrom (bound : Nat) (lineStart : Bool) (reversed : List Char) (cs : List Char) :
    Except Malformed (List Token) :=
  match bound, cs with
  | _, [] => .ok (textToken reversed.reverse)
  | 0, _ => malformed "a long template"
  | bound + 1, '\x7b' :: '\x7b' :: rest => do
      let (control, rest) := leadingControl rest
      let (ts, rest, newLine) ← tag (rest.length + 1) .print [] false rest
      let more ← tokensFrom bound newLine [] rest
      pure (textToken (textBefore .print control lineStart reversed).reverse
        ++ .printStart :: ts ++ more)
  | bound + 1, '\x7b' :: '#' :: rest => do
      let (control, rest) := leadingControl rest
      match commentEnd? rest with
      | none => malformed "a comment without its end"
      | some (rest, newLine) => do
          let more ← tokensFrom bound newLine [] rest
          pure (textToken (textBefore .comment control lineStart reversed).reverse ++ more)
  | bound + 1, '\x7b' :: '%' :: rest => do
      match rawStart? rest with
      | some (control, rest, newLine) =>
          match rawText? newLine [] rest with
          | none => malformed "raw text without its end"
          | some (raw, rest, newLine) => do
              let more ← tokensFrom bound newLine [] rest
              pure (textToken (textBefore .block control lineStart reversed).reverse
                ++ textToken raw ++ more)
      | none => do
          let (control, rest) := leadingControl rest
          let (ts, rest, newLine) ← tag (rest.length + 1) .block [] false rest
          let more ← tokensFrom bound newLine [] rest
          pure (textToken (textBefore .block control lineStart reversed).reverse
            ++ .blockStart :: ts ++ more)
  | bound + 1, c :: rest => tokensFrom bound lineStart (c :: reversed) rest

def tokens (source : String) : Except Malformed (List Token) :=
  let cs := Text.unifyLineEnds source.toList
  tokensFrom (cs.length + 1) true [] cs

end DesignGraph.Template
