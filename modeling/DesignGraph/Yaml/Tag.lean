import DesignGraph.Calendar
import DesignGraph.Fault

/-!
# Tags

What kind of value a node stands for.  A node without a written tag gets one from its text: the
words for null and the truth values, the numeral forms with their signs, bases, underscores and
base-60 groups, dates and times, and the two special keys for merging and for default values.
-/

namespace DesignGraph.Yaml

inductive Tag
  | null
  | bool
  | int
  | float
  | timestamp
  | text
  | list
  | mapping
  | merge
  | default
  | unsupported
  deriving Repr, DecidableEq

namespace Tag

def authority : String := "tag:yaml.org,2002:"

def ofName (name : String) : Tag :=
  let known := [("null", null), ("bool", bool), ("int", int), ("float", float),
    ("timestamp", timestamp), ("str", text), ("seq", list), ("map", mapping), ("merge", merge),
    ("value", default)]
  ((known.find? fun entry => authority ++ entry.1 == name).map (·.2)).getD unsupported

end Tag

/-- Whether a text is a first character of one class followed by characters of another. -/
def isRun (first others : Char → Bool) : List Char → Bool
  | [] => false
  | c :: rest => first c && rest.all others

def isDigitOrLine (c : Char) : Bool := c.isDigit || c = '_'

def isPositiveDigit (c : Char) : Bool := c.isDigit && c ≠ '0'

/-- A group after the first of a base-60 numeral. -/
def isSixtieth : List Char → Bool
  | [a] => a.isDigit
  | [a, b] => a.isDigit && a.toNat < 0x36 && b.isDigit
  | _ => false

/-- A first group and at least one further group, with colons between them. -/
def isBaseSixty (first : Char → Bool) (cs : List Char) : Bool :=
  match Text.cutAt ':' cs with
  | head :: next :: more => isRun first isDigitOrLine head && (next :: more).all isSixtieth
  | _ => false

namespace Numeral

def isIn (isDigit : Char → Bool) (cs : List Char) : Bool :=
  !cs.isEmpty && cs.all fun c => isDigit c || c = '_'

def isInteger (cs : List Char) : Bool :=
  let (_, cs) := Numeral.splitSign cs
  match cs with
  | ['0'] => true
  | '0' :: 'b' :: rest => isIn (fun c => c = '0' || c = '1') rest
  | '0' :: 'x' :: rest => isIn (fun c => (Text.hexValue? c).isSome) rest
  | '0' :: rest => isIn (fun c => c.isDigit && c.toNat < 0x38) rest
  | _ => isRun isPositiveDigit isDigitOrLine cs || isBaseSixty isPositiveDigit cs

/-- Nothing, or an exponent with its sign. -/
def isExponent : List Char → Bool
  | [] => true
  | mark :: sign :: digits =>
      (mark = 'e' || mark = 'E') && (sign = '+' || sign = '-') && !digits.isEmpty
        && digits.all Char.isDigit
  | _ => false

def isFloat (cs : List Char) : Bool :=
  let (_, unsigned) := Numeral.splitSign cs
  let (whole, rest) := unsigned.span (· ≠ '.')
  match rest with
  | [] => false
  | _ :: rest =>
      let tail := rest.dropWhile isDigitOrLine
      if whole.isEmpty then
        let name := String.ofList rest
        ["inf", "Inf", "INF"].contains name
          || (cs.length = unsigned.length
            && (["nan", "NaN", "NAN"].contains name
              || (isRun Char.isDigit (fun _ => true) rest && isExponent tail)))
      else
        (isRun Char.isDigit isDigitOrLine whole && isExponent tail)
          || (isBaseSixty Char.isDigit whole && tail.isEmpty)

end Numeral

namespace Timestamp

/-- The longest run of at most `most` digits, if it has at least `least`. -/
def digits? (least most : Nat) (cs : List Char) : Option (List Char × List Char) :=
  let run := (cs.take most).takeWhile Char.isDigit
  if run.length < least then none else some (run, cs.drop run.length)

def number? (least most : Nat) (cs : List Char) : Option (Nat × List Char) :=
  (digits? least most cs).map fun (run, rest) => (Numeral.digitsValue run, rest)

def expect? (c : Char) : List Char → Option (List Char)
  | a :: rest => if a = c then some rest else none
  | [] => none

def date? (cs : List Char) : Option (Date × List Char) := do
  let (year, rest) ← number? 4 4 cs
  let (month, rest) ← number? 1 2 (← expect? '-' rest)
  let (day, rest) ← number? 1 2 (← expect? '-' rest)
  some (⟨year, month, day⟩, rest)

/-- The mark between date and time: the letter or blanks. -/
def afterDate? (cs : List Char) : Option (List Char) :=
  match cs with
  | c :: rest =>
      if c = 'T' || c = 't' then some rest
      else if c = ' ' || c = '\t' then some (rest.dropWhile fun c => c = ' ' || c = '\t')
      else none
  | [] => none

def clock? (cs : List Char) : Option (Clock × List Char) := do
  let (hour, rest) ← number? 1 2 cs
  let (minute, rest) ← number? 2 2 (← expect? ':' rest)
  let (second, rest) ← number? 2 2 (← expect? ':' rest)
  let (fraction, rest) := match rest with
    | '.' :: rest => rest.span Char.isDigit
    | rest => ([], rest)
  let six := fraction.take 6
  some (⟨hour, minute, second, Numeral.digitsValue six * Nat.pow 10 (6 - six.length)⟩, rest)

/-- What follows the time: nothing, or the offset to the end of the text. -/
def offset? (cs : List Char) : Option (Option Int) :=
  match cs.dropWhile fun c => c = ' ' || c = '\t' with
  | [] => if cs.isEmpty then some none else none
  | ['Z'] => some (some 0)
  | sign :: rest =>
      if sign = '+' || sign = '-' then do
        let (hours, rest) ← number? 1 2 rest
        let (minutes, rest) ← match rest with
          | ':' :: rest => number? 2 2 rest
          | rest => some (0, rest)
        if rest.isEmpty then
          some (some (Binary64.signed (sign = '-') (hours * 60 + minutes)))
        else none
      else none

/-- The date or moment that a text names; it need not exist. -/
def read? (cs : List Char) : Option Value := do
  let (date, rest) ← date? cs
  if rest.isEmpty then some (.date date)
  else
    let (clock, rest) ← clock? (← afterDate? rest)
    some (.moment ⟨date, clock, ← offset? rest⟩)

/-- A date alone has to be written with two digits for month and day to be known as one. -/
def isEvident (cs : List Char) : Bool :=
  match read? cs with
  | some (.date _) => cs.length = 10
  | some _ => true
  | none => false

end Timestamp

def truthWords : List (String × Bool) :=
  [("yes", true), ("no", false), ("true", true), ("false", false), ("on", true), ("off", false)]

/-- A word is written in small letters, in capitals or with one capital at its beginning. -/
def spellings (word : String) : List String :=
  [word, word.capitalize, String.ofList (word.toList.map Char.toUpper)]

/-- The tag of a plain scalar. -/
def Tag.ofPlain (s : String) : Tag :=
  let cs := s.toList
  if s = "" || s = "~" || (spellings "null").contains s then null
  else if (truthWords.flatMap fun word => spellings word.1).contains s then bool
  else if Numeral.isFloat cs then float
  else if Numeral.isInteger cs then int
  else if s = "<<" then merge
  else if s = "=" then default
  else if Timestamp.isEvident cs then timestamp
  else text

end DesignGraph.Yaml
