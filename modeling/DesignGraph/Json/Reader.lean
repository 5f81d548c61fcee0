import DesignGraph.Fault

/-!
# Reading JSON

The value of a JSON text.  Objects keep the order of their members; of two members with one name
the first gives the place and the last the value.  `NaN`, `Infinity` and `-Infinity` are accepted.
An integer stays exact; a number with a fraction or an exponent is a float.  Half a surrogate pair
is read as the replacement character.

The recursion is bounded by the length of the text.
-/

namespace DesignGraph.Json

abbrev Rest := List Char

/-- Integers with more digits than this are refused. -/
def digitLimit : Nat := 4300

def expected {α : Type} (what : String) : Except Unreadable α :=
  .error (.malformed (.expected what))

def skipSpace (cs : Rest) : Rest :=
  cs.dropWhile fun c => c = ' ' || c = '\t' || c = '\n' || c = '\r'

/-- The code of four hexadecimal digits. -/
def unit? : Rest → Option (Nat × Rest)
  | a :: b :: c :: d :: rest => (Text.hexNumber? [a, b, c, d]).map (·, rest)
  | _ => none

/-- The character of an escaped unit; a leading half takes the trailing half after it. -/
def joinUnits (code : Nat) (rest : Rest) : Char × Rest :=
  if 0xd800 ≤ code && code < 0xdc00 then
    match rest with
    | '\\' :: 'u' :: more =>
        match unit? more with
        | some (low, rest') =>
            if 0xdc00 ≤ low && low < 0xe000 then
              (Char.ofNat (0x10000 + (code - 0xd800) * 0x400 + (low - 0xdc00)), rest')
            else (Char.ofNat 0xfffd, rest)
        | none => (Char.ofNat 0xfffd, rest)
    | _ => (Char.ofNat 0xfffd, rest)
  else if 0xdc00 ≤ code && code < 0xe000 then (Char.ofNat 0xfffd, rest)
  else (Char.ofNat code, rest)

def shortEscape? : Char → Option Char
  | '"' => some '"'
  | '\\' => some '\\'
  | '/' => some '/'
  | 'b' => some '\x08'
  | 'f' => some '\x0c'
  | 'n' => some '\n'
  | 'r' => some '\r'
  | 't' => some '\t'
  | _ => none

/-- The rest of a string after its opening quote. `done` is what was read, last character first. -/
def string (bound : Nat) (done : List Char) (cs : Rest) :
    Except Unreadable (String × Rest) :=
  match bound, cs with
  | 0, _ => expected "a shorter text"
  | _, [] => expected "a closing quote"
  | _ + 1, '"' :: rest => .ok (String.ofList done.reverse, rest)
  | bound + 1, '\\' :: 'u' :: rest =>
      match unit? rest with
      | some (code, rest) =>
          let (c, rest) := joinUnits code rest
          string bound (c :: done) rest
      | none => expected "four hexadecimal digits"
  | bound + 1, '\\' :: c :: rest =>
      match shortEscape? c with
      | some c => string bound (c :: done) rest
      | none => expected "a known escape"
  | bound + 1, c :: rest =>
      if c.toNat < 0x20 || c = '\\' then expected "no control character"
      else string bound (c :: done) rest

/-- The digits at the front, with what follows. -/
def digits (cs : Rest) : List Char × Rest := cs.span Char.isDigit

/-- A fraction: a point and at least one digit. Without one nothing is taken. -/
def fraction (cs : Rest) : Option (List Char) × Rest :=
  match cs with
  | '.' :: rest =>
      let (ds, rest) := digits rest
      if ds.isEmpty then (none, cs) else (some ds, rest)
  | _ => (none, cs)

def exponent (cs : Rest) : Option Int × Rest :=
  match cs with
  | mark :: rest =>
      let (negative, rest) := Numeral.splitSign rest
      let (ds, rest) := digits rest
      if (mark = 'e' || mark = 'E') && !ds.isEmpty then
        (some (Binary64.signed negative (Numeral.digitsValue ds)), rest)
      else (none, cs)
  | [] => (none, cs)

/-- The integer part: a zero alone, or digits that do not begin with one. -/
def wholePart (cs : Rest) : Option (List Char × Rest) :=
  match cs with
  | '0' :: rest => some (['0'], rest)
  | _ =>
      let (ds, rest) := digits cs
      if ds.isEmpty then none else some (ds, rest)

def number (negative : Bool) (cs : Rest) : Except Unreadable (Value × Rest) :=
  match wholePart cs with
  | none => expected "a value"
  | some (whole, rest) =>
      let (part, rest) := fraction rest
      let (power, rest) := exponent rest
      match part, power with
      | none, none =>
          if whole.length > digitLimit then .error (.scalar .content)
          else .ok (.int (Binary64.signed negative (Numeral.digitsValue whole)), rest)
      | part, power =>
          let ds := part.getD []
          .ok (.float (Binary64.ofDecimal negative (Numeral.digitsValue (whole ++ ds))
            (power.getD 0 - ds.length)), rest)

/-- A word with a fixed value. -/
def word (name : String) (value : Value) (cs : Rest) : Option (Value × Rest) :=
  let letters := name.toList
  if letters.isPrefixOf cs then some (value, cs.drop letters.length) else none

def words : List (String × Value) :=
  [("null", .null), ("true", .bool true), ("false", .bool false), ("NaN", .float .nan),
    ("Infinity", .float (.infinite false)), ("-Infinity", .float (.infinite true))]

def scalar (cs : Rest) : Except Unreadable (Value × Rest) :=
  match words.findSome? fun (name, value) => word name value cs with
  | some result => .ok result
  | none =>
      match cs with
      | '-' :: rest => number true rest
      | _ => number false cs

mutual

def value (bound : Nat) (cs : Rest) : Except Unreadable (Value × Rest) :=
  match bound, cs with
  | 0, _ => expected "a value"
  | _ + 1, '"' :: rest => do
      let (s, rest) ← string (rest.length + 1) [] rest
      pure (.text s, rest)
  | bound + 1, '\x7b' :: rest =>
      match skipSpace rest with
      | '\x7d' :: rest => .ok (.map [], rest)
      | rest => do
          let (members, rest) ← members bound rest
          pure (.map (Value.ofPairs members), rest)
  | bound + 1, '[' :: rest =>
      match skipSpace rest with
      | ']' :: rest => .ok (.list [], rest)
      | rest => do
          let (items, rest) ← items bound rest
          pure (.list items, rest)
  | _ + 1, cs => scalar cs

/-- The members of an object up to its closing brace. -/
def members (bound : Nat) (cs : Rest) :
    Except Unreadable (List (Value × Value) × Rest) :=
  match bound, cs with
  | 0, _ => expected "a member"
  | bound + 1, '"' :: rest => do
      let (name, rest) ← string (rest.length + 1) [] rest
      match skipSpace rest with
      | ':' :: rest => do
          let (v, rest) ← value bound (skipSpace rest)
          match skipSpace rest with
          | ',' :: rest => do
              let (more, rest) ← members bound (skipSpace rest)
              pure ((.text name, v) :: more, rest)
          | '\x7d' :: rest => pure ([(.text name, v)], rest)
          | _ => expected "a comma or a closing brace"
      | _ => expected "a colon"
  | _ + 1, _ => expected "a name in quotes"

/-- The items of a list up to its closing bracket. -/
def items (bound : Nat) (cs : Rest) : Except Unreadable (List Value × Rest) :=
  match bound with
  | 0 => expected "an item"
  | bound + 1 => do
      let (v, rest) ← value bound cs
      match skipSpace rest with
      | ',' :: rest => do
          let (more, rest) ← items bound (skipSpace rest)
          pure (v :: more, rest)
      | ']' :: rest => pure ([v], rest)
      | _ => expected "a comma or a closing bracket"

end

/-- The value of a whole text. -/
def read (s : String) : Except Unreadable Value := do
  let cs := s.toList
  let (v, rest) ← value (cs.length + 1) (skipSpace cs)
  if (skipSpace rest).isEmpty then pure v else expected "the end of the text"

end DesignGraph.Json
