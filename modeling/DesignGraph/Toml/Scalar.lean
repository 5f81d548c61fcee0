import DesignGraph.Calendar
import DesignGraph.Fault
import DesignGraph.Text.Hex

/-!
# Numbers, dates and times of TOML

Every reader takes the longest prefix of its form and returns what follows, or `none` if the text
does not begin with its form.  A date or time may be followed by anything; what may follow a value
is for the reader of documents to say.
-/

namespace DesignGraph.Toml

abbrev Rest := List Char

/-- Integers with more decimal digits than this are refused. -/
def digitLimit : Nat := 4300

/-- The number of exactly so many decimal digits. -/
def fixedDigits? (count : Nat) (cs : Rest) : Option (Nat × Rest) :=
  let digits := cs.take count
  if digits.length = count && digits.all Char.isDigit then
    some (Numeral.digitsValue digits, cs.drop count)
  else none

def expectChar? (c : Char) : Rest → Option Rest
  | a :: rest => if a = c then some rest else none
  | [] => none

/-- A number of two digits below a limit. -/
def twoDigits? (limit : Nat) (cs : Rest) : Option (Nat × Rest) := do
  let (n, rest) ← fixedDigits? 2 cs
  if n < limit then some (n, rest) else none

/-- The digits after a point as microseconds; those beyond the sixth do not count. -/
def microseconds (cs : Rest) : Nat × Rest :=
  match cs with
  | '.' :: rest =>
      let digits := rest.takeWhile Char.isDigit
      if digits.isEmpty then (0, cs)
      else
        let six := digits.take 6
        (Numeral.digitsValue six * Nat.pow 10 (6 - six.length), rest.drop digits.length)
  | _ => (0, cs)

def clock? (cs : Rest) : Option (Clock × Rest) := do
  let (hour, rest) ← twoDigits? 24 cs
  let (minute, rest) ← twoDigits? 60 (← expectChar? ':' rest)
  let (second, rest) ← twoDigits? 60 (← expectChar? ':' rest)
  let (fraction, rest) := microseconds rest
  some (⟨hour, minute, second, fraction⟩, rest)

/-- A date by its form: the day of the month need not exist. -/
def date? (cs : Rest) : Option (Date × Rest) := do
  let (year, rest) ← fixedDigits? 4 cs
  let (month, rest) ← twoDigits? 13 (← expectChar? '-' rest)
  let (day, rest) ← twoDigits? 32 (← expectChar? '-' rest)
  if month = 0 || day = 0 then none else some (⟨year, month, day⟩, rest)

def offset (cs : Rest) : Option Int × Rest :=
  let signed (negative : Bool) (rest : Rest) : Option Int × Rest :=
    let found := do
      let (hours, rest) ← twoDigits? 24 rest
      let (minutes, rest) ← twoDigits? 60 (← expectChar? ':' rest)
      some (some (Binary64.signed negative (hours * 60 + minutes)), rest)
    found.getD (none, cs)
  match cs with
  | 'Z' :: rest => (some 0, rest)
  | 'z' :: rest => (some 0, rest)
  | '+' :: rest => signed false rest
  | '-' :: rest => signed true rest
  | _ => (none, cs)

/-- A date, or a date and a time of day with an optional offset. -/
def dated? (cs : Rest) : Option (Value × Rest) := do
  let (date, rest) ← date? cs
  let timed := match rest with
    | mark :: more => if mark = 'T' || mark = 't' || mark = ' ' then clock? more else none
    | [] => none
  match timed with
  | some (clock, rest) =>
      let (offset, rest) := offset rest
      some (.moment ⟨date, clock, offset⟩, rest)
  | none => some (.date date, rest)

/-- Digits with single underscores between them; the underscores are left out. -/
def grouped (isDigit : Char → Bool) : Rest → List Char × Rest
  | '_' :: c :: rest =>
      if isDigit c then
        let (digits, rest) := grouped isDigit rest
        (c :: digits, rest)
      else ([], '_' :: c :: rest)
  | c :: rest =>
      if isDigit c then
        let (digits, rest) := grouped isDigit rest
        (c :: digits, rest)
      else ([], c :: rest)
  | [] => ([], [])

/-- A digit and then grouped digits. -/
def digitRun? (isDigit : Char → Bool) (cs : Rest) : Option (List Char × Rest) :=
  match cs with
  | c :: _ => if isDigit c then some (grouped isDigit cs) else none
  | [] => none

def digitIn (base : Nat) (c : Char) : Bool := (Text.hexValue? c).any (· < base)

def numberIn (base : Nat) (digits : List Char) : Nat :=
  digits.foldl (fun n c => n * base + (Text.hexValue? c).getD 0) 0

/-- A whole number after its base mark. -/
def marked? (cs : Rest) : Option (Value × Rest) :=
  let inBase (base : Nat) (rest : Rest) : Option (Value × Rest) :=
    (digitRun? (digitIn base) rest).map fun (digits, rest) =>
      (.int (numberIn base digits), rest)
  match cs with
  | '0' :: 'x' :: rest => inBase 16 rest
  | '0' :: 'o' :: rest => inBase 8 rest
  | '0' :: 'b' :: rest => inBase 2 rest
  | _ => none

def fraction (cs : Rest) : Option (List Char) × Rest :=
  match cs with
  | '.' :: rest => match digitRun? Char.isDigit rest with
      | some (digits, rest) => (some digits, rest)
      | none => (none, cs)
  | _ => (none, cs)

def exponent (cs : Rest) : Option Int × Rest :=
  match cs with
  | mark :: rest =>
      let (negative, digits) := Numeral.splitSign rest
      match digitRun? Char.isDigit digits with
      | some (digits, rest) =>
          if mark = 'e' || mark = 'E' then
            (some (Binary64.signed negative (Numeral.digitsValue digits)), rest)
          else (none, cs)
      | none => (none, cs)
  | [] => (none, cs)

/-- The integer part of a decimal number: a zero alone, or digits that do not begin with one. -/
def wholePart? (cs : Rest) : Option (List Char × Rest) :=
  match cs with
  | '0' :: rest => some (['0'], rest)
  | _ => digitRun? Char.isDigit cs

def decimal? (cs : Rest) : Option (Except Unreadable Value × Rest) := do
  let (negative, rest) := Numeral.splitSign cs
  let (whole, rest) ← wholePart? rest
  let (part, rest) := fraction rest
  let (power, rest) := exponent rest
  match part, power with
  | none, none =>
      let value := if whole.length > digitLimit then .error (.scalar .content)
        else .ok (.int (Binary64.signed negative (Numeral.digitsValue whole)))
      some (value, rest)
  | part, power =>
      let digits := part.getD []
      some (.ok (.float (Binary64.ofDecimal negative (Numeral.digitsValue (whole ++ digits))
        (power.getD 0 - digits.length))), rest)

/-- The names of the numbers that are not finite. -/
def named? (cs : Rest) : Option (Value × Rest) :=
  let (negative, name) := Numeral.splitSign cs
  match name with
  | 'i' :: 'n' :: 'f' :: rest => some (.float (.infinite negative), rest)
  | 'n' :: 'a' :: 'n' :: rest => some (.float .nan, rest)
  | _ => none

/-- The value at the front of a text that is neither quoted nor bracketed nor a truth value. -/
def plain? (cs : Rest) : Option (Except Unreadable Value × Rest) :=
  match dated? cs with
  | some (value, rest) =>
      let checked := if value.isOnCalendar then .ok value
        else .error (.malformed (.unexpected "a date that does not exist"))
      some (checked, rest)
  | none =>
      ((clock? cs).map fun (clock, rest) => (.ok (.clock clock), rest))
        <|> ((marked? cs).map fun (value, rest) => (.ok value, rest))
        <|> decimal? cs
        <|> ((named? cs).map fun (value, rest) => (.ok value, rest))

end DesignGraph.Toml
