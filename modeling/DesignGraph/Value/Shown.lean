import DesignGraph.Number.Shortest
import DesignGraph.Text.Hex
import DesignGraph.Text.Printable
import DesignGraph.Value.Basic

/-!
# Displayed values

Two texts of a value.  Its *display* is what a diagnostic shows: text stands between quotes with
everything unprintable escaped, and dates name their fields.  Its *plain text* is the display,
except that text stands for itself and dates and times have their ISO form.
-/

namespace DesignGraph

def padded (width n : Nat) : String :=
  let digits := toString n
  String.ofList (List.replicate (width - digits.length) '0') ++ digits

namespace Date

def iso (d : Date) : String := padded 4 d.year ++ "-" ++ padded 2 d.month ++ "-" ++ padded 2 d.day

end Date

namespace Clock

def iso (c : Clock) : String :=
  padded 2 c.hour ++ ":" ++ padded 2 c.minute ++ ":" ++ padded 2 c.second
    ++ (if c.microsecond = 0 then "" else "." ++ padded 6 c.microsecond)

/-- The fields that a display names: seconds and microseconds only when they are not zero. -/
def shownFields (c : Clock) : List Nat :=
  if c.microsecond != 0 then [c.hour, c.minute, c.second, c.microsecond]
  else if c.second != 0 then [c.hour, c.minute, c.second]
  else [c.hour, c.minute]

end Clock

namespace Moment

def offsetText (minutes : Int) : String :=
  (if minutes < 0 then "-" else "+") ++ padded 2 (minutes.natAbs / 60) ++ ":"
    ++ padded 2 (minutes.natAbs % 60)

/-- The ISO form, with the given separator between date and time. -/
def iso (separator : String) (m : Moment) : String :=
  m.date.iso ++ separator ++ m.clock.iso ++ (m.offset.map offsetText).getD ""

def offsetShown (minutes : Int) : String :=
  let seconds := minutes.natAbs * 60
  if minutes = 0 then "datetime.timezone.utc"
  else if minutes < 0 then
    "datetime.timezone(datetime.timedelta(days=-1, seconds=" ++ toString (86400 - seconds) ++ "))"
  else "datetime.timezone(datetime.timedelta(seconds=" ++ toString seconds ++ "))"

end Moment

namespace Value

/-- The quote around a displayed text: single, unless the text has only single quotes inside. -/
def displayQuote (cs : List Char) : Char :=
  if cs.contains '\'' && !cs.contains '"' then '"' else '\''

def displayChar (quote : Char) (c : Char) : List Char :=
  if c = quote || c = '\\' then ['\\', c]
  else if c = '\n' then ['\\', 'n']
  else if c = '\r' then ['\\', 'r']
  else if c = '\t' then ['\\', 't']
  else if Text.isPrintable c then [c]
  else if c.toNat < 0x100 then '\\' :: 'x' :: Text.hexDigits 2 c.toNat
  else if c.toNat < 0x10000 then '\\' :: 'u' :: Text.hexDigits 4 c.toNat
  else '\\' :: 'U' :: Text.hexDigits 8 c.toNat

def displayText (s : String) : String :=
  let quote := displayQuote s.toList
  String.ofList (quote :: s.toList.flatMap (displayChar quote) ++ [quote])

def numbers (ns : List Nat) : String := ", ".intercalate (ns.map toString)

mutual

def display : Value → String
  | null => "None"
  | bool b => if b then "True" else "False"
  | int n => toString n
  | float x => x.toText
  | text s => displayText s
  | date d => "datetime.date(" ++ numbers [d.year, d.month, d.day] ++ ")"
  | moment m =>
      "datetime.datetime("
        ++ numbers ([m.date.year, m.date.month, m.date.day] ++ m.clock.shownFields)
        ++ (m.offset.map fun minutes => ", tzinfo=" ++ Moment.offsetShown minutes).getD "" ++ ")"
  | clock c => "datetime.time(" ++ numbers c.shownFields ++ ")"
  | list items => "[" ++ ", ".intercalate (displayItems items) ++ "]"
  | map entries => "\x7b" ++ ", ".intercalate (displayEntries entries) ++ "\x7d"

def displayItems : List Value → List String
  | [] => []
  | v :: vs => display v :: displayItems vs

def displayEntries : List (Value × Value) → List String
  | [] => []
  | (k, v) :: rest => (display k ++ ": " ++ display v) :: displayEntries rest

end

/-- The plain text of a value. -/
def plain : Value → String
  | text s => s
  | date d => d.iso
  | moment m => m.iso " "
  | clock c => c.iso
  | v => display v

end Value

end DesignGraph
