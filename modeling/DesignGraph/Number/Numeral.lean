import DesignGraph.Number.Binary64
import DesignGraph.Text.Blank
import DesignGraph.Text.Digit

/-!
# Numerals

The text forms of numbers that a value may carry: an optional sign, then digits with an optional
point and exponent, or the name of an infinity or of the missing number in any letter case.  White
space around the numeral is dropped, single underscores may stand between digits, and digits of
every script are read.
-/

namespace DesignGraph.Numeral

/-- A digit of any script as an ASCII digit; every other character as itself. -/
def asciiDigit (c : Char) : Char :=
  match Text.digitValue? c with
  | some n => Char.ofNat (0x30 + n)
  | none => c

/-- Drop underscores, each of which has to stand between two digits. -/
def dropUnderscores (before : Option Char) : List Char → Option (List Char)
  | [] => some []
  | '_' :: rest =>
      match before, rest with
      | some b, a :: _ =>
          if b.isDigit && a.isDigit then dropUnderscores (some '_') rest else none
      | _, _ => none
  | c :: rest => (dropUnderscores (some c) rest).map (c :: ·)

def splitSign : List Char → Bool × List Char
  | '-' :: rest => (true, rest)
  | '+' :: rest => (false, rest)
  | cs => (false, cs)

def digitsValue (digits : List Char) : Nat :=
  digits.foldl (fun n c => n * 10 + (c.toNat - 0x30)) 0

/-- An exponent: its mark, an optional sign and at least one digit.  No exponent counts as zero. -/
def exponent? : List Char → Option Int
  | [] => some 0
  | mark :: rest =>
      let (negative, digits) := splitSign rest
      if (mark = 'e' || mark = 'E') && !digits.isEmpty && digits.all Char.isDigit then
        some (Binary64.signed negative (digitsValue digits))
      else none

/-- Unsigned decimal digits with an optional point, at least one digit in all, and an optional
exponent, read as `digits * 10 ^ exponent`. -/
def decimal? (cs : List Char) : Option (Nat × Int) :=
  let (whole, rest) := cs.span Char.isDigit
  let (fraction, rest) :=
    match rest with
    | '.' :: rest => rest.span Char.isDigit
    | _ => ([], rest)
  if whole.isEmpty && fraction.isEmpty then none
  else (exponent? rest).map fun exponent =>
    (digitsValue (whole ++ fraction), exponent - fraction.length)

/-- The number that an unsigned numeral names. -/
def unsigned? (negative : Bool) (cs : List Char) : Option Binary64 :=
  let name := String.ofList (cs.map Char.toLower)
  if name = "inf" || name = "infinity" then some (.infinite negative)
  else if name = "nan" then some .nan
  else (decimal? cs).map fun (digits, exponent) => Binary64.ofDecimal negative digits exponent

/-- The number that a text stands for. -/
def read? (s : String) : Option Binary64 := do
  let cs ← dropUnderscores none ((Text.trimBy Text.isSpace s.toList).map asciiDigit)
  let (negative, rest) := splitSign cs
  unsigned? negative rest

end DesignGraph.Numeral
