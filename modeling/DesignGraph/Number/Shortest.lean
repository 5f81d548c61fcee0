import DesignGraph.Number.Binary64

/-!
# Shortest decimal text

A floating-point number is written with the fewest digits that read back as the same number, and
of these with the digits nearest to it.  Numbers from `0.0001` up to below `10 ^ 16` are written
positionally, with at least one digit after the point; the others with an exponent of at least two
digits and its sign.
-/

namespace DesignGraph.Binary64

/-- `digits * 10 ^ exponent`. -/
structure Decimal where
  digits : Nat
  exponent : Int
  deriving Repr, DecidableEq

/-- Compare `a * 10 ^ i` with `n * 2 ^ j`. -/
def compareScaled (a : Nat) (i : Int) (n : Nat) (j : Int) : Ordering :=
  compare (a * Nat.pow 10 i.toNat * Nat.pow 2 (-j).toNat)
    (n * Nat.pow 2 j.toNat * Nat.pow 10 (-i).toNat)

/-- Whether a decimal lies among the reals that round to `mantissa * 2 ^ exponent`: between the
midpoints to the two neighbours, these included when the mantissa is even.  Below a power of two
the gap is half as wide. -/
def readsBack (mantissa : Nat) (exponent : Int) (decimal : Decimal) : Bool :=
  let narrow := mantissa == mantissaLimit / 2 && leastExponent < exponent
  let low := if narrow then 4 * mantissa - 1 else 4 * mantissa - 2
  let even := mantissa % 2 == 0
  let toLow := compareScaled decimal.digits decimal.exponent low (exponent - 2)
  let toHigh := compareScaled decimal.digits decimal.exponent (4 * mantissa + 2) (exponent - 2)
  (toLow == .gt || (even && toLow == .eq)) && (toHigh == .lt || (even && toHigh == .eq))

/-- The least `k` with `mantissa * 2 ^ exponent < 10 ^ k`, for a positive mantissa. -/
def decimalMagnitude (mantissa : Nat) (exponent : Int) : Int :=
  let guess : Int := ((mantissa.log2 : Int) + exponent) * 30103 / 100000
  let fits (k : Int) : Bool := compareScaled 1 k mantissa exponent == .gt
  ([guess - 1, guess, guess + 1].find? fits).getD (guess + 2)

/-- The two neighbours of the value on the grid of `10 ^ place`, the nearer first; an exact tie
puts the even one first. -/
def gridNeighbours (mantissa : Nat) (exponent place : Int) : List Decimal :=
  let n := mantissa * Nat.pow 2 exponent.toNat * Nat.pow 10 (-place).toNat
  let d := Nat.pow 2 (-exponent).toNat * Nat.pow 10 place.toNat
  let lower := n / d
  if roundHalfEven n d = lower then [⟨lower, place⟩, ⟨lower + 1, place⟩]
  else [⟨lower + 1, place⟩, ⟨lower, place⟩]

/-- The digits of the shortest decimal, found on ever finer grids. -/
def shortest (mantissa : Nat) (exponent : Int) : Decimal :=
  let magnitude := decimalMagnitude mantissa exponent
  let onGrid (count : Nat) : Option Decimal :=
    (gridNeighbours mantissa exponent (magnitude - count)).find? (readsBack mantissa exponent)
  let exact : Decimal :=
    if 0 ≤ exponent then ⟨mantissa * Nat.pow 2 exponent.toNat, 0⟩
    else ⟨mantissa * Nat.pow 5 (-exponent).toNat, exponent⟩
  ((List.range 17).findSome? fun n => onGrid (n + 1)).getD exact

def dropTrailingZeros : List Char → List Char :=
  fun cs => (cs.reverse.dropWhile (· == '0')).reverse

def exponentText (exponent : Int) : String :=
  let digits := toString exponent.natAbs
  (if exponent < 0 then "e-" else "e+") ++ (if digits.length < 2 then "0" ++ digits else digits)

/-- Lay out digits whose first one has the place `10 ^ leading`. -/
def layout (digits : List Char) (leading : Int) : String :=
  let count := digits.length
  if -4 ≤ leading && leading < 16 then
    if leading < 0 then
      "0." ++ String.ofList (List.replicate ((-leading).toNat - 1) '0' ++ digits)
    else
      let point := leading.toNat + 1
      if count ≤ point then String.ofList (digits ++ List.replicate (point - count) '0') ++ ".0"
      else String.ofList (digits.take point ++ '.' :: digits.drop point)
  else
    match digits with
    | [] => ""
    | [digit] => String.singleton digit ++ exponentText leading
    | digit :: rest => String.ofList (digit :: '.' :: rest) ++ exponentText leading

/-- The text of a number. -/
def toText : Binary64 → String
  | nan => "nan"
  | infinite negative => if negative then "-inf" else "inf"
  | finite negative mantissa exponent =>
      let sign := if negative then "-" else ""
      if mantissa = 0 then sign ++ "0.0"
      else
        let decimal := shortest mantissa exponent
        let all := (toString decimal.digits).toList
        sign ++ layout (dropTrailingZeros all) (decimal.exponent + all.length - 1)

end DesignGraph.Binary64
