/-!
# Binary floating point

Numbers with 53 significant bits, kept exactly as a sign, a mantissa and a power of two, and one
rounding function: the nearest such number to a quotient of naturals, a tie going to the even
mantissa.  Every operation computes its exact result as a quotient and rounds it once.
-/

namespace DesignGraph

/-- A finite number is `mantissa * 2 ^ exponent` with its sign.  The functions of this module only
build numbers with `mantissa < 2 ^ 53` and `exponent ≥ -1074` whose mantissa is at least `2 ^ 52`
unless the exponent is `-1074`, so that equal numbers other than the two zeros are equal terms. -/
inductive Binary64
  | finite (negative : Bool) (mantissa : Nat) (exponent : Int)
  | infinite (negative : Bool)
  | nan
  deriving Repr, DecidableEq

namespace Binary64

instance : Inhabited Binary64 := ⟨nan⟩

def leastExponent : Int := -1074
def greatestExponent : Int := 971
def mantissaLimit : Nat := Nat.pow 2 53

def zero (negative : Bool) : Binary64 := finite negative 0 leastExponent

/-- `numerator / denominator * 2 ^ (-exponent)` as a quotient of naturals. -/
def scaled (numerator denominator : Nat) (exponent : Int) : Nat × Nat :=
  (numerator * Nat.pow 2 (-exponent).toNat, denominator * Nat.pow 2 exponent.toNat)

/-- The exponent of the unit in the last place of a positive quotient. -/
def unitExponent (numerator denominator : Nat) : Int :=
  let guess : Int := (numerator.log2 : Int) - denominator.log2
  let (n, d) := scaled numerator denominator guess
  max leastExponent ((if n < d then guess - 1 else guess) - 52)

/-- A quotient rounded to the nearest natural, a half going to the even neighbour. -/
def roundHalfEven (numerator denominator : Nat) : Nat :=
  let quotient := numerator / denominator
  let remainder := numerator % denominator
  if 2 * remainder > denominator || (2 * remainder == denominator && quotient % 2 == 1)
  then quotient + 1
  else quotient

/-- The nearest number to `numerator / denominator`; beyond the greatest finite number it is
infinite. -/
def ofQuotient (negative : Bool) (numerator denominator : Nat) : Binary64 :=
  if numerator = 0 then zero negative
  else
    let exponent := unitExponent numerator denominator
    let (n, d) := scaled numerator denominator exponent
    let rounded := roundHalfEven n d
    let (mantissa, exponent) :=
      if rounded = mantissaLimit then (mantissaLimit / 2, exponent + 1) else (rounded, exponent)
    if greatestExponent < exponent then infinite negative else finite negative mantissa exponent

/-- The nearest number to an integer. -/
def ofInt (n : Int) : Binary64 := ofQuotient (n < 0) n.natAbs 1

/-- The nearest number to `digits * 10 ^ exponent`.  Exponents far outside the range are decided
without the power of ten, from bounds for `digits` that are powers of ten as well. -/
def ofDecimal (negative : Bool) (digits : Nat) (exponent : Int) : Binary64 :=
  let bits := Nat.log2 digits
  if digits = 0 then zero negative
  else if 400 < (bits / 10 * 3 : Nat) + exponent then infinite negative
  else if (bits / 3 + 1 : Nat) + exponent < -400 then zero negative
  else if 0 ≤ exponent then ofQuotient negative (digits * Nat.pow 10 exponent.toNat) 1
  else ofQuotient negative digits (Nat.pow 10 (-exponent).toNat)

def isFinite : Binary64 → Bool
  | finite .. => true
  | _ => false

def isZero : Binary64 → Bool
  | finite _ mantissa _ => mantissa == 0
  | _ => false

/-- The magnitude of a finite number as a quotient. -/
def quotient (mantissa : Nat) (exponent : Int) : Nat × Nat :=
  (mantissa * Nat.pow 2 exponent.toNat, Nat.pow 2 (-exponent).toNat)

def signed (negative : Bool) (n : Nat) : Int := if negative then -(n : Int) else n

/-- The integer part of a finite number. -/
def truncated? : Binary64 → Option Int
  | finite negative mantissa exponent =>
      let (n, d) := quotient mantissa exponent
      some (signed negative (n / d))
  | _ => none

/-- The integer that a number equals, if there is one. -/
def whole? : Binary64 → Option Int
  | finite negative mantissa exponent =>
      let (n, d) := quotient mantissa exponent
      if n % d = 0 then some (signed negative (n / d)) else none
  | _ => none

def mul : Binary64 → Binary64 → Binary64
  | finite s m e, finite s' m' e' =>
      let (n, d) := quotient (m * m') (e + e')
      ofQuotient (s != s') n d
  | nan, _ => nan
  | _, nan => nan
  | infinite s, finite s' m' _ => if m' = 0 then nan else infinite (s != s')
  | finite s m _, infinite s' => if m = 0 then nan else infinite (s != s')
  | infinite s, infinite s' => infinite (s != s')

/-- A sum of zero is negative only if both numbers are. -/
def add : Binary64 → Binary64 → Binary64
  | finite s m e, finite s' m' e' =>
      let (p, d) := quotient m e
      let (p', d') := quotient m' e'
      let n := signed s p * d' + signed s' p' * d
      if n = 0 then zero (s && s') else ofQuotient (n < 0) n.natAbs (d * d')
  | nan, _ => nan
  | _, nan => nan
  | infinite s, infinite s' => if s = s' then infinite s else nan
  | infinite s, _ => infinite s
  | _, infinite s => infinite s

/-- The number rounded to so many decimal places.  The exact value is rounded to a multiple of the
place, a half to the even one, and the multiple to the nearest number. -/
def roundPlaces (places : Nat) : Binary64 → Binary64
  | finite negative mantissa exponent =>
      let (n, d) := quotient mantissa exponent
      ofQuotient negative (roundHalfEven (n * Nat.pow 10 places) d) (Nat.pow 10 places)
  | x => x

/-- Numeric order of a number and an integer; `none` for what is not a number. -/
def compareInt (x : Binary64) (n : Int) : Option Ordering :=
  match x with
  | nan => none
  | infinite negative => some (if negative then .lt else .gt)
  | finite negative mantissa exponent =>
      let (p, d) := quotient mantissa exponent
      some (compare (signed negative p) (n * d))

/-- Numeric order; the two zeros are equal, and what is not a number has no order. -/
def compareTo (x y : Binary64) : Option Ordering :=
  match x, y with
  | nan, _ => none
  | _, nan => none
  | infinite s, infinite s' => some (compare (if s then 0 else 1) (if s' then 0 else 1))
  | infinite s, finite .. => some (if s then .lt else .gt)
  | finite .., infinite s' => some (if s' then .gt else .lt)
  | finite s m e, finite s' m' e' =>
      let (p, d) := quotient m e
      let (p', d') := quotient m' e'
      some (compare (signed s p * d') (signed s' p' * d))

end Binary64

end DesignGraph
