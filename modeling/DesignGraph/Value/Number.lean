import DesignGraph.Number.Numeral
import DesignGraph.Value.Basic

/-!
# Numeric values

The finite number that a value stands for.  Integers stand for themselves at any size; floats and
numerals are read as floating-point numbers, and a whole one collapses to an integer.  Truth values
are no numbers.
-/

namespace DesignGraph

/-- A finite number in its simplest form: `inexact` holds no whole number. -/
inductive Quantum
  | whole (n : Int)
  | inexact (x : Binary64)
  deriving Repr, DecidableEq

namespace Quantum

/-- A finite floating-point number, collapsed when it is whole; what is not finite has no form,
and with `integral` neither has a fractional number. -/
def ofBinary64? (integral : Bool) (x : Binary64) : Option Quantum :=
  if !x.isFinite then none
  else match x.whole? with
    | some n => some (whole n)
    | none => if integral then none else some (inexact x)

end Quantum

namespace Value

/-- The number of a value, if it is one and finite. -/
def coerceNumber (integral : Bool) : Value → Option Quantum
  | int n => some (.whole n)
  | float x => Quantum.ofBinary64? integral x
  | text s => (Numeral.read? s).bind (Quantum.ofBinary64? integral)
  | _ => none

end Value

end DesignGraph
