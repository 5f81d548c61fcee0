import DesignGraph.Target
import DesignGraph.Text.Quoted
import DesignGraph.Value.Number
import DesignGraph.Value.Shown

/-!
# Literals

The target expression for a primitive value.  Strings are written for any value, by its plain text;
booleans for any value, by whether it counts as given; every other kind needs a finite number, and
an `int` of an iOS package a whole one.
-/

namespace DesignGraph

def Quantum.text : Quantum → String
  | whole n => toString n
  | inexact x => x.toText

namespace Target

/-- String literals of the web are ASCII; those of iOS show other characters as they are. -/
def alphabet : Target → Text.Quoted.Alphabet
  | web => .ascii
  | ios => .plain

/-- Whether a numeric kind admits whole numbers only. -/
def isIntegral : Target → String → Bool
  | web, _ => false
  | ios, kind => kind == Primitive.int.name

/-- The literal of a value declared with a kind, if the value fits. -/
def literal? (target : Target) (kind : String) (value : Value) : Option String :=
  if kind = Primitive.string.name then some (Text.quoted target.alphabet value.plain)
  else if kind = Primitive.boolean.name then some (if value.isTruthy then "true" else "false")
  else (value.coerceNumber (target.isIntegral kind)).map Quantum.text

end Target

end DesignGraph
