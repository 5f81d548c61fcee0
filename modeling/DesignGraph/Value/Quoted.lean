import DesignGraph.Text.Quoted
import DesignGraph.Value.Shown

/-!
# Values as literals

The text of a value in the notation that scripts and manifests share: quoted text, `true`, `false`
and `null`, bracketed lists and objects.  Dates have no such text.
-/

namespace DesignGraph.Value

def literalNumber (x : Binary64) : String :=
  match x with
  | .nan => "NaN"
  | .infinite negative => if negative then "-Infinity" else "Infinity"
  | x => x.toText

/-- A key is written as text: a scalar that is none is written as it would stand alone. -/
def literalKey? : Value → Option String
  | text s => some s
  | null => some "null"
  | bool b => some (if b then "true" else "false")
  | int n => some (toString n)
  | float x => some (literalNumber x)
  | _ => none

mutual

def literal? (alphabet : Text.Quoted.Alphabet) : Value → Option String
  | null => some "null"
  | bool b => some (if b then "true" else "false")
  | int n => some (toString n)
  | float x => some (literalNumber x)
  | text s => some (Text.quoted alphabet s)
  | list items => do
      let texts ← literalItems? alphabet items
      pure ("[" ++ ", ".intercalate texts ++ "]")
  | map entries => do
      let texts ← literalEntries? alphabet entries
      pure ("\x7b" ++ ", ".intercalate texts ++ "\x7d")
  | _ => none

def literalItems? (alphabet : Text.Quoted.Alphabet) : List Value → Option (List String)
  | [] => some []
  | v :: vs => do
      let head ← literal? alphabet v
      let rest ← literalItems? alphabet vs
      pure (head :: rest)

def literalEntries? (alphabet : Text.Quoted.Alphabet) :
    List (Value × Value) → Option (List String)
  | [] => some []
  | (k, v) :: rest => do
      let key ← literalKey? k
      let value ← literal? alphabet v
      let rest ← literalEntries? alphabet rest
      pure ((Text.quoted alphabet key ++ ": " ++ value) :: rest)

end

end DesignGraph.Value
