import DesignGraph.Text.Hex

/-!
# Quoted text

String literals between double quotes.  Seven characters have a short escape and the remaining
controls are written as four hexadecimal digits.  The ASCII form also escapes everything from the
delete character on, a supplementary character as the two halves of its surrogate pair; the plain
form shows those characters as they are.
-/

namespace DesignGraph.Text.Quoted

inductive Alphabet
  | ascii
  | plain
  deriving Repr, DecidableEq

def unit (n : Nat) : List Char := '\\' :: 'u' :: hexDigits 4 n

/-- A code point as one escape, or as two when it lies beyond the basic plane. -/
def escapeCode (code : Nat) : List Char :=
  if code < 0x10000 then unit code
  else unit (0xd800 + (code - 0x10000) / 0x400) ++ unit (0xdc00 + (code - 0x10000) % 0x400)

def encodeChar (alphabet : Alphabet) (c : Char) : List Char :=
  match c with
  | '"' => ['\\', '"']
  | '\\' => ['\\', '\\']
  | '\n' => ['\\', 'n']
  | '\r' => ['\\', 'r']
  | '\t' => ['\\', 't']
  | '\x08' => ['\\', 'b']
  | '\x0c' => ['\\', 'f']
  | c =>
      if c.toNat < 0x20 then unit c.toNat
      else if alphabet = .ascii && 0x7f ≤ c.toNat then escapeCode c.toNat
      else [c]

def encodeChars (alphabet : Alphabet) (cs : List Char) : List Char :=
  '"' :: cs.flatMap (encodeChar alphabet) ++ ['"']

end Quoted

/-- The text as a literal between double quotes. -/
def quoted (alphabet : Quoted.Alphabet) (s : String) : String :=
  String.ofList (Quoted.encodeChars alphabet s.toList)

end DesignGraph.Text
