import DesignGraph.Text.Hex

/-!
# Percent encoding

Asset paths inside a URL: letters, digits, `_`, `.`, `-`, `~` and the path separator stand for
themselves, every other byte of the UTF-8 form becomes a percent sign and two capital hexadecimal
digits.
-/

namespace DesignGraph.Text.Percent

def isUnreserved (c : Char) : Bool :=
  c.isAlphanum || c == '_' || c == '.' || c == '-' || c == '~' || c == '/'

def encodeByte (b : UInt8) : List Char :=
  ['%', upperHexDigit (b.toNat / 16), upperHexDigit (b.toNat % 16)]

def encodeChar (c : Char) : List Char :=
  if isUnreserved c then [c] else (String.singleton c).toUTF8.toList.flatMap encodeByte

def encode (s : String) : String := String.ofList (s.toList.flatMap encodeChar)

end DesignGraph.Text.Percent
