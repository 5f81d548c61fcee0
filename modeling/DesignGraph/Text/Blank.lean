/-!
# Blank characters

White space of every script, with the four information separators.  Names and type texts are trimmed
by this class, and names are split at its runs.  Around a numeral the separators do not count.
-/

namespace DesignGraph.Text

def isBlank (c : Char) : Bool :=
  let code := c.toNat
  (0x09 ≤ code && code ≤ 0x0d) || (0x1c ≤ code && code ≤ 0x20) || code == 0x85 || code == 0xa0
    || code == 0x1680 || (0x2000 ≤ code && code ≤ 0x200a) || code == 0x2028 || code == 0x2029
    || code == 0x202f || code == 0x205f || code == 0x3000

/-- White space without the information separators. -/
def isSpace (c : Char) : Bool := isBlank c && !(0x1c ≤ c.toNat && c.toNat ≤ 0x1f)

/-- Drop the characters of a class from both ends. -/
def trimBy (inClass : Char → Bool) (cs : List Char) : List Char :=
  ((cs.dropWhile inClass).reverse.dropWhile inClass).reverse

def trim (cs : List Char) : List Char := trimBy isBlank cs

/-- The text without blanks at either end. -/
def trimmed (s : String) : String := String.ofList (trim s.toList)

end DesignGraph.Text
