/-!
# Lines

Texts read from files use a line feed for every line end; the answer of a tool is cut at every line
or page separator.
-/

namespace DesignGraph.Text

/-- Every carriage return, alone or before a line feed, becomes one line feed. -/
def unifyLineEnds : List Char → List Char
  | [] => []
  | '\r' :: '\n' :: rest => '\n' :: unifyLineEnds rest
  | c :: rest => (if c = '\r' then '\n' else c) :: unifyLineEnds rest

def isLineEnd (c : Char) : Bool :=
  let code := c.toNat
  (0x0a ≤ code && code ≤ 0x0d) || (0x1c ≤ code && code ≤ 0x1e) || code == 0x85
    || code == 0x2028 || code == 0x2029

/-- `line` is the line being read, last character first. -/
def linesFrom (line : List Char) : List Char → List (List Char)
  | [] => if line.isEmpty then [] else [line.reverse]
  | '\r' :: '\n' :: rest => line.reverse :: linesFrom [] rest
  | c :: rest =>
      if isLineEnd c then line.reverse :: linesFrom [] rest else linesFrom (c :: line) rest

/-- The lines of a text, without their ends; a final line end opens no further line. -/
def lines (cs : List Char) : List (List Char) := linesFrom [] cs

/-- The text of the given lines, each ended by a line feed. -/
def ofLines (lines : List String) : String := String.join (lines.map (· ++ "\n"))

/-- Cut at every occurrence of a character: `n` occurrences give `n + 1` pieces. -/
def cutAt (separator : Char) : List Char → List (List Char)
  | [] => [[]]
  | c :: rest =>
      if c = separator then [] :: cutAt separator rest
      else match cutAt separator rest with
        | [] => [[c]]
        | piece :: pieces => (c :: piece) :: pieces

end DesignGraph.Text
