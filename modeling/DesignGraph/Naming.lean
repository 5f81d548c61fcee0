import DesignGraph.Text.Blank
import DesignGraph.Text.Case

/-!
# Names

Package, module and style-variable names are made from the names that a design uses.

A kebab name is made in three steps.  The first two insert hyphens: before every capital that is
followed by small letters and preceded by any character but a line feed, then between a small
letter or digit and a capital; each step consumes what it matched, from left to right.  The third
turns every run of blanks, underscores and hyphens into one hyphen, drops the hyphens at both ends
and lowers the case.
-/

namespace DesignGraph.Naming

def isCapital (c : Char) : Bool := 'A' ≤ c && c ≤ 'Z'
def isSmall (c : Char) : Bool := 'a' ≤ c && c ≤ 'z'
def isSmallOrDigit (c : Char) : Bool := isSmall c || ('0' ≤ c && c ≤ '9')

def isSeparator (c : Char) : Bool := Text.isBlank c || c = '_' || c = '-'

/-- Hyphens before capitalised words.  A match is any character but a line feed, a capital and the
longest run of small letters after it; matches do not overlap. -/
def hyphenateWords : List Char → List Char
  | x :: y :: z :: rest =>
      if x ≠ '\n' && isCapital y && isSmall z then
        x :: '-' :: y :: wordTail (z :: rest)
      else x :: hyphenateWords (y :: z :: rest)
  | cs => cs
  where
  /-- The small letters that the match before has consumed, then the rest of the name. -/
  wordTail : List Char → List Char
    | [] => []
    | c :: rest => if isSmall c then c :: wordTail rest else hyphenateWords (c :: rest)

/-- Hyphens where a small letter or digit meets a capital; the two characters of a match are
consumed together. -/
def hyphenateHumps : List Char → List Char
  | x :: y :: rest =>
      if isSmallOrDigit x && isCapital y then x :: '-' :: y :: hyphenateHumps rest
      else x :: hyphenateHumps (y :: rest)
  | cs => cs

/-- One hyphen for every run of separators. `inRun` says that the run has already begun. -/
def joinSeparators (inRun : Bool) : List Char → List Char
  | [] => []
  | c :: rest =>
      if isSeparator c then
        if inRun then joinSeparators true rest else '-' :: joinSeparators true rest
      else c :: joinSeparators false rest

def dropHyphens (cs : List Char) : List Char :=
  ((cs.dropWhile (· == '-')).reverse.dropWhile (· == '-')).reverse

def kebabChars (cs : List Char) : List Char :=
  Text.lower (dropHyphens (joinSeparators false (hyphenateHumps (hyphenateWords cs))))

/-- The kebab form of a camel-case, snake-case or spaced name. -/
def kebab (name : String) : String := String.ofList (kebabChars name.toList)

/-- One kebab identifier from name parts; empty parts are left out. -/
def joinKebab (parts : List String) : String :=
  "-".intercalate ((parts.filter (· ≠ "")).map kebab)

/-- The words of a name: what stands between runs of separators. `word` is the word being read,
last character first. -/
def wordsFrom (word : List Char) : List Char → List (List Char)
  | [] => if word.isEmpty then [] else [word.reverse]
  | c :: rest =>
      if isSeparator c then
        if word.isEmpty then wordsFrom [] rest else word.reverse :: wordsFrom [] rest
      else wordsFrom (c :: word) rest

def capitalised : List Char → List Char
  | [] => []
  | c :: rest => Text.upperChar c ++ rest

/-- The Pascal form of a kebab, snake or spaced name: every word begins with a capital and keeps
the rest of its letters. -/
def pascal (name : String) : String :=
  String.ofList ((wordsFrom [] name.toList).flatMap capitalised)

end DesignGraph.Naming
