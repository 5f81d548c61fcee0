import DesignGraph.Text.Line

/-!
# Paths

Slash-separated paths in their written form: doubled slashes and single dots vanish, parent
segments stay.  Nothing here looks at a file tree.
-/

namespace DesignGraph

/-- `anchor` is empty for a relative path and otherwise one slash; exactly two leading slashes are
kept as two. -/
structure Path where
  anchor : String := ""
  parts : List String := []
  deriving Repr, DecidableEq

namespace Path

instance : Inhabited Path := ⟨{}⟩

def anchorOf : List Char → String
  | '/' :: '/' :: '/' :: _ => "/"
  | '/' :: '/' :: _ => "//"
  | '/' :: _ => "/"
  | _ => ""

def ofString (s : String) : Path :=
  ⟨anchorOf s.toList,
    ((Text.cutAt '/' s.toList).filter fun cs => cs ≠ [] && cs ≠ ['.']).map String.ofList⟩

/-- The pieces of a written path between its slashes, blank ones included. -/
def segments (s : String) : List String := (Text.cutAt '/' s.toList).map String.ofList

theorem length_parts_le (s : String) : (ofString s).parts.length ≤ (segments s).length := by
  simpa only [ofString, segments, List.length_map] using List.length_filter_le _ _

/-- The written form; the empty relative path is a single dot. -/
def toText (p : Path) : String :=
  if p.anchor = "" && p.parts.isEmpty then "." else p.anchor ++ "/".intercalate p.parts

/-- Whether the null character occurs; no file has such a path. -/
def isMalformed (p : Path) : Bool := p.parts.any (·.toList.contains (Char.ofNat 0))

def isAbsolute (p : Path) : Bool := p.anchor ≠ ""

/-- The path of `q` seen from `p`; an absolute path stands for itself. -/
def join (p q : Path) : Path := if q.isAbsolute then q else ⟨p.anchor, p.parts ++ q.parts⟩

def joinText (p : Path) (s : String) : Path := p.join (ofString s)

/-- Take one more segment. A parent segment takes the one before it back; at the top there is
nothing to take back, and a relative path keeps it. -/
def normalStep (p : Path) (part : String) : Path :=
  if part ≠ ".." || (!p.isAbsolute && p.parts.isEmpty) || p.parts.getLast? = some ".." then
    { p with parts := p.parts ++ [part] }
  else { p with parts := p.parts.dropLast }

/-- The path with its parent segments applied, without a look at any file tree. -/
def normal (p : Path) : Path := p.parts.foldl normalStep { p with parts := [] }

/-- Whether `q` is the path itself or leads on from it, by its segments alone. -/
def covers (p q : Path) : Bool := p.anchor = q.anchor && p.parts.isPrefixOf q.parts

def parent (p : Path) : Path := ⟨p.anchor, p.parts.dropLast⟩

/-- The last segment, empty if there is none. -/
def name (p : Path) : String := p.parts.getLast?.getD ""

/-- What follows the last dot of a name, with the dot; a dot at either end of the name does not
count. -/
def suffixOf (name : List Char) : List Char :=
  let tail := (name.reverse.takeWhile (· ≠ '.')).reverse
  if tail.isEmpty || name.length < tail.length + 2 then [] else '.' :: tail

def suffix (p : Path) : String := String.ofList (suffixOf p.name.toList)

/-- The path without the suffix of its last segment, which may leave a dot or two. -/
def withoutSuffix (p : Path) : Path :=
  let name := p.name.toList
  let stem := name.take (name.length - (suffixOf name).length)
  if p.parts.isEmpty then p else ⟨p.anchor, p.parts.dropLast ++ [String.ofList stem]⟩

end Path

end DesignGraph
