import DesignGraph.Yaml.Lexer
import DesignGraph.Yaml.Tag

/-!
# Nodes

A document as a tree of tagged nodes with every alias replaced by the node it names.  An anchor is
given once in a document and before its aliases; a node may not contain itself.

The recursion is bounded by the number of tokens.
-/

namespace DesignGraph.Yaml

inductive Node
  | scalar (tag : Tag) (text : String)
  | list (tag : Tag) (items : List Node)
  | mapping (tag : Tag) (entries : List (Node × Node))

instance : Inhabited Node := ⟨.scalar .null ""⟩

def Node.tag : Node → Tag
  | scalar tag _ => tag
  | list tag _ => tag
  | mapping tag _ => tag

namespace Node

/-- What is left to read. An anchor without a node belongs to a node that is being read. -/
structure Source where
  tokens : List Token
  handles : OrderedMap String String
  anchors : OrderedMap String (Option Node) := ⟨[]⟩

abbrev Reader := StateT Source (Except Unreadable)

def peek : Reader Token := do pure ((← get).tokens.head?.getD .streamEnd)

def next : Reader Unit := modify fun s => { s with tokens := s.tokens.tail }

/-- Pass a token if it comes next. -/
def skipToken (t : Token) : Reader Bool := do
  if (← peek) = t then next; pure true else pure false

def empty : Node := scalar .null ""

/-- The name of a written tag. A lone exclamation mark asks for the tag that is evident. -/
def tagName (text : TagText) : Reader String := do
  match text.handle with
  | none => pure text.suffix
  | some handle => match (← get).handles.get? handle with
      | some replacement => pure (replacement ++ text.suffix)
      | none => throw (.malformed (.unexpected "an unknown tag handle"))

structure Properties where
  anchor : Option String := none
  tag : Option String := none

/-- An anchor and a tag in either order. -/
def properties : Reader Properties := do
  match ← peek with
  | .anchor name => do
      next
      match ← peek with
      | .tag text => do next; pure ⟨some name, some (← tagName text)⟩
      | _ => pure ⟨some name, none⟩
  | .tag text => do
      next
      match ← peek with
      | .anchor name => do next; pure ⟨some name, some (← tagName text)⟩
      | _ => pure ⟨none, some (← tagName text)⟩
  | _ => pure {}

namespace Properties

def tagOr (p : Properties) (evident : Tag) : Tag :=
  match p.tag with
  | none => evident
  | some "!" => evident
  | some name => Tag.ofName name

/-- The tag of a scalar; quoted text stands for text unless a tag says otherwise. -/
def scalarTag (p : Properties) (text : String) (plain : Bool) : Tag :=
  p.tagOr (if plain || p.tag.isSome then Tag.ofPlain text else .text)

def isEmpty (p : Properties) : Bool := p.anchor.isNone && p.tag.isNone

end Properties

def openAnchor (p : Properties) : Reader Unit := do
  match p.anchor with
  | none => pure ()
  | some name =>
      if (← get).anchors.contains name then
        throw (.malformed (.unexpected "a second anchor of one name"))
      modify fun s => { s with anchors := s.anchors.insert name none }

def closeAnchor (p : Properties) (node : Node) : Reader Node := do
  match p.anchor with
  | none => pure ()
  | some name => modify fun s => { s with anchors := s.anchors.insert name (some node) }
  pure node

def alias? (name : String) : Reader Node := do
  match (← get).anchors.get? name with
  | some (some node) => pure node
  | some none => throw (.malformed (.unexpected "a node inside itself"))
  | none => throw (.malformed (.unexpected "an alias without its anchor"))

/-- Whether one of these tokens comes next. -/
def isNext (ts : List Token) : Reader Bool := do pure (ts.contains (← peek))

inductive Place
  | block
  /-- After a key, a list may begin in the column of its mapping. -/
  | blockValue
  | flow
  deriving DecidableEq

mutual

def node (bound : Nat) (place : Place) : Reader Node :=
  match bound with
  | 0 => throw (.malformed (.expected "a shorter text"))
  | bound + 1 => do
      match ← peek with
      | .alias name => do next; alias? name
      | _ => do
          let p ← properties
          openAnchor p
          closeAnchor p (← content bound place p)

def content (bound : Nat) (place : Place) (p : Properties) : Reader Node :=
  match bound with
  | 0 => throw (.malformed (.expected "a shorter text"))
  | bound + 1 => do
      let t ← peek
      if t = .blockEntry && place = .blockValue then
        pure (list (p.tagOr .list) (← indentlessItems bound))
      else match t with
        | .scalar text plain => do next; pure (scalar (p.scalarTag text plain) text)
        | .flowSequenceStart => do next; pure (list (p.tagOr .list) (← flowItems bound true))
        | .flowMappingStart => do
            next
            pure (mapping (p.tagOr .mapping) (← flowEntries bound true))
        | _ =>
            if t = .blockSequenceStart && place ≠ .flow then do
              next
              pure (list (p.tagOr .list) (← blockItems bound))
            else if t = .blockMappingStart && place ≠ .flow then do
              next
              pure (mapping (p.tagOr .mapping) (← blockEntries bound))
            else if !p.isEmpty then pure (scalar (p.tagOr .null) "")
            else throw (.malformed (.expected "a node"))

/-- A node, unless one of the tokens that may follow it comes next. -/
def nodeBefore (bound : Nat) (place : Place) (ends : List Token) : Reader Node :=
  match bound with
  | 0 => throw (.malformed (.expected "a shorter text"))
  | bound + 1 => do if ← isNext ends then pure empty else node bound place

def blockItems (bound : Nat) : Reader (List Node) :=
  match bound with
  | 0 => throw (.malformed (.expected "a shorter text"))
  | bound + 1 => do
      if ← skipToken .blockEntry then
        let item ← nodeBefore bound .block [.blockEntry, .blockEnd]
        pure (item :: (← blockItems bound))
      else if ← skipToken .blockEnd then pure []
      else throw (.malformed (.expected "an item or the end of the list"))

def indentlessItems (bound : Nat) : Reader (List Node) :=
  match bound with
  | 0 => throw (.malformed (.expected "a shorter text"))
  | bound + 1 => do
      if ← skipToken .blockEntry then
        let item ← nodeBefore bound .block [.blockEntry, .key, .value, .blockEnd]
        pure (item :: (← indentlessItems bound))
      else pure []

def blockEntries (bound : Nat) : Reader (List (Node × Node)) :=
  match bound with
  | 0 => throw (.malformed (.expected "a shorter text"))
  | bound + 1 => do
      let ends := [.key, .value, .blockEnd]
      if ← skipToken .key then
        let key ← nodeBefore bound .blockValue ends
        let value ← if ← skipToken .value then nodeBefore bound .blockValue ends else pure empty
        pure ((key, value) :: (← blockEntries bound))
      else if ← skipToken .blockEnd then pure []
      else throw (.malformed (.expected "a key or the end of the mapping"))

/-- The value of a flow entry, after its key. -/
def flowValue (bound : Nat) (close : Token) : Reader Node :=
  match bound with
  | 0 => throw (.malformed (.expected "a shorter text"))
  | bound + 1 => do
      if ← skipToken .value then nodeBefore bound .flow [.flowEntry, close] else pure empty

/-- The items of a flow list. A key among them makes a mapping of one entry. -/
def flowItems (bound : Nat) (isFirst : Bool) : Reader (List Node) :=
  match bound with
  | 0 => throw (.malformed (.expected "a shorter text"))
  | bound + 1 => do
      let close := Token.flowSequenceEnd
      if ← skipToken close then pure []
      else
        if !isFirst then
          if !(← skipToken .flowEntry) then throw (.malformed (.expected "a comma"))
        if ← skipToken .key then
          let key ← nodeBefore bound .flow [.value, .flowEntry, close]
          let value ← flowValue bound close
          pure (mapping .mapping [(key, value)] :: (← flowItems bound false))
        else if ← skipToken close then pure []
        else
          let item ← node bound .flow
          pure (item :: (← flowItems bound false))

def flowEntries (bound : Nat) (isFirst : Bool) : Reader (List (Node × Node)) :=
  match bound with
  | 0 => throw (.malformed (.expected "a shorter text"))
  | bound + 1 => do
      let close := Token.flowMappingEnd
      if ← skipToken close then pure []
      else
        if !isFirst then
          if !(← skipToken .flowEntry) then throw (.malformed (.expected "a comma"))
        if ← skipToken .key then
          let key ← nodeBefore bound .flow [.value, .flowEntry, close]
          let value ← flowValue bound close
          pure ((key, value) :: (← flowEntries bound false))
        else if ← skipToken close then pure []
        else
          let key ← node bound .flow
          pure ((key, empty) :: (← flowEntries bound false))

end

def standardHandles : OrderedMap String String := ⟨[("!", "!"), ("!!", Tag.authority)]⟩

/-- The directives before a document: at most one version, which is 1.x, and one replacement for
each handle. -/
def directives (hasVersion : Bool) (handles : OrderedMap String String) :
    List Token → Except Unreadable (OrderedMap String String × List Token)
  | .directive (.version major) :: rest =>
      if hasVersion then unexpected "a second version"
      else if major ≠ 1 then unexpected "another version"
      else directives true handles rest
  | .directive (.tagHandle handle replacement) :: rest =>
      if handles.contains handle then unexpected "a second replacement for a handle"
      else directives hasVersion (handles.insert handle replacement) rest
  | .directive .reserved :: rest => directives hasVersion handles rest
  | rest => .ok (handles, rest)

/-- Handles without a replacement of their own keep the standard one. -/
def withStandard (handles : OrderedMap String String) : OrderedMap String String :=
  standardHandles.entries.foldl
    (fun handles (handle, replacement) =>
      if handles.contains handle then handles else handles.insert handle replacement) handles

/-- The node of a document without its directives.  Only document end markers may follow it. -/
def ofContent (handles : OrderedMap String String) (isExplicit : Bool) (tokens : List Token) :
    Except Unreadable Node := do
  let isAbsent := match tokens with
    | .directive _ :: _ => true
    | .documentStart :: _ => true
    | .documentEnd :: _ => true
    | .streamEnd :: _ => true
    | _ => false
  let (node, source) ← if isExplicit && isAbsent then pure (empty, ⟨tokens, handles, ∅⟩)
    else (node (4 * tokens.length + 4) .block).run ⟨tokens, handles, ∅⟩
  if source.tokens.dropWhile (· = .documentEnd) = [.streamEnd] then pure node
  else expected "the end of the document"

/-- The root node of the single document of a text. -/
def ofTokens (tokens : List Token) : Except Unreadable Node := do
  match tokens with
  | [.streamEnd] => pure empty
  | .directive _ :: _ =>
      match ← directives false ∅ tokens with
      | (handles, .documentStart :: rest) => ofContent (withStandard handles) true rest
      | _ => expected "the beginning of the document"
  | .documentStart :: rest => ofContent standardHandles true rest
  | _ => ofContent standardHandles false tokens

end Node

end DesignGraph.Yaml
