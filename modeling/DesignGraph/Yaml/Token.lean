import DesignGraph.Yaml.Text

/-!
# Tokens

A document as a list of indicators, scalars and properties.  Block collections are delimited by
indentation alone; their begin and end become tokens of their own.

A key of a block or flow mapping is known as a key only at the colon after it.  Until then its place
is remembered as a *candidate*, one for each level of flow collections; a candidate is lost at the
end of its line or 1024 characters later.
-/

namespace DesignGraph.Yaml

/-- A tag as written: `!<suffix>` has no handle. -/
structure TagText where
  handle : Option String
  suffix : String
  deriving Repr, DecidableEq

inductive Directive
  | version (major : Nat)
  | tagHandle (handle replacement : String)
  | reserved
  deriving Repr, DecidableEq

inductive Token
  | directive (d : Directive)
  | documentStart
  | documentEnd
  | streamEnd
  | blockSequenceStart
  | blockMappingStart
  | blockEnd
  | flowSequenceStart
  | flowSequenceEnd
  | flowMappingStart
  | flowMappingEnd
  | flowEntry
  | blockEntry
  | key
  | value
  | alias (name : String)
  | anchor (name : String)
  | tag (text : TagText)
  | scalar (text : String) (plain : Bool)
  deriving Repr, DecidableEq

def isNameChar (c : Char) : Bool := c.isAlphanum || c = '-' || c = '_'

def isUriChar (c : Char) : Bool := isNameChar c || ";/?:@&=+$,.!~*'()[]%".toList.contains c

/-- The name of an anchor or an alias, from after its mark. -/
def anchorName (c : Cursor) : Except Unreadable (String × Cursor) :=
  let (name, c) := c.takeRun isNameChar
  let ends := atGap c.rest || (c.rest.head?.map "?:,]\x7d%@`".toList.contains).getD false
  if name.isEmpty || !ends then expected "a name of letters and digits"
  else .ok (String.ofList name, c)

namespace TagText

/-- The bytes of a run of percent escapes. -/
def escapedBytes (bound : Nat) (c : Cursor) : Except Unreadable (List UInt8 × Cursor) :=
  match bound, c.rest with
  | bound + 1, '%' :: a :: b :: _ =>
      match Text.hexNumber? [a, b] with
      | some n => do
          let (bytes, c) ← escapedBytes bound (c.skip 3)
          pure (UInt8.ofNat n :: bytes, c)
      | none => expected "two hexadecimal digits"
  | _, '%' :: _ => expected "two hexadecimal digits"
  | _, _ => .ok ([], c)

def uri (bound : Nat) (done : List Char) (c : Cursor) : Except Unreadable (String × Cursor) :=
  match bound, c.rest with
  | bound + 1, '%' :: _ => do
      let (bytes, c) ← escapedBytes c.rest.length c
      match String.fromUTF8? ⟨bytes.toArray⟩ with
      | some s => uri bound (done ++ s.toList) c
      | none => unexpected "bytes that are not encoded in UTF-8"
  | bound + 1, a :: _ =>
      if isUriChar a then uri bound (done ++ [a]) c.forward
      else if done.isEmpty then expected "a tag" else .ok (String.ofList done, c)
  | _, _ => if done.isEmpty then expected "a tag" else .ok (String.ofList done, c)

/-- A handle: one exclamation mark, or two with a name between them. -/
def readHandle (c : Cursor) : Except Unreadable (String × Cursor) :=
  if !c.startsWith '!' then expected "an exclamation mark"
  else
    let (name, next) := c.forward.takeRun isNameChar
    if next.startsWith '!' then .ok ("!" ++ String.ofList name ++ "!", next.forward)
    else if name.isEmpty && next.startsWith ' ' then .ok ("!", next)
    else expected "an exclamation mark"

/-- Whether another exclamation mark stands before the next gap. -/
def hasHandle (cs : List Char) : Bool :=
  (cs.takeWhile fun a => !(a = ' ' || isBreak a)).contains '!'

def scan (c : Cursor) : Except Unreadable (TagText × Cursor) := do
  let (tag, c) ← match c.rest with
    | _ :: '<' :: _ => do
        let c := c.skip 2
        let (suffix, c) ← uri (c.rest.length + 1) [] c
        if c.startsWith '>' then pure (TagText.mk none suffix, c.forward)
        else expected "a closing angle bracket"
    | _ :: rest =>
        if atGap rest then pure (TagText.mk none "!", c.forward)
        else do
          let (handle, c) ← if hasHandle rest then readHandle c else pure ("!", c.forward)
          let (suffix, c) ← uri (c.rest.length + 1) [] c
          pure (TagText.mk (some handle) suffix, c)
    | [] => expected "a tag"
  if atStrictGap c.rest then pure (tag, c) else expected "a space after a tag"

end TagText

namespace Directive

def number (c : Cursor) : Except Unreadable (Nat × Cursor) :=
  let (digits, c) := c.takeRun Char.isDigit
  if digits.isEmpty then expected "a number" else .ok (Numeral.digitsValue digits, c)

def yamlVersion (c : Cursor) : Except Unreadable (Directive × Cursor) := do
  let (major, c) ← number c.skipSpaces
  if !c.startsWith '.' then expected "a point"
  else
    let (_, c) ← number c.forward
    if atStrictGap c.rest then pure (version major, c) else expected "a space"

def handleFor (c : Cursor) : Except Unreadable (Directive × Cursor) := do
  let (handle, c) ← TagText.readHandle c.skipSpaces
  if !c.startsWith ' ' then expected "a space"
  else
    let c := c.skipSpaces
    let (replacement, c) ← TagText.uri (c.rest.length + 1) [] c
    if atStrictGap c.rest then pure (tagHandle handle replacement, c) else expected "a space"

/-- A directive from its percent sign to the end of its line. -/
def scan (c : Cursor) : Except Unreadable (Directive × Cursor) := do
  let (name, c) := c.forward.takeRun isNameChar
  if name.isEmpty || !atStrictGap c.rest then expected "the name of a directive"
  else
    let (d, c) ← match String.ofList name with
      | "YAML" => yamlVersion c
      | "TAG" => handleFor c
      | _ => pure (reserved, c.skipRun (!isBreak ·))
    pure (d, ← c.endLine)

end Directive

end DesignGraph.Yaml
