import DesignGraph.Graph.Basic
import DesignGraph.Text.Blank

/-!
# Property declarations

A declaration is a type text, in which every `[]` at the end adds a collection, or a mapping with
the fields `type` and `depth`.
-/

namespace DesignGraph.Declaration

/-- Take collection marks off the end of a type text, given reversed and without blanks at its end;
blanks before a mark go with it. -/
def takeMarks : (reversed : List Char) → List Char × Nat
  | ']' :: '[' :: rest =>
      let (type, depth) := takeMarks (rest.dropWhile Text.isBlank)
      (type, depth + 1)
  | cs => (cs, 0)
  termination_by cs => cs.length
  decreasing_by
    have := (List.dropWhile_suffix (l := rest) Text.isBlank).length_le
    simp only [List.length_cons]
    omega

/-- The type and the depth of a type text. -/
def parseType (s : String) : String × Nat :=
  let (type, depth) := takeMarks (Text.trim s.toList).reverse
  (String.ofList type.reverse, depth)

/-- A declaration whose name may fail to be a text. -/
def checked (name type : Value) (depth : Nat) : Checked Declaration :=
  (Checked.both (Checked.required "name" Checked.text (some name))
    (Checked.required "type" Checked.text (some type))).map
    fun (name, type) => ⟨name, type, depth⟩

/-- The mapping form: all its keys have to be texts other than `name`. -/
def ofEntries (name : Value) (entries : List (Value × Value)) : Except Fault Declaration :=
  let invalid (problem : DeclarationProblem) : Except Fault Declaration :=
    .error (.graph (.declarationInvalid name problem))
  let isText : Value → Bool
    | .text _ => true
    | _ => false
  if !entries.all (fun entry => isText entry.1) || (Value.field? entries "name").isSome then
    invalid .keys
  else
    let fields := Checked.both
      (Checked.both (Checked.required "name" Checked.text (some name))
        (Checked.required "type" Checked.text (Value.field? entries "type")))
      (Checked.optional "depth" 0 Checked.natural (Value.field? entries "depth"))
    match fields with
    | .ok ((name, type), depth) => .ok ⟨name, type, depth⟩
    | .error issues => invalid (.issues issues)

/-- The declaration of a property. -/
def parse (name raw : Value) : Except Fault Declaration :=
  match raw with
  | .text s =>
      let (type, depth) := parseType s
      (checked name (.text type) depth).mapError .invalid
  | .map entries => ofEntries name entries
  | raw => .error (.graph (.declarationKind name raw))

end DesignGraph.Declaration
