import DesignGraph.Compile.Construction
import DesignGraph.Proofs.Number.Text

/-!
# Literals are no constructions

A construction ends with a parenthesis. Neither the literal of a primitive value nor the expression
for a collection does, so these are never taken for a construction.
-/

namespace DesignGraph

/-- A text that ends as constructions do. -/
def EndsConstruction (s : String) : Prop := s.toList.getLast? = some ')'

theorem not_endsConstruction_of_isNumberText {s : String} (isNumber : IsNumberText s) :
    ¬ EndsConstruction s := by
  intro ends
  exact absurd (isNumber ')' (List.mem_of_getLast? ends)) (by decide)

theorem getLast?_append (front : String) {s : String} {c : Char}
    (last : s.toList.getLast? = some c) : (front ++ s).toList.getLast? = some c := by
  rw [String.toList_append, List.getLast?_append, last, Option.some_or]

namespace Target

variable {target : Target}

theorem endsConstruction_bareConstruction (target : Target) (type : String) :
    EndsConstruction (target.bareConstruction type) := by
  cases target with
  | web => exact getLast?_append ("new " ++ type) (by decide)
  | ios => exact getLast?_append type (by decide)

theorem not_endsConstruction_literal {kind : String} {value : Value} {text : String}
    (given : target.literal? kind value = some text) : ¬ EndsConstruction text := by
  unfold literal? at given
  split_ifs at given with string boolean truthy
  · cases given
    have last : (Text.quoted target.alphabet value.plain).toList.getLast? = some '"' := by
      rw [Text.quoted, String.toList_ofList, Text.Quoted.encodeChars, List.getLast?_append]
      rfl
    rw [EndsConstruction, last]
    decide
  · cases given
    unfold EndsConstruction
    decide
  · cases given
    unfold EndsConstruction
    decide
  · obtain ⟨quantum, _, rfl⟩ := Option.map_eq_some_iff.mp given
    apply not_endsConstruction_of_isNumberText
    cases quantum with
    | whole n => exact .toString_int n
    | inexact x => exact .toText x

theorem not_endsConstruction_primitive {kind : String} {value : Value} {property : Property}
    (given : target.primitive kind value = .ok property) :
    ¬ EndsConstruction property.initializer := by
  unfold primitive at given
  split at given
  · cases given
  · split at given
    · cases given
    · next literal =>
      cases given
      exact not_endsConstruction_literal literal

theorem not_endsConstruction_collect {elements : List (Option Property)} {property : Property}
    (collected : target.collect elements = some property) :
    ¬ EndsConstruction property.initializer := by
  unfold collect at collected
  split at collected
  · cases collected
  · next first rest _ =>
    cases collected
    have last := getLast?_append
      ("[" ++ ", ".intercalate ((first :: rest).map Property.initializer))
      (show "]".toList.getLast? = some ']' by decide)
    rw [EndsConstruction, last]
    decide

end Target

end DesignGraph
