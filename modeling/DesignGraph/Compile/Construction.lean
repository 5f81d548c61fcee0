import DesignGraph.Compile.Literal
import DesignGraph.Compile.Spec

/-!
# Construction expressions

How a target writes the construction of a primitive value, of a collection and of an instance.
-/

namespace DesignGraph.Target

/-- The property for a primitive value, or why there is none. -/
def primitive (target : Target) (kind : String) (value : Value) : Except Warning Property :=
  match Primitive.ofName? kind with
  | none => .error (.unknownKind kind value)
  | some primitive => match target.literal? kind value with
      | none => .error (.notRepresentable kind value)
      | some literal => .ok { type := primitive.targetType target, initializer := literal }

def collectionType (target : Target) (element : String) : String :=
  match target with
  | web => element ++ "[]"
  | ios => "[" ++ element ++ "]"

/-- The property for a collection, from those of its elements.  Elements that are left out do not
count, and the first of the others gives the type; without any there is no property. -/
def collect (target : Target) (elements : List (Option Property)) : Option Property :=
  match elements.filterMap id with
  | [] => none
  | first :: rest => some {
      type := target.collectionType first.type
      initializer :=
        "[" ++ ", ".intercalate ((first :: rest).map Property.initializer) ++ "]" }

/-- The arguments of a construction: every property by its name. -/
def arguments (properties : OrderedMap String Property) : String :=
  ", ".intercalate (properties.entries.map fun (name, property) =>
    name ++ ": " ++ property.initializer)

/-- The construction of an instance from its properties. -/
def construction (target : Target) (spec : Spec) : String :=
  match target with
  | web => "new " ++ spec.componentName ++ "(\x7b" ++ arguments spec.properties ++ "\x7d)"
  | ios => spec.componentName ++ "(" ++ arguments spec.properties ++ ")"

/-- The construction of a type that has a default for every property. -/
def bareConstruction (target : Target) (type : String) : String :=
  match target with
  | web => "new " ++ type ++ "()"
  | ios => type ++ "()"

end DesignGraph.Target
