import DesignGraph.OrderedMap
import DesignGraph.OrderedSet
import DesignGraph.Value.Shown

/-!
# Resolved components

What an instance becomes for a target: its properties with their target types and the expressions
that construct their values.  A property without a value, or with one that its kind cannot
represent, is left out with a warning.
-/

namespace DesignGraph

structure Property where
  type : String
  /-- The target expression for the value. -/
  initializer : String
  /-- Whether the property may change while it is displayed. -/
  updatable : Bool := false
  deriving Repr, DecidableEq

structure Spec where
  componentName : String
  properties : OrderedMap String Property := ⟨[]⟩
  /-- Whether the component is one of the package's own. -/
  isPublic : Bool := false
  deriving Repr, DecidableEq

/-- The property of a parent through which an instance was reached. -/
structure Reference where
  parentType : String
  name : String
  deriving Repr, DecidableEq

/-- Why a property is left out. -/
inductive Warning
  | noValue (type property id : String)
  | notList (type property : String) (given : Value)
  | unknownKind (kind : String) (given : Value)
  | notRepresentable (kind : String) (given : Value)

namespace Warning

def message : Warning → String
  | noValue type property id =>
      type ++ "." ++ property ++ " has no value in instance '" ++ id ++ "'"
  | notList type property given =>
      type ++ "." ++ property ++ " expects a list, got " ++ given.display
  | unknownKind kind given =>
      "Unknown non-component primitive value: " ++ given.display ++ " with type " ++ kind
  | notRepresentable kind given =>
      "Value " ++ given.display ++ " is not representable as " ++ kind

end Warning

end DesignGraph
