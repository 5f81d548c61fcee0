/-!
# Targets

The two kinds of package that a design is compiled to, and the primitive kinds that properties may
be declared with.
-/

namespace DesignGraph

inductive Target
  | web
  | ios
  deriving Repr, DecidableEq

namespace Target

def name : Target → String
  | web => "web"
  | ios => "ios"

def description : Target → String
  | web => "JavaScript package with TypeScript declarations and CSS/Sass tokens"
  | ios => "Swift package for iOS apps"

end Target

inductive Primitive
  | string
  | int
  | float
  | number
  | boolean
  deriving Repr, DecidableEq

namespace Primitive

def name : Primitive → String
  | string => "string"
  | int => "int"
  | float => "float"
  | number => "number"
  | boolean => "boolean"

def all : List Primitive := [string, int, float, number, boolean]

def ofName? (s : String) : Option Primitive := all.find? (·.name == s)

/-- The type that a target gives to values of a primitive kind. -/
def targetType (kind : Primitive) : Target → String
  | .web => match kind with
      | string => "string"
      | int => "number"
      | float => "number"
      | number => "number"
      | boolean => "boolean"
  | .ios => match kind with
      | string => "String"
      | int => "Int"
      | float => "CGFloat"
      | number => "CGFloat"
      | boolean => "Bool"

end Primitive

end DesignGraph
