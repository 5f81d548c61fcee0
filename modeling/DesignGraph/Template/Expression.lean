import DesignGraph.Fault

/-!
# Templates

A template is text with expressions to print and with statements that choose, repeat and name.
-/

namespace DesignGraph.Template

inductive Operator
  | plus
  | minus
  | times
  | quotient
  | floor
  | remainder
  | power
  deriving Repr, DecidableEq

inductive Comparison
  | equal
  | unequal
  | less
  | lessOrEqual
  | greater
  | greaterOrEqual
  | member
  | nonMember
  deriving Repr, DecidableEq

inductive Expression
  | literal (v : Value)
  | name (s : String)
  | list (items : List Expression)
  | tuple (items : List Expression)
  | mapping (entries : List (Expression × Expression))
  /-- A part named after a dot. -/
  | field (owner : Expression) (name : String)
  /-- A part between brackets. -/
  | item (owner key : Expression)
  | call (callee : Expression) (args : List Expression)
  | filter (name : String) (input : Expression) (args : List Expression)
      (named : List (String × Expression))
  | test (name : String) (input : Expression) (args : List Expression)
  | negation (e : Expression)
  | opposite (e : Expression)
  | arithmetic (op : Operator) (left right : Expression)
  | conjunction (left right : Expression)
  | disjunction (left right : Expression)
  | comparison (first : Expression) (others : List (Comparison × Expression))
  /-- The texts of all items in a row. -/
  | joined (items : List Expression)
  | choice (condition positive : Expression) (negative : Option Expression)

/-- What a value is bound to: one name, or one name for each of its elements. -/
inductive Pattern
  | one (name : String)
  | each (names : List String)

inductive Statement
  | text (s : String)
  | print (e : Expression)
  | choice (branches : List (Expression × List Statement)) (otherwise : List Statement)
  | loop (pattern : Pattern) (source : Expression) (condition : Option Expression)
      (body otherwise : List Statement)
  | assign (pattern : Pattern) (e : Expression)
  | capture (name : String) (body : List Statement)

end DesignGraph.Template
