import DesignGraph.Template.Filter
import DesignGraph.Template.Parser

/-!
# Rendering

The text of a template for given data.  A loop and the names it gives are a scope of their own;
what its body assigns is gone with the next pass.
-/

namespace DesignGraph.Template

/-- The names with a meaning, the innermost first, and the number of loops around. -/
structure Scope where
  names : List (String × Datum)
  depth : Nat := 0

namespace Scope

def globals : List (String × Datum) := [("range", .range)]

def ofData (data : List (String × Value)) : Scope :=
  ⟨data.map (fun (name, v) => (name, .value v)) ++ globals, 0⟩

def find (scope : Scope) (name : String) : Datum := (scope.names.lookup name).getD .undefined

def bind (scope : Scope) (name : String) (d : Datum) : Scope :=
  { scope with names := (name, d) :: scope.names }

/-- Bind the names of a pattern to a datum or to its elements. -/
def bindPattern (scope : Scope) (pattern : Pattern) (d : Datum) : Except Failure Scope :=
  match pattern with
  | .one name => .ok (scope.bind name d)
  | .each names => do
      let parts ← d.elements
      if parts.length = names.length then
        pure ((names.zip parts).foldl (fun scope (name, d) => scope.bind name d) scope)
      else throw (.data .content)

end Scope

mutual

def evaluate (scope : Scope) : Expression → Except Failure Datum
  | .literal v => .ok (.value v)
  | .name s => .ok (scope.find s)
  | .list items => do pure (.value (.list ((← evaluateAll scope items).map Datum.toValue)))
  | .tuple items => do pure (.tuple ((← evaluateAll scope items).map Datum.toValue))
  | .mapping entries => do pure (.value (.map (Value.ofPairs (← evaluatePairs scope entries))))
  | .field owner name => do (← evaluate scope owner).field name
  | .item owner key => do
      let d ← evaluate scope owner
      d.item (← evaluate scope key)
  | .call callee args => do
      let d ← evaluate scope callee
      d.call (← evaluateAll scope args)
  | .filter name input args named => do
      let d ← evaluate scope input
      let args ← evaluateAll scope args
      Filter.apply name d args (← evaluateNamed scope named)
  | .test name input args => do
      let d ← evaluate scope input
      pure (.value (.bool (← testHolds name d (← evaluateAll scope args))))
  | .negation e => do pure (.value (.bool (!(← evaluate scope e).isTruthy)))
  | .opposite e => do (← evaluate scope e).opposite
  | .arithmetic op left right => do
      let d ← evaluate scope left
      d.arithmetic op (← evaluate scope right)
  | .conjunction left right => do
      let d ← evaluate scope left
      if d.isTruthy then evaluate scope right else pure d
  | .disjunction left right => do
      let d ← evaluate scope left
      if d.isTruthy then pure d else evaluate scope right
  | .comparison first others => do
      let d ← evaluate scope first
      pure (.value (.bool (← evaluateComparisons scope d others)))
  | .joined items => do
      pure (.ofText (String.join ((← evaluateAll scope items).map Datum.text)))
  | .choice condition positive negative => do
      if (← evaluate scope condition).isTruthy then evaluate scope positive
      else match negative with
        | some e => evaluate scope e
        | none => pure .undefined

def evaluateAll (scope : Scope) : List Expression → Except Failure (List Datum)
  | [] => .ok []
  | e :: es => do
      let d ← evaluate scope e
      pure (d :: (← evaluateAll scope es))

def evaluatePairs (scope : Scope) :
    List (Expression × Expression) → Except Failure (List (Value × Value))
  | [] => .ok []
  | (k, e) :: rest => do
      let key ← evaluate scope k
      let d ← evaluate scope e
      pure ((key.toValue, d.toValue) :: (← evaluatePairs scope rest))

def evaluateNamed (scope : Scope) :
    List (String × Expression) → Except Failure (List (String × Datum))
  | [] => .ok []
  | (name, e) :: rest => do
      let d ← evaluate scope e
      pure ((name, d) :: (← evaluateNamed scope rest))

/-- A chain of comparisons, up to the first that fails. -/
def evaluateComparisons (scope : Scope) (d : Datum) :
    List (Comparison × Expression) → Except Failure Bool
  | [] => .ok true
  | (c, e) :: rest => do
      let other ← evaluate scope e
      if ← Datum.compare c d other then evaluateComparisons scope other rest else pure false

end

/-- The elements of a loop that its condition admits. -/
def admitted (scope : Scope) (pattern : Pattern) (condition : Option Expression)
    (ds : List Datum) : Except Failure (List Datum) :=
  match condition with
  | none => .ok ds
  | some e => ds.filterM fun d => do
      pure (← evaluate (← scope.bindPattern pattern d) e).isTruthy

mutual

/-- The text of statements, and the scope after them. -/
def renderAll (scope : Scope) : List Statement → Except Failure (String × Scope)
  | [] => .ok ("", scope)
  | s :: rest => do
      let (head, scope) ← renderOne scope s
      let (tail, scope) ← renderAll scope rest
      pure (head ++ tail, scope)

def renderOne (scope : Scope) : Statement → Except Failure (String × Scope)
  | .text s => .ok (s, scope)
  | .print e => do pure ((← evaluate scope e).text, scope)
  | .choice branches otherwise => do
      match ← renderBranch scope branches with
      | some result => pure result
      | none => renderAll scope otherwise
  | .loop pattern source condition body otherwise => do
      let ds ← admitted scope pattern condition (← (← evaluate scope source).elements)
      if ds.isEmpty then
        pure ((← renderAll scope otherwise).1, scope)
      else
        let texts ← ds.zipIdx.mapM fun (d, index) => do
          let state : LoopState := ⟨index, ds.length, scope.depth + 1⟩
          let inner : Scope := { scope with depth := scope.depth + 1 }
          let inner ← (inner.bind "loop" (.loop state)).bindPattern pattern d
          pure (← renderAll inner body).1
        pure (String.join texts, scope)
  | .assign pattern e => do pure ("", ← scope.bindPattern pattern (← evaluate scope e))
  | .capture name body => do
      let (text, _) ← renderAll scope body
      pure ("", scope.bind name (.ofText text))

/-- The first branch whose condition holds. -/
def renderBranch (scope : Scope) :
    List (Expression × List Statement) → Except Failure (Option (String × Scope))
  | [] => .ok none
  | (condition, body) :: rest => do
      if (← evaluate scope condition).isTruthy then
        pure (some (← renderAll scope body))
      else renderBranch scope rest

end

/-- The text of a template. Data cannot use the name `self`. -/
def render (source : String) (data : List (String × Value)) : Except Failure String := do
  let found ← Failure.ofMalformed (parse source)
  if (data.lookup "self").isSome then throw (.data .kind)
  pure (← renderAll (Scope.ofData data) found).1

/-- Render a text of its own; a fault names the text. -/
def renderText (source : String) (data : List (String × Value)) : Except Fault String :=
  match render source data with
  | .ok s => .ok s
  | .error (.template reason) => .error (.compilation (.textTemplateFailed source reason))
  | .error (.data fault) => .error fault

/-- Render the template found at a path, if there is one. -/
def renderAt (path : Path) (source : Option String) (data : List (String × Value)) :
    Except Fault String :=
  match source with
  | none => .error (.compilation (.templateMissing path))
  | some source => match render source data with
      | .ok s => .ok s
      | .error (.template reason) => .error (.compilation (.templateFailed path reason))
      | .error (.data fault) => .error fault

end DesignGraph.Template
