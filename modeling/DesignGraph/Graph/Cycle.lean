import DesignGraph.Graph.Basic

/-!
# Reference cycles

An instance refers to the instances that its component-typed properties hold, directly or inside
collections of the declared depth.  A graph in which an instance reaches itself is rejected, with
the first cycle that a depth-first search in document order finds; the references of one instance
are followed in the order of their ids.
-/

namespace DesignGraph.Graph

/-- The elements of the lists among the values. -/
def elements (values : List Value) : List Value :=
  values.flatMap fun
    | .list items => items
    | _ => []

/-- The values found by going so many collections deep. -/
def leaves : (depth : Nat) → List Value → List Value
  | 0, values => values
  | depth + 1, values => if values.isEmpty then [] else leaves depth (elements values)

/-- The ids held by one property of an instance. -/
def heldBy (types : OrderedMap String ComponentType) (instances : OrderedMap String Instance)
    (inst : Instance) (declaration : Declaration) : List String :=
  if types.contains declaration.type then
    match inst.values.get? declaration.name with
    | none => []
    | some value => (leaves declaration.depth [value]).filterMap fun
        | .text id => if instances.contains id then some id else none
        | _ => none
  else []

/-- The ids that an instance refers to, in order and without repetition. -/
def references (types : OrderedMap String ComponentType) (instances : OrderedMap String Instance)
    (inst : Instance) : List String :=
  match types.get? inst.type with
  | none => []
  | some type =>
      ((type.properties.flatMap (heldBy types instances inst)).eraseDups).mergeSort
        fun a b => decide (a ≤ b)

/-- Depth-first search from one id.  An id on the path closes a cycle, which ends the search; an id
visited before is passed over.  `hops` bounds the length of the path. -/
def search (refs : String → List String) : (hops : Nat) → (path visited : List String) →
    (id : String) → Except (List String) (List String)
  | 0, _, visited, _ => .ok visited
  | hops + 1, path, visited, id =>
      if path.contains id then .error (path.dropWhile (· ≠ id) ++ [id])
      else if visited.contains id then .ok visited
      else (refs id).foldlM (fun visited next => search refs hops (path ++ [id]) visited next)
        (id :: visited)

/-- The first cycle among the instances. -/
def findCycle? (types : OrderedMap String ComponentType) (instances : OrderedMap String Instance) :
    Option (List String) :=
  let refs (id : String) : List String :=
    match instances.get? id with
    | some inst => references types instances inst
    | none => []
  let found := instances.keys.foldlM
    (fun visited id => search refs (instances.entries.length + 1) [] visited id) []
  match found with
  | .error cycle => some cycle
  | .ok _ => none

end DesignGraph.Graph
