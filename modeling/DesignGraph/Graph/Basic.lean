import DesignGraph.Fault

/-!
# Component graphs

Every component type of a design with its declared properties, and every instance by its id.  An
instance holds nested instances by id, so one that several parents use appears once.

The loader gives every instance its key as id and every type its key as name; graphs built by hand
need not.
-/

namespace DesignGraph

/-- A property with its type, a primitive kind or a component type, and the number of collections
around it. -/
structure Declaration where
  name : String
  type : String
  depth : Nat := 0
  deriving Repr, DecidableEq

structure ComponentType where
  name : String
  properties : List Declaration := []
  deriving Repr, DecidableEq

structure Instance where
  id : String
  type : String
  values : OrderedMap String Value := ⟨[]⟩
  deriving Repr

structure Graph where
  types : OrderedMap String ComponentType := ⟨[]⟩
  instances : OrderedMap String Instance := ⟨[]⟩
  deriving Repr

instance : Inhabited Graph := ⟨⟨⟨[]⟩, ⟨[]⟩⟩⟩

def ComponentType.property? (type : ComponentType) (name : String) : Option Declaration :=
  type.properties.find? (·.name == name)

namespace Graph

def isComponent (graph : Graph) (type : String) : Bool := graph.types.contains type

/-- The type of a name; a name that is no text names none. -/
def typeNamed (graph : Graph) (name : Value) : Except Fault ComponentType :=
  let found := match name with
    | .text s => graph.types.get? s
    | _ => none
  match found with
  | some type => .ok type
  | none => if name.isKey then .error (.graph (.unknownType name)) else .error .kind

/-- The instance that a value refers to. -/
def instance? (graph : Graph) : Value → Option Instance
  | .text id => graph.instances.get? id
  | _ => none

def instanceOf (graph : Graph) (reference : Value) : Except Fault Instance :=
  match graph.instance? reference with
  | some inst => .ok inst
  | none => .error (.graph (.unknownInstance reference))

end Graph

end DesignGraph
