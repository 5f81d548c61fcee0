import DesignGraph.Graph.Cycle
import DesignGraph.Graph.Declaration
import DesignGraph.Graph.Prefab

/-!
# Graph documents

A decoded document becomes a component graph and its roots.  It may hold `types`, with the
declarations of each, `instances`, with a type and values each, and `roots`; the prefab types come
first unless `design_system` is off.  Whatever does not count as given may stand for an empty
mapping.
-/

namespace DesignGraph

structure GraphDocument where
  graph : Graph
  roots : OrderedMap String String

namespace GraphDocument

/-- The entries of a section; any other kind of value has none. -/
def sectionEntries (entries : List (Value × Value)) (name : String) :
    Except Fault (List (Value × Value)) :=
  match Value.fieldOrEmpty entries name with
  | .map es => .ok es
  | _ => .error .missingMember

def addType (types : OrderedMap String ComponentType) (name properties : Value) :
    Except Fault (OrderedMap String ComponentType) := do
  let defined := match name with
    | .text s => types.contains s
    | _ => false
  if defined then throw (.graph (.typeRedefined name))
  let declarations ← match properties with
    | .map es => es.mapM fun entry => Declaration.parse entry.1 entry.2
    | v => if v.isTruthy then throw (.graph (.propertiesNotMapping name)) else pure []
  match name with
  | .text s => pure (types.insert s ⟨s, declarations⟩)
  | _ => throw (.invalid [⟨[.key "name"], .textKind⟩])

def addInstance (types : OrderedMap String ComponentType) (instances : OrderedMap String Instance)
    (id raw : Value) : Except Fault (OrderedMap String Instance) := do
  match raw with
  | .map es =>
      match Value.field? es "type" with
      | none => throw (.graph (.typeNotDeclared id))
      | some (.text type) =>
          if !types.contains type then throw (.graph (.typeNotKnown id (.text type)))
          let values ← (Checked.required "values" (Checked.mapping .ok)
            (some (Value.fieldOrEmpty es "values"))).mapError .invalid
          pure (instances.insert id.plain ⟨id.plain, type, values⟩)
      | some type =>
          if type.isKey then throw (.graph (.typeNotKnown id type)) else throw .kind
  | _ => throw (.graph (.typeNotDeclared id))

def checkRoots (instances : OrderedMap String Instance) (roots : OrderedMap String String) :
    Except Fault Unit :=
  roots.entries.forM fun (name, id) =>
    if instances.contains id then .ok () else .error (.graph (.rootNotKnown name id))

/-- The document that a decoded value describes. -/
def ofValue (data : Value) : Except Fault GraphDocument := do
  match data with
  | .map entries =>
      let prefabs := match Value.field? entries "design_system" with
        | some v => v.isTruthy
        | none => true
      let types ← (← sectionEntries entries "types").foldlM
        (fun types entry => addType types entry.1 entry.2) (if prefabs then Prefab.types else ∅)
      let instances ← (← sectionEntries entries "instances").foldlM
        (fun instances entry => addInstance types instances entry.1 entry.2) ∅
      match Graph.findCycle? types instances with
      | some cycle => throw (.graph (.circular cycle))
      | none => pure ()
      let roots := OrderedMap.ofList
        ((← sectionEntries entries "roots").map fun entry => (entry.1.plain, entry.2.plain))
      checkRoots instances roots
      pure ⟨⟨types, instances⟩, roots⟩
  | _ => throw (.graph .notMapping)

end GraphDocument

end DesignGraph
