import DesignGraph.Compile.Output

/-!
# Singletons

A component type that was met in exactly one instance and has no binding can be constructed again
wherever it is used.  Its properties become the defaults of its class, and each use of it the bare
construction.
-/

namespace DesignGraph

namespace Component

def isSingleton (component : Component) : Bool :=
  component.instances.size == 1 && component.binding.isNone

end Component

/-- The types that can be constructed again, in the order of the components. -/
def singletons (components : OrderedMap String Component) : List String :=
  (components.entries.filter fun (_, component) => component.isSingleton).map (·.1)

/-- Give every property whose type is among the given ones the bare construction of its type. -/
def Spec.useBareConstructions (types : List String) (construct : String → String) (spec : Spec) :
    Spec :=
  { spec with
    properties := spec.properties.map fun property =>
      if types.contains property.type then
        { property with initializer := construct property.type }
      else property }

end DesignGraph
