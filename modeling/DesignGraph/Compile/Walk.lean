import DesignGraph.Compile.Compiler

/-!
# The walk

From every root the walk goes through the instances that component properties hold, depth first,
properties in declared order and list elements in order.  Each visit resolves the properties of the
instance anew and adds its id to those of its type; the first instance of a type gives the type its
spec.  An instance that is met while it is itself being resolved is a fault.

The recursion is bounded by the number of instances, since the ids on the path are distinct.
-/

namespace DesignGraph.Compilation

/-- Resolve one property value that lies so many collections deep.  `visit` resolves a nested
instance to its construction. -/
def propertyOf (setup : Setup) (visit : Instance → Reference → Compilation Spec) (parent : String)
    (declaration : Declaration) : (depth : Nat) → Value → Compilation (Option Property)
  | 0, value => do
      let graph := (← get).program.graph
      if !graph.isComponent declaration.type then
        match setup.target.primitive declaration.type value with
        | .ok property => pure (some property)
        | .error warning => do warn warning; pure none
      else
        let inst ← ofExcept (graph.instanceOf value)
        let spec ← visit inst ⟨parent, declaration.name⟩
        let binding := setup.bindings.get? declaration.type
        let initializer ← match binding.bind Binding.initializer with
          | some construct => ofExcept (construct inst)
          | none => pure (setup.target.construction spec)
        pure (some {
          type := declaration.type
          initializer := initializer
          updatable := (binding.map Binding.updatable).getD true })
  | depth + 1, value =>
      match value with
      | .list items => do
          let elements ← items.mapM (propertyOf setup visit parent declaration depth)
          pure (setup.target.collect elements)
      | value => do warn (.notList parent declaration.name value); pure none

/-- Register an instance of a type; whether it is the first one. -/
def register (setup : Setup) (type : String) (isPublic : Bool) (id : String) :
    Compilation Bool := do
  let isFirst := !(← get).output.components.contains type
  changeOutput fun output =>
    let component := (output.components.get? type).getD
      { spec := { componentName := type }, binding := setup.bindings.get? type }
    { output with components := output.components.insert type { component with
        spec := { component.spec with isPublic := component.spec.isPublic || isPublic }
        instances := component.instances.insert id } }
  pure isFirst

/-- Resolve the declared properties of an instance, one after the other.  Those of the first
instance of a type are those of the type. -/
def properties (setup : Setup) (visit : Instance → Reference → Compilation Spec)
    (type : String) (isFirst : Bool) (inst : Instance) :
    List Declaration → OrderedMap String Property → Compilation (OrderedMap String Property)
  | [], done => pure done
  | declaration :: rest, done => do
      match inst.values.get? declaration.name with
      | none => do
          warn (.noValue type declaration.name inst.id)
          properties setup visit type isFirst inst rest done
      | some value =>
          match ← propertyOf setup visit type declaration declaration.depth value with
          | none => properties setup visit type isFirst inst rest done
          | some property => do
              let done := done.insert declaration.name property
              if isFirst then
                changeOutput fun output => output.changeComponent type fun component =>
                  { component with spec := { component.spec with properties := done } }
              properties setup visit type isFirst inst rest done

/-- Let the binding of a type add the assets of an instance. -/
def bindAssets (setup : Setup) (type : String) (inst : Instance) (reference : Option Reference) :
    Compilation Unit := do
  match (setup.bindings.get? type).bind Binding.assets with
  | none => pure ()
  | some binder => do
      let compiler ← get
      let around : Surroundings :=
        ⟨setup.target, compiler.tree, compiler.program, compiler.hotUrl⟩
      let effects ← ofExcept (binder around inst reference)
      changeOutput fun output => output.applyAll effects

/-- Register an instance and resolve its properties. `path` holds the ids of the instances that are
being resolved, the outermost first. -/
def walk (setup : Setup) : (hops : Nat) → (path : List String) → (isPublic : Bool) → Instance →
    Option Reference → Compilation Spec
  | 0, path, _, inst, _ => throw (.graph (.circular (path ++ [inst.id])))
  | hops + 1, path, isPublic, inst, reference => do
      if path.contains inst.id then
        throw (.graph (.circular (path.dropWhile (· ≠ inst.id) ++ [inst.id])))
      let type ← ofExcept ((← get).program.graph.typeNamed (.text inst.type))
      let isFirst ← register setup type.name isPublic inst.id
      let visit (nested : Instance) (reference : Reference) : Compilation Spec :=
        walk setup hops (path ++ [inst.id]) false nested (some reference)
      let resolved ← properties setup visit type.name isFirst inst type.properties ∅
      bindAssets setup type.name inst reference
      let isPublic := match (← get).output.components.get? type.name with
        | some component => if isFirst then component.spec.isPublic else isPublic
        | none => isPublic
      pure ⟨type.name, resolved, isPublic⟩

/-- More hops than any path without a repeated id has. -/
def hopsOf (graph : Graph) : Nat := graph.instances.entries.length + 1

/-- Register an instance from outside the walk. -/
def process (setup : Setup) (isPublic : Bool) (inst : Instance) (reference : Option Reference) :
    Compilation Spec := do
  walk setup (hopsOf (← get).program.graph) [] isPublic inst reference

/-- Resolve one property value from outside the walk. -/
def processProperty (setup : Setup) (parent : String) (declaration : Declaration) (depth : Nat)
    (value : Value) : Compilation (Option Property) := do
  let visit (inst : Instance) (reference : Reference) : Compilation Spec :=
    process setup false inst (some reference)
  propertyOf setup visit parent declaration depth value

/-- The walk from every root of the program. -/
def walkRoots (setup : Setup) : Compilation Unit := do
  let program := (← get).program
  program.roots.entries.forM fun (_, id) => do
    let inst ← ofExcept (program.graph.instanceOf (.text id))
    let _ ← process setup true inst none

end DesignGraph.Compilation
