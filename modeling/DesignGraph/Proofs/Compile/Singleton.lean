import DesignGraph.Proofs.Compile.Closure
import DesignGraph.Proofs.Compile.Rendering

/-!
# Singletons are what they replace

Where every value names an instance of the declared type, all uses of a type that was met in one
instance lead to that instance. Its construction is written out at each of them before it is
replaced by the bare one, and the class of the type has the same properties as its defaults.
-/

namespace DesignGraph

namespace Graph

/-- Every value that a component-typed property leads to names an instance of the declared type. -/
def IsWellTyped (graph : Graph) : Prop :=
  ∀ entry ∈ graph.instances.entries, ∀ type ∈ graph.types.get? entry.2.type,
    ∀ declaration ∈ type.properties, graph.isComponent declaration.type = true →
      ∀ value ∈ entry.2.values.get? declaration.name,
        ∀ leaf ∈ leaves declaration.depth [value],
          (graph.instance? leaf).map (·.type) = some declaration.type

/-- No component type is named like the target type of a property that holds a primitive or a
collection. -/
def NamesApart (graph : Graph) (target : Target) : Prop :=
  ∀ entry ∈ graph.types.entries, ∀ declaration ∈ entry.2.properties,
    ¬ (declaration.depth = 0 ∧ graph.isComponent declaration.type = true) →
      ∀ targetType ∈ Resolution.targetType? target graph declaration declaration.depth,
        graph.isComponent targetType = false

instance (graph : Graph) : Decidable graph.IsWellTyped :=
  inferInstanceAs (Decidable (∀ entry ∈ graph.instances.entries, _))

instance (graph : Graph) (target : Target) : Decidable (graph.NamesApart target) :=
  inferInstanceAs (Decidable (∀ entry ∈ graph.types.entries, _))

/-- Only a property that holds an instance itself has the target type of a component. -/
theorem NamesApart.plain {graph : Graph} {target : Target} (apart : graph.NamesApart target)
    {name targetType : String} {type : ComponentType} {declaration : Declaration}
    (declared : graph.types.get? name = some type) (ofType : declaration ∈ type.properties)
    (given : Resolution.targetType? target graph declaration declaration.depth = some targetType)
    (component : graph.isComponent targetType = true) :
    declaration.depth = 0 ∧ graph.isComponent declaration.type = true ∧
      targetType = declaration.type := by
  by_cases plain : declaration.depth = 0 ∧ graph.isComponent declaration.type = true
  · obtain ⟨depth_eq, isComponent⟩ := plain
    simp only [depth_eq, Resolution.targetType?, isComponent, if_true] at given
    exact ⟨depth_eq, isComponent, (Option.some.inj given).symm⟩
  · have different := apart _ (OrderedMap.mem_entries_of_get? declared) declaration ofType plain
      targetType given
    rw [component] at different
    cases different

end Graph

namespace Compilation

variable {setup : Setup} {program : Program} {visits : List Instance} {components : Roster}

theorem mem_singletons (distinct : components.keys.Nodup) {type : String}
    (member : type ∈ singletons components) :
    ∃ component, components.get? type = some component ∧ component.instances.size = 1 ∧
      component.binding = none := by
  obtain ⟨⟨name, component⟩, listed, rfl⟩ := List.mem_map.mp member
  obtain ⟨entry, single⟩ := List.mem_filter.mp listed
  refine ⟨component, OrderedMap.get?_of_mem_entries distinct entry, ?_⟩
  simpa [Component.isSingleton] using single

/-- A property with the type of a component resolves to the construction of an instance that the
owner holds. -/
theorem initializer_of_component {graph : Graph} {declaration : Declaration} {value : Value}
    {property : Property} (component : graph.isComponent declaration.type = true)
    (resolved : Resolution.resolveValue setup.target setup.bindings graph declaration 0 value =
      some (some property)) :
    ∃ inst properties, graph.instance? value = some inst ∧
      Resolution.resolve setup.target setup.bindings graph inst = some properties ∧
      Resolution.constructionOf? setup.target setup.bindings declaration.type inst
        ⟨graph.componentName inst, properties, false⟩ = some property.initializer := by
  obtain ⟨inst, properties, initializer, found, below, constructed, ⟨⟩⟩ :=
    (Resolution.resolveValue_component_eq_some_iff component).mp resolved
  exact ⟨inst, properties, found, below, constructed⟩

/-- Each use of a singleton is its full construction, before it is replaced by the bare one. -/
theorem Walked.initializer_of_singleton (walked : Walked setup program visits components)
    (keyed : program.graph.IsKeyed) (typed : program.graph.IsWellTyped)
    (apart : program.graph.NamesApart setup.target) {outer name : String} {component : Component}
    {property : Property} (found : components.get? outer = some component)
    (given : component.spec.properties.get? name = some property)
    (member : property.type ∈ singletons components) :
    ∃ single, components.get? property.type = some single ∧ single.instances.size = 1 ∧
      single.binding = none ∧ property.initializer = setup.target.construction single.spec := by
  obtain ⟨single, listed, once, unbound⟩ := mem_singletons walked.nodup_keys member
  obtain ⟨owner, ownerRepresents⟩ := walked.exists_represents found
  obtain ⟨first, represents⟩ := walked.exists_represents listed
  obtain ⟨type, declared, declaration, ofType, rfl, value, held, resolved⟩ :=
    Resolution.exists_declaration_of_resolve ownerRepresents.resolved given
  have ownerListed := keyed.get?_of_visited walked.preorder ownerRepresents.visited
  have targetType := Resolution.targetType?_of_resolveValue resolved
  obtain ⟨depth_eq, isComponent, type_eq⟩ :=
    apart.plain declared ofType targetType (represents.isComponent keyed)
  rw [depth_eq] at resolved
  obtain ⟨inst, properties, leads, below, constructed⟩ :=
    initializer_of_component isComponent resolved
  have inHeld : inst ∈ program.graph.heldIn declaration declaration.depth [value] := by
    rw [Graph.mem_heldIn, depth_eq]
    exact ⟨isComponent, value, by simp [Graph.leaves], leads⟩
  have visited : inst ∈ visits := by
    refine walked.preorder.closed ownerRepresents.visited ?_
    exact Graph.holds_iff.mpr ⟨type, declared, declaration, ofType, value, held, inHeld⟩
  have inst_type : inst.type = property.type := by
    have named := typed _ (OrderedMap.mem_entries_of_get? ownerListed) type declared declaration
      ofType isComponent value held value (by simp [depth_eq, Graph.leaves])
    rw [leads] at named
    rw [type_eq]
    exact Option.some.inj named
  obtain rfl := represents.eq_of_single keyed walked.preorder once visited inst_type
  refine ⟨single, listed, once, unbound, ?_⟩
  rw [represents.binding_eq, type_eq] at unbound
  rw [Resolution.constructionOf?_of_unbound unbound] at constructed
  rw [← Option.some.inj constructed]
  refine Resolution.construction_congr ?_ ?_
  · rw [represents.componentName_eq, represents.name_eq]
  · exact Option.some.inj (below.symm.trans represents.resolved)

/-- After the walk of a run, what is replaced at each use of a singleton is its full construction,
and its class is rendered with the same properties as defaults. -/
theorem singleton_references_are_justified {before after : Compiler} {data : Value}
    {document : GraphDocument} (loaded : GraphDocument.ofValue data = .ok document)
    (sameGraph : before.program.graph = document.graph)
    (typed : before.program.graph.IsWellTyped)
    (apart : before.program.graph.NamesApart setup.target)
    (walked : (do clear setup; walkRoots setup).Yields before () after)
    {outer name : String} {component : Component} {property : Property}
    (found : after.output.components.get? outer = some component)
    (given : component.spec.properties.get? name = some property)
    (member : property.type ∈ singletons after.output.components) :
    ∃ single, after.output.components.get? property.type = some single ∧
      single.instances.size = 1 ∧ single.binding = none ∧
      property.initializer = setup.target.construction single.spec ∧
      (classSpec setup (singletons after.output.components) component).properties.get? name =
        some { property with initializer := setup.target.bareConstruction property.type } ∧
      ∀ {package : Package} {final : Compiler}, (writePackage setup).Yields after package final →
        ∃ text, classText setup (classSpec setup (singletons after.output.components) single) true =
            .ok text ∧
          .rendered property.type (classSuffix setup.target) text ∈ final.output.sources.items := by
  obtain ⟨-, visits, walked⟩ := clear_walkRoots_yields walked
  have keyed : before.program.graph.IsKeyed := by
    rw [sameGraph]
    exact GraphDocument.isKeyed_of_ofValue loaded
  obtain ⟨single, listed, once, unbound, initializer_eq⟩ :=
    walked.initializer_of_singleton keyed typed apart found given member
  refine ⟨single, listed, once, unbound, initializer_eq, ?_, ?_⟩
  · simp only [classSpec, Spec.useBareConstructions, OrderedMap.get?_map, given, Option.map_some]
    rw [if_pos (by simpa using member)]
  · intro package final written
    obtain ⟨text, rendered, source⟩ := writePackage_renders walked.nodup_keys written listed
    obtain ⟨first, represents⟩ := walked.exists_represents listed
    have hasDefaults : (single.spec.isPublic ||
        (singletons after.output.components).contains property.type) = true := by
      simp [member]
    rw [hasDefaults] at rendered
    rw [represents.name_eq] at source
    exact ⟨text, rendered, source⟩

end Compilation

/-- A page with a title and a logo of its own. -/
def pageDocument : Value := .map [
  (.text "design_system", .bool false),
  (.text "types", .map [
    (.text "Page", .map [(.text "title", .text "string"), (.text "logo", .text "Logo")]),
    (.text "Logo", .map [(.text "label", .text "string")])]),
  (.text "instances", .map [
    (.text "home", .map [(.text "type", .text "Page"), (.text "values", .map [
      (.text "title", .text "Home"), (.text "logo", .text "mark")])]),
    (.text "mark", .map [(.text "type", .text "Logo"), (.text "values", .map [
      (.text "label", .text "A mark")])])]),
  (.text "roots", .map [(.text "Page", .text "home")])]

def pageGraph : Graph where
  types := ⟨[
    ("Page", ⟨"Page", [⟨"title", "string", 0⟩, ⟨"logo", "Logo", 0⟩]⟩),
    ("Logo", ⟨"Logo", [⟨"label", "string", 0⟩]⟩)]⟩
  instances := ⟨[
    ("home", ⟨"home", "Page", ⟨[("title", .text "Home"), ("logo", .text "mark")]⟩⟩),
    ("mark", ⟨"mark", "Logo", ⟨[("label", .text "A mark")]⟩⟩)]⟩

def page : Program where
  projectName := "Site"
  projectRoot := ⟨"/", ["site"]⟩
  graph := pageGraph
  roots := ⟨[("Page", "home")]⟩

theorem pageGraph_loaded :
    GraphDocument.ofValue pageDocument = .ok ⟨pageGraph, ⟨[("Page", "home")]⟩⟩ := by
  with_unfolding_all rfl

theorem logo_of_page :
    let before : Compiler := { program := page, tree := {} }
    let walk : Compilation Unit := do Compilation.clear unboundWeb; Compilation.walkRoots unboundWeb
    ∃ after, walk.Yields before () after ∧
      ∃ single, after.output.components.get? "Logo" = some single ∧
        unboundWeb.target.construction single.spec = "new Logo(\x7blabel: \"A mark\"\x7d)" := by
  intro before walk
  have walked : walk.Yields before () (walk.outcome before).2 :=
    Compilation.yields_outcome (by rfl)
  let logo : Property := ⟨"Logo", "new Logo(\x7blabel: \"A mark\"\x7d)", true⟩
  let spec : Spec := ⟨"Page", ⟨[("title", ⟨"string", "\"Home\"", false⟩), ("logo", logo)]⟩, true⟩
  have found : (walk.outcome before).2.output.components.get? "Page" =
      some ⟨spec, ⟨["home"]⟩, none⟩ := by rfl
  have given : spec.properties.get? "logo" = some logo := by rfl
  obtain ⟨single, listed, once, unbound, initializer_eq, -⟩ :=
    Compilation.singleton_references_are_justified pageGraph_loaded rfl (by decide) (by decide)
      walked found given (by decide)
  exact ⟨_, walked, single, listed, initializer_eq.symm⟩

end DesignGraph
