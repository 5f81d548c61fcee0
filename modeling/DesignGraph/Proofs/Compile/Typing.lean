import DesignGraph.Proofs.Compile.Class
import DesignGraph.Proofs.Graph.Cycle

/-!
# References and their types

A reference is declared with a component type, and the declaration gives the property its target
type and its binding. The class that is constructed is that of the instance that the value names.
The two agree exactly if every value names an instance of the declared type.
-/

namespace DesignGraph

namespace Resolution

variable {target : Target} {bindings : OrderedMap String Binding} {graph : Graph}
  {declaration : Declaration} {inst : Instance}

/-- Where a value is resolved, so is whatever it leads to. -/
theorem exists_resolveValue_of_within {depth : Nat} {value leaf : Value}
    {answer : Option Property} (within : Graph.Within depth value leaf)
    (resolved : resolveValue target bindings graph declaration depth value = some answer) :
    ∃ leafAnswer, resolveValue target bindings graph declaration 0 leaf = some leafAnswer := by
  induction within generalizing answer with
  | here value => exact ⟨answer, resolved⟩
  | inside member _ ih =>
    obtain ⟨elements, mapped, -⟩ := resolveValue_list_eq_some_iff.mp resolved
    obtain ⟨element, -, resolvedItem⟩ :=
      Answers.exists_answer (Answers.mapM_eq_some_iff.mp mapped) member
    exact ih resolvedItem

private theorem exists_resolveValue_of_resolveAll {declarations : List Declaration}
    {done result : OrderedMap String Property} {value : Value}
    (resolved : resolveAll target bindings graph inst declarations done = some result)
    (member : declaration ∈ declarations)
    (held : inst.values.get? declaration.name = some value) :
    ∃ answer, resolveValue target bindings graph declaration declaration.depth value =
      some answer := by
  induction declarations generalizing done with
  | nil => cases member
  | cons first rest ih =>
    rcases resolveAll_cons_eq_some_iff.mp resolved with
      ⟨given, resolved⟩ | ⟨other, answer, given, answered, resolved⟩ <;>
      rcases List.mem_cons.mp member with rfl | later
    · rw [held] at given
      cases given
    · exact ih resolved later
    · obtain rfl : value = other := Option.some.inj (held.symm.trans given)
      exact ⟨answer, answered⟩
    · exact ih resolved later

/-- Where an instance is resolved, so is every value that a declared property leads to. -/
theorem exists_resolveValue_of_refersAt {leaf : Value}
    (resolved : (resolve target bindings graph inst).isSome)
    (refers : graph.RefersAt inst declaration leaf) :
    ∃ answer, resolveValue target bindings graph declaration 0 leaf = some answer := by
  obtain ⟨-, type, declared, ofType, value, held, within⟩ := refers
  obtain ⟨properties, resolved⟩ := Option.isSome_iff_exists.mp resolved
  rw [resolve_eq, Option.bind_eq_some_iff] at resolved
  obtain ⟨_, found, resolved⟩ := resolved
  cases declared.symm.trans found
  obtain ⟨answer, answered⟩ := exists_resolveValue_of_resolveAll resolved ofType held
  exact exists_resolveValue_of_within within answered

end Resolution

namespace Compilation

variable {setup : Setup} {program : Program} {visits : List Instance} {components : Roster}
  {outer : Instance} {declaration : Declaration} {leaf : Value}

/-- The expression for an instance as a component constructs it. -/
def constructionBy? (target : Target) (component : Component) (inst : Instance)
    (properties : OrderedMap String Property) : Option String :=
  match component.binding.bind Binding.initializer with
  | some construct => (construct inst).toOption
  | none => some (target.construction ⟨component.spec.componentName, properties, false⟩)

/-- The property for an instance is that of one component throughout: the instance is one of those
of the component, and type, binding and class are those of the component. -/
structure IsTypedBy (setup : Setup) (graph : Graph) (component : Component) (inst : Instance)
    (property : Property) : Prop where
  listed : inst.id ∈ component.instances.items
  type_eq : property.type = component.spec.componentName
  updatable_eq : property.updatable = (component.binding.map Binding.updatable).getD true
  initializer_eq : ∃ properties,
    Resolution.resolve setup.target setup.bindings graph inst = some properties ∧
      constructionBy? setup.target component inst properties = some property.initializer

/-- Every reference of a visited instance has a property of the component of the declared type. -/
def ReferencesFit (setup : Setup) (program : Program) (visits : List Instance)
    (components : Roster) : Prop :=
  ∀ outer ∈ visits, ∀ declaration leaf, program.graph.RefersAt outer declaration leaf →
    ∃ inst property component, program.graph.instance? leaf = some inst ∧
      Resolution.resolveValue setup.target setup.bindings program.graph declaration 0 leaf =
        some (some property) ∧
      components.get? declaration.type = some component ∧
      IsTypedBy setup program.graph component inst property

/-- Every reference of a visited instance names an instance of the declared type. -/
def ReferencesTyped (program : Program) (visits : List Instance) : Prop :=
  ∀ outer ∈ visits, ∀ declaration leaf, program.graph.RefersAt outer declaration leaf →
    ∃ inst, program.graph.instance? leaf = some inst ∧ inst.type = declaration.type

namespace Walked

/-- What becomes of a reference: it leads to a visited instance. The declaration gives the property
its type and its binding, and the instance the class. -/
theorem exists_property (walked : Walked setup program visits components)
    (visited : outer ∈ visits) (refers : program.graph.RefersAt outer declaration leaf) :
    ∃ inst ∈ visits, program.graph.instance? leaf = some inst ∧
      ∃ property, Resolution.resolveValue setup.target setup.bindings program.graph declaration 0
          leaf = some (some property) ∧
        property.type = declaration.type ∧
        property.updatable =
          ((setup.bindings.get? declaration.type).map Binding.updatable).getD true ∧
        ∃ properties,
          Resolution.resolve setup.target setup.bindings program.graph inst = some properties ∧
          Resolution.constructionOf? setup.target setup.bindings declaration.type inst
            ⟨program.graph.componentName inst, properties, false⟩ =
              some property.initializer := by
  obtain ⟨answer, resolved⟩ :=
    Resolution.exists_resolveValue_of_refersAt (walked.resolves outer visited) refers
  obtain ⟨inst, properties, initializer, found, below, constructed, rfl⟩ :=
    (Resolution.resolveValue_component_eq_some_iff refers.1).mp resolved
  exact ⟨inst, walked.preorder.closed visited (refers.holds found), found, _, resolved, rfl, rfl,
    properties, below, constructed⟩

theorem referencesFit_iff (walked : Walked setup program visits components)
    (keyed : program.graph.IsKeyed) :
    ReferencesFit setup program visits components ↔ ReferencesTyped program visits := by
  constructor
  · intro fit outer visited declaration leaf refers
    obtain ⟨inst, property, component, found, -, listed, typed⟩ :=
      fit outer visited declaration leaf refers
    obtain ⟨other, met, sameId⟩ := (walked.mem_ids_iff listed inst.id).mp typed.listed
    have otherVisited : other ∈ visits := (walked.isMet_iff_visited.mp met).1
    have instVisited : inst ∈ visits := walked.preorder.closed visited (refers.holds found)
    have otherListed := keyed.get?_of_visited walked.preorder otherVisited
    have instListed := keyed.get?_of_visited walked.preorder instVisited
    rw [sameId, instListed] at otherListed
    obtain rfl : inst = other := Option.some.inj otherListed
    exact ⟨inst, found, (keyed.componentName_eq inst).symm.trans met.1⟩
  · intro typed outer visited declaration leaf refers
    obtain ⟨inst, instVisited, found, property, resolved, type_eq, updatable_eq, properties, below,
      constructed⟩ := walked.exists_property visited refers
    obtain ⟨_, again, sameType⟩ := typed outer visited declaration leaf refers
    cases found.symm.trans again
    have name_eq : program.graph.componentName inst = declaration.type :=
      (keyed.componentName_eq inst).trans sameType
    have met : IsMet program declaration.type inst :=
      walked.isMet_iff_visited.mpr ⟨instVisited, name_eq⟩
    obtain ⟨component, listed⟩ := walked.exists_get?_of_visited instVisited
    rw [name_eq] at listed
    obtain ⟨first, represents⟩ := walked.exists_represents listed
    refine ⟨inst, property, component, found, resolved, listed, ?_, ?_, ?_, properties, below, ?_⟩
    · exact (walked.mem_ids_iff listed inst.id).mpr ⟨inst, met, rfl⟩
    · rw [type_eq, represents.name_eq]
    · rw [updatable_eq, represents.binding_eq]
    · rw [name_eq] at constructed
      rw [constructionBy?, represents.binding_eq, represents.name_eq]
      exact constructed

/-- It suffices that all values of the graph name instances of the declared types. -/
theorem referencesTyped (walked : Walked setup program visits components)
    (keyed : program.graph.IsKeyed) (typed : program.graph.IsWellTyped) :
    ReferencesTyped program visits := by
  rintro outer visited declaration leaf ⟨isComponent, type, declared, ofType, value, held, within⟩
  have listed := keyed.get?_of_visited walked.preorder visited
  have named := typed _ (OrderedMap.mem_entries_of_get? listed) type declared declaration ofType
    isComponent value held leaf
    (Graph.mem_leaves.mpr ⟨value, List.mem_singleton_self value, within⟩)
  exact Option.map_eq_some_iff.mp named

end Walked

/-- References are of one component throughout exactly if they name instances of the declared
types. -/
theorem references_fit_iff_typed {before after : Compiler} {data : Value}
    {document : GraphDocument} (loaded : GraphDocument.ofValue data = .ok document)
    (sameGraph : before.program.graph = document.graph)
    (walked : (do clear setup; walkRoots setup).Yields before () after) :
    ∃ visits, before.program.graph.Preorder before.program.rootInstances visits ∧
      (∀ type component, after.output.components.get? type = some component →
        ∃ first ∈ visits, first.type = type ∧
          Resolution.resolve setup.target setup.bindings before.program.graph first =
            some component.spec.properties) ∧
      (∀ outer ∈ visits, ∀ declaration leaf,
        before.program.graph.RefersAt outer declaration leaf →
          ∃ inst ∈ visits, before.program.graph.instance? leaf = some inst) ∧
      (ReferencesFit setup before.program visits after.output.components ↔
        ReferencesTyped before.program visits) := by
  obtain ⟨-, visits, walked⟩ := clear_walkRoots_yields walked
  have keyed : before.program.graph.IsKeyed := by
    rw [sameGraph]
    exact GraphDocument.isKeyed_of_ofValue loaded
  refine ⟨visits, walked.preorder, ?_, ?_, walked.referencesFit_iff keyed⟩
  · intro type component found
    obtain ⟨first, represents⟩ := walked.exists_represents found
    exact ⟨first, represents.visited,
      (keyed.componentName_eq first).symm.trans represents.componentName_eq, represents.resolved⟩
  · intro outer visited declaration leaf refers
    obtain ⟨inst, instVisited, found, -⟩ := walked.exists_property visited refers
    exact ⟨inst, instVisited, found⟩

theorem references_of_page_fit :
    let before : Compiler := { program := page, tree := {} }
    let walk : Compilation Unit := do clear unboundWeb; walkRoots unboundWeb
    ∃ after visits, walk.Yields before () after ∧
      page.graph.Preorder page.rootInstances visits ∧
      ReferencesFit unboundWeb page visits after.output.components := by
  intro before walk
  have walked : walk.Yields before () (walk.outcome before).2 := yields_outcome (by rfl)
  obtain ⟨visits, preorder, -, -, fit⟩ := references_fit_iff_typed pageGraph_loaded rfl walked
  obtain ⟨-, others, met⟩ := clear_walkRoots_yields walked
  obtain rfl := preorder.unique met.preorder
  have keyed : page.graph.IsKeyed := GraphDocument.isKeyed_of_ofValue pageGraph_loaded
  exact ⟨_, visits, walked, preorder, fit.mpr (met.referencesTyped keyed (by decide))⟩

/-- A page whose logo is a photo. -/
def photoDocument : Value := .map [
  (.text "design_system", .bool false),
  (.text "types", .map [
    (.text "Page", .map [(.text "logo", .text "Logo")]),
    (.text "Logo", .map [(.text "label", .text "string")]),
    (.text "Photo", .map [(.text "title", .text "string")])]),
  (.text "instances", .map [
    (.text "home", .map [(.text "type", .text "Page"), (.text "values", .map [
      (.text "logo", .text "beach")])]),
    (.text "beach", .map [(.text "type", .text "Photo"), (.text "values", .map [
      (.text "title", .text "The beach")])])]),
  (.text "roots", .map [(.text "Page", .text "home")])]

def photoGraph : Graph where
  types := ⟨[
    ("Page", ⟨"Page", [⟨"logo", "Logo", 0⟩]⟩), ("Logo", ⟨"Logo", [⟨"label", "string", 0⟩]⟩),
    ("Photo", ⟨"Photo", [⟨"title", "string", 0⟩]⟩)]⟩
  instances := ⟨[
    ("home", ⟨"home", "Page", ⟨[("logo", .text "beach")]⟩⟩),
    ("beach", ⟨"beach", "Photo", ⟨[("title", .text "The beach")]⟩⟩)]⟩

def photoPage : Program where
  projectName := "Site"
  projectRoot := ⟨"/", ["site"]⟩
  graph := photoGraph
  roots := ⟨[("Page", "home")]⟩

/-- The class of the page has a logo of type `Logo` that is constructed as a `Photo`, and there is
no class `Logo`. -/
theorem logo_of_photoPage_does_not_fit :
    GraphDocument.ofValue photoDocument = .ok ⟨photoPage.graph, photoPage.roots⟩ ∧
      photoPage.checkRoots = .ok photoPage ∧
      ∀ target, let setup : Setup := { unboundWeb with target := target }
        let before : Compiler := { program := photoPage, tree := {} }
        let walk : Compilation Unit := do clear setup; walkRoots setup
        ∃ after visits, walk.Yields before () after ∧
          photoPage.graph.Preorder photoPage.rootInstances visits ∧
          after.output.components.keys = ["Page", "Photo"] ∧
          ¬ ReferencesTyped photoPage visits ∧
          ¬ ReferencesFit setup photoPage visits after.output.components := by
  refine ⟨by with_unfolding_all rfl, rfl, ?_⟩
  intro target setup before walk
  have walked : walk.Yields before () (walk.outcome before).2 :=
    yields_outcome (by cases target <;> rfl)
  obtain ⟨-, visits, met⟩ := clear_walkRoots_yields walked
  let home : Instance := ⟨"home", "Page", ⟨[("logo", .text "beach")]⟩⟩
  have visited : home ∈ visits := met.preorder.mem_of_waiting (List.mem_singleton_self home)
  have refers : photoPage.graph.RefersAt home ⟨"logo", "Logo", 0⟩ (.text "beach") :=
    ⟨by decide, _, rfl, List.mem_singleton_self _, _, rfl, .here _⟩
  have keys_eq : (walk.outcome before).2.output.components.keys = ["Page", "Photo"] := by
    cases target <;> rfl
  refine ⟨_, visits, walked, met.preorder, keys_eq, ?_, ?_⟩
  · intro typed
    obtain ⟨inst, found, sameType⟩ := typed home visited _ _ refers
    cases found
    exact absurd sameType (by decide)
  · intro fit
    obtain ⟨_, _, component, -, -, listed, -⟩ := fit home visited _ _ refers
    have member := OrderedMap.mem_keys_of_get? listed
    rw [keys_eq] at member
    exact absurd member (by decide)

end Compilation

end DesignGraph
