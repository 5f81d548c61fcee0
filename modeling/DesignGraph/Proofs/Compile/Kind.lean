import DesignGraph.Proofs.Compile.Class
import DesignGraph.Proofs.Literal
import DesignGraph.Proofs.Style.Promotion

/-!
# What the passes after the walk act on

The rewriting of singletons and the promotion of style tokens look at the target type of a property
alone. It tells a property that holds an instance from others as long as no component type is named
like the target type of a primitive or of a collection. The exact conditions are below.
-/

namespace DesignGraph

namespace Graph

/-- A property that holds an instance itself. -/
def HoldsInstance (graph : Graph) (declaration : Declaration) : Prop :=
  declaration.depth = 0 ∧ graph.isComponent declaration.type = true

/-- A property that holds a primitive value itself. -/
def HoldsPrimitive (graph : Graph) (declaration : Declaration) : Prop :=
  declaration.depth = 0 ∧ graph.isComponent declaration.type = false

end Graph

namespace Resolution

variable {target : Target} {bindings : OrderedMap String Binding} {graph : Graph}
  {declaration : Declaration}

/-- Only a property that holds an instance has an expression that ends as a construction. -/
theorem not_endsConstruction_of_resolveValue {depth : Nat} {value : Value} {property : Property}
    (other : ¬ (depth = 0 ∧ graph.isComponent declaration.type = true))
    (resolved : resolveValue target bindings graph declaration depth value =
      some (some property)) : ¬ EndsConstruction property.initializer := by
  cases depth with
  | zero =>
    have primitive : graph.isComponent declaration.type = false := by simpa using other
    rw [resolveValue_primitive primitive, Option.some.injEq] at resolved
    cases given : target.primitive declaration.type value with
    | error warning => simp [given, Except.toOption] at resolved
    | ok found =>
      obtain rfl : found = property := by simpa [given, Except.toOption] using resolved
      exact Target.not_endsConstruction_primitive given
  | succ depth =>
    cases value with
    | list items =>
      obtain ⟨elements, -, collected⟩ := resolveValue_list_eq_some_iff.mp resolved
      exact Target.not_endsConstruction_collect collected.symm
    | _ => simp [resolveValue_not_list] at resolved

/-- The target type of a collection is no scalar. -/
theorem not_scalar_of_collection {depth : Nat} {targetType : String}
    (given : targetType? target graph declaration (depth + 1) = some targetType) :
    targetType ∉ Style.scalarTypes := by
  obtain ⟨element, _, rfl⟩ := Option.map_eq_some_iff.mp given
  have last : (target.collectionType element).toList.getLast? = some ']' := by
    cases target with
    | web => exact getLast?_append element (s := "[]") (by decide)
    | ios => exact getLast?_append ("[" ++ element) (s := "]") (by decide)
  have scalars : ∀ scalar ∈ Style.scalarTypes, scalar.toList.getLast? ≠ some ']' := by decide
  exact fun scalar => scalars _ scalar last

end Resolution

namespace Compilation

variable {setup : Setup} {program : Program} {visits : List Instance} {components : Roster}
  {type name : String} {component : Component} {declaration : Declaration} {property : Property}

/-- A declaration gives a property to the first instance of a type, and so to the class. -/
def Gives (setup : Setup) (program : Program) (visits : List Instance) (type : String)
    (declaration : Declaration) (property : Property) : Prop :=
  ∃ first properties,
    visits.find? (program.graph.componentName · == type) = some first ∧
    Resolution.resolve setup.target setup.bindings program.graph first = some properties ∧
    properties.get? declaration.name = some property ∧
    ∃ declared, program.graph.types.get? first.type = some declared ∧
      declaration ∈ declared.properties ∧
      ∃ value, first.values.get? declaration.name = some value ∧
        Resolution.resolveValue setup.target setup.bindings program.graph declaration
          declaration.depth value = some (some property)

/-- A type without a binding of which one instance is met. -/
def IsMetOnce (setup : Setup) (program : Program) (type : String) : Prop :=
  setup.bindings.get? type = none ∧
    ∃ inst, IsMet program type inst ∧ ∀ other, IsMet program type other → other = inst

/-- The components of a package: every one is settled. -/
def settledAll (setup : Setup) (components : Roster) : Roster :=
  components.map (settled setup (singletons components))

/-- Only the initializers of properties that hold an instance are replaced. -/
def RewritesByKind (setup : Setup) (program : Program) (visits : List Instance)
    (components : Roster) : Prop :=
  ∀ type declaration property, Gives setup program visits type declaration property →
    ∀ component rewritten, components.get? type = some component →
      component.spec.properties.get? declaration.name = some rewritten →
        rewritten.initializer ≠ property.initializer → program.graph.HoldsInstance declaration

/-- Only properties that hold a primitive value are promoted. -/
def PromotesByKind (setup : Setup) (program : Program) (visits : List Instance)
    (components : Roster) : Prop :=
  ∀ promoted ∈ Style.promotedProperties Style.scalarTypes components, ∀ declaration property,
    declaration.name = promoted.name →
      Gives setup program visits promoted.type declaration property →
        program.graph.HoldsPrimitive declaration

/-- No type that is met once is named like the target type of a property of a class that holds a
primitive value or a collection. -/
def SingletonsApart (setup : Setup) (program : Program) (visits : List Instance) : Prop :=
  ∀ type declaration property, Gives setup program visits type declaration property →
    ¬ program.graph.HoldsInstance declaration →
      ∀ targetType ∈ Resolution.targetType? setup.target program.graph declaration
        declaration.depth, ¬ IsMetOnce setup program targetType

/-- No property of a class without a binding holds an instance of a type that is named like a
scalar. -/
def ScalarsApart (setup : Setup) (program : Program) (visits : List Instance) : Prop :=
  ∀ type declaration property, Gives setup program visits type declaration property →
    setup.bindings.get? type = none → program.graph.HoldsInstance declaration →
      declaration.type ∉ Style.scalarTypes

theorem Gives.targetType (gives : Gives setup program visits type declaration property) :
    Resolution.targetType? setup.target program.graph declaration declaration.depth =
      some property.type := by
  obtain ⟨_, _, -, -, -, _, -, -, _, -, resolved⟩ := gives
  exact Resolution.targetType?_of_resolveValue resolved

theorem Gives.initializer_ne (gives : Gives setup program visits type declaration property)
    (other : ¬ program.graph.HoldsInstance declaration) (replacement : String) :
    setup.target.bareConstruction replacement ≠ property.initializer := by
  obtain ⟨_, _, -, -, -, _, -, -, _, -, resolved⟩ := gives
  intro same
  apply Resolution.not_endsConstruction_of_resolveValue other resolved
  rw [← same]
  exact Target.endsConstruction_bareConstruction _ _

/-- A property as the class of a package shows it. -/
def settledProperty (setup : Setup) (singletons : List String) (property : Property) : Property :=
  if singletons.contains property.type then
    { property with initializer := setup.target.bareConstruction property.type }
  else property

theorem type_settledProperty (singletons : List String) (property : Property) :
    (settledProperty setup singletons property).type = property.type := by
  unfold settledProperty
  split_ifs
  · rfl
  · rfl

theorem get?_settled (singletons : List String) (component : Component) (name : String) :
    (settled setup singletons component).spec.properties.get? name =
      (component.spec.properties.get? name).map (settledProperty setup singletons) :=
  OrderedMap.get?_map _ _ _

namespace Walked

theorem exists_gives (walked : Walked setup program visits components)
    (found : components.get? type = some component)
    (given : component.spec.properties.get? name = some property) :
    ∃ declaration, declaration.name = name ∧
      Gives setup program visits type declaration property := by
  obtain ⟨first, represents⟩ := walked.exists_represents found
  obtain ⟨declared, ofType, declaration, member, rfl, value, held, resolved⟩ :=
    Resolution.exists_declaration_of_resolve represents.resolved given
  exact ⟨declaration, rfl, first, _, represents.earliest, represents.resolved, given, declared,
    ofType, member, value, held, resolved⟩

theorem settled_of_gives (walked : Walked setup program visits components)
    (gives : Gives setup program visits type declaration property) :
    ∃ component, (settledAll setup components).get? type = some component ∧
      component.binding = setup.bindings.get? type ∧
      component.spec.properties.get? declaration.name =
        some (settledProperty setup (singletons components) property) := by
  obtain ⟨first, properties, earliest, resolved, given, -⟩ := gives
  obtain ⟨component, found, represents⟩ := walked.represents_earliest earliest
  obtain rfl : properties = component.spec.properties :=
    Option.some.inj (resolved.symm.trans represents.resolved)
  refine ⟨settled setup (singletons components) component, ?_, represents.binding_eq, ?_⟩
  · rw [settledAll, OrderedMap.get?_map, found, Option.map_some]
  · rw [get?_settled, given, Option.map_some]

theorem nodup_keys_settledAll (walked : Walked setup program visits components) :
    (settledAll setup components).keys.Nodup := by
  rw [settledAll, OrderedMap.keys_map]
  exact walked.nodup_keys

theorem nodup_keys_properties (walked : Walked setup program visits components)
    (found : (settledAll setup components).get? type = some component) :
    component.spec.properties.keys.Nodup := by
  rw [settledAll, OrderedMap.get?_map, Option.map_eq_some_iff] at found
  obtain ⟨original, listed, rfl⟩ := found
  obtain ⟨first, represents⟩ := walked.exists_represents listed
  have keys_eq : (settled setup (singletons components) original).spec.properties.keys =
      original.spec.properties.keys := keys_classSpec _ _
  rw [keys_eq, Resolution.keys_of_resolve represents.resolved]
  exact OrderedSet.nodup_eraseDups _

/-- The singletons are the types that are met once. -/
theorem mem_singletons_iff (walked : Walked setup program visits components)
    (keyed : program.graph.IsKeyed) :
    type ∈ singletons components ↔ IsMetOnce setup program type := by
  constructor
  · intro member
    obtain ⟨component, found, once, unbound⟩ := mem_singletons walked.nodup_keys member
    obtain ⟨first, represents⟩ := walked.exists_represents found
    refine ⟨represents.binding_eq.symm.trans unbound, first, ?_, ?_⟩
    · exact walked.isMet_iff_visited.mpr ⟨represents.visited, represents.componentName_eq⟩
    · intro other met
      obtain ⟨visited, -⟩ := walked.isMet_iff_visited.mp met
      exact represents.eq_of_single keyed walked.preorder once visited
        ((keyed.componentName_eq other).symm.trans met.1)
  · rintro ⟨unbound, inst, met, only⟩
    obtain ⟨visited, -⟩ := walked.isMet_iff_visited.mp met
    obtain ⟨component, found⟩ := walked.exists_get?_of_visited visited
    rw [met.1] at found
    obtain ⟨first, represents⟩ := walked.exists_represents found
    have ids : component.instances.items = [inst.id] := by
      refine OrderedSet.eq_singleton_of_nodup represents.nodup_ids fun id => ?_
      rw [walked.mem_ids_iff found]
      constructor
      · rintro ⟨other, otherMet, rfl⟩
        rw [only other otherMet]
      · rintro rfl
        exact ⟨inst, met, rfl⟩
    have single : component.isSingleton = true := by
      simp [Component.isSingleton, OrderedSet.size, ids, represents.binding_eq, unbound]
    exact List.mem_map.mpr ⟨(type, component),
      List.mem_filter.mpr ⟨OrderedMap.mem_entries_of_get? found, single⟩, rfl⟩

theorem rewritesByKind_iff (walked : Walked setup program visits components)
    (keyed : program.graph.IsKeyed) :
    RewritesByKind setup program visits (settledAll setup components) ↔
      SingletonsApart setup program visits := by
  constructor
  · intro byKind type declaration property gives other targetType given once
    obtain ⟨component, found, -, shown⟩ := walked.settled_of_gives gives
    obtain rfl : property.type = targetType := Option.some.inj (gives.targetType.symm.trans given)
    have member := (walked.mem_singletons_iff keyed).mpr once
    have replaced : (settledProperty setup (singletons components) property).initializer =
        setup.target.bareConstruction property.type := by
      rw [settledProperty, if_pos (by simpa using member)]
    have changed := gives.initializer_ne other property.type
    rw [← replaced] at changed
    exact other (byKind type declaration property gives component _ found shown changed)
  · intro apart type declaration property gives component rewritten found shown changed
    by_contra other
    obtain ⟨_, listed, -, given⟩ := walked.settled_of_gives gives
    cases listed.symm.trans found
    cases given.symm.trans shown
    unfold settledProperty at changed
    split_ifs at changed with member
    · exact apart type declaration property gives other _ gives.targetType
        ((walked.mem_singletons_iff keyed).mp (by simpa using member))
    · exact changed rfl

/-- It suffices that no component type at all is named like such a target type. -/
theorem singletonsApart_of_namesApart (walked : Walked setup program visits components)
    (keyed : program.graph.IsKeyed) (apart : program.graph.NamesApart setup.target) :
    SingletonsApart setup program visits := by
  intro type declaration property gives other targetType given once
  obtain ⟨-, inst, met, -⟩ := once
  have isComponent : program.graph.isComponent targetType = true := by
    obtain ⟨visited, name_eq⟩ := walked.isMet_iff_visited.mp met
    obtain ⟨component, found⟩ := walked.exists_get?_of_visited visited
    rw [name_eq] at found
    obtain ⟨first, represents⟩ := walked.exists_represents found
    exact represents.isComponent keyed
  obtain ⟨_, _, -, -, -, declared, found, ofType, -⟩ := gives
  have unknown := apart _ (OrderedMap.mem_entries_of_get? found) declaration ofType other
    targetType given
  exact absurd (isComponent.symm.trans unknown) (by decide)

theorem promotesByKind_iff (walked : Walked setup program visits components) :
    PromotesByKind setup program visits (settledAll setup components) ↔
      ScalarsApart setup program visits := by
  constructor
  · intro byKind type declaration property gives unbound holds scalar
    obtain ⟨component, found, binding_eq, shown⟩ := walked.settled_of_gives gives
    have type_eq : property.type = declaration.type := by
      have targetType := gives.targetType
      rw [holds.1, Resolution.targetType?, if_pos holds.2] at targetType
      exact (Option.some.inj targetType).symm
    have promoted : ⟨type, declaration.name, settledProperty setup (singletons components) property⟩
        ∈ Style.promotedProperties Style.scalarTypes (settledAll setup components) := by
      refine Style.mem_promotedProperties.mpr ⟨component, OrderedMap.mem_entries_of_get? found,
        binding_eq.trans unbound, OrderedMap.mem_entries_of_get? shown, ?_⟩
      rw [type_settledProperty, type_eq]
      exact scalar
    have primitive := byKind _ promoted declaration property rfl gives
    exact absurd (holds.2.symm.trans primitive.2) (by decide)
  · intro apart promoted member declaration property name_eq gives
    obtain ⟨component, listed, unbound, given, scalar⟩ := Style.mem_promotedProperties.mp member
    obtain ⟨_, found, binding_eq, shown⟩ := walked.settled_of_gives gives
    cases (OrderedMap.get?_of_mem_entries walked.nodup_keys_settledAll listed).symm.trans found
    have shown_as := OrderedMap.get?_of_mem_entries (walked.nodup_keys_properties found) given
    rw [← name_eq, shown, Option.some.injEq] at shown_as
    rw [← shown_as, type_settledProperty] at scalar
    have targetType := gives.targetType
    cases depth_eq : declaration.depth with
    | zero =>
      cases isComponent : program.graph.isComponent declaration.type with
      | false => exact ⟨depth_eq, isComponent⟩
      | true =>
        rw [depth_eq, Resolution.targetType?, if_pos isComponent, Option.some.injEq] at targetType
        rw [← targetType] at scalar
        exact absurd scalar (apart promoted.type declaration property gives
          (binding_eq.symm.trans unbound) ⟨depth_eq, isComponent⟩)
    | succ depth =>
      rw [depth_eq] at targetType
      exact absurd scalar (Resolution.not_scalar_of_collection targetType)

end Walked

/-- What a package leaves of the components, and of the style variables for the web. -/
theorem writePackage_settles {before after : Compiler} {package : Package}
    (distinct : before.output.components.keys.Nodup)
    (written : (writePackage setup).Yields before package after) :
    after.output.components = settledAll setup before.output.components ∧
      (setup.target = .web → after.output.styles.styleVariables =
        (Style.promotedProperties Style.scalarTypes after.output.components).foldl
          Style.Promoted.set before.output.styles.styleVariables) := by
  obtain ⟨parts, -, output_eq⟩ := writePackage_output distinct written
  have components_eq : after.output.components = settledAll setup before.output.components := by
    rw [output_eq, Output.components_styled, components_assembled]
    rfl
  refine ⟨components_eq, fun web => ?_⟩
  have styles_eq : (assembled setup before.program.hot parts before.output).styles =
      before.output.styles := by
    unfold assembled
    cases before.program.hot <;> rfl
  rw [output_eq, web, Output.styled, Style.tokens]
  dsimp only
  rw [Style.styleVariables_promote, styles_eq, components_assembled]

/-- The two passes act by the kind of a property exactly if no type of a component gets in the way
by its name: for the rewriting none that is met once, and for the promotion none that an unbound
component holds. -/
theorem passes_act_by_kind_iff_names_apart {before after : Compiler} {data : Value}
    {document : GraphDocument} (loaded : GraphDocument.ofValue data = .ok document)
    (sameGraph : before.program.graph = document.graph)
    (walked : (do clear setup; walkRoots setup).Yields before () after) :
    ∃ visits, before.program.graph.Preorder before.program.rootInstances visits ∧
      (∀ type component name property, after.output.components.get? type = some component →
        component.spec.properties.get? name = some property →
          ∃ declaration, declaration.name = name ∧
            Gives setup before.program visits type declaration property) ∧
      (∀ package final, (writePackage setup).Yields after package final →
        final.output.components = settledAll setup after.output.components ∧
        (setup.target = .web → final.output.styles.styleVariables =
          (Style.promotedProperties Style.scalarTypes final.output.components).foldl
            Style.Promoted.set after.output.styles.styleVariables)) ∧
      (RewritesByKind setup before.program visits (settledAll setup after.output.components) ↔
        SingletonsApart setup before.program visits) ∧
      (PromotesByKind setup before.program visits (settledAll setup after.output.components) ↔
        ScalarsApart setup before.program visits) := by
  obtain ⟨-, visits, walked⟩ := clear_walkRoots_yields walked
  have keyed : before.program.graph.IsKeyed := by
    rw [sameGraph]
    exact GraphDocument.isKeyed_of_ofValue loaded
  refine ⟨visits, walked.preorder, fun _ _ _ _ found given => walked.exists_gives found given, ?_,
    walked.rewritesByKind_iff keyed, walked.promotesByKind_iff⟩
  exact fun package final written => writePackage_settles walked.nodup_keys written

/-- A page with a size, and a mark of a type that is named like the sizes of a web package. -/
def scaleDocument : Value := .map [
  (.text "design_system", .bool false),
  (.text "types", .map [
    (.text "Page", .map [(.text "size", .text "float"), (.text "mark", .text "number")]),
    (.text "number", .map [])]),
  (.text "instances", .map [
    (.text "home", .map [(.text "type", .text "Page"), (.text "values", .map [
      (.text "size", .int 3), (.text "mark", .text "dot")])]),
    (.text "dot", .map [(.text "type", .text "number")])]),
  (.text "roots", .map [(.text "Page", .text "home")])]

def scaleGraph : Graph where
  types := ⟨[
    ("Page", ⟨"Page", [⟨"size", "float", 0⟩, ⟨"mark", "number", 0⟩]⟩), ("number", ⟨"number", []⟩)]⟩
  instances := ⟨[
    ("home", ⟨"home", "Page", ⟨[("size", .int 3), ("mark", .text "dot")]⟩⟩),
    ("dot", ⟨"dot", "number", ⟨[]⟩⟩)]⟩

def scale : Program where
  projectName := "Site"
  projectRoot := ⟨"/", ["site"]⟩
  graph := scaleGraph
  roots := ⟨[("Page", "home")]⟩

/-- The size is replaced by the construction of a mark, and the mark becomes a style variable. -/
theorem passes_mistake_size_and_mark :
    GraphDocument.ofValue scaleDocument = .ok ⟨scale.graph, scale.roots⟩ ∧
      scale.checkRoots = .ok scale ∧
      let before : Compiler := { program := scale, tree := {} }
      let walk : Compilation Unit := do clear unboundWeb; walkRoots unboundWeb
      ∃ after visits, walk.Yields before () after ∧
        scale.graph.Preorder scale.rootInstances visits ∧
        ¬ RewritesByKind unboundWeb scale visits (settledAll unboundWeb after.output.components) ∧
        ¬ PromotesByKind unboundWeb scale visits (settledAll unboundWeb after.output.components) := by
  refine ⟨by with_unfolding_all rfl, rfl, ?_⟩
  intro before walk
  have walked : walk.Yields before () (walk.outcome before).2 := yields_outcome (by rfl)
  let home : Instance := ⟨"home", "Page", ⟨[("size", .int 3), ("mark", .text "dot")]⟩⟩
  let dot : Instance := ⟨"dot", "number", ⟨[]⟩⟩
  have below : scale.graph.Preorder [dot] [dot] := .single .nil
  have preorder : scale.graph.Preorder [home] [home, dot] := .single below
  let size : Property := ⟨"number", "3", false⟩
  let mark : Property := ⟨"number", "new number(\x7b\x7d)", true⟩
  have resolved : Resolution.resolve .web ∅ scale.graph home =
      some ⟨[("size", size), ("mark", mark)]⟩ := by rfl
  have gives_size : Gives unboundWeb scale [home, dot] "Page" ⟨"size", "float", 0⟩ size :=
    ⟨home, _, by rfl, resolved, by rfl, _, by rfl, by simp, _, by rfl, by rfl⟩
  have gives_mark : Gives unboundWeb scale [home, dot] "Page" ⟨"mark", "number", 0⟩ mark :=
    ⟨home, _, by rfl, resolved, by rfl, _, by rfl, by simp, _, by rfl, by rfl⟩
  obtain ⟨-, visits, met⟩ := clear_walkRoots_yields walked
  obtain rfl := met.preorder.unique preorder
  refine ⟨_, _, walked, preorder, ?_, ?_⟩
  · intro byKind
    let replaced : Property := ⟨"number", "new number()", false⟩
    let replacedMark : Property := ⟨"number", "new number()", true⟩
    let shown : Component :=
      ⟨⟨"Page", ⟨[("size", replaced), ("mark", replacedMark)]⟩, true⟩, ⟨["home"]⟩, none⟩
    have holds := byKind "Page" _ size gives_size shown replaced (by rfl) (by rfl) (by decide)
    exact absurd holds.2 (by decide)
  · intro byKind
    have apart := met.promotesByKind_iff.mp byKind
    exact apart "Page" _ mark gives_mark rfl ⟨rfl, by decide⟩ (by decide)

/-- No type of the page is named like a target type. -/
theorem passes_over_page_act_by_kind :
    let before : Compiler := { program := page, tree := {} }
    let walk : Compilation Unit := do clear unboundWeb; walkRoots unboundWeb
    ∃ after visits, walk.Yields before () after ∧
      RewritesByKind unboundWeb page visits (settledAll unboundWeb after.output.components) ∧
      PromotesByKind unboundWeb page visits (settledAll unboundWeb after.output.components) := by
  intro before walk
  have walked : walk.Yields before () (walk.outcome before).2 := yields_outcome (by rfl)
  obtain ⟨visits, preorder, -, -, rewrites, promotes⟩ :=
    passes_act_by_kind_iff_names_apart pageGraph_loaded rfl walked
  obtain ⟨-, others, met⟩ := clear_walkRoots_yields walked
  obtain rfl := preorder.unique met.preorder
  have keyed : page.graph.IsKeyed := GraphDocument.isKeyed_of_ofValue pageGraph_loaded
  have singletonsApart : SingletonsApart unboundWeb page visits :=
    met.singletonsApart_of_namesApart keyed (by decide)
  have unknown : ∀ scalar ∈ Style.scalarTypes, page.graph.isComponent scalar = false := by decide
  have scalarsApart : ScalarsApart unboundWeb page visits := by
    intro type declaration property gives unbound holds scalar
    exact absurd (holds.2.symm.trans (unknown _ scalar)) (by decide)
  exact ⟨_, _, walked, rewrites.mpr singletonsApart, promotes.mpr scalarsApart⟩

end Compilation
end DesignGraph
