import DesignGraph.Proofs.Compile.Presence
import DesignGraph.Proofs.Compile.Singleton

/-!
# Classes and the instances of their types

A class is rendered from the first instance of its type that the walk meets, and every other
instance is constructed from properties of its own. Those fit the class exactly if the first
instance provides whatever the others do. The first instance of the type of a root is the root
instance, unless a root before it reaches another instance of that type.
-/

namespace DesignGraph.Compilation

open Resolution (provided)

variable {setup : Setup} {program : Program} {visits : List Instance} {components : Roster}
  {type : String} {first inst : Instance} {component : Component}

/-- An instance of a type that the roots reach. -/
def IsMet (program : Program) (type : String) (inst : Instance) : Prop :=
  program.graph.componentName inst = type ∧
    ∃ root ∈ program.rootInstances, program.graph.Reaches root inst

/-- Every instance that is met is constructed from properties that the class of its type has. -/
def ConstructionsFit (setup : Setup) (program : Program) (components : Roster) : Prop :=
  ∀ type component, components.get? type = some component → ∀ inst, IsMet program type inst →
    ∃ properties,
      Resolution.resolve setup.target setup.bindings program.graph inst = some properties ∧
        properties.keys ⊆ component.spec.properties.keys

/-- The class of a type has the properties of its spec. -/
theorem keys_classSpec (singletons : List String) (component : Component) :
    (classSpec setup singletons component).properties.keys = component.spec.properties.keys :=
  OrderedMap.keys_map _ _

namespace Walked

theorem isMet_iff (walked : Walked setup program visits components) :
    IsMet program type inst ↔ inst ∈ Roster.visitsOf program.graph type visits := by
  rw [Roster.visitsOf, List.mem_filter, walked.preorder.mem_visits_iff, beq_iff_eq, and_comm]
  rfl

theorem isMet_iff_visited (walked : Walked setup program visits components) :
    IsMet program type inst ↔ inst ∈ visits ∧ program.graph.componentName inst = type := by
  rw [walked.isMet_iff, Roster.visitsOf, List.mem_filter, beq_iff_eq]

/-- The ids on the record of a type are those of the instances that are met. -/
theorem mem_ids_iff (walked : Walked setup program visits components)
    (found : components.get? type = some component) (id : String) :
    id ∈ component.instances.items ↔ ∃ inst, IsMet program type inst ∧ inst.id = id := by
  obtain ⟨first, represents⟩ := walked.exists_represents found
  simp only [represents.ids_eq, List.mem_eraseDups, List.mem_map, walked.isMet_iff]

theorem constructionsFit_iff (walked : Walked setup program visits components) :
    ConstructionsFit setup program components ↔
      ∀ type first, visits.find? (program.graph.componentName · == type) = some first →
        ∀ inst, IsMet program type inst →
          provided setup.target program.graph inst ⊆
            provided setup.target program.graph first := by
  constructor
  · intro fit type first earliest inst met name given
    obtain ⟨component, found, represents⟩ := walked.represents_earliest earliest
    obtain ⟨properties, resolved, fits⟩ := fit type component found inst met
    rw [← Resolution.mem_keys_of_resolve represents.resolved]
    exact fits ((Resolution.mem_keys_of_resolve resolved name).mpr given)
  · intro provides type component found inst met
    obtain ⟨first, represents⟩ := walked.exists_represents found
    obtain ⟨visited, -⟩ := walked.isMet_iff_visited.mp met
    obtain ⟨properties, resolved⟩ := Option.isSome_iff_exists.mp (walked.resolves inst visited)
    refine ⟨properties, resolved, fun name given => ?_⟩
    rw [Resolution.mem_keys_of_resolve represents.resolved]
    exact provides type first represents.earliest inst met
      ((Resolution.mem_keys_of_resolve resolved name).mp given)

/-- Where every type is met in one instance, no instance provides more than the first. -/
theorem provided_subset_of_single (walked : Walked setup program visits components)
    (keyed : program.graph.IsKeyed)
    (single : ∀ entry ∈ components.entries, entry.2.instances.size = 1) (type : String)
    (first : Instance)
    (earliest : visits.find? (program.graph.componentName · == type) = some first)
    (inst : Instance) (met : IsMet program type inst) :
    provided setup.target program.graph inst ⊆ provided setup.target program.graph first := by
  obtain ⟨component, found, represents⟩ := walked.represents_earliest earliest
  have once := single _ (OrderedMap.mem_entries_of_get? found)
  obtain ⟨visited, -⟩ := walked.isMet_iff_visited.mp met
  obtain rfl := represents.eq_of_single keyed walked.preorder once visited
    ((keyed.componentName_eq inst).symm.trans met.1)
  exact List.Subset.refl _

end Walked

/-- Every construction fits the class of its type exactly if the first instance of each type
provides whatever the others do. -/
theorem constructions_fit_iff_first_provides {before after : Compiler}
    (walked : (do clear setup; walkRoots setup).Yields before () after) :
    ∃ visits, before.program.graph.Preorder before.program.rootInstances visits ∧
      (∀ type component, after.output.components.get? type = some component →
        (∀ id, id ∈ component.instances.items ↔
          ∃ inst, IsMet before.program type inst ∧ inst.id = id) ∧
        ∀ package final, (writePackage setup).Yields after package final →
          HasClass setup (singletons after.output.components) type component final ∧
            (classSpec setup (singletons after.output.components) component).properties.keys =
              component.spec.properties.keys) ∧
      (ConstructionsFit setup before.program after.output.components ↔
        ∀ type first, visits.find? (before.program.graph.componentName · == type) = some first →
          ∀ inst, IsMet before.program type inst →
            provided setup.target before.program.graph inst ⊆
              provided setup.target before.program.graph first) := by
  obtain ⟨-, visits, walked⟩ := clear_walkRoots_yields walked
  refine ⟨visits, walked.preorder, ?_, walked.constructionsFit_iff⟩
  intro type component found
  refine ⟨walked.mem_ids_iff found, fun package final written => ⟨?_, keys_classSpec _ _⟩⟩
  exact writePackage_renders walked.nodup_keys written found

theorem constructions_of_page_fit :
    let before : Compiler := { program := page, tree := {} }
    let walk : Compilation Unit := do clear unboundWeb; walkRoots unboundWeb
    ∃ after, walk.Yields before () after ∧
      ConstructionsFit unboundWeb page after.output.components := by
  intro before walk
  have walked : walk.Yields before () (walk.outcome before).2 := yields_outcome (by rfl)
  obtain ⟨visits, preorder, -, fit⟩ := constructions_fit_iff_first_provides walked
  obtain ⟨-, others, visited⟩ := clear_walkRoots_yields walked
  obtain rfl := preorder.unique visited.preorder
  have keyed : page.graph.IsKeyed := GraphDocument.isKeyed_of_ofValue pageGraph_loaded
  exact ⟨_, walked, fit.mpr (visited.provided_subset_of_single keyed (by decide))⟩

/-- An album whose cover shows a photo without a title, and whose page one with a title. -/
def albumDocument : Value := .map [
  (.text "design_system", .bool false),
  (.text "types", .map [
    (.text "Cover", .map [(.text "photo", .text "Photo")]),
    (.text "Page", .map [(.text "photo", .text "Photo")]),
    (.text "Photo", .map [(.text "title", .text "string")])]),
  (.text "instances", .map [
    (.text "cover", .map [(.text "type", .text "Cover"), (.text "values", .map [
      (.text "photo", .text "plain")])]),
    (.text "page", .map [(.text "type", .text "Page"), (.text "values", .map [
      (.text "photo", .text "beach")])]),
    (.text "plain", .map [(.text "type", .text "Photo")]),
    (.text "beach", .map [(.text "type", .text "Photo"), (.text "values", .map [
      (.text "title", .text "The beach")])])]),
  (.text "roots", .map [(.text "Cover", .text "cover"), (.text "Page", .text "page")])]

def albumGraph : Graph where
  types := ⟨[
    ("Cover", ⟨"Cover", [⟨"photo", "Photo", 0⟩]⟩), ("Page", ⟨"Page", [⟨"photo", "Photo", 0⟩]⟩),
    ("Photo", ⟨"Photo", [⟨"title", "string", 0⟩]⟩)]⟩
  instances := ⟨[
    ("cover", ⟨"cover", "Cover", ⟨[("photo", .text "plain")]⟩⟩),
    ("page", ⟨"page", "Page", ⟨[("photo", .text "beach")]⟩⟩),
    ("plain", ⟨"plain", "Photo", ⟨[]⟩⟩),
    ("beach", ⟨"beach", "Photo", ⟨[("title", .text "The beach")]⟩⟩)]⟩

def album : Program where
  projectName := "Site"
  projectRoot := ⟨"/", ["site"]⟩
  graph := albumGraph
  roots := ⟨[("Cover", "cover"), ("Page", "page")]⟩

/-- The second photo is constructed with a title, which the class of the first one does not
have. -/
theorem title_of_beach_does_not_fit :
    GraphDocument.ofValue albumDocument = .ok ⟨album.graph, album.roots⟩ ∧
      album.checkRoots = .ok album ∧
      ∀ target, let setup : Setup := { unboundWeb with target := target }
        let before : Compiler := { program := album, tree := {} }
        let walk : Compilation Unit := do clear setup; walkRoots setup
        ∃ after, walk.Yields before () after ∧
          ¬ ConstructionsFit setup album after.output.components := by
  refine ⟨by with_unfolding_all rfl, rfl, ?_⟩
  intro target setup before walk
  have walked : walk.Yields before () (walk.outcome before).2 :=
    yields_outcome (by cases target <;> rfl)
  refine ⟨_, walked, fun fit => ?_⟩
  let page : Instance := ⟨"page", "Page", ⟨[("photo", .text "beach")]⟩⟩
  let beach : Instance := ⟨"beach", "Photo", ⟨[("title", .text "The beach")]⟩⟩
  have met : IsMet album "Photo" beach := by
    refine ⟨rfl, page, ?_, .single (List.mem_singleton.mpr rfl)⟩
    exact List.mem_cons_of_mem _ (List.mem_singleton.mpr rfl)
  have found : (walk.outcome before).2.output.components.get? "Photo" =
      some ⟨⟨"Photo", ⟨[]⟩, false⟩, ⟨["plain", "beach"]⟩, none⟩ := by cases target <;> rfl
  obtain ⟨properties, resolved, fits⟩ := fit "Photo" _ found beach met
  have given : "title" ∈ provided setup.target album.graph beach := by cases target <;> decide
  simpa [OrderedMap.keys] using fits ((Resolution.mem_keys_of_resolve resolved "title").mpr given)

section root

variable {earlier later : List (String × String)} {name id : String}

theorem rootInstances_of_listed
    (listed : program.roots.entries = earlier ++ (name, id) :: later)
    (found : program.graph.instances.get? id = some inst) :
    program.rootInstances =
      (earlier.filterMap fun (_, id) => program.graph.instances.get? id) ++
        inst :: (later.filterMap fun (_, id) => program.graph.instances.get? id) := by
  simp [Program.rootInstances, listed, found]

/-- The type of a root is public, and an instance of it is met. -/
theorem Walked.represents_root (walked : Walked setup program visits components)
    (keyed : program.graph.IsKeyed) (accepted : program.checkRoots = .ok program)
    (root : (name, id) ∈ program.roots.entries) :
    ∃ first component, visits.find? (·.type == name) = some first ∧
      components.get? name = some component ∧ component.spec.isPublic = true ∧
      Represents setup program visits name first component := by
  obtain ⟨inst, found, type_eq⟩ := Program.root_of_checkRoots accepted root
  have waiting : inst ∈ program.rootInstances := List.mem_filterMap.mpr ⟨(name, id), root, found⟩
  obtain ⟨first, earliest⟩ : ∃ first, visits.find? (·.type == name) = some first := by
    rw [← Option.isSome_iff_exists, List.find?_isSome]
    exact ⟨inst, walked.preorder.mem_of_waiting waiting, by simpa using type_eq⟩
  obtain ⟨component, onRecord, represents⟩ := walked.represents_earliest
    (by simpa only [keyed.componentName_eq] using earliest)
  refine ⟨first, component, earliest, onRecord, ?_, represents⟩
  have isRoot : name ∈ program.roots.keys := List.mem_map_of_mem root
  rw [represents.isPublic_eq, keyed.map_componentName, Program.map_type_rootInstances accepted]
  simpa using isRoot

/-- The class of a root has the properties of the first instance of its type: those of the root
instance, unless a root listed before it reaches another instance of the type. -/
theorem class_of_root_is_first {before after : Compiler} {data : Value} {document : GraphDocument}
    (loaded : GraphDocument.ofValue data = .ok document)
    (sameGraph : before.program.graph = document.graph)
    (accepted : before.program.checkRoots = .ok before.program)
    (walked : (do clear setup; walkRoots setup).Yields before () after)
    (listed : before.program.roots.entries = earlier ++ (name, id) :: later) :
    ∃ inst visits first component, before.program.graph.instances.get? id = some inst ∧
      before.program.graph.Preorder before.program.rootInstances visits ∧
      visits.find? (·.type == name) = some first ∧
      after.output.components.get? name = some component ∧ component.spec.isPublic = true ∧
      Resolution.resolve setup.target setup.bindings before.program.graph first =
        some component.spec.properties ∧
      ((∀ entry ∈ earlier, ∀ root, before.program.graph.instances.get? entry.2 = some root →
          ∀ other, before.program.graph.Reaches root other → other.type = name → other = inst) →
        first = inst) ∧
      ∀ package final, (writePackage setup).Yields after package final →
        ∃ text, classText setup (classSpec setup (singletons after.output.components) component)
            true = .ok text ∧
          .rendered name (classSuffix setup.target) text ∈ final.output.sources.items := by
  obtain ⟨-, visits, walked⟩ := clear_walkRoots_yields walked
  have keyed : before.program.graph.IsKeyed := by
    rw [sameGraph]
    exact GraphDocument.isKeyed_of_ofValue loaded
  have root : (name, id) ∈ before.program.roots.entries := by simp [listed]
  obtain ⟨inst, found, type_eq⟩ := Program.root_of_checkRoots accepted root
  obtain ⟨first, component, earliest, onRecord, isPublic, represents⟩ :=
    walked.represents_root keyed accepted root
  refine ⟨inst, visits, first, component, found, walked.preorder, earliest, onRecord, isPublic,
    represents.resolved, ?_, ?_⟩
  · intro alone
    have preorder := walked.preorder
    rw [rootInstances_of_listed listed found] at preorder
    have atRoot : visits.find? (·.type == name) = some inst := by
      refine preorder.find?_eq_waiting (by simpa using type_eq) ?_
      intro start member other reached sameType
      obtain ⟨entry, isEarlier, leads⟩ := List.mem_filterMap.mp member
      exact alone entry isEarlier start leads other reached (by simpa using sameType)
    exact Option.some.inj (earliest.symm.trans atRoot)
  · intro package final written
    obtain ⟨text, rendered, source⟩ := writePackage_renders walked.nodup_keys written onRecord
    rw [isPublic, Bool.true_or] at rendered
    rw [represents.name_eq] at source
    exact ⟨text, rendered, source⟩

end root

theorem class_of_page_is_home :
    let before : Compiler := { program := page, tree := {} }
    let walk : Compilation Unit := do clear unboundWeb; walkRoots unboundWeb
    let home : Instance := ⟨"home", "Page", ⟨[("title", .text "Home"), ("logo", .text "mark")]⟩⟩
    page.graph.instances.get? "home" = some home ∧
      ∃ after component, walk.Yields before () after ∧
        after.output.components.get? "Page" = some component ∧ component.spec.isPublic = true ∧
        Resolution.resolve .web ∅ page.graph home = some component.spec.properties := by
  intro before walk home
  have walked : walk.Yields before () (walk.outcome before).2 := yields_outcome (by rfl)
  have listed : page.roots.entries = [] ++ ("Page", "home") :: [] := rfl
  obtain ⟨inst, visits, first, component, found, -, -, onRecord, isPublic, resolved, alone, -⟩ :=
    class_of_root_is_first pageGraph_loaded rfl rfl walked listed
  obtain rfl : home = inst := Option.some.inj found
  obtain rfl := alone (by simp)
  exact ⟨rfl, _, component, walked, onRecord, isPublic, resolved⟩

/-- A page with a logo, and a logo of the whole brand, both of them roots. -/
def brandDocument : Value := .map [
  (.text "design_system", .bool false),
  (.text "types", .map [
    (.text "Page", .map [(.text "logo", .text "Logo")]),
    (.text "Logo", .map [(.text "label", .text "string")])]),
  (.text "instances", .map [
    (.text "home", .map [(.text "type", .text "Page"), (.text "values", .map [
      (.text "logo", .text "mark")])]),
    (.text "mark", .map [(.text "type", .text "Logo"), (.text "values", .map [
      (.text "label", .text "A mark")])]),
    (.text "brand", .map [(.text "type", .text "Logo"), (.text "values", .map [
      (.text "label", .text "The brand")])])]),
  (.text "roots", .map [(.text "Page", .text "home"), (.text "Logo", .text "brand")])]

def brandGraph : Graph where
  types := ⟨[
    ("Page", ⟨"Page", [⟨"logo", "Logo", 0⟩]⟩), ("Logo", ⟨"Logo", [⟨"label", "string", 0⟩]⟩)]⟩
  instances := ⟨[
    ("home", ⟨"home", "Page", ⟨[("logo", .text "mark")]⟩⟩),
    ("mark", ⟨"mark", "Logo", ⟨[("label", .text "A mark")]⟩⟩),
    ("brand", ⟨"brand", "Logo", ⟨[("label", .text "The brand")]⟩⟩)]⟩

def brandPages : Program where
  projectName := "Site"
  projectRoot := ⟨"/", ["site"]⟩
  graph := brandGraph
  roots := ⟨[("Page", "home"), ("Logo", "brand")]⟩

/-- The page is listed before the brand, so its mark gives the class of logos its label. -/
theorem class_of_logo_is_not_brand :
    GraphDocument.ofValue brandDocument = .ok ⟨brandPages.graph, brandPages.roots⟩ ∧
      brandPages.checkRoots = .ok brandPages ∧ ("Logo", "brand") ∈ brandPages.roots.entries ∧
      ∀ target, let setup : Setup := { unboundWeb with target := target }
        let before : Compiler := { program := brandPages, tree := {} }
        let walk : Compilation Unit := do clear setup; walkRoots setup
        ∃ after component brand, walk.Yields before () after ∧
          after.output.components.get? "Logo" = some component ∧
          brandPages.graph.instances.get? "brand" = some brand ∧
          Resolution.resolve setup.target setup.bindings brandPages.graph brand ≠
            some component.spec.properties := by
  refine ⟨by with_unfolding_all rfl, rfl, by decide, ?_⟩
  intro target setup before walk
  have walked : walk.Yields before () (walk.outcome before).2 :=
    yields_outcome (by cases target <;> rfl)
  let brand : Instance := ⟨"brand", "Logo", ⟨[("label", .text "The brand")]⟩⟩
  let label (type text : String) : OrderedMap String Property :=
    ⟨[("label", ⟨type, "\"" ++ text ++ "\"", false⟩)]⟩
  let type := Primitive.string.targetType target
  have visit : (Compilation.walk setup 1 [] false brand none).Yields before
      ⟨"Logo", label type "The brand", false⟩ _ := yields_outcome (by cases target <;> rfl)
  have resolved := (walk_yields visit).2.2
  refine ⟨_, ⟨⟨"Logo", label type "A mark", true⟩, ⟨["mark", "brand"]⟩, none⟩, brand, walked,
    by cases target <;> rfl, rfl, ?_⟩
  change Resolution.resolve _ _ before.program.graph brand ≠ _
  rw [resolved]
  cases target <;> decide

end DesignGraph.Compilation
