import DesignGraph.Proofs.Compile.Singleton

/-!
# Constructors that default to constructions

The class of a public component and of a singleton fills in each property that is missing from a
construction with the value that the first instance of its type has. That value may construct
further instances, whose missing properties are filled in in turn, so what a construction evaluates
is no longer the instance graph alone. `Evaluates` is the relation between instances, without
bindings, and `Defers` the one between the defaults themselves: either is free of cycles exactly if
the other is. Neither always is, since an instance that leaves out a property may be constructed in
the very default of that property.
-/

namespace DesignGraph.Defaults

variable (setup : Setup) (graph : Graph) (components : Roster)

/-- Whether the class of a type has a default for every property. -/
def isDefaulted (type : String) : Bool :=
  match components.get? type with
  | none => false
  | some component => component.spec.isPublic || (singletons components).contains type

/-- The first instance of a type, whose properties are the defaults of its class. -/
def IsFirst (type : String) (first : Instance) : Prop :=
  ∃ component, components.get? type = some component ∧
    ∃ id, component.instances.items.head? = some id ∧ graph.instances.get? id = some first

/-- An instance resolves a property. -/
def Resolves (inst : Instance) (name : String) : Prop :=
  ∃ properties, Resolution.resolve setup.target setup.bindings graph inst = some properties ∧
    name ∈ properties.keys

/-- An instance is constructed inside a resolved property of another one. -/
def Builds (outer : Instance) (name : String) (inner : Instance) : Prop :=
  Resolves setup graph outer name ∧ ∃ type, graph.types.get? outer.type = some type ∧
    ∃ declaration ∈ type.properties, declaration.name = name ∧
      ∃ part ∈ graph.held outer declaration, graph.Reaches part inner

/-- A property of a class: the type and the name. -/
abbrev Slot := String × String

/-- The construction of an instance leaves a property to its default. -/
def Takes (inst : Instance) (slot : Slot) : Prop :=
  inst.type = slot.1 ∧ isDefaulted components slot.1 = true ∧ ¬ Resolves setup graph inst slot.2

/-- An instance is constructed inside a default. -/
def Fills (slot : Slot) (inner : Instance) : Prop :=
  ∃ first, IsFirst graph components slot.1 first ∧ Builds setup graph first slot.2 inner

/-- To construct an instance is to construct another one: inside a property of its own, or inside
the default of a property that it leaves out. -/
def Evaluates (outer inner : Instance) : Prop :=
  (∃ name, Builds setup graph outer name inner) ∨
    ∃ slot, Takes setup graph components outer slot ∧ Fills setup graph components slot inner

/-- To evaluate a default is to evaluate another one. -/
def Defers (slot next : Slot) : Prop :=
  ∃ inst, Fills setup graph components slot inst ∧ Takes setup graph components inst next

variable {setup graph components}

theorem Builds.holds {outer inner : Instance} {name : String}
    (builds : Builds setup graph outer name inner) :
    Relation.TransGen graph.Holds outer inner := by
  obtain ⟨-, type, declared, declaration, ofType, -, part, held, reached⟩ := builds
  have holds : graph.Holds outer part := by
    unfold Graph.Holds Graph.nested
    rw [declared]
    exact List.mem_flatMap.mpr ⟨declaration, ofType, held⟩
  exact Relation.TransGen.head' holds reached

/-- Whatever is constructed inside an instance is constructed inside a default if the instance
is. -/
theorem Fills.trans {slot : Slot} {outer inner : Instance} {name : String}
    (fills : Fills setup graph components slot outer)
    (builds : Builds setup graph outer name inner) :
    Fills setup graph components slot inner := by
  obtain ⟨first, isFirst, resolves, type, declared, declaration, ofType, name_eq, part, held,
    reached⟩ := fills
  exact ⟨first, isFirst, resolves, type, declared, declaration, ofType, name_eq, part, held,
    reached.trans builds.holds.to_reflTransGen⟩

/-- A path either stays inside own properties or goes through a default. -/
theorem holds_or_takes {outer inner : Instance}
    (path : Relation.TransGen (Evaluates setup graph components) outer inner) :
    Relation.TransGen graph.Holds outer inner ∨ ∃ taker slot filler,
      Relation.ReflTransGen (Evaluates setup graph components) outer taker ∧
      Takes setup graph components taker slot ∧ Fills setup graph components slot filler ∧
      Relation.ReflTransGen (Evaluates setup graph components) filler inner := by
  induction path with
  | single step =>
    rcases step with ⟨name, builds⟩ | ⟨slot, takes, fills⟩
    · exact .inl builds.holds
    · exact .inr ⟨outer, slot, _, .refl, takes, fills, .refl⟩
  | tail path step ih =>
    rcases ih with inside | ⟨taker, slot, filler, start, takes, fills, rest⟩
    · rcases step with ⟨name, builds⟩ | ⟨slot, takes, fills⟩
      · exact .inl (inside.trans builds.holds)
      · exact .inr ⟨_, slot, _, path.to_reflTransGen, takes, fills, .refl⟩
    · exact .inr ⟨taker, slot, filler, start, takes, fills, rest.tail step⟩

/-- Along a path the default that is being evaluated changes by deferring. -/
theorem Fills.follow {slot : Slot} {start target : Instance}
    (fills : Fills setup graph components slot start)
    (path : Relation.ReflTransGen (Evaluates setup graph components) start target) :
    ∃ last, Relation.ReflTransGen (Defers setup graph components) slot last ∧
      Fills setup graph components last target := by
  induction path with
  | refl => exact ⟨slot, .refl, fills⟩
  | tail _ step ih =>
    obtain ⟨last, deferred, inside⟩ := ih
    rcases step with ⟨name, builds⟩ | ⟨next, takes, filled⟩
    · exact ⟨last, deferred, inside.trans builds⟩
    · exact ⟨next, deferred.tail ⟨_, inside, takes⟩, filled⟩

/-- Where one default defers to another, whatever takes the first evaluates something that takes
the other. -/
theorem exists_takes_of_defers {slot last : Slot}
    (deferred : Relation.TransGen (Defers setup graph components) slot last) :
    ∃ taker, Takes setup graph components taker last ∧
      (∃ between, Fills setup graph components between taker) ∧
      ∀ inst, Takes setup graph components inst slot →
        Relation.TransGen (Evaluates setup graph components) inst taker := by
  induction deferred with
  | single step =>
    obtain ⟨taker, fills, takes⟩ := step
    refine ⟨taker, takes, ⟨slot, fills⟩, ?_⟩
    intro inst first
    exact .single (.inr ⟨slot, first, fills⟩)
  | @tail between last _ step ih =>
    obtain ⟨earlier, takesEarlier, -, reaches⟩ := ih
    obtain ⟨taker, fills, takes⟩ := step
    refine ⟨taker, takes, ⟨between, fills⟩, ?_⟩
    intro inst first
    exact (reaches inst first).tail (.inr ⟨between, takesEarlier, fills⟩)

section Walked

variable {program : Program} {visits : List Instance}

theorem IsFirst.represents {type : String} {first : Instance}
    (walked : Compilation.Walked setup program visits components) (keyed : program.graph.IsKeyed)
    (isFirst : IsFirst program.graph components type first) :
    ∃ component, components.get? type = some component ∧
      Compilation.Represents setup program visits type first component := by
  obtain ⟨component, found, id, head, listed⟩ := isFirst
  obtain ⟨earliest, represents⟩ := walked.exists_represents found
  have same := represents.head?_ids
  rw [head] at same
  cases same
  rw [keyed.get?_of_visited walked.preorder represents.visited] at listed
  cases listed
  exact ⟨component, found, represents⟩

/-- Whatever a default constructs has been visited. -/
theorem Fills.visited {slot : Slot} {inst : Instance}
    (walked : Compilation.Walked setup program visits components) (keyed : program.graph.IsKeyed)
    (fills : Fills setup program.graph components slot inst) : inst ∈ visits := by
  obtain ⟨first, isFirst, builds⟩ := fills
  obtain ⟨component, found, represents⟩ := isFirst.represents walked keyed
  obtain ⟨root, member, reached⟩ := (walked.preorder.mem_visits_iff first).mp represents.visited
  exact (walked.preorder.mem_visits_iff inst).mpr
    ⟨root, member, reached.trans builds.holds.to_reflTransGen⟩

theorem exists_cycle_iff
    (walked : Compilation.Walked setup program visits components) (keyed : program.graph.IsKeyed) :
    (∃ inst ∈ visits,
        Relation.TransGen (Evaluates setup program.graph components) inst inst) ↔
      ∃ slot, Relation.TransGen (Defers setup program.graph components) slot slot := by
  constructor
  · rintro ⟨inst, visited, cycle⟩
    rcases holds_or_takes cycle with inside | ⟨taker, slot, filler, start, takes, fills, rest⟩
    · exact absurd inside (walked.preorder.not_transGen_self visited)
    · -- Turn the cycle so that it begins where the default is evaluated.
      obtain ⟨last, deferred, inside⟩ := fills.follow (rest.trans start)
      exact ⟨slot, Relation.TransGen.tail' deferred ⟨taker, inside, takes⟩⟩
  · rintro ⟨slot, cycle⟩
    obtain ⟨taker, takes, ⟨between, fills⟩, reaches⟩ := exists_takes_of_defers cycle
    exact ⟨taker, fills.visited walked keyed, reaches taker takes⟩

/-- Where every type is met in one instance, no default is ever needed. -/
theorem not_defers_of_single
    (walked : Compilation.Walked setup program visits components) (keyed : program.graph.IsKeyed)
    (single : ∀ entry ∈ components.entries, entry.2.instances.size = 1) (slot : Slot) :
    ¬ Relation.TransGen (Defers setup program.graph components) slot slot := by
  intro cycle
  obtain ⟨next, ⟨_, ⟨first, isFirst, builds⟩, _⟩, _⟩ := Relation.TransGen.head'_iff.mp cycle
  obtain ⟨last, _, inst, fills, ofType, _, leavesOut⟩ := Relation.TransGen.tail'_iff.mp cycle
  obtain ⟨component, found, represents⟩ := isFirst.represents walked keyed
  have once := single _ (OrderedMap.mem_entries_of_get? found)
  obtain rfl := represents.eq_of_single keyed walked.preorder once (fills.visited walked keyed)
    ofType
  exact leavesOut builds.1

end Walked

/-- Exactly if no default defers to itself, no instance that is reached evaluates itself. -/
theorem evaluates_acyclic_iff {before after : Compiler} {data : Value} {document : GraphDocument}
    (loaded : GraphDocument.ofValue data = .ok document)
    (sameGraph : before.program.graph = document.graph)
    (walked : (do Compilation.clear setup; Compilation.walkRoots setup).Yields before () after) :
    (∀ root ∈ before.program.rootInstances, ∀ inst, before.program.graph.Reaches root inst →
        ¬ Relation.TransGen (Evaluates setup before.program.graph after.output.components)
          inst inst) ↔
      ∀ slot, ¬ Relation.TransGen
        (Defers setup before.program.graph after.output.components) slot slot := by
  obtain ⟨-, visits, walked⟩ := Compilation.clear_walkRoots_yields walked
  have keyed : before.program.graph.IsKeyed := by
    rw [sameGraph]
    exact GraphDocument.isKeyed_of_ofValue loaded
  have cycles := exists_cycle_iff walked keyed
  constructor
  · intro acyclic slot deferred
    obtain ⟨inst, visited, cycle⟩ := cycles.mpr ⟨slot, deferred⟩
    obtain ⟨root, member, reached⟩ := (walked.preorder.mem_visits_iff inst).mp visited
    exact acyclic root member inst reached cycle
  · intro acyclic root member inst reached cycle
    have visited := (walked.preorder.mem_visits_iff inst).mpr ⟨root, member, reached⟩
    obtain ⟨slot, deferred⟩ := cycles.mp ⟨inst, visited, cycle⟩
    exact acyclic slot deferred

theorem page_evaluates_acyclically :
    let before : Compiler := { program := page, tree := {} }
    let walk : Compilation Unit := do Compilation.clear unboundWeb; Compilation.walkRoots unboundWeb
    ∃ after, walk.Yields before () after ∧
      ∀ root ∈ page.rootInstances, ∀ inst, page.graph.Reaches root inst →
        ¬ Relation.TransGen (Evaluates unboundWeb page.graph after.output.components)
          inst inst := by
  intro before walk
  have walked : walk.Yields before () (walk.outcome before).2 :=
    Compilation.yields_outcome (by rfl)
  refine ⟨_, walked, (evaluates_acyclic_iff pageGraph_loaded rfl walked).mpr ?_⟩
  obtain ⟨-, visits, visited⟩ := Compilation.clear_walkRoots_yields walked
  exact not_defers_of_single visited (GraphDocument.isKeyed_of_ofValue pageGraph_loaded) (by decide)

/-- Two nodes, of which the second has no next one. -/
def nodeDocument : Value := .map [
  (.text "design_system", .bool false),
  (.text "types", .map [(.text "Node", .map [(.text "next", .text "Node")])]),
  (.text "instances", .map [
    (.text "a", .map [(.text "type", .text "Node"),
      (.text "values", .map [(.text "next", .text "b")])]),
    (.text "b", .map [(.text "type", .text "Node")])]),
  (.text "roots", .map [(.text "Node", .text "a")])]

def nodeGraph : Graph where
  types := ⟨[("Node", ⟨"Node", [⟨"next", "Node", 0⟩]⟩)]⟩
  instances := ⟨[("a", ⟨"a", "Node", ⟨[("next", .text "b")]⟩⟩), ("b", ⟨"b", "Node", ⟨[]⟩⟩)]⟩

def nodes : Program where
  projectName := "Site"
  projectRoot := ⟨"/", ["site"]⟩
  graph := nodeGraph
  roots := ⟨[("Node", "a")]⟩

/-- The second node leaves out the next one, whose default constructs the second node. -/
theorem nodes_evaluate_endlessly :
    let before : Compiler := { program := nodes, tree := {} }
    let walk : Compilation Unit := do Compilation.clear unboundWeb; Compilation.walkRoots unboundWeb
    GraphDocument.ofValue nodeDocument = .ok ⟨nodes.graph, nodes.roots⟩ ∧
      nodes.checkRoots = .ok nodes ∧
      ∃ after, walk.Yields before () after ∧
        ∃ root ∈ nodes.rootInstances, ∃ inst, nodes.graph.Reaches root inst ∧
          Relation.TransGen (Evaluates unboundWeb nodes.graph after.output.components)
            inst inst := by
  intro before walk
  have walked : walk.Yields before () (walk.outcome before).2 :=
    Compilation.yields_outcome (by rfl)
  let a : Instance := ⟨"a", "Node", ⟨[("next", .text "b")]⟩⟩
  let b : Instance := ⟨"b", "Node", ⟨[]⟩⟩
  have visitA : (Compilation.walk unboundWeb 2 [] false a none).Yields before
      ⟨"Node", ⟨[("next", ⟨"Node", "new Node(\x7b\x7d)", true⟩)]⟩, false⟩ _ :=
    Compilation.yields_outcome (by rfl)
  have visitB : (Compilation.walk unboundWeb 1 [] false b none).Yields before
      ⟨"Node", ⟨[]⟩, false⟩ _ := Compilation.yields_outcome (by rfl)
  have resolvedA := (Compilation.walk_yields visitA).2.2
  have resolvedB := (Compilation.walk_yields visitB).2.2
  have held : b ∈ nodes.graph.held a ⟨"next", "Node", 0⟩ := List.mem_singleton.mpr rfl
  have builds : Builds unboundWeb nodes.graph a "next" b :=
    ⟨⟨_, resolvedA, by decide⟩, ⟨"Node", [⟨"next", "Node", 0⟩]⟩, rfl, ⟨"next", "Node", 0⟩,
      List.mem_singleton.mpr rfl, rfl, b, held, .refl⟩
  have takes : Takes unboundWeb nodes.graph (walk.outcome before).2.output.components b
      ("Node", "next") := by
    refine ⟨rfl, by rfl, ?_⟩
    rintro ⟨properties, resolved, member⟩
    cases resolvedB.symm.trans resolved
    simp [OrderedMap.keys] at member
  have fills : Fills unboundWeb nodes.graph (walk.outcome before).2.output.components
      ("Node", "next") b := ⟨a, ⟨_, rfl, "a", rfl, rfl⟩, builds⟩
  refine ⟨by with_unfolding_all rfl, rfl, _, walked, a, List.mem_singleton.mpr rfl, b, ?_, ?_⟩
  · exact builds.holds.to_reflTransGen
  · exact .single (.inr ⟨("Node", "next"), takes, fills⟩)

end DesignGraph.Defaults
