import DesignGraph.Proofs.Compile.Completion
import DesignGraph.Proofs.Compile.Targets

/-!
# Omissions and their warnings

A property is left out of a resolution if no leaf of its value can be represented, and the
resolution warns at every place where something is lost: once for an instance without a value, once
for each value that should be a list and is not, and once for each leaf that its kind cannot
represent. The places are counted level by level (`omissionCount`), while the walk meets them depth
first and between the visits of nested instances; `Appends` keeps the two apart.
-/

namespace DesignGraph

open DesignGraph.Graph (leaves)

/-! ## Places -/

namespace Value

def isList : Value → Bool
  | list _ => true
  | _ => false

end Value

/-- Whether a leaf of a declared property is lost: its kind is unknown, or cannot represent it.
Instances are never lost. -/
def isUnfit (target : Target) (graph : Graph) (declaration : Declaration) (leaf : Value) : Bool :=
  !graph.isComponent declaration.type &&
    ((Primitive.ofName? declaration.type).isNone ||
      (target.literal? declaration.type leaf).isNone)

/-- The values above the leaves that should be lists and are not, level by level. -/
def misplaced (depth : Nat) (values : List Value) : List Value :=
  (List.range depth).flatMap fun level => (leaves level values).filter fun value => !value.isList

/-- The leaves of a declared property of an instance. -/
def leavesOf (inst : Instance) (declaration : Declaration) : List Value :=
  match inst.values.get? declaration.name with
  | none => []
  | some value => leaves declaration.depth [value]

/-- How often something is lost of a declared property of an instance. -/
def omissionCount (target : Target) (graph : Graph) (inst : Instance) (declaration : Declaration) :
    Nat :=
  match inst.values.get? declaration.name with
  | none => 1
  | some value => (misplaced declaration.depth [value]).length +
      (leaves declaration.depth [value]).countP (isUnfit target graph declaration)

/-- The value of a declared property is a list, in which lists only are met down to the leaves, and
no leaf. -/
def IsHollow (inst : Instance) (declaration : Declaration) : Prop :=
  ∃ items, inst.values.get? declaration.name = some (.list items) ∧
    (∀ level < declaration.depth, ∀ value ∈ leaves level [.list items], value.isList = true) ∧
    leaves declaration.depth [.list items] = []

theorem length_misplaced_append (depth : Nat) (first second : List Value) :
    (misplaced depth (first ++ second)).length =
      (misplaced depth first).length + (misplaced depth second).length := by
  induction depth with
  | zero => rfl
  | succ depth ih =>
    have last : ∀ values, misplaced (depth + 1) values = misplaced depth values ++
        (leaves depth values).filter fun value => !value.isList := by
      intro values
      simp [misplaced, List.range_succ]
    simp only [last, List.length_append, ih, Graph.leaves_append, List.filter_append]
    omega

/-- The outermost level comes first, and then the levels of the elements. -/
theorem misplaced_succ (depth : Nat) (values : List Value) :
    misplaced (depth + 1) values =
      (values.filter fun value => !value.isList) ++ misplaced depth (Graph.elements values) := by
  simp only [misplaced, List.range_succ_eq_map, List.flatMap_cons, List.flatMap_map,
    Nat.succ_eq_add_one, Graph.leaves_succ]
  rfl

/-- Nothing is misplaced if all is a list that should be one. -/
theorem misplaced_eq_nil {depth : Nat} {values : List Value} :
    misplaced depth values = [] ↔
      ∀ level < depth, ∀ value ∈ leaves level values, value.isList = true := by
  simp [misplaced, List.flatMap_eq_nil_iff]

variable {target : Target} {graph : Graph} {parent : String} {declaration : Declaration}
  {inst : Instance}

theorem isRepresentable_leaf (leaf : Value) :
    Resolution.isRepresentable target graph declaration 0 leaf =
      !isUnfit target graph declaration leaf := by
  unfold Resolution.isRepresentable isUnfit
  rw [Target.isSome_primitive]
  cases Primitive.ofName? declaration.type <;> cases target.literal? declaration.type leaf <;>
    simp

/-- A property is present if one of its leaves can be represented. -/
theorem isPresent_eq_false_iff : Resolution.isPresent target graph inst declaration = false ↔
    ∀ leaf ∈ leavesOf inst declaration, isUnfit target graph declaration leaf = true := by
  unfold Resolution.isPresent leavesOf
  rcases inst.values.get? declaration.name with _ | value
  · simp
  · rw [Option.any_some, ← Bool.not_eq_true, Resolution.isRepresentable_iff]
    simp [isRepresentable_leaf]

/-! ## Own warnings -/

namespace Event

/-- The warnings among events. -/
def warnings (events : List Event) : List Warning := events.filterMap warning?

theorem warnings_append (first second : List Event) :
    warnings (first ++ second) = warnings first ++ warnings second := List.filterMap_append

/-- A leaf has a warning in store if it is lost. -/
theorem length_warnings_leaf (value : Value) :
    (warnings (within target graph parent declaration 0 value)).length =
      [value].countP (isUnfit target graph declaration) := by
  rw [List.countP_singleton]
  cases component : graph.isComponent declaration.type with
  | true =>
    simp only [within, isUnfit, component, if_true, Bool.not_true, Bool.false_and,
      Bool.false_eq_true, if_false]
    cases graph.instance? value <;> rfl
  | false =>
    simp only [within, isUnfit, component, Bool.false_eq_true, if_false, Bool.not_false,
      Bool.true_and, Target.primitive]
    cases Primitive.ofName? declaration.type with
    | none => rfl
    | some known => cases target.literal? declaration.type value <;> rfl

/-- Values have in store what each of them has. -/
theorem length_warnings_flatMap {depth : Nat}
    (each : ∀ value, (warnings (within target graph parent declaration depth value)).length =
      (misplaced depth [value]).length +
        (leaves depth [value]).countP (isUnfit target graph declaration)) (values : List Value) :
    (warnings (values.flatMap (within target graph parent declaration depth))).length =
      (misplaced depth values).length +
        (leaves depth values).countP (isUnfit target graph declaration) := by
  induction values with
  | nil => simp [warnings, misplaced, Graph.leaves_nil]
  | cons value rest ih =>
    have placed := length_misplaced_append depth [value] rest
    have split := Graph.leaves_append depth [value] rest
    rw [List.singleton_append] at placed split
    rw [List.flatMap_cons, warnings_append, List.length_append, each, ih, placed, split,
      List.countP_append]
    omega

/-- A value has a warning in store for each place where something is lost. -/
theorem length_warnings_within {depth : Nat} (value : Value) :
    (warnings (within target graph parent declaration depth value)).length =
      (misplaced depth [value]).length +
        (leaves depth [value]).countP (isUnfit target graph declaration) := by
  induction depth generalizing value with
  | zero => exact (length_warnings_leaf value).trans (Nat.zero_add _).symm
  | succ depth ih =>
    rw [misplaced_succ, Graph.leaves_succ]
    cases value with
    | list items =>
      have elements_eq : Graph.elements [.list items] = items := by simp [Graph.elements]
      rw [within, length_warnings_flatMap ih, elements_eq]
      rfl
    | _ => simp [within, warnings, warning?, Graph.elements, misplaced, Graph.leaves_nil,
        Value.isList]

/-- A declared property has a warning in store for each place where something is lost. -/
theorem length_warnings_ofProperty (target : Target) (graph : Graph) (type : String)
    (inst : Instance) (declaration : Declaration) :
    (warnings (ofProperty target graph type inst declaration)).length =
      omissionCount target graph inst declaration := by
  unfold ofProperty omissionCount
  cases inst.values.get? declaration.name with
  | none => rfl
  | some value => exact length_warnings_within value

end Event

/-- A property that is left out although nothing is lost has a hollow value. -/
theorem isHollow_iff : IsHollow inst declaration ↔
    (∀ leaf ∈ leavesOf inst declaration, isUnfit target graph declaration leaf = true) ∧
      omissionCount target graph inst declaration = 0 := by
  unfold IsHollow leavesOf omissionCount
  cases inst.values.get? declaration.name with
  | none => simp
  | some value =>
    simp only [Option.some.injEq, Nat.add_eq_zero_iff, List.length_eq_zero_iff, misplaced_eq_nil,
      List.countP_eq_zero]
    constructor
    · rintro ⟨items, rfl, lists, empty⟩
      exact ⟨by simp [empty], lists, by simp [empty]⟩
    · rintro ⟨unfit, lists, fit⟩
      have empty : leaves declaration.depth [value] = [] :=
        List.eq_nil_iff_forall_not_mem.mpr fun leaf member => fit leaf member (unfit leaf member)
      have positive : 0 < declaration.depth := by
        rcases Nat.eq_zero_or_pos declaration.depth with zero | positive
        · rw [zero] at empty
          cases empty
        · exact positive
      have outermost := lists 0 positive value (List.mem_singleton_self value)
      cases value with
      | list items => exact ⟨items, rfl, lists, empty⟩
      | _ => cases outermost

namespace Compilation

variable {setup : Setup} {before between after : Compiler}
  {visit : Instance → Reference → Compilation Spec}

/-- From one compiler to the other there are warnings of one's own and visits, which append nested
warnings, and nothing else. -/
inductive Appends (visit : Instance → Reference → Compilation Spec) :
    (before : Compiler) → (own nested : List Warning) → (after : Compiler) → Prop
  | nothing (compiler : Compiler) : Appends visit compiler [] [] compiler
  | warning {before after : Compiler} {own nested : List Warning} (warning : Warning)
      (later : Appends visit { before with warnings := before.warnings ++ [warning] } own nested
        after) : Appends visit before (warning :: own) nested after
  | visit {before between after : Compiler} {inst : Instance} {reference : Reference} {spec : Spec}
      {inner own nested : List Warning}
      (visited : (visit inst reference).Yields before spec between)
      (appended : between.warnings = before.warnings ++ inner)
      (later : Appends visit between own nested after) :
      Appends visit before own (inner ++ nested) after

namespace Appends

theorem append {own nested ownToo nestedToo : List Warning}
    (first : Appends visit before own nested between)
    (second : Appends visit between ownToo nestedToo after) :
    Appends visit before (own ++ ownToo) (nested ++ nestedToo) after := by
  induction first with
  | nothing => exact second
  | warning warning _ ih => exact .warning warning (ih second)
  | visit visited appended _ ih =>
    rw [List.append_assoc]
    exact .visit visited appended (ih second)

/-- What is appended altogether is appended by oneself or by a visit. -/
theorem length_warnings {own nested : List Warning}
    (appends : Appends visit before own nested after) :
    after.warnings.length = before.warnings.length + own.length + nested.length := by
  induction appends with
  | nothing => rfl
  | warning warning _ ih =>
    rw [ih, List.length_append, List.length_cons]
    simp only [List.length_cons, List.length_nil]
    omega
  | visit _ appended _ ih =>
    rw [ih, appended, List.length_append, List.length_append]
    omega

end Appends

/-- Visits of the walk keep the program and append to the warnings. -/
def Adds (visit : Instance → Reference → Compilation Spec) : Prop :=
  ∀ {inst : Instance} {reference : Reference} {before after : Compiler} {spec : Spec},
    (visit inst reference).Yields before spec after →
      after.program = before.program ∧ ∃ inner, after.warnings = before.warnings ++ inner

theorem TracesVisits.adds (visits : TracesVisits setup visit) : Adds visit := by
  intro inst reference before after spec visited
  obtain ⟨done, traced⟩ := visits visited
  exact ⟨congrArg Surroundings.program traced.surroundings_eq, _, traced.warnings_eq⟩

/-- Values are resolved with the warnings that they have in store, between the visits. -/
theorem Adds.chronicles (adds : Adds visit) :
    Chronicles visit fun before events after =>
      after.program = before.program ∧ ∃ nested, Appends visit before (Event.warnings events)
        nested after where
  nothing compiler := ⟨rfl, [], .nothing compiler⟩
  warned compiler warning := ⟨rfl, [], .warning warning (.nothing _)⟩
  visited success := by
    obtain ⟨program_eq, inner, appended⟩ := adds success
    exact ⟨program_eq, inner ++ [], .visit success appended (.nothing _)⟩
  append := by
    rintro before middle after first second ⟨program_eq, inner, head⟩ ⟨same, outer, tail⟩
    rw [Event.warnings_append]
    exact ⟨same.trans program_eq, inner ++ outer, head.append tail⟩
  program_eq := And.left

/-- Every declared property of an instance is resolved. -/
theorem exists_resolveDeclared (adds : Adds visit) {type : String} {isFirst : Bool}
    {inst : Instance} {declarations : List Declaration} {done result : OrderedMap String Property}
    (success : (properties setup visit type isFirst inst declarations done).Yields before result
      after) :
    ∀ declaration ∈ declarations, ∃ earlier answer later, earlier.program = before.program ∧
      (resolveDeclared setup visit type inst declaration).Yields earlier answer later := by
  induction declarations generalizing done before with
  | nil => exact fun _ member => nomatch member
  | cons declaration rest ih =>
    obtain ⟨answer, between, first, others⟩ := properties_cons_yields success
    obtain ⟨program_eq, -⟩ := adds.chronicles.resolveDeclared first
    intro other member
    rcases List.mem_cons.mp member with rfl | member
    · exact ⟨before, answer, between, rfl, first⟩
    rcases others with ⟨-, others⟩ | ⟨property, -, others⟩
    · rw [← program_eq]
      exact ih others other member
    · rw [← program_eq, ← program_filledIn isFirst type]
      exact ih others other member

theorem adds_visitBelow (hops : Nat) (path : List String) :
    Adds (visitBelow setup hops path) := by
  intro inst reference before after spec visited
  have traces : TracesVisits setup (visitBelow setup hops path) := fun visited =>
    walk_traced visited
  exact traces.adds visited

/-- A property is left out if no leaf of its value can be represented. -/
theorem eq_none_of_resolveDeclared (visiting : Visiting setup visit) {type : String}
    {inst : Instance} {declaration : Declaration} {answer : Option Property}
    (success : (resolveDeclared setup visit type inst declaration).Yields before answer after) :
    answer = none ↔ ∀ leaf ∈ leavesOf inst declaration,
      isUnfit setup.target before.program.graph declaration leaf = true := by
  rw [← isPresent_eq_false_iff, Resolution.isPresent]
  cases given : inst.values.get? declaration.name with
  | none =>
    obtain ⟨rfl, -⟩ := (yields_resolveDeclared_none given).mp success
    simp
  | some value =>
    rw [resolveDeclared_some given] at success
    have resolved := (propertyOf_yields visiting success).2
    rw [Option.any_some, ← Resolution.isSome_of_resolveValue resolved]
    cases answer <;> simp

/-- Every visit that ends has resolved every declared property. -/
theorem exists_resolveDeclared_of_walk {hops : Nat} {path : List String} {isPublic : Bool}
    {inst : Instance} {reference : Option Reference} {spec : Spec}
    (success : (walk setup hops path isPublic inst reference).Yields before spec after) :
    ∃ type below, before.program.graph.types.get? inst.type = some type ∧ hops = below + 1 ∧
      ∀ declaration ∈ type.properties, ∃ earlier answer later, earlier.program = before.program ∧
        (resolveDeclared setup (visitBelow setup below (path ++ [inst.id])) type.name inst
          declaration).Yields earlier answer later := by
  cases hops with
  | zero => exact absurd success yields_throw
  | succ hops =>
    obtain ⟨type, isFirst, entered, resolved, found, registering, resolving, -⟩ :=
      walk_succ_yields success
    obtain ⟨around, -, -⟩ := register_unseen registering
    have program_eq : entered.program = before.program := congrArg Surroundings.program around
    refine ⟨type, hops, found, rfl, fun declaration member => ?_⟩
    obtain ⟨earlier, answer, later, same, declared⟩ :=
      exists_resolveDeclared (adds_visitBelow _ _) resolving declaration member
    exact ⟨earlier, answer, later, same.trans program_eq, declared⟩

/-- A name is missing in a resolution if nothing that is declared under it can be represented. -/
theorem not_mem_keys_iff {bindings : OrderedMap String Binding} {graph : Graph} {inst : Instance}
    {type : ComponentType} {properties : OrderedMap String Property}
    (declared : graph.types.get? inst.type = some type)
    (resolved : Resolution.resolve setup.target bindings graph inst = some properties)
    (name : String) : name ∉ properties.keys ↔
      ∀ declaration ∈ type.properties, declaration.name = name →
        ∀ leaf ∈ leavesOf inst declaration,
          isUnfit setup.target graph declaration leaf = true := by
  simp only [Resolution.mem_keys_of_resolve resolved, Resolution.provided, declared, List.mem_map,
    List.mem_filter, not_exists, not_and, ← isPresent_eq_false_iff, ← Bool.not_eq_true]
  constructor
  · exact fun absent declaration member same present => absent declaration ⟨member, present⟩ same
  · exact fun absent declaration provided same => absent declaration provided.1 same provided.2

/-- Whatever is lost is told: a resolution of a declared property warns once for each place where
something is lost, beside the warnings of nested visits, and it leaves the property out exactly if
no leaf can be represented; without a warning only where the value is hollow. A visit resolves all
declared properties of the instance, and the warnings of a run are those of its visits. -/
theorem no_value_disappears_silently (setup : Setup) :
    (∀ {hops : Nat} {path : List String} {type : String} {inst : Instance}
        {declaration : Declaration} {before after : Compiler} {answer : Option Property},
      (resolveDeclared setup (visitBelow setup hops path) type inst declaration).Yields before
        answer after →
      ∃ own nested, Appends (visitBelow setup hops path) before own nested after ∧
        after.warnings.length = before.warnings.length + own.length + nested.length ∧
        own = Event.warnings
          (Event.ofProperty setup.target before.program.graph type inst declaration) ∧
        own.length = omissionCount setup.target before.program.graph inst declaration ∧
        (answer = none ↔ ∀ leaf ∈ leavesOf inst declaration,
          isUnfit setup.target before.program.graph declaration leaf = true) ∧
        (answer = none ∧ own = [] ↔ IsHollow inst declaration)) ∧
    (∀ {hops : Nat} {path : List String} {isPublic : Bool} {inst : Instance}
        {reference : Option Reference} {before after : Compiler} {spec : Spec},
      (walk setup hops path isPublic inst reference).Yields before spec after →
      ∃ type below, before.program.graph.types.get? inst.type = some type ∧ hops = below + 1 ∧
        (∀ declaration ∈ type.properties, ∃ earlier answer later,
          earlier.program = before.program ∧
          (resolveDeclared setup (visitBelow setup below (path ++ [inst.id])) type.name inst
            declaration).Yields earlier answer later) ∧
        ∀ name, name ∉ spec.properties.keys ↔
          ∀ declaration ∈ type.properties, declaration.name = name →
            ∀ leaf ∈ leavesOf inst declaration,
              isUnfit setup.target before.program.graph declaration leaf = true) ∧
    (∀ {program? : Option Program} {before after : Compiler} {result : CompilationResult},
      (run setup program?).Yields before result after →
      let program := program?.getD before.program
      ∃ done, Trace setup.target program.graph (rootEvents program) done ∧
        (∀ visited, .visit visited ∈ done ↔ program.Visits visited) ∧
        result.warnings = Event.warnings done) := by
  refine ⟨?_, ?_, ?_⟩
  · intro hops path type inst declaration before after answer success
    obtain ⟨-, nested, appends⟩ := (Adds.chronicles (adds_visitBelow _ _)).resolveDeclared success
    have left_out := eq_none_of_resolveDeclared (visiting_visitBelow _ _) success
    have counted := Event.length_warnings_ofProperty setup.target before.program.graph type inst
      declaration
    refine ⟨_, nested, appends, appends.length_warnings, rfl, counted, left_out, ?_⟩
    rw [left_out, ← List.length_eq_zero_iff, counted, isHollow_iff]
  · intro hops path isPublic inst reference before after spec success
    obtain ⟨type, below, declared, level, resolutions⟩ := exists_resolveDeclared_of_walk success
    obtain ⟨-, -, resolved⟩ := walk_yields success
    exact ⟨type, below, declared, level, resolutions, not_mem_keys_iff declared resolved⟩
  · intro program? before after result ran program
    obtain ⟨walked, package, final, walking, written, rfl, rfl⟩ := run_yields.mp ran
    obtain ⟨done, traced⟩ := walkRoots_traced walking
    obtain ⟨-, -, -, visits, met⟩ := walkRoots_of_run walking
    refine ⟨done, traced.trace, visit_mem_iff traced.trace, ?_⟩
    change final.warnings = _
    rw [warnings_of_writePackage met.nodup_keys written, traced.warnings_eq]
    exact List.nil_append _

/-! A card that loses two of its sizes, and has tags but no tag. -/

namespace Sized

def sizes : Declaration := ⟨"sizes", "float", 2⟩

def tags : Declaration := ⟨"tags", "string", 1⟩

def card : Instance := ⟨"card", "Card", ⟨[
  ("sizes", .list [.list [.int 4, .null], .int 8, .list []]), ("tags", .list [])]⟩⟩

def program : Program where
  projectName := "Site"
  projectRoot := ⟨"/", ["site"]⟩
  graph := {
    types := ⟨[("Card", ⟨"Card", [sizes, tags]⟩)]⟩
    instances := ⟨[("card", card)]⟩ }

end Sized

theorem omissions_of_card_are_told :
    let before : Compiler := { program := Sized.program, tree := {} }
    let resolve (declaration : Declaration) : Compilation (Option Property) :=
      resolveDeclared unboundWeb (visitBelow unboundWeb 1 ["card"]) "Card" Sized.card declaration
    (∃ answer after nested, (resolve Sized.sizes).Yields before answer after ∧
      Appends (visitBelow unboundWeb 1 ["card"]) before [.notRepresentable "float" .null,
        .notList "Card" "sizes" (.int 8)] nested after ∧
      answer = some ⟨"number[][]", "[[4]]", false⟩) ∧
    (∃ after nested, (resolve Sized.tags).Yields before none after ∧
      Appends (visitBelow unboundWeb 1 ["card"]) before [] nested after ∧
      IsHollow Sized.card Sized.tags) := by
  intro before resolve
  constructor
  · have resolved : (resolve Sized.sizes).Yields before (some ⟨"number[][]", "[[4]]", false⟩)
        ((resolve Sized.sizes).outcome before).2 := yields_outcome (by rfl)
    obtain ⟨own, nested, appends, -, rfl, -⟩ := (no_value_disappears_silently unboundWeb).1 resolved
    exact ⟨_, _, nested, resolved, appends, rfl⟩
  · have resolved : (resolve Sized.tags).Yields before none
        ((resolve Sized.tags).outcome before).2 := yields_outcome (by rfl)
    obtain ⟨own, nested, appends, -, rfl, -, -, hollow⟩ :=
      (no_value_disappears_silently unboundWeb).1 resolved
    exact ⟨_, nested, resolved, appends, hollow.mp ⟨rfl, rfl⟩⟩

end Compilation

end DesignGraph
