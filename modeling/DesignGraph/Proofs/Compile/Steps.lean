import DesignGraph.Compile.Walk
import DesignGraph.Proofs.Compile.Ending
import DesignGraph.Proofs.Compile.Resolution
import Mathlib.Tactic.SplitIfs

/-!
# The steps of a walk that succeeds

What the success of each function of the walk comes down to: what it has looked up, the successful
steps that it is made of, and all that it changes by itself. The inductions over a walk take it
apart by these lemmas and do not open its functions.
-/

namespace DesignGraph

/-- The instances that the roots refer to, in the order of the roots. -/
def Program.rootInstances (program : Program) : List Instance :=
  program.roots.entries.filterMap fun (_, id) => program.graph.instances.get? id

namespace Compilation

variable {setup : Setup} {visit : Instance → Reference → Compilation Spec}
  {before after : Compiler} {type : String} {inst : Instance}

theorem instanceOf_eq_ok {graph : Graph} {value : Value} :
    graph.instanceOf value = .ok inst ↔ graph.instance? value = some inst := by
  unfold Graph.instanceOf
  cases graph.instance? value with
  | none => simp
  | some found => simp

theorem typeNamed_eq_ok {graph : Graph} {name : String} {type : ComponentType} :
    graph.typeNamed (.text name) = .ok type ↔ graph.types.get? name = some type := by
  unfold Graph.typeNamed
  cases found : graph.types.get? name with
  | none => simp [found, Value.isKey]
  | some declared => simp [found]

/-! ## Values -/

section value

variable {parent : String} {declaration : Declaration} {depth : Nat} {value : Value}
  {result : Option Property}

/-- To give a value up is to warn of it. -/
theorem yields_giveUp {α : Type} {warning : Warning} {answer : Option α} :
    Yields (do warn warning; pure none) before answer after ↔
      answer = none ∧ after = { before with warnings := before.warnings ++ [warning] } := by
  simp only [yields_bind, yields_warn, yields_pure]
  constructor
  · rintro ⟨_, _, rfl, rfl, rfl⟩
    exact ⟨rfl, rfl⟩
  · rintro ⟨rfl, rfl⟩
    exact ⟨(), _, rfl, rfl, rfl⟩

/-- A primitive value is represented, or else given up. -/
theorem yields_propertyOf_primitive
    (primitive : before.program.graph.isComponent declaration.type = false) :
    Yields (propertyOf setup visit parent declaration 0 value) before result after ↔
      (∃ property, setup.target.primitive declaration.type value = .ok property ∧
        result = some property ∧ after = before) ∨
      ∃ warning, setup.target.primitive declaration.type value = .error warning ∧
        result = none ∧ after = { before with warnings := before.warnings ++ [warning] } := by
  simp only [propertyOf, yields_get_bind, primitive, Bool.not_false, if_true]
  cases setup.target.primitive declaration.type value with
  | ok property => simp [yields_pure]
  | error warning => simpa using yields_giveUp

/-- A component value is the construction of the instance that it refers to, once that has been
visited. -/
theorem propertyOf_component_yields
    (component : before.program.graph.isComponent declaration.type = true)
    (success : Yields (propertyOf setup visit parent declaration 0 value) before result after) :
    ∃ inst spec initializer, before.program.graph.instance? value = some inst ∧
      Yields (visit inst ⟨parent, declaration.name⟩) before spec after ∧
      Resolution.constructionOf? setup.target setup.bindings declaration.type inst spec =
        some initializer ∧
      result = some ⟨declaration.type, initializer,
        ((setup.bindings.get? declaration.type).map Binding.updatable).getD true⟩ := by
  simp only [propertyOf, yields_get_bind, component, Bool.not_true, Bool.false_eq_true, if_false,
    yields_ofExcept_bind, instanceOf_eq_ok] at success
  obtain ⟨inst, found, success⟩ := success
  obtain ⟨spec, between, visited, success⟩ := yields_bind.mp success
  cases bound : (setup.bindings.get? declaration.type).bind Binding.initializer with
  | none =>
    simp only [bound, yields_bind, yields_pure] at success
    obtain ⟨initializer, _, ⟨rfl, rfl⟩, rfl, rfl⟩ := success
    exact ⟨inst, spec, _, found, visited, by simp [Resolution.constructionOf?, bound], rfl⟩
  | some construct =>
    simp only [bound, yields_ofExcept_bind, yields_pure] at success
    obtain ⟨initializer, constructed, rfl, rfl⟩ := success
    exact ⟨inst, spec, initializer, found, visited,
      by simp [Resolution.constructionOf?, bound, constructed, Except.toOption], rfl⟩

theorem yields_propertyOf_list {items : List Value} :
    Yields (propertyOf setup visit parent declaration (depth + 1) (.list items)) before result
        after ↔
      ∃ elements, Yields (items.mapM (propertyOf setup visit parent declaration depth)) before
        elements after ∧ result = setup.target.collect elements := by
  simp only [propertyOf, yields_bind, yields_pure]
  constructor
  · rintro ⟨elements, _, resolved, rfl, rfl⟩
    exact ⟨elements, resolved, rfl⟩
  · rintro ⟨elements, resolved, rfl⟩
    exact ⟨elements, after, resolved, rfl, rfl⟩

theorem yields_propertyOf_not_list (notList : ∀ items, value ≠ .list items) :
    Yields (propertyOf setup visit parent declaration (depth + 1) value) before result after ↔
      result = none ∧ after = { before with
        warnings := before.warnings ++ [.notList parent declaration.name value] } := by
  rw [← yields_giveUp]
  cases value with
  | list items => exact absurd rfl (notList items)
  | _ => rfl

end value

/-! ## Properties -/

section properties

variable {isFirst : Bool} {declaration : Declaration} {rest : List Declaration}
  {done result : OrderedMap String Property}

/-- The resolution of one declared property of an instance. -/
def resolveDeclared (setup : Setup) (visit : Instance → Reference → Compilation Spec)
    (type : String) (inst : Instance) (declaration : Declaration) :
    Compilation (Option Property) :=
  match inst.values.get? declaration.name with
  | none => do
      warn (.noValue type declaration.name inst.id)
      pure none
  | some value => propertyOf setup visit type declaration declaration.depth value

theorem yields_resolveDeclared_none (missing : inst.values.get? declaration.name = none)
    {answer : Option Property} :
    (resolveDeclared setup visit type inst declaration).Yields before answer after ↔
      answer = none ∧ after = { before with
        warnings := before.warnings ++ [.noValue type declaration.name inst.id] } := by
  rw [resolveDeclared, missing]
  exact yields_giveUp

theorem resolveDeclared_some {value : Value}
    (given : inst.values.get? declaration.name = some value) :
    resolveDeclared setup visit type inst declaration =
      propertyOf setup visit type declaration declaration.depth value := by
  rw [resolveDeclared, given]

/-- The properties of a first instance are filled in for its type. -/
def filledIn (isFirst : Bool) (type : String) (properties : OrderedMap String Property)
    (compiler : Compiler) : Compiler :=
  if isFirst then
    { compiler with output := compiler.output.changeComponent type fun component =>
        { component with spec := { component.spec with properties := properties } } }
  else compiler

@[simp] theorem program_filledIn (isFirst : Bool) (type : String)
    (properties : OrderedMap String Property) (compiler : Compiler) :
    (filledIn isFirst type properties compiler).program = compiler.program := by
  cases isFirst <;> rfl

theorem yields_properties_nil :
    Yields (properties setup visit type isFirst inst [] done) before result after ↔
      result = done ∧ after = before := yields_pure

/-- The properties of an instance are resolved one after the other, and what there is of them is
filled in. -/
theorem properties_cons_yields
    (success : Yields (properties setup visit type isFirst inst (declaration :: rest) done) before
      result after) :
    ∃ answer between, (resolveDeclared setup visit type inst declaration).Yields before answer
        between ∧
      ((answer = none ∧
          Yields (properties setup visit type isFirst inst rest done) between result after) ∨
        ∃ property, answer = some property ∧
          Yields (properties setup visit type isFirst inst rest
              (done.insert declaration.name property))
            (filledIn isFirst type (done.insert declaration.name property) between) result
              after) := by
  rw [properties] at success
  cases given : inst.values.get? declaration.name with
  | none =>
    simp only [given, yields_bind, yields_warn] at success
    obtain ⟨_, between, rfl, success⟩ := success
    exact ⟨none, _, (yields_resolveDeclared_none given).mpr ⟨rfl, rfl⟩, .inl ⟨rfl, success⟩⟩
  | some value =>
    simp only [given, yields_bind] at success
    obtain ⟨answer, between, first, success⟩ := success
    refine ⟨answer, between, by rwa [resolveDeclared_some given], ?_⟩
    cases answer with
    | none => exact .inl ⟨rfl, success⟩
    | some property =>
      refine .inr ⟨property, rfl, ?_⟩
      cases isFirst with
      | false => simpa only [filledIn, Bool.false_eq_true, if_false] using success
      | true =>
        simp only [if_true, yields_bind, yields_changeOutput] at success
        obtain ⟨_, _, rfl, success⟩ := success
        exact success

end properties

/-! ## Visits -/

section visit

variable {hops : Nat} {path : List String} {isPublic isFirst : Bool} {id : String}
  {reference : Option Reference} {spec : Spec}

theorem yields_register :
    Yields (register setup type isPublic id) before isFirst after ↔
      isFirst = !before.output.components.contains type ∧
      after = { before with output := { before.output with
        components :=
          let component := (before.output.components.get? type).getD
            { spec := { componentName := type }, binding := setup.bindings.get? type }
          before.output.components.insert type { component with
            spec := { component.spec with isPublic := component.spec.isPublic || isPublic }
            instances := component.instances.insert id } } } := by
  rw [register, yields_get_bind]
  simp only [yields_bind, yields_changeOutput, yields_pure]
  constructor
  · rintro ⟨_, _, rfl, rfl, rfl⟩
    exact ⟨rfl, rfl⟩
  · rintro ⟨rfl, rfl⟩
    exact ⟨(), _, rfl, rfl, rfl⟩

/-- What the binding of a type adds for an instance. -/
theorem yields_bindAssets {answer : Unit} :
    Yields (bindAssets setup type inst reference) before answer after ↔
      ∃ effects,
        (match (setup.bindings.get? type).bind Binding.assets with
          | none => .ok []
          | some binder => binder (setup.surroundings before) inst reference) =
            Except.ok (ε := Fault) effects ∧
        after = { before with output := before.output.applyAll effects } := by
  unfold bindAssets
  cases (setup.bindings.get? type).bind Binding.assets with
  | none =>
    simp only [yields_pure, true_and, Except.ok.injEq, exists_eq_left']
    rfl
  | some binder =>
    simp only [yields_get_bind, yields_ofExcept_bind, yields_changeOutput]
    rfl

/-- The visits of the instances that lie below a path. -/
def visitBelow (setup : Setup) (hops : Nat) (path : List String) (inst : Instance)
    (reference : Reference) : Compilation Spec :=
  walk setup hops path false inst (some reference)

/-- A visit registers the instance, resolves what its type declares, and lets the binding add to
the package. -/
theorem walk_succ_yields
    (success : Yields (walk setup (hops + 1) path isPublic inst reference) before spec after) :
    ∃ type isFirst entered resolved, before.program.graph.types.get? inst.type = some type ∧
      Yields (register setup type.name isPublic inst.id) before isFirst entered ∧
      Yields (properties setup (visitBelow setup hops (path ++ [inst.id])) type.name isFirst inst
        type.properties ∅) entered spec.properties resolved ∧
      Yields (bindAssets setup type.name inst reference) resolved () after ∧
      spec.componentName = type.name := by
  simp only [walk] at success
  split_ifs at success
  · exact absurd success yields_throw
  simp only [yields_get_bind, yields_ofExcept_bind, typeNamed_eq_ok] at success
  obtain ⟨type, declared, success⟩ := success
  simp only [yields_bind] at success
  obtain ⟨isFirst, entered, registered, properties, resolved, resolving, _, between, bound,
    _, _, got, success⟩ := success
  obtain ⟨rfl, rfl⟩ := yields_get.mp got
  obtain ⟨rfl, rfl⟩ := yields_pure.mp success
  exact ⟨type, isFirst, entered, resolved, declared, registered, resolving, bound, rfl⟩

/-- Visits of roots, one after the other. -/
inductive RootVisits (setup : Setup) : Compiler → List Instance → Compiler → Prop
  | nil (compiler : Compiler) : RootVisits setup compiler [] compiler
  | cons {before between after : Compiler} {root : Instance} {rest : List Instance} {hops : Nat}
      {spec : Spec} (visited : (walk setup hops [] true root none).Yields before spec between)
      (later : RootVisits setup between rest after) : RootVisits setup before (root :: rest) after

/-- The walk from the roots, if it succeeds. -/
theorem walkRoots_visits (success : Yields (walkRoots setup) before ⟨⟩ after) :
    RootVisits setup before before.program.rootInstances after := by
  rw [walkRoots, yields_get_bind] at success
  unfold Program.rootInstances
  -- The roots are those of the program before the walk, whatever the visits leave.
  generalize before.program = program at success ⊢
  dsimp only at success
  generalize program.roots.entries = entries at success ⊢
  induction entries generalizing before with
  | nil =>
    obtain rfl := yields_forM_nil.mp success
    exact .nil _
  | cons entry rest ih =>
    obtain ⟨name, id⟩ := entry
    obtain ⟨between, first, success⟩ := yields_forM_cons.mp success
    simp only [yields_ofExcept_bind, instanceOf_eq_ok] at first
    obtain ⟨root, found, first⟩ := first
    simp only [yields_bind, yields_pure] at first
    obtain ⟨spec, _, visited, -, rfl⟩ := first
    rw [process, yields_get_bind] at visited
    change program.graph.instances.get? id = some root at found
    simp only [List.filterMap_cons, found]
    exact .cons visited (ih success)

end visit

end Compilation

end DesignGraph
