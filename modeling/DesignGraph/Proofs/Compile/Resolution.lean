import DesignGraph.Compile.Compiler
import DesignGraph.Proofs.Answers
import DesignGraph.Proofs.Graph.Preorder
import DesignGraph.Proofs.OrderedMap

/-!
# Resolution without state

The properties of an instance as a function of the graph alone: every declared property in order,
a primitive as its literal, a collection as its resolved elements, and a nested instance as the
construction from its own resolution. What cannot be represented is left out. There is no output, no
path and no list of warnings here; an instance whose unfolding does not end, or that names something
unknown, has no resolution.

The unfolding is followed to a bounded depth. `resolve_eq` shows that the bound plays no part: each
level adds an instance of the graph to those that have a resolution, or else there are no more to
come.
-/

namespace DesignGraph

/-- The name under which the type of an instance is constructed. -/
def Graph.componentName (graph : Graph) (inst : Instance) : String :=
  match graph.types.get? inst.type with
  | some type => type.name
  | none => inst.type

namespace Resolution

/-- How nested instances are resolved. -/
abbrev Resolver := Instance → Option (OrderedMap String Property)

variable (target : Target) (bindings : OrderedMap String Binding) (graph : Graph)

/-- The expression for a nested instance: that of its binding, or its construction. -/
def constructionOf? (type : String) (inst : Instance) (spec : Spec) : Option String :=
  match (bindings.get? type).bind Binding.initializer with
  | some construct => (construct inst).toOption
  | none => some (target.construction spec)

/-- The property for a value so many collections deep, `some none` if it is left out. -/
def resolveValueBy (nested : Resolver) (declaration : Declaration) :
    (depth : Nat) → Value → Option (Option Property)
  | 0, value =>
      if graph.isComponent declaration.type then do
        let inst ← graph.instance? value
        let properties ← nested inst
        let initializer ← constructionOf? target bindings declaration.type inst
          ⟨graph.componentName inst, properties, false⟩
        some (some {
          type := declaration.type
          initializer := initializer
          updatable := ((bindings.get? declaration.type).map Binding.updatable).getD true })
      else some (target.primitive declaration.type value).toOption
  | depth + 1, .list items => do
      let elements ← items.mapM fun item => resolveValueBy nested declaration depth item
      some (target.collect elements)
  | _ + 1, _ => some none

/-- The properties of an instance with these declarations, besides those that are done. -/
def resolveAllBy (nested : Resolver) (inst : Instance) :
    List Declaration → OrderedMap String Property → Option (OrderedMap String Property)
  | [], done => some done
  | declaration :: rest, done =>
      match inst.values.get? declaration.name with
      | none => resolveAllBy nested inst rest done
      | some value => do
          match ← resolveValueBy target bindings graph nested declaration declaration.depth
            value with
          | none => resolveAllBy nested inst rest done
          | some property =>
              resolveAllBy nested inst rest (done.insert declaration.name property)

/-- The properties of an instance whose unfolding has at most so many levels. -/
def resolveWithin : (levels : Nat) → Resolver
  | 0, _ => none
  | levels + 1, inst => do
      let type ← graph.types.get? inst.type
      resolveAllBy target bindings graph (resolveWithin levels) inst type.properties ∅

/-- The properties of an instance. An unfolding that ends has no more levels than there are
instances below the first one. -/
def resolve : Resolver :=
  resolveWithin target bindings graph (graph.instances.entries.length + 1)

/-- The properties of an instance with these declarations, its nested instances resolved. -/
def resolveAll (inst : Instance) (declarations : List Declaration)
    (done : OrderedMap String Property) : Option (OrderedMap String Property) :=
  resolveAllBy target bindings graph (resolve target bindings graph) inst declarations done

/-- The property for a value, its nested instances resolved. -/
def resolveValue (declaration : Declaration) (depth : Nat) (value : Value) :
    Option (Option Property) :=
  resolveValueBy target bindings graph (resolve target bindings graph) declaration depth value

/-- The resolution of an instance, empty if it has none. -/
def resolved (inst : Instance) : OrderedMap String Property :=
  (resolve target bindings graph inst).getD ∅

variable {target : Target} {bindings : OrderedMap String Binding}

/-- Who may use a component does not show in its construction. -/
theorem construction_congr {first second : Spec}
    (sameName : first.componentName = second.componentName)
    (sameProperties : first.properties = second.properties) :
    target.construction first = target.construction second := by
  cases target <;> simp only [Target.construction, sameName, sameProperties]

theorem constructionOf?_congr {type : String} {inst : Instance} {first second : Spec}
    (sameName : first.componentName = second.componentName)
    (sameProperties : first.properties = second.properties) :
    constructionOf? target bindings type inst first =
      constructionOf? target bindings type inst second := by
  unfold constructionOf?
  rw [construction_congr sameName sameProperties]

/-- Without an initializer of its own, a type is constructed from its properties. -/
theorem constructionOf?_of_unbound {type : String} (unbound : bindings.get? type = none)
    (inst : Instance) (spec : Spec) :
    constructionOf? target bindings type inst spec = some (target.construction spec) := by
  simp [constructionOf?, unbound]

section levels

variable {graph : Graph} {first second : Resolver} {declaration : Declaration}

/-- What the first resolves of the instances of the graph, the second resolves alike. -/
def Extends (graph : Graph) (first second : Resolver) : Prop :=
  ∀ entry ∈ graph.instances.entries, ∀ properties,
    first entry.2 = some properties → second entry.2 = some properties

theorem Extends.resolveValueBy (larger : Extends graph first second) {depth : Nat} {value : Value}
    {answer : Option Property}
    (resolved : resolveValueBy target bindings graph first declaration depth value = some answer) :
    resolveValueBy target bindings graph second declaration depth value = some answer := by
  induction depth generalizing value answer with
  | zero =>
    unfold Resolution.resolveValueBy at resolved ⊢
    split_ifs at resolved ⊢
    · simp only [Option.bind_eq_bind, Option.bind_eq_some_iff] at resolved ⊢
      obtain ⟨inst, found, properties, below, constructed⟩ := resolved
      obtain ⟨id, listed⟩ := Graph.exists_get?_of_instance? found
      have entry := OrderedMap.mem_entries_of_get? listed
      exact ⟨inst, found, properties, larger _ entry _ below, constructed⟩
    · exact resolved
  | succ depth ih =>
    cases value with
    | list items =>
      simp only [Resolution.resolveValueBy, Option.bind_eq_bind,
        Option.bind_eq_some_iff] at resolved ⊢
      obtain ⟨elements, mapped, collected⟩ := resolved
      rw [Answers.mapM_eq_some_iff] at mapped
      have below := mapped.imp fun _ _ answered => ih answered
      refine ⟨elements, Answers.mapM_eq_some_iff.mpr below, ?_⟩
      exact collected
    | _ => exact resolved

theorem Extends.resolveAllBy (larger : Extends graph first second) {inst : Instance}
    {declarations : List Declaration} {done result : OrderedMap String Property}
    (resolved : resolveAllBy target bindings graph first inst declarations done = some result) :
    resolveAllBy target bindings graph second inst declarations done = some result := by
  induction declarations generalizing done with
  | nil => exact resolved
  | cons declaration rest ih =>
    unfold Resolution.resolveAllBy at resolved ⊢
    cases given : inst.values.get? declaration.name with
    | none =>
      simp only [given] at resolved ⊢
      exact ih resolved
    | some value =>
      simp only [given, Option.bind_eq_bind, Option.bind_eq_some_iff] at resolved ⊢
      obtain ⟨answer, answered, resolved⟩ := resolved
      refine ⟨answer, larger.resolveValueBy answered, ?_⟩
      cases answer with
      | none => exact ih resolved
      | some property => exact ih resolved

/-- If one level resolves no more than another, neither do the levels after them. -/
theorem Extends.resolveWithin {levels more : Nat}
    (larger : Extends graph (resolveWithin target bindings graph levels)
      (resolveWithin target bindings graph more)) {inst : Instance}
    {properties : OrderedMap String Property}
    (resolved : Resolution.resolveWithin target bindings graph (levels + 1) inst =
      some properties) :
    Resolution.resolveWithin target bindings graph (more + 1) inst = some properties := by
  simp only [Resolution.resolveWithin, Option.bind_eq_bind,
    Option.bind_eq_some_iff] at resolved ⊢
  obtain ⟨type, declared, resolved⟩ := resolved
  exact ⟨type, declared, larger.resolveAllBy resolved⟩

theorem extends_succ (levels : Nat) :
    Extends graph (resolveWithin target bindings graph levels)
      (resolveWithin target bindings graph (levels + 1)) := by
  induction levels with
  | zero =>
    intro entry member properties resolved
    cases resolved
  | succ levels ih => exact fun entry member properties => ih.resolveWithin

/-- The entries that have a resolution of at most so many levels. -/
def ending (target : Target) (bindings : OrderedMap String Binding) (graph : Graph)
    (levels : Nat) : List (String × Instance) :=
  graph.instances.entries.filter fun entry =>
    (resolveWithin target bindings graph levels entry.2).isSome

/-- A level that is not the last one adds an instance. -/
theorem length_ending_lt {levels : Nat}
    (grows : ¬ Extends graph (resolveWithin target bindings graph (levels + 1))
      (resolveWithin target bindings graph levels)) :
    (ending target bindings graph levels).length <
      (ending target bindings graph (levels + 1)).length := by
  simp only [Extends, not_forall] at grows
  obtain ⟨entry, member, properties, resolved, differs⟩ := grows
  have before : ending target bindings graph levels =
      (ending target bindings graph (levels + 1)).filter fun entry =>
        (resolveWithin target bindings graph levels entry.2).isSome := by
    rw [ending, ending, List.filter_filter]
    refine List.filter_congr fun other listed => ?_
    cases found : resolveWithin target bindings graph levels other.2 with
    | none => rfl
    | some earlier => simp [extends_succ levels other listed earlier found]
  rw [before, List.length_filter_lt_length_iff_exists]
  refine ⟨entry, List.mem_filter.mpr ⟨member, by simp [resolved]⟩, ?_⟩
  cases found : resolveWithin target bindings graph levels entry.2 with
  | none => simp
  | some earlier =>
    rw [← resolved, extends_succ levels entry member earlier found] at differs
    exact absurd found differs

/-- Where a level still adds an instance, each level before it has added one. -/
theorem lt_length_ending {levels : Nat}
    (grows : ¬ Extends graph (resolveWithin target bindings graph (levels + 1))
      (resolveWithin target bindings graph levels)) :
    levels < (ending target bindings graph (levels + 1)).length := by
  induction levels with
  | zero => exact Nat.zero_lt_of_lt (length_ending_lt grows)
  | succ levels ih =>
    have before : ¬ Extends graph (resolveWithin target bindings graph (levels + 1))
        (resolveWithin target bindings graph levels) :=
      fun stops => grows fun entry member properties => stops.resolveWithin
    exact Nat.lt_of_le_of_lt (ih before) (length_ending_lt grows)

/-- A level more than there are instances adds nothing. -/
theorem extends_of_length :
    Extends graph (resolveWithin target bindings graph (graph.instances.entries.length + 1))
      (resolveWithin target bindings graph graph.instances.entries.length) := by
  by_contra grows
  have many := lt_length_ending grows
  have bound : (ending target bindings graph (graph.instances.entries.length + 1)).length ≤
      graph.instances.entries.length := List.length_filter_le _ _
  omega

/-- An instance is resolved by resolving its declared properties. -/
theorem resolve_eq (inst : Instance) :
    resolve target bindings graph inst = (graph.types.get? inst.type).bind fun type =>
      resolveAll target bindings graph inst type.properties ∅ := by
  have opened : resolve target bindings graph inst = (graph.types.get? inst.type).bind fun type =>
      resolveAllBy target bindings graph
        (resolveWithin target bindings graph graph.instances.entries.length) inst
          type.properties ∅ := rfl
  rw [opened]
  refine Option.bind_congr fun type declared => Option.ext fun properties => ?_
  exact ⟨(extends_succ _).resolveAllBy, extends_of_length.resolveAllBy⟩

theorem resolveAll_nil (inst : Instance) (done : OrderedMap String Property) :
    resolveAll target bindings graph inst [] done = some done := rfl

theorem resolveAll_cons (inst : Instance) (declaration : Declaration) (rest : List Declaration)
    (done : OrderedMap String Property) :
    resolveAll target bindings graph inst (declaration :: rest) done =
      match inst.values.get? declaration.name with
      | none => resolveAll target bindings graph inst rest done
      | some value =>
          (resolveValue target bindings graph declaration declaration.depth value).bind fun
            | none => resolveAll target bindings graph inst rest done
            | some property => resolveAll target bindings graph inst rest
                (done.insert declaration.name property) := rfl

theorem resolveValue_zero (declaration : Declaration) (value : Value) :
    resolveValue target bindings graph declaration 0 value =
      if graph.isComponent declaration.type then
        (graph.instance? value).bind fun inst =>
          (resolve target bindings graph inst).bind fun properties =>
            (constructionOf? target bindings declaration.type inst
              ⟨graph.componentName inst, properties, false⟩).bind fun initializer =>
                some (some {
                  type := declaration.type
                  initializer := initializer
                  updatable := ((bindings.get? declaration.type).map Binding.updatable).getD true })
      else some (target.primitive declaration.type value).toOption := rfl

theorem resolveValue_list (declaration : Declaration) (depth : Nat) (items : List Value) :
    resolveValue target bindings graph declaration (depth + 1) (.list items) =
      (items.mapM fun item => resolveValue target bindings graph declaration depth item).bind
        fun elements => some (target.collect elements) := rfl

theorem resolveValue_not_list (declaration : Declaration) (depth : Nat) {value : Value}
    (different : ∀ items, value ≠ .list items) :
    resolveValue target bindings graph declaration (depth + 1) value = some none := by
  cases value with
  | list items => exact absurd rfl (different items)
  | _ => rfl

/-! ## Resolutions that end -/

theorem resolveAll_cons_eq_some_iff {inst : Instance} {declaration : Declaration}
    {rest : List Declaration} {done result : OrderedMap String Property} :
    resolveAll target bindings graph inst (declaration :: rest) done = some result ↔
      (inst.values.get? declaration.name = none ∧
        resolveAll target bindings graph inst rest done = some result) ∨
      ∃ value answer, inst.values.get? declaration.name = some value ∧
        resolveValue target bindings graph declaration declaration.depth value = some answer ∧
        resolveAll target bindings graph inst rest
          (answer.elim done (done.insert declaration.name)) = some result := by
  rw [resolveAll_cons]
  cases inst.values.get? declaration.name with
  | none => simp
  | some value =>
    simp only [Option.bind_eq_some_iff, reduceCtorEq, false_and, false_or, Option.some.injEq,
      exists_and_left, exists_eq_left']
    refine exists_congr fun answer => and_congr_right fun _ => ?_
    cases answer <;> rfl

/-- A component value is the construction from the resolution of its instance. -/
theorem resolveValue_component_eq_some_iff {declaration : Declaration} {value : Value}
    {answer : Option Property} (component : graph.isComponent declaration.type = true) :
    resolveValue target bindings graph declaration 0 value = some answer ↔
      ∃ inst properties initializer, graph.instance? value = some inst ∧
        resolve target bindings graph inst = some properties ∧
        constructionOf? target bindings declaration.type inst
          ⟨graph.componentName inst, properties, false⟩ = some initializer ∧
        answer = some ⟨declaration.type, initializer,
          ((bindings.get? declaration.type).map Binding.updatable).getD true⟩ := by
  simp only [resolveValue_zero, component, if_true, Option.bind_eq_some_iff, Option.some.injEq,
    eq_comm (b := answer), exists_and_left]

/-- A primitive value is resolved, if only to nothing. -/
theorem resolveValue_primitive {declaration : Declaration}
    (primitive : graph.isComponent declaration.type = false) (value : Value) :
    resolveValue target bindings graph declaration 0 value =
      some (target.primitive declaration.type value).toOption := by
  rw [resolveValue_zero, primitive, if_neg Bool.false_ne_true]

theorem resolveValue_list_eq_some_iff {declaration : Declaration} {depth : Nat}
    {items : List Value} {answer : Option Property} :
    resolveValue target bindings graph declaration (depth + 1) (.list items) = some answer ↔
      ∃ elements,
        items.mapM (resolveValue target bindings graph declaration depth) = some elements ∧
        answer = target.collect elements := by
  simp only [resolveValue_list, Option.bind_eq_some_iff, Option.some.injEq, eq_comm (b := answer)]

end levels

/-- A primitive property has a kind, and the literal of its value. -/
theorem toOption_primitive_eq_some_iff {kind : String} {value : Value} {property : Property} :
    (target.primitive kind value).toOption = some property ↔
      ∃ primitive literal, Primitive.ofName? kind = some primitive ∧
        target.literal? kind value = some literal ∧
        property = ⟨primitive.targetType target, literal, false⟩ := by
  unfold Target.primitive
  cases Primitive.ofName? kind with
  | none => simp [Except.toOption]
  | some primitive =>
    cases target.literal? kind value with
    | none => simp [Except.toOption]
    | some literal => simp [Except.toOption, eq_comm]

section properties

variable {graph : Graph} {inst : Instance} {name : String} {property : Property}

private theorem exists_declaration_of_resolveAll {declarations : List Declaration}
    {done result : OrderedMap String Property}
    (resolved : resolveAll target bindings graph inst declarations done = some result)
    (found : result.get? name = some property) :
    done.get? name = some property ∨ ∃ declaration ∈ declarations, declaration.name = name ∧
      ∃ value, inst.values.get? name = some value ∧
        resolveValue target bindings graph declaration declaration.depth value =
          some (some property) := by
  induction declarations generalizing done with
  | nil =>
    simp only [resolveAll_nil, Option.some.injEq] at resolved
    exact .inl (resolved ▸ found)
  | cons declaration rest ih =>
    -- Once the rest is dealt with, either it is a later declaration or one that was done before.
    have later : ∀ {done : OrderedMap String Property},
        resolveAll target bindings graph inst rest done = some result →
        done.get? name = some property ∨ ∃ other ∈ declaration :: rest, other.name = name ∧
          ∃ value, inst.values.get? name = some value ∧
            resolveValue target bindings graph other other.depth value =
              some (some property) := by
      intro done resolved
      rcases ih resolved with before | ⟨other, member, located⟩
      · exact .inl before
      · exact .inr ⟨other, by simp [member], located⟩
    rcases resolveAll_cons_eq_some_iff.mp resolved with
      ⟨-, resolved⟩ | ⟨value, answer, given, answered, resolved⟩
    · exact later resolved
    · cases answer with
      | none => exact later resolved
      | some new =>
        rcases later resolved with inserted | located
        · rw [Option.elim_some] at inserted
          by_cases same : name = declaration.name
          · subst name
            rw [OrderedMap.get?_insert_self] at inserted
            cases inserted
            exact .inr ⟨declaration, by simp, rfl, value, given, answered⟩
          · rw [OrderedMap.get?_insert_of_ne _ _ same] at inserted
            exact .inl inserted
        · exact .inr located

/-- Every property of a resolution is that of a declared value. -/
theorem exists_declaration_of_resolve {properties : OrderedMap String Property}
    (resolved : resolve target bindings graph inst = some properties)
    (found : properties.get? name = some property) :
    ∃ type, graph.types.get? inst.type = some type ∧ ∃ declaration ∈ type.properties,
      declaration.name = name ∧ ∃ value, inst.values.get? name = some value ∧
        resolveValue target bindings graph declaration declaration.depth value =
          some (some property) := by
  rw [resolve_eq, Option.bind_eq_some_iff] at resolved
  obtain ⟨type, declared, resolved⟩ := resolved
  rcases exists_declaration_of_resolveAll resolved found with nothing | located
  · simp at nothing
  · exact ⟨type, declared, located⟩

end properties

/-- The target type of a value so many collections deep, as far as its declaration tells. -/
def targetType? (target : Target) (graph : Graph) (declaration : Declaration) :
    (depth : Nat) → Option String
  | 0 =>
      if graph.isComponent declaration.type then some declaration.type
      else (Primitive.ofName? declaration.type).map fun kind => kind.targetType target
  | depth + 1 => (targetType? target graph declaration depth).map target.collectionType

private theorem collect_eq_some {elements : List (Option Property)} {property : Property}
    (collected : target.collect elements = some property) :
    ∃ first, some first ∈ elements ∧ property.type = target.collectionType first.type := by
  unfold Target.collect at collected
  cases kept : elements.filterMap id with
  | nil =>
    rw [kept] at collected
    cases collected
  | cons first rest =>
    rw [kept] at collected
    cases collected
    have member : first ∈ elements.filterMap id := by
      rw [kept]
      exact List.mem_cons_self
    obtain ⟨element, listed, rfl⟩ := List.mem_filterMap.mp member
    exact ⟨first, listed, rfl⟩

/-- The declaration of a property determines its target type. -/
theorem targetType?_of_resolveValue {graph : Graph} {declaration : Declaration} {depth : Nat}
    {value : Value} {property : Property}
    (resolved : resolveValue target bindings graph declaration depth value =
      some (some property)) :
    targetType? target graph declaration depth = some property.type := by
  induction depth generalizing value property with
  | zero =>
    cases component : graph.isComponent declaration.type with
    | true =>
      obtain ⟨inst, properties, initializer, -, -, -, ⟨⟩⟩ :=
        (resolveValue_component_eq_some_iff component).mp resolved
      simp [targetType?, component]
    | false =>
      rw [resolveValue_primitive component, Option.some.injEq] at resolved
      obtain ⟨primitive, literal, kind, -, rfl⟩ := toOption_primitive_eq_some_iff.mp resolved
      simp [targetType?, component, kind]
  | succ depth ih =>
    cases value with
    | list items =>
      obtain ⟨elements, mapped, collected⟩ := resolveValue_list_eq_some_iff.mp resolved
      obtain ⟨first, member, type_eq⟩ := collect_eq_some collected.symm
      obtain ⟨item, _, resolvedItem⟩ :=
        Answers.exists_item (Answers.mapM_eq_some_iff.mp mapped) member
      rw [targetType?, ih resolvedItem, type_eq, Option.map_some]
    | _ => simp [resolveValue_not_list] at resolved

end Resolution

end DesignGraph
