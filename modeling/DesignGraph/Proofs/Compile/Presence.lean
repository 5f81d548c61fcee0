import DesignGraph.Proofs.Compile.Resolution

/-!
# Which properties a resolution has

A resolution has a property if the instance gives it a value that the target can represent: an
instance always, a primitive if its kind fits, and a collection if one of its elements does. This is
read off the values alone, without any construction.
-/

namespace DesignGraph.Resolution

/-- Whether a value so many collections deep leads to an expression of the target. -/
def isRepresentable (target : Target) (graph : Graph) (declaration : Declaration) :
    (depth : Nat) → Value → Bool
  | 0, value =>
      graph.isComponent declaration.type ||
        (target.primitive declaration.type value).toOption.isSome
  | depth + 1, .list items => items.any (isRepresentable target graph declaration depth)
  | _ + 1, _ => false

/-- Whether the instance gives a declared property a value that the target can represent. -/
def isPresent (target : Target) (graph : Graph) (inst : Instance) (declaration : Declaration) :
    Bool :=
  (inst.values.get? declaration.name).any
    (isRepresentable target graph declaration declaration.depth)

/-- The names of the properties that are present, in declared order. -/
def provided (target : Target) (graph : Graph) (inst : Instance) : List String :=
  match graph.types.get? inst.type with
  | none => []
  | some type => (type.properties.filter (isPresent target graph inst)).map (·.name)

variable {target : Target} {bindings : OrderedMap String Binding} {graph : Graph}
  {declaration : Declaration} {inst : Instance} {properties : OrderedMap String Property}

/-- A collection is left out if all its elements are. -/
theorem isSome_collect (elements : List (Option Property)) :
    (target.collect elements).isSome = elements.any Option.isSome := by
  have kept : (target.collect elements).isSome = !(elements.filterMap id).isEmpty := by
    unfold Target.collect
    cases elements.filterMap id <;> rfl
  rw [kept]
  induction elements with
  | nil => rfl
  | cons element rest ih => cases element <;> simp_all [Target.collect]

private theorem any_of_mapM {α β : Type} {step : α → Option β} {test : α → Bool}
    {outcome : β → Bool} (agree : ∀ {a b}, step a = some b → outcome b = test a) {items : List α}
    {results : List β} (success : items.mapM step = some results) :
    results.any outcome = items.any test := by
  have pairs := Answers.mapM_eq_some_iff.mp success
  clear success
  induction pairs with
  | nil => rfl
  | cons first _ ih => rw [List.any_cons, List.any_cons, agree first, ih]

/-- A value that is resolved is left out if the target cannot represent it. -/
theorem isSome_of_resolveValue {depth : Nat} {value : Value} {answer : Option Property}
    (resolved : resolveValue target bindings graph declaration depth value = some answer) :
    answer.isSome = isRepresentable target graph declaration depth value := by
  induction depth generalizing value answer with
  | zero =>
    cases component : graph.isComponent declaration.type with
    | true =>
      obtain ⟨inst, properties, initializer, -, -, -, rfl⟩ :=
        (resolveValue_component_eq_some_iff component).mp resolved
      simp [isRepresentable, component]
    | false =>
      rw [resolveValue_primitive component, Option.some.injEq] at resolved
      subst answer
      simp [isRepresentable, component]
  | succ depth ih =>
    cases value with
    | list items =>
      obtain ⟨elements, mapped, rfl⟩ := resolveValue_list_eq_some_iff.mp resolved
      rw [isSome_collect, isRepresentable]
      exact any_of_mapM (fun resolvedItem => ih resolvedItem) mapped
    | _ =>
      obtain rfl : answer = none := by simpa [resolveValue_not_list] using resolved.symm
      rfl

private theorem keys_of_resolveAll {declarations : List Declaration}
    {done : OrderedMap String Property}
    (resolved : resolveAll target bindings graph inst declarations done = some properties) :
    properties.keys = (OrderedSet.insertAll ⟨done.keys⟩
      ((declarations.filter (isPresent target graph inst)).map (·.name))).items := by
  induction declarations generalizing done with
  | nil =>
    simp only [resolveAll_nil, Option.some.injEq] at resolved
    rw [resolved]
    rfl
  | cons declaration rest ih =>
    rcases resolveAll_cons_eq_some_iff.mp resolved with
      ⟨given, resolved⟩ | ⟨value, answer, given, answered, resolved⟩
    · have absent : isPresent target graph inst declaration = false := by simp [isPresent, given]
      rw [List.filter_cons_of_neg (by simp [absent])]
      exact ih resolved
    · have present : isPresent target graph inst declaration = answer.isSome := by
        rw [isSome_of_resolveValue answered, isPresent, given, Option.any_some]
      cases answer with
      | none =>
        rw [List.filter_cons_of_neg (by simp [present])]
        exact ih resolved
      | some property =>
        rw [List.filter_cons_of_pos (by simp [present]), ih resolved, List.map_cons,
          Option.elim_some, OrderedMap.keys_insert]
        rfl

/-- A resolution has the properties that are present, in declared order. -/
theorem keys_of_resolve (resolved : resolve target bindings graph inst = some properties) :
    properties.keys = (provided target graph inst).eraseDups := by
  rw [resolve_eq, Option.bind_eq_some_iff] at resolved
  obtain ⟨type, declared, resolved⟩ := resolved
  simp only [provided, declared]
  rw [← OrderedSet.items_ofList]
  exact keys_of_resolveAll resolved

theorem mem_keys_of_resolve (resolved : resolve target bindings graph inst = some properties)
    (name : String) : name ∈ properties.keys ↔ name ∈ provided target graph inst := by
  rw [keys_of_resolve resolved, List.mem_eraseDups]

end DesignGraph.Resolution
