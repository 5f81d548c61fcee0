import DesignGraph.Proofs.Compile.Presence
import DesignGraph.Proofs.Compile.Walk
import DesignGraph.Proofs.Compile.Singleton

/-!
# The shape of collections

A declaration says how many collections deep the values of a property lie. What a value has at that
depth is kept if the target can represent it, and so is every list with something left in it. The
rest is removed: values that the target cannot represent, whatever is no list where one is declared,
and lists in which nothing is left. The expression for a collection shows exactly what is kept, and
its target type follows from the declaration alone.
-/

namespace DesignGraph

open DesignGraph.Graph (elements leaves leaves_nil leaves_succ leaves_append)

namespace Value

/-- What is kept of a value so many collections deep, if anything: the leaves that count, and the
lists with something left. -/
def pruned (counts : Value → Bool) : (depth : Nat) → Value → Option Value
  | 0, leaf => if counts leaf then some leaf else none
  | depth + 1, .list items =>
      match items.filterMap (pruned counts depth) with
      | [] => none
      | parts => some (.list parts)
  | _ + 1, _ => none

/-- A value so many collections deep between brackets, with the given texts for its leaves. -/
def bracketed (text : Value → String) : (depth : Nat) → Value → String
  | 0, leaf => text leaf
  | depth + 1, .list items => "[" ++ ", ".intercalate (items.map (bracketed text depth)) ++ "]"
  | _ + 1, other => text other

variable {counts : Value → Bool} {text : Value → String}

/-- What is left of a list is the list of what is left of its elements. -/
theorem pruned_list (depth : Nat) (items : List Value) :
    pruned counts (depth + 1) (.list items) =
      if items.filterMap (pruned counts depth) = [] then none
      else some (.list (items.filterMap (pruned counts depth))) := by
  rw [pruned]
  split
  · next nothing => rw [if_pos nothing]
  · next something => rw [if_neg something]

private theorem leaves_filterMap_pruned {depth : Nat}
    (one : ∀ value, leaves depth (pruned counts depth value).toList =
      (leaves depth [value]).filter counts) (items : List Value) :
    leaves depth (items.filterMap (pruned counts depth)) = (leaves depth items).filter counts := by
  induction items with
  | nil => rw [List.filterMap_nil, leaves_nil, List.filter_nil]
  | cons item rest ih =>
    have split := leaves_append depth [item] rest
    rw [List.singleton_append] at split
    rw [split, List.filter_append, ← ih, ← one item, ← leaves_append]
    cases kept : pruned counts depth item with
    | none => rw [List.filterMap_cons_none kept, Option.toList_none, List.nil_append]
    | some part => rw [List.filterMap_cons_some kept, Option.toList_some, List.singleton_append]

/-- The leaves of what is kept are the leaves that count, in their order. -/
theorem leaves_pruned (counts : Value → Bool) (depth : Nat) (value : Value) :
    leaves depth (pruned counts depth value).toList = (leaves depth [value]).filter counts := by
  induction depth generalizing value with
  | zero =>
    by_cases counted : counts value
    · simp [pruned, leaves, counted]
    · simp [pruned, leaves, counted]
  | succ depth ih =>
    cases value with
    | list items =>
      rw [pruned_list, leaves_succ, leaves_succ]
      have below := leaves_filterMap_pruned ih items
      split_ifs with nothing
      · rw [nothing, leaves_nil] at below
        simpa [elements, leaves_nil] using below
      · simpa [elements] using below
    | _ => simp [pruned, leaves_succ, elements, leaves_nil]

end Value

namespace Target

variable {target : Target} {elements : List (Option Property)} {property : Property}

/-- Texts between brackets, if there are any. -/
def bracketedTexts? : List String → Option String
  | [] => none
  | texts => some ("[" ++ ", ".intercalate texts ++ "]")

theorem initializer_collect (target : Target) (elements : List (Option Property)) :
    (target.collect elements).map Property.initializer =
      bracketedTexts? (elements.filterMap (·.map Property.initializer)) := by
  have texts_eq : elements.filterMap (·.map Property.initializer) =
      (elements.filterMap id).map Property.initializer := by
    rw [List.map_filterMap]
    rfl
  rw [texts_eq, collect]
  cases elements.filterMap id with
  | nil => rfl
  | cons first rest => rfl

theorem not_updatable_of_collect (collected : target.collect elements = some property) :
    property.updatable = false := by
  unfold collect at collected
  split at collected
  · cases collected
  · cases collected
    rfl

end Target

/-- The text of what is kept of a list. -/
theorem Value.map_bracketed_pruned_list {counts : Value → Bool} {text : Value → String}
    (depth : Nat) (items : List Value) :
    (pruned counts (depth + 1) (.list items)).map (bracketed text (depth + 1)) =
      Target.bracketedTexts? (items.filterMap fun item =>
        (pruned counts depth item).map (bracketed text depth)) := by
  have texts_eq : (items.filterMap fun item => (pruned counts depth item).map
      (bracketed text depth)) =
        (items.filterMap (pruned counts depth)).map (bracketed text depth) :=
    List.map_filterMap.symm
  rw [texts_eq, pruned]
  cases items.filterMap (pruned counts depth) with
  | nil => rfl
  | cons first rest => rfl

namespace Resolution

variable {target : Target} {bindings : OrderedMap String Binding} {graph : Graph}
  {declaration : Declaration}

/-- The expression for a leaf: its literal, or the construction of the instance that it names. -/
def leafText (target : Target) (bindings : OrderedMap String Binding) (graph : Graph)
    (declaration : Declaration) (leaf : Value) : String :=
  ((resolveValue target bindings graph declaration 0 leaf).join.map Property.initializer).getD ""

/-- The target type of a collection wraps that of its leaves. -/
theorem targetType?_eq (depth : Nat) : targetType? target graph declaration depth =
    (targetType? target graph declaration 0).map target.collectionType^[depth] := by
  induction depth with
  | zero => simp
  | succ depth ih =>
    change (targetType? target graph declaration depth).map target.collectionType = _
    rw [ih, Option.map_map]
    exact Option.map_congr fun base _ => (Function.iterate_succ_apply' _ depth base).symm

example : Target.web.collectionType^[2] "number" = "number[][]" ∧
    Target.ios.collectionType^[2] "Int" = "[[Int]]" := by decide

/-- What a value is resolved to shows what is kept of it. -/
theorem initializer_of_resolveValue {depth : Nat} {value : Value} {answer : Option Property}
    (resolved : resolveValue target bindings graph declaration depth value = some answer) :
    answer.map Property.initializer =
      (value.pruned (isRepresentable target graph declaration 0) depth).map
        (Value.bracketed (leafText target bindings graph declaration) depth) := by
  induction depth generalizing value answer with
  | zero =>
    have counted := isSome_of_resolveValue resolved
    have shown : leafText target bindings graph declaration value =
        (answer.map Property.initializer).getD "" := by
      rw [leafText, resolved, Option.join_some]
    cases answer with
    | none => simp [Value.pruned, ← counted]
    | some property => simp [Value.pruned, ← counted, Value.bracketed, shown]
  | succ depth ih =>
    cases value with
    | list items =>
      obtain ⟨elements, mapped, rfl⟩ := resolveValue_list_eq_some_iff.mp resolved
      rw [Target.initializer_collect, Value.map_bracketed_pruned_list]
      congr 1
      have pairs := Answers.mapM_eq_some_iff.mp mapped
      clear mapped resolved
      induction pairs with
      | nil => rfl
      | cons first _ others => rw [List.filterMap_cons, List.filterMap_cons, ih first, others]
    | _ =>
      obtain rfl : answer = none := by simpa [resolveValue_not_list] using resolved.symm
      rfl

theorem not_updatable_of_resolveValue {depth : Nat} {value : Value} {property : Property}
    (resolved : resolveValue target bindings graph declaration (depth + 1) value =
      some (some property)) : property.updatable = false := by
  cases value with
  | list items =>
    obtain ⟨elements, -, collected⟩ := resolveValue_list_eq_some_iff.mp resolved
    exact Target.not_updatable_of_collect collected.symm
  | _ => simp [resolveValue_not_list] at resolved

end Resolution

namespace Compilation

variable {setup : Setup} {visit : Instance → Reference → Compilation Spec}

/-- How instances are visited when a value is resolved, from outside the walk and inside it. -/
inductive IsVisit (setup : Setup) : (Instance → Reference → Compilation Spec) → Prop
  | outside : IsVisit setup fun inst reference => process setup false inst (some reference)
  | inside (hops : Nat) (path : List String) :
      IsVisit setup fun inst reference => walk setup hops path false inst (some reference)

theorem IsVisit.visiting (isVisit : IsVisit setup visit) : Visiting setup visit := by
  cases isVisit with
  | outside =>
    intro inst reference before after spec success
    obtain ⟨⟨visits, visited⟩, resolved⟩ := process_yields success
    exact ⟨⟨visits, visited.unpublished⟩, resolved⟩
  | inside hops path => exact visiting_visitBelow hops path

/-- Collections keep their declared shape. A value that lies in collections resolves to a property
exactly if something of it is kept. Its target type is that of the declared type, wrapped as often
as declared; its expression is what is kept, in order and between brackets; and it is not updatable.
The leaves that are kept are those that the target can represent. Whatever is resolved so many
collections deep has the same target type, so all elements of a list have that of the first. -/
theorem collections_keep_shape (isVisit : IsVisit setup visit) {parent : String}
    {declaration : Declaration} {depth : Nat} (deep : 0 < depth) {value : Value}
    {before after : Compiler} {answer : Option Property}
    (resolved : (propertyOf setup visit parent declaration depth value).Yields before answer
      after) :
    let target := setup.target
    let graph := before.program.graph
    let counts := Resolution.isRepresentable target graph declaration 0
    let text := Resolution.leafText target setup.bindings graph declaration
    (answer.isSome = true ↔ (value.pruned counts depth).isSome = true) ∧
    ∀ property, answer = some property → ∃ base kept,
      Resolution.targetType? target graph declaration 0 = some base ∧
      value.pruned counts depth = some kept ∧
      Graph.leaves depth [kept] = (Graph.leaves depth [value]).filter counts ∧
      property = ⟨target.collectionType^[depth] base, kept.bracketed text depth, false⟩ ∧
      ∀ level part element first last, first.program.graph = graph →
        (propertyOf setup visit parent declaration level part).Yields first (some element) last →
          element.type = target.collectionType^[level] base := by
  intro target graph counts text
  have visiting : Visiting setup visit := isVisit.visiting
  obtain ⟨-, answered⟩ := propertyOf_yields visiting resolved
  have shown := Resolution.initializer_of_resolveValue answered
  refine ⟨?_, ?_⟩
  · rw [← Option.isSome_map (f := Property.initializer), shown, Option.isSome_map]
  · rintro property rfl
    obtain ⟨depth, rfl⟩ := Nat.exists_eq_succ_of_ne_zero (Nat.ne_of_gt deep)
    have typed := Resolution.targetType?_of_resolveValue answered
    rw [Resolution.targetType?_eq, Option.map_eq_some_iff] at typed
    obtain ⟨base, declared, type_eq⟩ := typed
    obtain ⟨kept, isKept, initializer_eq⟩ := Option.map_eq_some_iff.mp shown.symm
    have leaves_eq := Value.leaves_pruned counts (depth + 1) value
    rw [isKept] at leaves_eq
    refine ⟨base, kept, declared, isKept, leaves_eq, ?_, ?_⟩
    · calc property = ⟨property.type, property.initializer, property.updatable⟩ := rfl
        _ = _ := by
          rw [← type_eq, ← initializer_eq, Resolution.not_updatable_of_resolveValue answered]
    · intro level part element first last same yielded
      obtain ⟨-, elementResolved⟩ := propertyOf_yields visiting yielded
      have elementTyped := Resolution.targetType?_of_resolveValue elementResolved
      rw [same, Resolution.targetType?_eq, declared, Option.map_some] at elementTyped
      exact (Option.some.inj elementTyped).symm

/-- A grid with a text and a plain number among the numbers. A row of no numbers is left out. -/
theorem grid_keeps_shape :
    let before : Compiler := { program := page, tree := {} }
    let visit (inst : Instance) (reference : Reference) : Compilation Spec :=
      process unboundWeb false inst (some reference)
    let declaration : Declaration := ⟨"grid", "int", 2⟩
    let grid : Value := .list [.list [.int 1, .text "x"], .int 7, .list [.text "y"],
      .list [.int 2, .int 3]]
    let kept : Value := .list [.list [.int 1], .list [.int 2, .int 3]]
    IsVisit unboundWeb visit ∧ 0 < declaration.depth ∧ ∃ after property,
      (propertyOf unboundWeb visit "Page" declaration declaration.depth grid).Yields before
        (some property) after ∧
      property.type = "number[][]" ∧ property.initializer = "[[1], [2, 3]]" ∧
      Graph.leaves 2 [kept] = (Graph.leaves 2 [grid]).filter
        (Resolution.isRepresentable .web page.graph declaration 0) := by
  intro before visit declaration grid kept
  let step := propertyOf unboundWeb visit "Page" declaration declaration.depth grid
  have resolved : step.Yields before (some ⟨"number[][]", "[[1], [2, 3]]", false⟩)
      (step.outcome before).2 := yields_outcome (by rfl)
  obtain ⟨-, shape⟩ := collections_keep_shape .outside (by decide) resolved
  obtain ⟨-, found, -, isKept, leaves_eq, -, -⟩ := shape _ rfl
  obtain rfl : kept = found := Option.some.inj isKept
  exact ⟨.outside, by decide, _, _, resolved, rfl, rfl, leaves_eq⟩

end Compilation

end DesignGraph
