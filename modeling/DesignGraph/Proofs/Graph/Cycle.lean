import DesignGraph.Proofs.Graph.Preorder
import DesignGraph.Proofs.OrderedMap
import Mathlib.Data.List.Chain
import Mathlib.Data.List.Nodup
import Mathlib.Data.List.Perm.Subperm
import Mathlib.Tactic.SplitIfs

/-!
# Cycles of references

The search for cycles is exact: it finds one if an instance reaches itself, wherever in the graph it
is, and what it finds is a cycle that passes through no id twice.

A search that finds none has shown each id that it visits to be the start of finite paths only
(`Acc`). An id that was visited before and is not on the path has been settled in this way, so it
may be passed over (`search_ok`). The bound on the path is never met, since its ids are distinct and
all of them listed (`Trail.length_le`).
-/

namespace DesignGraph

/-- Each id refers to the next, the last is the first again, and no other one is repeated. -/
structure IsCycle (refers : String → String → Prop) (ids : List String) : Prop where
  chain : ids.IsChain refers
  closed : ids.head? = ids.getLast?
  long : 2 ≤ ids.length
  distinct : ids.dropLast.Nodup

/-- A path of distinct ids among the listed ones, and the id that it leads to. -/
structure Trail (refers : String → String → Prop) (listed path : List String) (id : String) :
    Prop where
  chain : (path ++ [id]).IsChain refers
  distinct : path.Nodup
  mem_listed : ∀ other ∈ path ++ [id], other ∈ listed

namespace Trail

variable {refers : String → String → Prop} {listed path : List String} {id next : String}

theorem start (member : id ∈ listed) : Trail refers listed [] id :=
  ⟨.singleton id, .nil, by simpa using member⟩

theorem extend (trail : Trail refers listed path id) (fresh : id ∉ path) (step : refers id next)
    (member : next ∈ listed) : Trail refers listed (path ++ [id]) next where
  chain := by
    rw [List.append_assoc]
    exact List.isChain_split.mpr ⟨trail.chain, .cons_cons step (.singleton next)⟩
  distinct := by
    rw [← List.concat_eq_append, List.nodup_concat]
    exact ⟨fresh, trail.distinct⟩
  mem_listed := by
    intro other onPath
    rcases List.mem_append.mp onPath with onPath | onPath
    · exact trail.mem_listed other onPath
    · rwa [List.mem_singleton.mp onPath]

theorem length_le (trail : Trail refers listed path id) : path.length ≤ listed.length := by
  refine (trail.distinct.subperm ?_).length_le
  intro other onPath
  exact trail.mem_listed other (List.mem_append_left _ onPath)

/-- A trail that leads back to an id on its path closes a cycle. -/
theorem isCycle (trail : Trail refers listed path id) (closes : id ∈ path) :
    IsCycle refers (path.dropWhile (· ≠ id) ++ [id]) := by
  obtain ⟨before, rest, rfl⟩ := List.append_of_mem closes
  have first : id ∉ before := by
    intro earlier
    obtain ⟨-, -, apart⟩ := List.nodup_append.mp trail.distinct
    exact apart id earlier id List.mem_cons_self rfl
  have cut : (before ++ id :: rest).dropWhile (· ≠ id) = id :: rest := by
    rw [List.dropWhile_append_of_pos, List.dropWhile_cons_of_neg (by simp)]
    intro other earlier
    have different : other ≠ id := fun same => first (same ▸ earlier)
    simpa using different
  rw [cut]
  refine ⟨?_, ?_, by simp, ?_⟩
  · have chain := trail.chain
    rw [List.append_assoc, List.cons_append] at chain
    exact chain.right_of_append
  · rw [List.getLast?_concat, List.cons_append, List.head?_cons]
  · rw [List.dropLast_concat]
    exact (List.nodup_append.mp trail.distinct).2.1

end Trail

namespace IsCycle

variable {refers : String → String → Prop} {ids : List String}

/-- The first id of a cycle leads back to itself. -/
theorem exists_transGen_self (cycle : IsCycle refers ids) :
    ∃ id, ids.head? = some id ∧ Relation.TransGen refers id id := by
  obtain ⟨chain, closed, long, -⟩ := cycle
  match ids with
  | first :: second :: rest =>
    obtain ⟨step, onward⟩ := List.isChain_cons_cons.mp chain
    have last : (second :: rest).getLast (List.cons_ne_nil _ _) = first := by
      rw [List.head?_cons, List.getLast?_cons_cons,
        List.getLast?_eq_some_getLast (List.cons_ne_nil _ _)] at closed
      exact (Option.some.inj closed).symm
    have back := List.relationReflTransGen_of_exists_isChain_cons _ onward last
    exact ⟨first, rfl, .head' step back⟩

end IsCycle

namespace Graph

section search

variable {refs : String → List String} {listed path visited : List String} {id : String}
  {hops : Nat}

/-- An id that is settled starts finite paths only. -/
abbrev Settled (refs : String → List String) : String → Prop :=
  Acc fun next id => next ∈ refs id

/-- What is settled lies on no cycle. -/
theorem Settled.not_transGen_self (settled : Settled refs id) :
    ¬ Relation.TransGen (fun id next => next ∈ refs id) id id := by
  induction settled with
  | intro id _ ih =>
    intro cycle
    obtain ⟨next, step, back⟩ := Relation.TransGen.head'_iff.mp cycle
    exact ih next step (.tail' back step)

private theorem exists_of_foldlM_error {ε α β : Type} {step : β → α → Except ε β} {items : List α}
    {start : β} {fault : ε} (failed : items.foldlM step start = .error fault) :
    ∃ a ∈ items, ∃ before, step before a = .error fault := by
  induction items generalizing start with
  | nil => cases failed
  | cons a rest ih =>
    rw [List.foldlM_cons] at failed
    cases first : step start a with
    | error reason =>
      rw [first] at failed
      cases failed
      exact ⟨a, List.mem_cons_self, start, first⟩
    | ok next =>
      rw [first] at failed
      obtain ⟨b, member, before, later⟩ := ih failed
      exact ⟨b, List.mem_cons_of_mem a member, before, later⟩

/-- What each step of a fold preserves holds at its end, and what it establishes for its item holds
for all of them. -/
private theorem foldlM_ok {ε α β : Type} {step : β → α → Except ε β} {holds : β → Prop}
    (done : α → Prop) {items : List α}
    (each : ∀ a ∈ items, ∀ {before after : β}, holds before → step before a = .ok after →
      holds after ∧ done a) {start result : β} (initial : holds start)
    (success : items.foldlM step start = .ok result) : holds result ∧ ∀ a ∈ items, done a := by
  induction items generalizing start with
  | nil =>
    cases success
    exact ⟨initial, by simp⟩
  | cons a rest ih =>
    rw [List.foldlM_cons] at success
    cases first : step start a with
    | error reason =>
      rw [first] at success
      cases success
    | ok next =>
      rw [first] at success
      obtain ⟨between, doneFirst⟩ := each a List.mem_cons_self initial first
      obtain ⟨atEnd, doneRest⟩ :=
        ih (fun b member => each b (List.mem_cons_of_mem a member)) between success
      exact ⟨atEnd, List.forall_mem_cons.mpr ⟨doneFirst, doneRest⟩⟩

/-- What a search from the end of a trail finds is a cycle. -/
theorem search_error (stays : ∀ source, ∀ next ∈ refs source, next ∈ listed)
    (trail : Trail (fun id next => next ∈ refs id) listed path id) {ids : List String}
    (found : search refs hops path visited id = .error ids) :
    IsCycle (fun id next => next ∈ refs id) ids := by
  induction hops generalizing path visited id with
  | zero => cases found
  | succ hops ih =>
    rw [search] at found
    split_ifs at found with onPath before
    · cases found
      exact trail.isCycle (by simpa using onPath)
    · obtain ⟨next, step, _, below⟩ := exists_of_foldlM_error found
      exact ih (trail.extend (by simpa using onPath) step (stays id next step)) below

/-- A search that finds no cycle settles its id, if all that was visited before and is not on the
path is settled. -/
theorem search_ok (stays : ∀ source, ∀ next ∈ refs source, next ∈ listed)
    (trail : Trail (fun id next => next ∈ refs id) listed path id)
    (room : listed.length < path.length + hops)
    (earlier : ∀ other ∈ visited, other ∉ path → Settled refs other) {after : List String}
    (success : search refs hops path visited id = .ok after) :
    (∀ other ∈ after, other ∉ path → Settled refs other) ∧ Settled refs id := by
  induction hops generalizing path visited id after with
  | zero =>
    have bound := trail.length_le
    omega
  | succ hops ih =>
    rw [search] at success
    split_ifs at success with onPath before
    · cases success
      exact ⟨earlier, earlier id (by simpa using before) (by simpa using onPath)⟩
    · have fresh : id ∉ path := by simpa using onPath
      -- While the references are followed the id is on the path, and need not be settled.
      have start : ∀ other ∈ id :: visited, other ∉ path ++ [id] → Settled refs other := by
        intro other member off
        rw [List.mem_append, List.mem_singleton, not_or] at off
        rcases List.mem_cons.mp member with same | member
        · exact absurd same off.2
        · exact earlier other member off.1
      obtain ⟨others, below⟩ := foldlM_ok (Settled refs)
        (fun next step _ _ settled found => ih (trail.extend fresh step (stays id next step))
          (by simp only [List.length_append, List.length_singleton]; omega) settled found)
        start success
      have settled : Settled refs id := .intro id below
      refine ⟨?_, settled⟩
      intro other member off
      by_cases same : other = id
      · rwa [same]
      · exact others other member (by simp [off, same])

end search

/-- Going so many lists deep leads from a value to the other one. -/
inductive Within : (depth : Nat) → (value leaf : Value) → Prop
  | here (value : Value) : Within 0 value value
  | inside {depth : Nat} {items : List Value} {item leaf : Value} (member : item ∈ items)
      (below : Within depth item leaf) : Within (depth + 1) (.list items) leaf

theorem mem_leaves {depth : Nat} {values : List Value} {leaf : Value} :
    leaf ∈ leaves depth values ↔ ∃ value ∈ values, Within depth value leaf := by
  induction depth generalizing values with
  | zero =>
    constructor
    · intro member
      exact ⟨leaf, member, .here leaf⟩
    · rintro ⟨_, member, ⟨⟩⟩
      exact member
  | succ depth ih =>
    rw [leaves_succ, ih, elements]
    constructor
    · rintro ⟨item, member, below⟩
      obtain ⟨value, listed, inside⟩ := List.mem_flatMap.mp member
      cases value with
      | list items => exact ⟨_, listed, .inside inside below⟩
      | _ => cases inside
    · rintro ⟨_, listed, inside | ⟨member, below⟩⟩
      exact ⟨_, List.mem_flatMap.mpr ⟨_, listed, member⟩, below⟩

/-- A value is one of those that a component-typed property of an instance leads to. -/
def RefersAt (graph : Graph) (outer : Instance) (declaration : Declaration)
    (leaf : Value) : Prop :=
  graph.isComponent declaration.type = true ∧
    ∃ type, graph.types.get? outer.type = some type ∧ declaration ∈ type.properties ∧
      ∃ value, outer.values.get? declaration.name = some value ∧
        Within declaration.depth value leaf

theorem RefersAt.holds {graph : Graph} {outer inst : Instance} {declaration : Declaration}
    {leaf : Value} (refers : graph.RefersAt outer declaration leaf)
    (found : graph.instance? leaf = some inst) : graph.Holds outer inst := by
  obtain ⟨isComponent, type, declared, ofType, value, held, within⟩ := refers
  refine holds_iff.mpr ⟨type, declared, declaration, ofType, value, held, ?_⟩
  refine mem_heldIn.mpr ⟨isComponent, leaf, ?_, found⟩
  exact mem_leaves.mpr ⟨value, List.mem_singleton_self value, within⟩

/-- A component-typed property of one instance holds the id of the other. -/
def Refers (graph : Graph) (source target : String) : Prop :=
  ∃ inst, graph.instances.get? source = some inst ∧
    ∃ type, graph.types.get? inst.type = some type ∧
      ∃ declaration ∈ type.properties, graph.isComponent declaration.type = true ∧
        ∃ value, inst.values.get? declaration.name = some value ∧
          Within declaration.depth value (.text target) ∧ graph.instances.contains target = true

variable {graph : Graph}

theorem mem_heldBy {inst : Instance} {declaration : Declaration} {target : String} :
    target ∈ heldBy graph.types graph.instances inst declaration ↔
      graph.isComponent declaration.type = true ∧
        ∃ value, inst.values.get? declaration.name = some value ∧
          Within declaration.depth value (.text target) ∧
            graph.instances.contains target = true := by
  unfold heldBy isComponent
  cases component : graph.types.contains declaration.type with
  | false => simp
  | true =>
    cases given : inst.values.get? declaration.name with
    | none => simp
    | some value =>
      simp only [if_true, List.mem_filterMap, mem_leaves, List.mem_singleton, exists_eq_left,
        Option.some.injEq, exists_eq_left', true_and]
      constructor
      · rintro ⟨leaf, below, same⟩
        split at same
        · split_ifs at same with known
          cases same
          exact ⟨below, known⟩
        · cases same
      · rintro ⟨below, known⟩
        exact ⟨_, below, by simp [known]⟩

theorem mem_references {inst : Instance} {target : String} :
    target ∈ references graph.types graph.instances inst ↔
      ∃ type, graph.types.get? inst.type = some type ∧
        ∃ declaration ∈ type.properties,
          target ∈ heldBy graph.types graph.instances inst declaration := by
  unfold references
  cases graph.types.get? inst.type with
  | none => simp
  | some type =>
    simp only [List.mem_mergeSort, List.mem_eraseDups, List.mem_flatMap, Option.some.injEq,
      exists_eq_left']

/-- The ids that the search goes on to from an id. -/
def neighbours (graph : Graph) (id : String) : List String :=
  match graph.instances.get? id with
  | some inst => references graph.types graph.instances inst
  | none => []

theorem mem_neighbours {source target : String} :
    target ∈ graph.neighbours source ↔ graph.Refers source target := by
  unfold neighbours Refers
  cases graph.instances.get? source with
  | none => simp
  | some inst =>
    simp only [Option.some.injEq, exists_eq_left', mem_references, mem_heldBy]

theorem mem_keys_of_refers {source target : String} (refers : graph.Refers source target) :
    source ∈ graph.instances.keys ∧ target ∈ graph.instances.keys := by
  obtain ⟨inst, found, _, _, _, _, _, _, _, _, known⟩ := refers
  rw [OrderedMap.contains_eq_isSome, ← OrderedMap.mem_keys] at known
  exact ⟨OrderedMap.mem_keys_of_get? found, known⟩

/-- Every instance stands under its own id. -/
def IdsAreKeys (graph : Graph) : Prop :=
  ∀ {id : String} {inst : Instance}, graph.instances.get? id = some inst → inst.id = id

/-- What a listed instance holds is listed, and the one refers to the other. -/
theorem IdsAreKeys.refers_of_holds (ids : graph.IdsAreKeys) {outer inner : Instance}
    (listed : graph.instances.get? outer.id = some outer) (holds : graph.Holds outer inner) :
    graph.instances.get? inner.id = some inner ∧ graph.Refers outer.id inner.id := by
  obtain ⟨type, declared, declaration, ofType, value, given, member⟩ := holds_iff.mp holds
  obtain ⟨component, leaf, inside, found⟩ := mem_heldIn.mp member
  obtain ⟨_, same, below⟩ := mem_leaves.mp inside
  cases List.mem_singleton.mp same
  cases leaf with
  | text id =>
    change graph.instances.get? id = some inner at found
    obtain rfl := ids found
    refine ⟨found, outer, listed, type, declared, declaration, ofType, component, value, given,
      below, ?_⟩
    rw [OrderedMap.contains_eq_isSome, found]
    rfl
  | _ => simp [instance?] at found

/-- An id that an instance refers to is that of an instance that it holds. -/
theorem exists_holds_of_refers {source target : String} {outer : Instance}
    (listed : graph.instances.get? source = some outer) (refers : graph.Refers source target) :
    ∃ inner, graph.instances.get? target = some inner ∧ graph.Holds outer inner := by
  obtain ⟨inst, found, type, declared, declaration, ofType, component, value, given, below,
    known⟩ := refers
  cases listed.symm.trans found
  rw [OrderedMap.contains_eq_isSome] at known
  obtain ⟨inner, reached⟩ := Option.isSome_iff_exists.mp known
  refine ⟨inner, reached, holds_iff.mpr ⟨type, declared, declaration, ofType, value, given, ?_⟩⟩
  exact mem_heldIn.mpr ⟨component, .text target,
    mem_leaves.mpr ⟨value, List.mem_singleton_self value, below⟩, reached⟩

/-- A path of references is one of instances, each holding the next. -/
theorem exists_transGen_holds {source target : String} {outer : Instance}
    (listed : graph.instances.get? source = some outer)
    (path : Relation.TransGen graph.Refers source target) :
    ∃ inner, graph.instances.get? target = some inner ∧
      Relation.TransGen graph.Holds outer inner := by
  induction path with
  | single refers =>
    obtain ⟨inner, found, holds⟩ := exists_holds_of_refers listed refers
    exact ⟨inner, found, .single holds⟩
  | tail _ refers ih =>
    obtain ⟨between, found, path⟩ := ih
    obtain ⟨inner, found, holds⟩ := exists_holds_of_refers found refers
    exact ⟨inner, found, path.tail holds⟩

theorem findCycle?_eq (graph : Graph) : findCycle? graph.types graph.instances =
    match graph.instances.keys.foldlM (fun visited id =>
      search graph.neighbours (graph.instances.entries.length + 1) [] visited id) [] with
    | .error ids => some ids
    | .ok _ => none := rfl

private theorem neighbours_listed (source : String) :
    ∀ next ∈ graph.neighbours source, next ∈ graph.instances.keys :=
  fun _ member => (mem_keys_of_refers (mem_neighbours.mp member)).2

/-- What the search over all instances finds is a cycle of references. -/
theorem isCycle_of_findCycle? {ids : List String}
    (found : findCycle? graph.types graph.instances = some ids) : IsCycle graph.Refers ids := by
  rw [findCycle?_eq] at found
  split at found
  · next cycle failed =>
    cases found
    obtain ⟨id, member, before, below⟩ := exists_of_foldlM_error failed
    have cycle := search_error neighbours_listed (.start member) below
    simpa only [mem_neighbours] using cycle
  · cases found

/-- If the search over all instances finds nothing, no id refers back to itself. -/
theorem not_transGen_of_findCycle? (none_found : findCycle? graph.types graph.instances = none)
    (id : String) : ¬ Relation.TransGen graph.Refers id id := by
  intro cycle
  rw [findCycle?_eq] at none_found
  split at none_found
  · cases none_found
  · next after success =>
    have room : graph.instances.keys.length <
        ([] : List String).length + (graph.instances.entries.length + 1) := by
      simp [OrderedMap.keys]
    obtain ⟨-, settled⟩ := foldlM_ok (Settled graph.neighbours)
      (fun id member _ _ earlier found =>
        search_ok neighbours_listed (.start member) room earlier found) (by simp) success
    obtain ⟨next, step, _⟩ := Relation.TransGen.head'_iff.mp cycle
    refine (settled id (mem_keys_of_refers step).1).not_transGen_self ?_
    simpa only [mem_neighbours] using cycle

/-- The search is exact: it finds a cycle if and only if there is one, whether a root leads to it or
not, and what it finds is one. -/
theorem findCycle?_exact (graph : Graph) :
    ((∃ ids, findCycle? graph.types graph.instances = some ids) ↔
      ∃ id, Relation.TransGen graph.Refers id id) ∧
    ∀ ids, findCycle? graph.types graph.instances = some ids → IsCycle graph.Refers ids := by
  refine ⟨⟨?_, ?_⟩, fun _ => isCycle_of_findCycle?⟩
  · rintro ⟨ids, found⟩
    obtain ⟨id, -, cycle⟩ := (isCycle_of_findCycle? found).exists_transGen_self
    exact ⟨id, cycle⟩
  · rintro ⟨id, cycle⟩
    by_contra none_found
    rw [← Option.isSome_iff_exists, Option.not_isSome_iff_eq_none] at none_found
    exact not_transGen_of_findCycle? none_found id cycle

/-- Two slides that lead to each other, one of them inside a list, beside a cover that leads to
neither. -/
def slides : Graph where
  types := ⟨[("Slide", ⟨"Slide", [⟨"next", "Slide", 0⟩, ⟨"links", "Slide", 1⟩]⟩)]⟩
  instances := ⟨[
    ("cover", ⟨"cover", "Slide", ⟨[]⟩⟩),
    ("first", ⟨"first", "Slide", ⟨[("next", .text "last")]⟩⟩),
    ("last", ⟨"last", "Slide", ⟨[("links", .list [.text "cover", .text "first"])]⟩⟩)]⟩

theorem slides_lead_back :
    slides.Refers "first" "last" ∧ slides.Refers "last" "first" ∧
      ∃ ids, findCycle? slides.types slides.instances = some ids ∧ IsCycle slides.Refers ids := by
  let type : ComponentType := ⟨"Slide", [⟨"next", "Slide", 0⟩, ⟨"links", "Slide", 1⟩]⟩
  have next : slides.Refers "first" "last" :=
    ⟨_, rfl, type, rfl, ⟨"next", "Slide", 0⟩, by decide, rfl, .text "last", rfl, .here _, rfl⟩
  have back : slides.Refers "last" "first" :=
    ⟨_, rfl, type, rfl, ⟨"links", "Slide", 1⟩, by decide, rfl,
      .list [.text "cover", .text "first"], rfl, .inside (by simp) (.here _), rfl⟩
  obtain ⟨ids, found⟩ := (findCycle?_exact slides).1.mpr ⟨"first", .tail (.single next) back⟩
  exact ⟨next, back, ids, found, (findCycle?_exact slides).2 ids found⟩

end Graph

end DesignGraph
