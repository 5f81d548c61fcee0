import DesignGraph.Graph.Document
import DesignGraph.Proofs.Answers
import DesignGraph.Proofs.Graph.Cycle
import DesignGraph.Proofs.OrderedMap
import Mathlib.Tactic.SplitIfs

/-!
# Loaded graphs

A document that is accepted becomes a graph whose instances and types stand under their own ids and
names, in which every instance has a known type and none reaches itself.
-/

namespace DesignGraph

namespace Graph.IsKeyed

/-- A graph is keyed if its entries are. -/
theorem of_entries {graph : Graph} (ids : ∀ entry ∈ graph.instances.entries, entry.2.id = entry.1)
    (names : ∀ entry ∈ graph.types.entries, entry.2.name = entry.1) : graph.IsKeyed where
  id_eq found := ids _ (OrderedMap.mem_entries_of_get? found)
  name_eq found := names _ (OrderedMap.mem_entries_of_get? found)

end Graph.IsKeyed

namespace GraphDocument

/-- What every step of a fold preserves holds at its end. -/
private theorem foldlM_preserves {ε α β : Type} {step : β → α → Except ε β} {holds : β → Prop}
    (preserves : ∀ {before after : β} {a : α}, holds before → step before a = .ok after →
      holds after) {items : List α} {start result : β} (initial : holds start)
    (success : items.foldlM step start = .ok result) : holds result := by
  induction items generalizing start with
  | nil =>
    cases success
    exact initial
  | cons a rest ih =>
    rw [List.foldlM_cons] at success
    obtain ⟨next, first, others⟩ := Answers.bind_eq_ok_iff.mp success
    exact ih (preserves initial first) others

/-- Every value has the key that `key` gives it. -/
def KeyedBy {α : Type} (key : α → String) (m : OrderedMap String α) : Prop :=
  ∀ k a, m.get? k = some a → key a = k

private theorem keyedBy_empty {α : Type} {key : α → String} : KeyedBy key ∅ := by
  intro k a found
  cases found

private theorem KeyedBy.insert {α : Type} {key : α → String} {m : OrderedMap String α}
    (keyed : KeyedBy key m) (a : α) : KeyedBy key (m.insert (key a) a) := by
  intro k b found
  by_cases same : k = key a
  · subst k
    rw [OrderedMap.get?_insert_self] at found
    cases found
    rfl
  · rw [OrderedMap.get?_insert_of_ne _ _ same] at found
    exact keyed k b found

private theorem throw_ne_ok {ε α : Type} {fault : ε} {a : α} :
    (throw fault : Except ε α) ≠ .ok a := by
  intro same
  cases same

/-- Whether a type has the name already; a name that is no text is never taken. -/
def isDefined (types : OrderedMap String ComponentType) : Value → Bool
  | .text s => types.contains s
  | _ => false

/-- The declarations that the properties of a type stand for. -/
def declarationsOf (name : Value) : Value → Except Fault (List Declaration)
  | .map es => es.mapM fun entry => Declaration.parse entry.1 entry.2
  | v => if v.isTruthy then .error (.graph (.propertiesNotMapping name)) else .ok []

/-- Add a type with these declarations. -/
def addNamed (types : OrderedMap String ComponentType) (name : Value)
    (declarations : List Declaration) : Except Fault (OrderedMap String ComponentType) :=
  match name with
  | .text s => .ok (types.insert s ⟨s, declarations⟩)
  | _ => .error (.invalid [⟨[.key "name"], .textKind⟩])

theorem addType_eq (types : OrderedMap String ComponentType) (name properties : Value) :
    addType types name properties =
      if isDefined types name then .error (.graph (.typeRedefined name))
      else declarationsOf name properties >>= addNamed types name := by
  unfold addType
  change (if isDefined types name = true then _ else _) = _
  split_ifs with defined
  · rfl
  · cases properties with
    | map es => rfl
    | _ =>
      unfold declarationsOf
      simp only
      split_ifs <;> rfl

/-- A type is what an entry of the types declares. -/
structure Declares (entry : Value × Value) (type : ComponentType) : Prop where
  key_eq : entry.1 = .text type.name
  properties_eq : declarationsOf entry.1 entry.2 = .ok type.properties

/-- A type is added under its own name, which is a new one. -/
theorem addType_eq_ok {before after : OrderedMap String ComponentType} {name properties : Value}
    (success : addType before name properties = .ok after) :
    ∃ type : ComponentType, Declares (name, properties) type ∧ before.get? type.name = none ∧
      after = before.insert type.name type := by
  rw [addType_eq] at success
  split_ifs at success with defined
  obtain ⟨declarations, declared, named⟩ := Answers.bind_eq_ok_iff.mp success
  cases name with
  | text s =>
    cases named
    refine ⟨⟨s, declarations⟩, ⟨rfl, declared⟩, ?_, rfl⟩
    change ¬ before.contains s = true at defined
    rwa [OrderedMap.contains_eq_isSome, Option.not_isSome_iff_eq_none] at defined
  | _ => cases named

private theorem eq_ok_of_mapError {ε δ α : Type} {f : ε → δ} {a : α} : {answer : Except ε α} →
    answer.mapError f = .ok a → answer = .ok a
  | .ok _, rfl => rfl

/-- The values of an instance: the entries of a mapping whose keys are texts. -/
def valuesOf (fields : List (Value × Value)) : Checked (OrderedMap String Value) :=
  Checked.mapping .ok (Value.fieldOrEmpty fields "values")

theorem entries_textKeyed (pairs : List (String × Value)) :
    Checked.entries .ok (Value.textKeyed pairs) = .ok pairs := by
  induction pairs with
  | nil => rfl
  | cons pair rest ih =>
    change Checked.entries .ok ((.text pair.1, pair.2) :: Value.textKeyed rest) = _
    rw [Checked.entries, ih]
    rfl

theorem entries_eq_ok {es : List (Value × Value)} {pairs : List (String × Value)}
    (success : Checked.entries .ok es = .ok pairs) : es = Value.textKeyed pairs := by
  induction es generalizing pairs with
  | nil =>
    cases success
    rfl
  | cons entry rest ih =>
    obtain ⟨key, value⟩ := entry
    rw [Checked.entries] at success
    cases read : Checked.entries .ok rest with
    | error issues =>
      rw [read] at success
      cases key <;> cases success
    | ok others =>
      rw [read] at success
      cases key with
      | text s =>
        cases success
        rw [ih read]
        rfl
      | _ => cases success

/-- An instance is what an entry of the instances describes. -/
structure Describes (entry : Value × Value) (inst : Instance) : Prop where
  id_eq : inst.id = entry.1.plain
  exists_fields : ∃ fields pairs, entry.2 = .map fields ∧
    Value.field? fields "type" = some (.text inst.type) ∧
    Value.fieldOrEmpty fields "values" = .map (Value.textKeyed pairs) ∧
    inst.values = OrderedMap.ofList pairs ∧
    (inst.values.entries = pairs ↔ (pairs.map (·.1)).Nodup)

theorem valuesOf_eq_ok {fields : List (Value × Value)} {values : OrderedMap String Value}
    (success : valuesOf fields = .ok values) : ∃ pairs,
      Value.fieldOrEmpty fields "values" = .map (Value.textKeyed pairs) ∧
      values = OrderedMap.ofList pairs := by
  unfold valuesOf Checked.mapping at success
  split at success
  · next es given =>
    cases read : Checked.entries .ok es with
    | error issues =>
      rw [read] at success
      cases success
    | ok pairs =>
      rw [read] at success
      cases success
      exact ⟨pairs, given.trans (congrArg Value.map (entries_eq_ok read)), rfl⟩
  · cases success

/-- An instance of a known type is added under its own id. -/
theorem addInstance_eq_ok {types : OrderedMap String ComponentType}
    {before after : OrderedMap String Instance} {id raw : Value}
    (success : addInstance types before id raw = .ok after) :
    ∃ inst : Instance, Describes (id, raw) inst ∧ types.contains inst.type = true ∧
      after = before.insert inst.id inst := by
  unfold addInstance at success
  split at success
  · next entries =>
    split at success
    · exact absurd success throw_ne_ok
    · next type given =>
      simp only at success
      split_ifs at success with unknown
      · obtain ⟨_, never, _⟩ := Answers.bind_eq_ok_iff.mp success
        exact absurd never throw_ne_ok
      · obtain ⟨values, read, success⟩ := Answers.bind_eq_ok_iff.mp success
        cases success
        have known : types.contains type = true := by simpa using unknown
        obtain ⟨pairs, values_eq, rfl⟩ :=
          valuesOf_eq_ok (eq_ok_of_mapError (eq_ok_of_mapError read))
        have described : Describes (id, .map entries) ⟨id.plain, type, OrderedMap.ofList pairs⟩ :=
          ⟨rfl, entries, pairs, rfl, given, values_eq, rfl, OrderedMap.entries_ofList_iff⟩
        exact ⟨_, described, known, rfl⟩
    · split_ifs at success
  · exact absurd success throw_ne_ok

private theorem keyedBy_prefabs : KeyedBy ComponentType.name Prefab.types := by
  intro name type found
  have listed : ∀ entry ∈ Prefab.types.entries, entry.2.name = entry.1 := by decide
  exact listed _ (OrderedMap.mem_entries_of_get? found)

/-- Whether a document makes the prefab types available. -/
def hasDesignSystem : Value → Bool
  | .map entries => match Value.field? entries "design_system" with
      | some v => v.isTruthy
      | none => true
  | _ => false

/-- The types that a document has before its own. -/
def availableTypes (data : Value) : OrderedMap String ComponentType :=
  if hasDesignSystem data then Prefab.types else ∅

/-- The entries of a section of a document. -/
def sectionOf (data : Value) (name : String) : List (Value × Value) :=
  match data with
  | .map entries => (sectionEntries entries name).toOption.getD []
  | _ => []

private theorem sectionOf_eq {entries es : List (Value × Value)} {name : String}
    (given : sectionEntries entries name = .ok es) : sectionOf (.map entries) name = es := by
  rw [sectionOf, given]
  rfl

/-- The texts of the keys and values of entries. -/
def textPairs (entries : List (Value × Value)) : List (String × String) :=
  entries.map fun entry => (entry.1.plain, entry.2.plain)

/-- What an accepted document consists of. -/
structure Loaded (data : Value) (document : GraphDocument) : Prop where
  types_eq : (sectionOf data "types").foldlM (fun types entry => addType types entry.1 entry.2)
    (availableTypes data) = .ok document.graph.types
  instances_eq : (sectionOf data "instances").foldlM
    (fun instances entry => addInstance document.graph.types instances entry.1 entry.2) ∅ =
      .ok document.graph.instances
  noCycle : Graph.findCycle? document.graph.types document.graph.instances = none
  roots_eq : document.roots = OrderedMap.ofList (textPairs (sectionOf data "roots"))
  roots_ok : checkRoots document.graph.instances document.roots = .ok ()

theorem loaded_of_ofValue {data : Value} {document : GraphDocument}
    (success : ofValue data = .ok document) : Loaded data document := by
  unfold ofValue at success
  split at success
  · next entries =>
    simp only [Answers.bind_eq_ok_iff] at success
    obtain ⟨typeEntries, typesGiven, types, types_eq, instanceEntries, instancesGiven, instances,
      instances_eq, success⟩ := success
    split at success
    · obtain ⟨_, never, _⟩ := Answers.bind_eq_ok_iff.mp success
      exact absurd never throw_ne_ok
    · next noCycle =>
      simp only [Answers.bind_eq_ok_iff] at success
      obtain ⟨rootEntries, rootsGiven, ⟨⟩, roots_ok, success⟩ := success
      cases success
      refine ⟨?_, ?_, noCycle, ?_, roots_ok⟩
      · rw [sectionOf_eq typesGiven]
        exact types_eq
      · rw [sectionOf_eq instancesGiven]
        exact instances_eq
      · rw [sectionOf_eq rootsGiven]
        rfl
  · exact absurd success throw_ne_ok

/-- The loader gives every instance its key as id and every type its key as name. -/
theorem isKeyed_of_ofValue {data : Value} {document : GraphDocument}
    (success : ofValue data = .ok document) : document.graph.IsKeyed := by
  have loaded := loaded_of_ofValue success
  have names : KeyedBy ComponentType.name document.graph.types := by
    refine foldlM_preserves ?_ ?_ loaded.types_eq
    · intro before after entry keyed added
      obtain ⟨type, -, -, rfl⟩ := addType_eq_ok added
      exact keyed.insert type
    · unfold availableTypes
      split_ifs
      · exact keyedBy_prefabs
      · exact keyedBy_empty
  have ids : KeyedBy Instance.id document.graph.instances := by
    refine foldlM_preserves ?_ ?_ loaded.instances_eq
    · intro before after entry keyed added
      obtain ⟨inst, -, -, rfl⟩ := addInstance_eq_ok added
      exact keyed.insert inst
    · exact keyedBy_empty
  exact ⟨fun found => ids _ _ found, fun found => names _ _ found⟩

/-- Nothing that a document declares takes the place of a prefab type. -/
theorem prefab_of_ofValue {data : Value} {document : GraphDocument}
    (success : ofValue data = .ok document) (designSystem : hasDesignSystem data = true)
    {name : String} {type : ComponentType} (prefab : Prefab.types.get? name = some type) :
    document.graph.types.get? name = some type := by
  have loaded := loaded_of_ofValue success
  let keeps (types : OrderedMap String ComponentType) : Prop := types.get? name = some type
  change keeps document.graph.types
  refine foldlM_preserves ?_ ?_ loaded.types_eq
  · intro before after entry found added
    obtain ⟨new, -, fresh, rfl⟩ := addType_eq_ok added
    have other : name ≠ new.name := by
      rintro rfl
      cases found.symm.trans fresh
    change (before.insert new.name new).get? name = some type
    rwa [OrderedMap.get?_insert_of_ne _ _ other]
  · rwa [availableTypes, if_pos designSystem]

/-- Every instance has one of these types. -/
def TypesKnown (types : OrderedMap String ComponentType) (instances : OrderedMap String Instance) :
    Prop :=
  ∀ id inst, instances.get? id = some inst → types.contains inst.type = true

private theorem TypesKnown.insert {types : OrderedMap String ComponentType}
    {instances : OrderedMap String Instance} (known : TypesKnown types instances) {new : Instance}
    (newKnown : types.contains new.type = true) :
    TypesKnown types (instances.insert new.id new) := by
  intro id inst found
  by_cases same : id = new.id
  · subst id
    rw [OrderedMap.get?_insert_self] at found
    cases found
    exact newKnown
  · rw [OrderedMap.get?_insert_of_ne _ _ same] at found
    exact known id inst found

/-- The loader knows the type of every instance. -/
theorem exists_type_of_ofValue {data : Value} {document : GraphDocument}
    (success : ofValue data = .ok document) {id : String} {inst : Instance}
    (listed : document.graph.instances.get? id = some inst) :
    ∃ type, document.graph.types.get? inst.type = some type := by
  have loaded := loaded_of_ofValue success
  have known : TypesKnown document.graph.types document.graph.instances := by
    refine foldlM_preserves ?_ ?_ loaded.instances_eq
    · intro before after entry known added
      obtain ⟨new, -, newKnown, rfl⟩ := addInstance_eq_ok added
      exact known.insert newKnown
    · intro id inst found
      cases found
  have contained := known id inst listed
  rw [OrderedMap.contains_eq_isSome] at contained
  exact Option.isSome_iff_exists.mp contained

/-- The loader refuses every graph in which an id refers back to itself. -/
theorem not_transGen_of_ofValue {data : Value} {document : GraphDocument}
    (success : ofValue data = .ok document) (id : String) :
    ¬ Relation.TransGen document.graph.Refers id id := by
  have loaded := loaded_of_ofValue success
  exact Graph.not_transGen_of_findCycle? loaded.noCycle id

end GraphDocument

end DesignGraph
