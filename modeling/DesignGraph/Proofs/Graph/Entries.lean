import DesignGraph.Proofs.Graph.Document

/-!
# What becomes of the entries of a document

An accepted document has a type for every entry of its types, after the prefab types. Its instances
and its roots stand under the texts of their keys, so of two entries whose keys have one text, such
as a number and its numeral, the later one takes the place of the earlier one.
-/

namespace DesignGraph.GraphDocument

/-- Types under their names. -/
def namedTypes (types : List ComponentType) : List (String × ComponentType) :=
  types.map fun type => (type.name, type)

/-- Instances under their ids. -/
def keyedInstances (instances : List Instance) : List (String × Instance) :=
  instances.map fun inst => (inst.id, inst)

/-- Every entry of the types adds one type under a new name. -/
theorem exists_declared {items : List (Value × Value)}
    {start result : OrderedMap String ComponentType}
    (success : items.foldlM (fun types entry => addType types entry.1 entry.2) start =
      .ok result) :
    ∃ declared, List.Forall₂ Declares items declared ∧
      result.entries = start.entries ++ namedTypes declared ∧
      (start.keys.Nodup → result.keys.Nodup) := by
  induction items generalizing start with
  | nil =>
    cases success
    exact ⟨[], .nil, (List.append_nil _).symm, id⟩
  | cons entry rest ih =>
    rw [List.foldlM_cons] at success
    obtain ⟨next, first, others⟩ := Answers.bind_eq_ok_iff.mp success
    obtain ⟨type, declares, fresh, rfl⟩ := addType_eq_ok first
    have absent : type.name ∉ start.keys := by
      rw [OrderedMap.mem_keys, fresh]
      exact Bool.false_ne_true
    obtain ⟨declared, paired, entries_eq, distinct⟩ := ih others
    refine ⟨type :: declared, .cons declares paired, ?_, ?_⟩
    · rw [entries_eq, OrderedMap.entries_insert_of_not_mem _ absent, List.append_assoc]
      rfl
    · intro apart
      apply distinct
      rw [OrderedMap.keys_insert_of_not_mem _ absent]
      rw [← List.concat_eq_append]
      exact apart.concat absent

/-- Every entry of the instances gives the value under the text of its key. -/
theorem exists_described {types : OrderedMap String ComponentType} {items : List (Value × Value)}
    {start result : OrderedMap String Instance}
    (success : items.foldlM (fun instances entry => addInstance types instances entry.1 entry.2)
      start = .ok result) :
    ∃ described, List.Forall₂ Describes items described ∧
      result = (keyedInstances described).foldl (fun m pair => m.insert pair.1 pair.2) start := by
  induction items generalizing start with
  | nil =>
    cases success
    exact ⟨[], .nil, rfl⟩
  | cons entry rest ih =>
    rw [List.foldlM_cons] at success
    obtain ⟨next, first, others⟩ := Answers.bind_eq_ok_iff.mp success
    obtain ⟨inst, describes, -, rfl⟩ := addInstance_eq_ok first
    obtain ⟨described, paired, rfl⟩ := ih others
    exact ⟨inst :: described, .cons describes paired, rfl⟩

/-- Instances stand under the texts of the keys of their entries. -/
theorem map_fst_keyedInstances {items : List (Value × Value)} {described : List Instance}
    (paired : List.Forall₂ Describes items described) :
    (keyedInstances described).map (·.1) = items.map (·.1.plain) := by
  induction paired with
  | nil => rfl
  | cons describes _ ih => exact congr (congrArg List.cons describes.id_eq) ih

/-- Every type entry of an accepted document is kept, and the entries of the instances and of the
roots are kept exactly if no two of their keys have one text. Otherwise a text has the first place
and the last entry of those that share it. -/
theorem entries_are_kept_iff_texts_apart {data : Value} {document : GraphDocument}
    (success : ofValue data = .ok document) :
    (∃ declared, List.Forall₂ Declares (sectionOf data "types") declared ∧
      document.graph.types.entries = (availableTypes data).entries ++ namedTypes declared ∧
      document.graph.types.keys.Nodup) ∧
    (∃ described, List.Forall₂ Describes (sectionOf data "instances") described ∧
      document.graph.instances = OrderedMap.ofList (keyedInstances described) ∧
      (document.graph.instances.entries = keyedInstances described ↔
        ((sectionOf data "instances").map (·.1.plain)).Nodup)) ∧
    document.roots = OrderedMap.ofList (textPairs (sectionOf data "roots")) ∧
    (document.roots.entries = textPairs (sectionOf data "roots") ↔
      ((sectionOf data "roots").map (·.1.plain)).Nodup) := by
  have loaded := loaded_of_ofValue success
  refine ⟨?_, ?_, loaded.roots_eq, ?_⟩
  · obtain ⟨declared, paired, entries_eq, distinct⟩ := exists_declared loaded.types_eq
    refine ⟨declared, paired, entries_eq, distinct ?_⟩
    unfold availableTypes
    split_ifs
    · decide
    · exact List.nodup_nil
  · obtain ⟨described, paired, instances_eq⟩ := exists_described loaded.instances_eq
    refine ⟨described, paired, instances_eq, ?_⟩
    rw [instances_eq, ← map_fst_keyedInstances paired]
    exact OrderedMap.entries_ofList_iff
  · rw [loaded.roots_eq, OrderedMap.entries_ofList_iff, textPairs, List.map_map]
    rfl

/-! Two pages, one of them under a number. -/

namespace Paged

def page (title : String) : Value :=
  .map [(.text "type", .text "Page"), (.text "values", .map [(.text "title", .text title)])]

/-- The pages `first` and `second` under these keys. -/
def document (first second : Value) : Value := .map [
  (.text "design_system", .bool false),
  (.text "types", .map [(.text "Page", .map [(.text "title", .text "string")])]),
  (.text "instances", .map [(first, page "first"), (second, page "second")]),
  (.text "roots", .map [(.text "Page", first)])]

def pageNamed (id title : String) : String × Instance :=
  (id, ⟨id, "Page", ⟨[("title", .text title)]⟩⟩)

/-- The document of these pages, the first of which stands under `id`. -/
def loaded (id : String) (pages : List (String × Instance)) : GraphDocument where
  graph := ⟨⟨[("Page", ⟨"Page", [⟨"title", "string", 0⟩]⟩)]⟩, ⟨pages⟩⟩
  roots := ⟨[("Page", id)]⟩

end Paged

theorem pages_of_two_texts_are_kept :
    let data := Paged.document (.int 1) (.text "home")
    ∃ document, ofValue data = .ok document ∧
      (∃ described, List.Forall₂ Describes (sectionOf data "instances") described ∧
        document.graph.instances.entries = keyedInstances described) ∧
      document.roots.entries = textPairs (sectionOf data "roots") := by
  intro data
  have success : ofValue data = .ok (Paged.loaded "1"
      [Paged.pageNamed "1" "first", Paged.pageNamed "home" "second"]) := by
    with_unfolding_all rfl
  obtain ⟨-, ⟨described, paired, -, kept⟩, -, rootsKept⟩ :=
    entries_are_kept_iff_texts_apart success
  exact ⟨_, success, ⟨described, paired, kept.mpr (by decide +kernel)⟩,
    rootsKept.mpr (by decide +kernel)⟩

/-- The keys are the number `1` and the text of its numeral. -/
theorem pages_of_one_text_are_merged :
    let data := Paged.document (.int 1) (.text "1")
    Value.same (.int 1) (.text "1") = false ∧
    ∃ document, ofValue data = .ok document ∧
      document.graph.instances.entries = [Paged.pageNamed "1" "second"] ∧
      ¬ ∃ described, List.Forall₂ Describes (sectionOf data "instances") described ∧
        document.graph.instances.entries = keyedInstances described := by
  intro data
  have success : ofValue data = .ok (Paged.loaded "1" [Paged.pageNamed "1" "second"]) := by
    with_unfolding_all rfl
  refine ⟨by rfl, _, success, rfl, ?_⟩
  rintro ⟨described, paired, entries_eq⟩
  have two : (sectionOf data "instances").length = 2 := by with_unfolding_all rfl
  have one : 1 = (keyedInstances described).length := congrArg List.length entries_eq
  rw [keyedInstances, List.length_map, ← paired.length_eq, two] at one
  omega

end DesignGraph.GraphDocument
