import DesignGraph.Proofs.Graph.Document

/-!
# How the loader refuses a document

A document that is not accepted is mostly refused with a cause that names what is wrong with the
graph. It ends in another fault exactly where the loader gets to a value of a shape that no check
looks at: a section that is no mapping, a type or a declared property whose name is no text, an
instance whose type is a list or a mapping, or values that are not a mapping with text keys.
-/

namespace DesignGraph

/-- Whether a fault names what is wrong with a graph. -/
def Fault.IsGraph : Fault → Prop
  | graph _ => True
  | _ => False

def Value.isText : Value → Bool
  | text _ => true
  | _ => false

/-- The answer is this fault, which does not name what is wrong with a graph. -/
def Escapes {α : Type} (answer : Except Fault α) (fault : Fault) : Prop :=
  answer = .error fault ∧ ¬ fault.IsGraph

section escapes

variable {α β : Type} {fault : Fault}

theorem not_escapes_ok {a : α} : ¬ Escapes (.ok a) fault := fun escapes => nomatch escapes.1

theorem not_escapes_graph {cause : GraphFault} :
    ¬ Escapes (.error (.graph cause) : Except Fault α) fault := by
  rintro ⟨same, other⟩
  cases same
  exact other trivial

theorem escapes_error_iff {given : Fault} (other : ¬ given.IsGraph) :
    Escapes (.error given : Except Fault α) fault ↔ fault = given := by
  constructor
  · rintro ⟨same, -⟩
    exact (Except.error.inj same).symm
  · rintro rfl
    exact ⟨rfl, other⟩

theorem escapes_bind_iff {first : Except Fault α} {next : α → Except Fault β} :
    Escapes (first >>= next) fault ↔
      Escapes first fault ∨ ∃ a, first = .ok a ∧ Escapes (next a) fault := by
  cases first with
  | error given =>
    constructor
    · rintro ⟨same, other⟩
      cases same
      exact .inl ⟨rfl, other⟩
    · rintro (⟨same, other⟩ | ⟨a, never, -⟩)
      · cases same
        exact ⟨rfl, other⟩
      · cases never
  | ok a =>
    constructor
    · exact fun escapes => .inr ⟨a, rfl, escapes⟩
    · rintro (never | ⟨_, ⟨⟩, escapes⟩)
      · exact absurd never not_escapes_ok
      · exact escapes

/-- A fold escapes at the first of its steps that does not succeed. -/
theorem escapes_foldlM_iff {step : β → α → Except Fault β} {items : List α} {start : β} :
    Escapes (items.foldlM step start) fault ↔ ∃ front item back reached,
      items = front ++ item :: back ∧ front.foldlM step start = .ok reached ∧
        Escapes (step reached item) fault := by
  induction items generalizing start with
  | nil =>
    constructor
    · exact fun escapes => absurd escapes not_escapes_ok
    · rintro ⟨front, item, back, _, split, -⟩
      simp at split
  | cons head rest ih =>
    rw [List.foldlM_cons, escapes_bind_iff]
    constructor
    · rintro (first | ⟨next, first, later⟩)
      · exact ⟨[], head, rest, start, rfl, rfl, first⟩
      · obtain ⟨front, item, back, reached, rfl, before, escapes⟩ := ih.mp later
        refine ⟨head :: front, item, back, reached, rfl, ?_, escapes⟩
        rw [List.foldlM_cons, Answers.bind_eq_ok_iff]
        exact ⟨next, first, before⟩
    · rintro ⟨front, item, back, reached, split, before, escapes⟩
      cases front with
      | nil =>
        cases split
        cases before
        exact .inl escapes
      | cons _ front =>
        cases split
        obtain ⟨next, first, before⟩ := Answers.bind_eq_ok_iff.mp before
        exact .inr ⟨next, first, ih.mpr ⟨front, item, back, reached, rfl, before, escapes⟩⟩

/-- A list of steps escapes at the first of them that does not succeed. -/
theorem escapes_mapM_iff {step : α → Except Fault β} {items : List α} :
    Escapes (items.mapM step) fault ↔ ∃ front item back answers,
      items = front ++ item :: back ∧ front.mapM step = .ok answers ∧
        Escapes (step item) fault := by
  induction items with
  | nil =>
    constructor
    · exact fun escapes => absurd escapes not_escapes_ok
    · rintro ⟨front, item, back, _, split, -⟩
      simp at split
  | cons head rest ih =>
    simp only [List.mapM_cons, escapes_bind_iff]
    constructor
    · rintro (first | ⟨answer, first, later | ⟨_, _, never⟩⟩)
      · exact ⟨[], head, rest, [], rfl, rfl, first⟩
      · obtain ⟨front, item, back, answers, rfl, before, escapes⟩ := ih.mp later
        refine ⟨head :: front, item, back, answer :: answers, rfl, ?_, escapes⟩
        rw [Answers.mapM_eq_ok_iff] at before ⊢
        exact .cons first before
      · exact absurd never not_escapes_ok
    · rintro ⟨front, item, back, answers, split, before, escapes⟩
      cases front with
      | nil =>
        cases split
        exact .inl escapes
      | cons _ front =>
        cases split
        rw [Answers.mapM_eq_ok_iff, List.forall₂_cons_left_iff] at before
        obtain ⟨answer, answers, first, before, rfl⟩ := before
        rw [← Answers.mapM_eq_ok_iff] at before
        exact .inr ⟨answer, first, .inl (ih.mpr ⟨front, item, back, answers, rfl, before, escapes⟩)⟩

end escapes

namespace GraphDocument

variable {data : Value} {fault : Fault}

/-- A name is no text. -/
def nameless : Fault := .invalid [⟨[.key "name"], .textKind⟩]

theorem not_escapes_ofEntries {name : Value} {entries : List (Value × Value)} :
    ¬ Escapes (Declaration.ofEntries name entries) fault := by
  unfold Declaration.ofEntries
  simp only
  split_ifs
  · exact not_escapes_graph
  · split
    · exact not_escapes_ok
    · exact not_escapes_graph

theorem escapes_parse_iff {name raw : Value} :
    Escapes (Declaration.parse name raw) fault ↔
      raw.isText = true ∧ name.isText = false ∧ fault = nameless := by
  cases raw with
  | text type =>
    cases name with
    | text s => exact (iff_of_false not_escapes_ok (by simp [Value.isText]))
    | _ => exact (escapes_error_iff id).trans (by simp [Value.isText, nameless])
  | map entries => simp [Declaration.parse, Value.isText, not_escapes_ofEntries]
  | _ => simp [Declaration.parse, Value.isText, not_escapes_graph]

theorem escapes_declarationsOf_iff {name properties : Value} :
    Escapes (declarationsOf name properties) fault ↔ ∃ front property raw back declarations,
      properties = .map (front ++ (property, raw) :: back) ∧
        declarationsOf name (.map front) = .ok declarations ∧
        raw.isText = true ∧ property.isText = false ∧ fault = nameless := by
  cases properties with
  | map es =>
    refine escapes_mapM_iff.trans ?_
    constructor
    · rintro ⟨front, ⟨property, raw⟩, back, declarations, rfl, before, escapes⟩
      obtain ⟨text, other, fault_eq⟩ := escapes_parse_iff.mp escapes
      exact ⟨front, property, raw, back, declarations, rfl, before, text, other, fault_eq⟩
    · rintro ⟨front, property, raw, back, declarations, ⟨⟩, before, wrong⟩
      exact ⟨front, _, back, declarations, rfl, before, escapes_parse_iff.mpr wrong⟩
  | _ =>
    constructor
    · intro escapes
      unfold declarationsOf at escapes
      simp only at escapes
      split_ifs at escapes
      · exact absurd escapes not_escapes_graph
      · exact absurd escapes not_escapes_ok
    · rintro ⟨front, property, raw, back, declarations, ⟨⟩, -⟩

theorem escapes_addNamed_iff {types : OrderedMap String ComponentType} {name : Value}
    {declarations : List Declaration} :
    Escapes (addNamed types name declarations) fault ↔ name.isText = false ∧ fault = nameless := by
  cases name with
  | text s => simp [addNamed, Value.isText, not_escapes_ok]
  | _ => exact (escapes_error_iff id).trans (by simp [Value.isText, nameless])

/-- An entry of the types has a name that is no text, or declares a property by a text under one. -/
inductive BreaksType (types : OrderedMap String ComponentType) (name properties : Value) : Prop
  | property {front back : List (Value × Value)} {property raw : Value}
      {declarations : List Declaration} (fresh : isDefined types name = false)
      (given : properties = .map (front ++ (property, raw) :: back))
      (before : declarationsOf name (.map front) = .ok declarations) (text : raw.isText = true)
      (wrong : property.isText = false)
  | name {declarations : List Declaration}
      (declared : declarationsOf name properties = .ok declarations) (wrong : name.isText = false)

theorem escapes_addType_iff {types : OrderedMap String ComponentType} {name properties : Value} :
    Escapes (addType types name properties) fault ↔
      BreaksType types name properties ∧ fault = nameless := by
  rw [addType_eq]
  cases defined : isDefined types name with
  | true =>
    constructor
    · exact fun escapes => absurd escapes not_escapes_graph
    · rintro ⟨breaks, -⟩
      cases breaks with
      | property fresh => exact absurd (fresh.symm.trans defined) Bool.false_ne_true
      | name _ wrong =>
        cases name with
        | text s => cases wrong
        | _ => cases defined
  | false =>
    rw [if_neg Bool.false_ne_true, escapes_bind_iff, escapes_declarationsOf_iff]
    simp only [escapes_addNamed_iff]
    constructor
    · rintro (⟨_, _, _, _, _, given, before, text, wrong, fault_eq⟩ |
        ⟨_, declared, wrong, fault_eq⟩)
      · exact ⟨.property defined given before text wrong, fault_eq⟩
      · exact ⟨.name declared wrong, fault_eq⟩
    · rintro ⟨breaks, fault_eq⟩
      cases breaks with
      | property _ given before text wrong =>
        exact .inl ⟨_, _, _, _, _, given, before, text, wrong, fault_eq⟩
      | name declared wrong => exact .inr ⟨_, declared, wrong, fault_eq⟩

/-- The values of an instance are a mapping with text keys, or not given. -/
def hasTextKeys (fields : List (Value × Value)) : Bool :=
  match Value.fieldOrEmpty fields "values" with
  | .map es => es.all fun entry => entry.1.isText
  | _ => false

/-- An instance has a list or a mapping as its type, or other values than a mapping with text
keys. -/
inductive BreaksInstance (types : OrderedMap String ComponentType) (raw : Value) : Fault → Prop
  | type {fields : List (Value × Value)} {type : Value} (given : raw = .map fields)
      (typed : Value.field? fields "type" = some type) (wrong : type.isKey = false) :
      BreaksInstance types raw .kind
  | values {fields : List (Value × Value)} {type : String} {issues : List Issue}
      (given : raw = .map fields) (typed : Value.field? fields "type" = some (.text type))
      (known : types.contains type = true) (wrong : hasTextKeys fields = false)
      (told : (valuesOf fields).under (.key "values") = .error issues) :
      BreaksInstance types raw (.invalid issues)

theorem exists_textKeyed {es : List (Value × Value)}
    (texts : ∀ entry ∈ es, entry.1.isText = true) : ∃ pairs, es = Value.textKeyed pairs := by
  induction es with
  | nil => exact ⟨[], rfl⟩
  | cons entry rest ih =>
    obtain ⟨first, others⟩ := List.forall_mem_cons.mp texts
    obtain ⟨pairs, rfl⟩ := ih others
    obtain ⟨key, value⟩ := entry
    cases key with
    | text s => exact ⟨(s, value) :: pairs, rfl⟩
    | _ => cases first

theorem exists_valuesOf {fields : List (Value × Value)} (texts : hasTextKeys fields = true) :
    ∃ values, valuesOf fields = .ok values := by
  unfold hasTextKeys at texts
  split at texts
  · next es given =>
    obtain ⟨pairs, rfl⟩ := exists_textKeyed (List.all_eq_true.mp texts)
    refine ⟨OrderedMap.ofList pairs, ?_⟩
    rw [valuesOf, given, Checked.mapping, entries_textKeyed]
    rfl
  · cases texts

/-- The values of an instance are refused if they are something else than a mapping with text
keys. -/
theorem escapes_values_iff {fields : List (Value × Value)} :
    Escapes (((valuesOf fields).under (.key "values")).mapError .invalid) fault ↔
      ∃ issues, hasTextKeys fields = false ∧
        (valuesOf fields).under (.key "values") = .error issues ∧ fault = .invalid issues := by
  cases told : (valuesOf fields).under (.key "values") with
  | error issues =>
    have wrong : hasTextKeys fields = false := by
      rw [← Bool.not_eq_true]
      intro texts
      obtain ⟨values, read⟩ := exists_valuesOf texts
      rw [read] at told
      cases told
    refine (escapes_error_iff id).trans ?_
    constructor
    · exact fun fault_eq => ⟨issues, wrong, rfl, fault_eq⟩
    · rintro ⟨_, -, ⟨⟩, fault_eq⟩
      exact fault_eq
  | ok values =>
    constructor
    · exact fun escapes => absurd escapes not_escapes_ok
    · rintro ⟨_, -, ⟨⟩, -⟩

theorem escapes_addInstance_iff {types : OrderedMap String ComponentType}
    {instances : OrderedMap String Instance} {key raw : Value} :
    Escapes (addInstance types instances key raw) fault ↔ BreaksInstance types raw fault := by
  constructor
  · intro escapes
    unfold addInstance at escapes
    split at escapes
    · next fields =>
      split at escapes
      · exact absurd escapes not_escapes_graph
      · next type typed =>
        simp only at escapes
        split_ifs at escapes with unknown
        · exact absurd escapes not_escapes_graph
        · have known : types.contains type = true := by simpa using unknown
          rcases escapes_bind_iff.mp escapes with refused | ⟨_, _, never⟩
          · obtain ⟨issues, wrong, told, rfl⟩ := escapes_values_iff.mp refused
            exact .values rfl typed known wrong told
          · exact absurd never not_escapes_ok
      · next type _ typed =>
        split_ifs at escapes with isKey
        · exact absurd escapes not_escapes_graph
        · obtain rfl := (escapes_error_iff id).mp escapes
          exact .type rfl typed (by simpa using isKey)
    · exact absurd escapes not_escapes_graph
  · intro breaks
    cases breaks with
    | @type fields type given typed wrong =>
      subst given
      unfold addInstance
      cases type with
      | list items =>
        simp only [typed]
        exact ⟨rfl, id⟩
      | map entries =>
        simp only [typed]
        exact ⟨rfl, id⟩
      | _ => cases wrong
    | @values fields type issues given typed known wrong told =>
      subst given
      unfold addInstance
      simp only [typed, known, Bool.not_true, Bool.false_eq_true, if_false]
      exact escapes_bind_iff.mpr (.inl (escapes_values_iff.mpr ⟨issues, wrong, told, rfl⟩))

/-! ## Sections -/

/-- A section of a document is a mapping of these entries, or not given. -/
def HasSection (data : Value) (name : String) (es : List (Value × Value)) : Prop :=
  ∃ entries, data = .map entries ∧ Value.fieldOrEmpty entries name = .map es

/-- A section of a document is given, but no mapping. -/
def MistakesSection (data : Value) (name : String) : Prop :=
  ∃ entries, data = .map entries ∧ ∀ es, Value.fieldOrEmpty entries name ≠ .map es

theorem sectionEntries_eq_ok_iff {entries es : List (Value × Value)} {name : String} :
    sectionEntries entries name = .ok es ↔ HasSection (.map entries) name es := by
  unfold sectionEntries
  split
  · next found given =>
    constructor
    · rintro ⟨⟩
      exact ⟨entries, rfl, given⟩
    · rintro ⟨_, ⟨⟩, same⟩
      cases given.symm.trans same
      rfl
  · next v other =>
    constructor
    · rintro ⟨⟩
    · rintro ⟨_, ⟨⟩, same⟩
      exact absurd same (other _)

theorem escapes_sectionEntries_iff {entries : List (Value × Value)} {name : String} :
    Escapes (sectionEntries entries name) fault ↔
      MistakesSection (.map entries) name ∧ fault = .missingMember := by
  unfold sectionEntries
  split
  · next found given =>
    constructor
    · exact fun escapes => absurd escapes not_escapes_ok
    · rintro ⟨⟨_, ⟨⟩, other⟩, -⟩
      exact absurd given (other _)
  · next v other =>
    refine (escapes_error_iff id).trans (Iff.symm (and_iff_right ?_))
    exact ⟨entries, rfl, other⟩

/-- The types that a document has with these entries. -/
def addTypes (data : Value) (items : List (Value × Value)) :
    Except Fault (OrderedMap String ComponentType) :=
  items.foldlM (fun types entry => addType types entry.1 entry.2) (availableTypes data)

/-- The instances of these types that entries describe. -/
def addInstances (types : OrderedMap String ComponentType) (items : List (Value × Value)) :
    Except Fault (OrderedMap String Instance) :=
  items.foldlM (fun instances entry => addInstance types instances entry.1 entry.2) ∅

theorem escapes_addTypes_iff (data : Value) (items : List (Value × Value)) :
    Escapes (addTypes data items) fault ↔ ∃ front name properties back types,
      items = front ++ (name, properties) :: back ∧ addTypes data front = .ok types ∧
        BreaksType types name properties ∧ fault = nameless := by
  refine escapes_foldlM_iff.trans ?_
  constructor
  · rintro ⟨front, ⟨name, properties⟩, back, types, split, before, refused⟩
    exact ⟨front, name, properties, back, types, split, before, escapes_addType_iff.mp refused⟩
  · rintro ⟨front, name, properties, back, types, split, before, wrong⟩
    exact ⟨front, _, back, types, split, before, escapes_addType_iff.mpr wrong⟩

theorem escapes_addInstances_iff (types : OrderedMap String ComponentType)
    (items : List (Value × Value)) :
    Escapes (addInstances types items) fault ↔ ∃ front key raw back instances,
      items = front ++ (key, raw) :: back ∧ addInstances types front = .ok instances ∧
        BreaksInstance types raw fault := by
  refine escapes_foldlM_iff.trans ?_
  constructor
  · rintro ⟨front, ⟨key, raw⟩, back, instances, split, before, refused⟩
    exact ⟨front, key, raw, back, instances, split, before, escapes_addInstance_iff.mp refused⟩
  · rintro ⟨front, key, raw, back, instances, split, before, wrong⟩
    exact ⟨front, _, back, instances, split, before, escapes_addInstance_iff.mpr wrong⟩

/-- All types and instances of a document can be loaded, and no instance reaches itself. -/
def LoadsGraph (data : Value) : Prop :=
  ∃ typeEntries types instanceEntries instances,
    HasSection data "types" typeEntries ∧ addTypes data typeEntries = .ok types ∧
    HasSection data "instances" instanceEntries ∧
    addInstances types instanceEntries = .ok instances ∧
    Graph.findCycle? types instances = none

/-- The loader gets to a value of a shape that no check looks at. -/
inductive Breaks (data : Value) : Fault → Prop
  | types (wrong : MistakesSection data "types") : Breaks data .missingMember
  | type {front back : List (Value × Value)} {name properties : Value}
      {types : OrderedMap String ComponentType}
      (given : HasSection data "types" (front ++ (name, properties) :: back))
      (before : addTypes data front = .ok types) (wrong : BreaksType types name properties) :
      Breaks data nameless
  | instances {entries : List (Value × Value)} {types : OrderedMap String ComponentType}
      (given : HasSection data "types" entries) (loaded : addTypes data entries = .ok types)
      (wrong : MistakesSection data "instances") : Breaks data .missingMember
  | inst {entries front back : List (Value × Value)} {id raw : Value}
      {types : OrderedMap String ComponentType} {instances : OrderedMap String Instance}
      (typesGiven : HasSection data "types" entries)
      (loaded : addTypes data entries = .ok types)
      (given : HasSection data "instances" (front ++ (id, raw) :: back))
      (before : addInstances types front = .ok instances) {fault : Fault}
      (wrong : BreaksInstance types raw fault) : Breaks data fault
  | roots (loads : LoadsGraph data) (wrong : MistakesSection data "roots") :
      Breaks data .missingMember

/-- What is no mapping is refused before anything else. -/
theorem Breaks.exists_entries (breaks : Breaks data fault) : ∃ entries, data = .map entries := by
  cases breaks with
  | types wrong => exact ⟨_, wrong.choose_spec.1⟩
  | type given => exact ⟨_, given.choose_spec.1⟩
  | instances given => exact ⟨_, given.choose_spec.1⟩
  | inst given => exact ⟨_, given.choose_spec.1⟩
  | roots _ wrong => exact ⟨_, wrong.choose_spec.1⟩

theorem not_escapes_checkRoots {instances : OrderedMap String Instance}
    {roots : OrderedMap String String} : ¬ Escapes (checkRoots instances roots) fault := by
  rw [checkRoots, List.forM_eq_forM]
  induction roots.entries with
  | nil => exact not_escapes_ok
  | cons root rest ih =>
    rw [List.forM_cons, escapes_bind_iff]
    rintro (first | ⟨_, _, later⟩)
    · simp only at first
      split_ifs at first
      · exact not_escapes_ok first
      · exact not_escapes_graph first
    · exact ih later

theorem escapes_ofValue_iff : Escapes (ofValue data) fault ↔ Breaks data fault := by
  constructor
  · intro escapes
    unfold ofValue at escapes
    split at escapes
    · next entries =>
      simp only [escapes_bind_iff, escapes_sectionEntries_iff, sectionEntries_eq_ok_iff] at escapes
      rcases escapes with ⟨wrong, rfl⟩ | ⟨typeEntries, typesGiven, escapes⟩
      · exact .types wrong
      rcases escapes with refused | ⟨types, typesLoaded, escapes⟩
      · obtain ⟨_, _, _, _, _, rfl, before, wrong, rfl⟩ :=
          (escapes_addTypes_iff (.map entries) _).mp refused
        exact .type typesGiven before wrong
      rcases escapes with ⟨wrong, rfl⟩ | ⟨instanceEntries, instancesGiven, escapes⟩
      · exact .instances typesGiven typesLoaded wrong
      rcases escapes with refused | ⟨instances, instancesLoaded, escapes⟩
      · obtain ⟨_, _, _, _, _, rfl, before, wrong⟩ := (escapes_addInstances_iff types _).mp refused
        exact .inst typesGiven typesLoaded instancesGiven before wrong
      split at escapes
      · exact absurd escapes not_escapes_graph
      · next noCycle =>
        have loads : LoadsGraph (.map entries) := ⟨_, _, _, _, typesGiven, typesLoaded,
          instancesGiven, instancesLoaded, noCycle⟩
        simp only [escapes_bind_iff, escapes_sectionEntries_iff] at escapes
        rcases escapes with ⟨wrong, rfl⟩ | ⟨_, _, never | ⟨_, _, never⟩⟩
        · exact .roots loads wrong
        · exact absurd never not_escapes_checkRoots
        · exact absurd never not_escapes_ok
    · exact absurd escapes not_escapes_graph
  · intro breaks
    obtain ⟨entries, rfl⟩ := breaks.exists_entries
    unfold ofValue
    simp only [escapes_bind_iff, escapes_sectionEntries_iff, sectionEntries_eq_ok_iff]
    cases breaks with
    | types wrong => exact .inl ⟨wrong, rfl⟩
    | type given before wrong =>
      refine .inr ⟨_, given, .inl ?_⟩
      exact (escapes_addTypes_iff (.map entries) _).mpr ⟨_, _, _, _, _, rfl, before, wrong, rfl⟩
    | instances given loaded wrong => exact .inr ⟨_, given, .inr ⟨_, loaded, .inl ⟨wrong, rfl⟩⟩⟩
    | inst typesGiven loaded given before wrong =>
      refine .inr ⟨_, typesGiven, .inr ⟨_, loaded, .inr ⟨_, given, .inl ?_⟩⟩⟩
      exact (escapes_addInstances_iff _ _).mpr ⟨_, _, _, _, _, rfl, before, wrong⟩
    | roots loads wrong =>
      obtain ⟨_, _, _, _, typesGiven, typesLoaded, instancesGiven, instancesLoaded, noCycle⟩ :=
        loads
      refine .inr ⟨_, typesGiven, .inr ⟨_, typesLoaded, .inr ⟨_, instancesGiven, .inr
        ⟨_, instancesLoaded, ?_⟩⟩⟩⟩
      rw [noCycle]
      simp only [escapes_bind_iff, escapes_sectionEntries_iff]
      exact .inl ⟨wrong, trivial⟩

/-! ## Shapes -/

def isShapedType (entry : Value × Value) : Bool :=
  entry.1.isText && match entry.2 with
    | .map es => es.all fun declared => !declared.2.isText || declared.1.isText
    | _ => true

def isShapedInstance : Value → Bool
  | .map fields => (Value.field? fields "type").all Value.isKey && hasTextKeys fields
  | _ => true

/-- Whether everything in a document has a shape that some check looks at. -/
def isShaped : Value → Bool
  | .map entries =>
      (["types", "instances", "roots"].all fun name => (sectionEntries entries name).isOk) &&
        (sectionOf (.map entries) "types").all isShapedType &&
        (sectionOf (.map entries) "instances").all fun entry => isShapedInstance entry.2
  | _ => true

theorem HasSection.mem {name : String} {es : List (Value × Value)} {entry : Value × Value}
    (given : HasSection data name es) (member : entry ∈ es) : entry ∈ sectionOf data name := by
  obtain ⟨entries, rfl, found⟩ := given
  rw [sectionOf, sectionEntries, found]
  exact member

theorem not_breaksType_of_isShapedType {types : OrderedMap String ComponentType}
    {name properties : Value} (shaped : isShapedType (name, properties) = true) :
    ¬ BreaksType types name properties := by
  obtain ⟨named, declared⟩ := Bool.and_eq_true_iff.mp shaped
  rintro (⟨-, rfl, -, text, wrong⟩ | ⟨-, wrong⟩)
  · have shape := List.all_eq_true.mp declared _ (List.mem_append_right _ List.mem_cons_self)
    simp [text, wrong] at shape
  · exact absurd (named.symm.trans wrong) (by decide)

theorem not_breaksInstance_of_isShapedInstance {types : OrderedMap String ComponentType}
    {raw : Value} (shaped : isShapedInstance raw = true) : ¬ BreaksInstance types raw fault := by
  rintro (⟨rfl, typed, wrong⟩ | ⟨rfl, -, -, wrong, -⟩)
  · obtain ⟨type, -⟩ := Bool.and_eq_true_iff.mp shaped
    rw [typed] at type
    exact absurd (type.symm.trans wrong) (by decide)
  · obtain ⟨-, texts⟩ := Bool.and_eq_true_iff.mp shaped
    exact absurd (texts.symm.trans wrong) (by decide)

theorem not_breaks_of_isShaped (shaped : isShaped data = true) : ¬ Breaks data fault := by
  intro breaks
  obtain ⟨entries, rfl⟩ := breaks.exists_entries
  simp only [isShaped, Bool.and_eq_true, List.all_eq_true] at shaped
  obtain ⟨⟨sections, types⟩, instances⟩ := shaped
  have isSection {name : String} (listed : name ∈ ["types", "instances", "roots"]) :
      ¬ MistakesSection (.map entries) name := by
    intro wrong
    have failed := (escapes_sectionEntries_iff.mpr ⟨wrong, rfl⟩).1
    have ok := sections name listed
    rw [failed] at ok
    cases ok
  cases breaks with
  | types wrong => exact isSection (by decide) wrong
  | type given _ wrong =>
    have member := given.mem (List.mem_append_right _ List.mem_cons_self)
    exact not_breaksType_of_isShapedType (types _ member) wrong
  | instances _ _ wrong => exact isSection (by decide) wrong
  | inst _ _ given _ wrong =>
    have member := given.mem (List.mem_append_right _ List.mem_cons_self)
    exact not_breaksInstance_of_isShapedInstance (instances _ member) wrong
  | roots _ wrong => exact isSection (by decide) wrong

/-- A document is accepted, or refused with a cause. -/
def IsAnswered (data : Value) : Prop :=
  (∃ document, ofValue data = .ok document) ∨ ∃ cause, ofValue data = .error (.graph cause)

theorem isAnswered_iff : IsAnswered data ↔ ∀ fault, ¬ Escapes (ofValue data) fault := by
  unfold IsAnswered
  cases ofValue data with
  | ok document => exact iff_of_true (.inl ⟨document, rfl⟩) fun _ => not_escapes_ok
  | error given =>
    cases given with
    | graph cause => exact iff_of_true (.inr ⟨cause, rfl⟩) fun _ => not_escapes_graph
    | _ => exact iff_of_false (by simp) fun none => none _ ⟨rfl, id⟩

/-- A document is accepted or refused with a cause exactly if the loader gets to no value of a shape
that no check looks at, so it is if it holds none. Otherwise it ends in the fault of that value. -/
theorem is_answered_iff_nothing_breaks (data : Value) :
    (IsAnswered data ↔ ∀ fault, ¬ Breaks data fault) ∧
    (∀ fault, Breaks data fault ↔ ofValue data = .error fault ∧ ¬ fault.IsGraph) ∧
    (isShaped data = true → IsAnswered data) := by
  have exactly : IsAnswered data ↔ ∀ fault, ¬ Breaks data fault := by
    rw [isAnswered_iff]
    exact forall_congr' fun fault => not_congr escapes_ofValue_iff
  refine ⟨exactly, fun fault => escapes_ofValue_iff.symm, ?_⟩
  exact fun shaped => exactly.mpr fun fault => not_breaks_of_isShaped shaped

/-! A page under a number, whose type is null. -/

def typelessDocument : Value := .map [
  (.text "types", .map [(.text "Page", .null)]),
  (.text "instances", .map [(.int 1, .map [(.text "type", .null)])])]

theorem typeless_document_is_answered :
    isShaped typelessDocument = true ∧ IsAnswered typelessDocument := by
  have shaped : isShaped typelessDocument = true := by with_unfolding_all rfl
  exact ⟨shaped, (is_answered_iff_nothing_breaks typelessDocument).2.2 shaped⟩

/-- A list in the place of the types. -/
def listedTypes : Value := .map [(.text "types", .list [.int 1])]

/-- A number as the name of a type. -/
def numberedType : Value := .map [(.text "types", .map [(.int 1, .null)])]

/-- A list as the type of an instance. -/
def listedType : Value := .map [
  (.text "instances", .map [(.text "home", .map [(.text "type", .list [])])])]

theorem misshapen_documents_are_not_answered :
    (¬ IsAnswered listedTypes ∧ ofValue listedTypes = .error .missingMember) ∧
    (¬ IsAnswered numberedType ∧ ofValue numberedType = .error nameless) ∧
    ¬ IsAnswered listedType ∧ ofValue listedType = .error .kind := by
  have unanswered {data : Value} {fault : Fault} (other : ¬ fault.IsGraph)
      (failed : ofValue data = .error fault) : ¬ IsAnswered data ∧ ofValue data = .error fault :=
    ⟨fun answered => isAnswered_iff.mp answered fault ⟨failed, other⟩, failed⟩
  have types : ofValue listedTypes = .error .missingMember := by with_unfolding_all rfl
  have name : ofValue numberedType = .error nameless := by with_unfolding_all rfl
  have type : ofValue listedType = .error .kind := by with_unfolding_all rfl
  exact ⟨unanswered id types, unanswered id name, unanswered id type⟩

end GraphDocument

end DesignGraph
