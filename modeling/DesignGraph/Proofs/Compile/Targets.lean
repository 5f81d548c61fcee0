import DesignGraph.Proofs.Compile.Kind

/-!
# One design for two targets

The two targets go through a program in the same way and differ in one respect only: an iOS package
has no place for a fraction that is declared as a whole number. A property is left out for iOS, and
kept for the web, exactly if all its values that count for the web are such fractions
(`isPresent_ios`). The names of a type's properties follow from that, with one reservation: a type
that declares one name twice has its property at the first of the two declarations that is present,
and this may be another one for the other target.
-/

namespace DesignGraph

open DesignGraph.Graph (leaves)

/-- A number that is not whole. -/
def Value.isFraction (value : Value) : Bool :=
  match value.coerceNumber false with
  | some (.inexact _) => true
  | _ => false

/-- Only whole numbers are left where whole numbers are asked for. -/
theorem Value.isSome_coerceNumber_integral (value : Value) :
    (value.coerceNumber true).isSome =
      ((value.coerceNumber false).isSome && !value.isFraction) := by
  have collapsed : ∀ x : Binary64, (Quantum.ofBinary64? true x).isSome =
      ((Quantum.ofBinary64? false x).isSome &&
        !match Quantum.ofBinary64? false x with
          | some (.inexact _) => true
          | _ => false) := by
    intro x
    unfold Quantum.ofBinary64?
    cases x.isFinite <;> cases x.whole? <;> rfl
  unfold isFraction
  cases value with
  | float x => exact collapsed x
  | text s =>
    simp only [coerceNumber]
    cases Numeral.read? s with
    | none => rfl
    | some x => exact collapsed x
  | _ => rfl

/-- The targets have literals for the same values, except for a fraction declared as whole. -/
theorem Target.isSome_literal?_ios (kind : String) (value : Value) :
    (ios.literal? kind value).isSome =
      ((web.literal? kind value).isSome && !(kind == Primitive.int.name && value.isFraction)) := by
  unfold literal?
  by_cases isString : kind = Primitive.string.name
  · subst isString
    rfl
  by_cases isBoolean : kind = Primitive.boolean.name
  · subst isBoolean
    rfl
  simp only [isString, isBoolean, if_false, Option.isSome_map, isIntegral]
  by_cases isInt : kind = Primitive.int.name
  · subst isInt
    exact value.isSome_coerceNumber_integral
  · simp [beq_eq_false_iff_ne.mpr isInt]

theorem Target.isSome_primitive (target : Target) (kind : String) (value : Value) :
    (target.primitive kind value).toOption.isSome =
      ((Primitive.ofName? kind).isSome && (target.literal? kind value).isSome) := by
  unfold primitive
  cases Primitive.ofName? kind with
  | none => rfl
  | some known => cases target.literal? kind value <;> rfl

namespace Resolution

variable {target : Target} {graph : Graph} {declaration : Declaration} {inst : Instance}

/-- A value is represented if one of its leaves is. -/
theorem isRepresentable_iff {depth : Nat} {value : Value} :
    isRepresentable target graph declaration depth value = true ↔
      ∃ leaf ∈ leaves depth [value], isRepresentable target graph declaration 0 leaf = true := by
  simp only [Graph.mem_leaves, List.mem_singleton, exists_eq_left]
  induction depth generalizing value with
  | zero =>
    constructor
    · exact fun represented => ⟨value, .here value, represented⟩
    · rintro ⟨_, ⟨⟩, represented⟩
      exact represented
  | succ depth ih =>
    constructor
    · intro represented
      cases value with
      | list items =>
        obtain ⟨item, member, below⟩ := List.any_eq_true.mp represented
        obtain ⟨leaf, within, represented⟩ := ih.mp below
        exact ⟨leaf, .inside member within, represented⟩
      | _ => cases represented
    · rintro ⟨leaf, inside | ⟨member, within⟩, represented⟩
      exact List.any_eq_true.mpr ⟨_, member, ih.mpr ⟨leaf, within, represented⟩⟩

/-- Declared as whole numbers, and of its values those that count for the web are all fractions. -/
def HoldsFractionsOnly (graph : Graph) (inst : Instance) (declaration : Declaration) : Prop :=
  declaration.type = Primitive.int.name ∧ graph.isComponent declaration.type = false ∧
    ∀ value ∈ inst.values.get? declaration.name, ∀ leaf ∈ leaves declaration.depth [value],
      isRepresentable .web graph declaration 0 leaf = true → leaf.isFraction = true

instance (graph : Graph) (inst : Instance) (declaration : Declaration) :
    Decidable (HoldsFractionsOnly graph inst declaration) :=
  inferInstanceAs (Decidable (_ ∧ _ ∧ _))

/-- A leaf counts for iOS if it counts for the web, except for a fraction declared as whole. -/
theorem isRepresentable_ios_leaf (leaf : Value) :
    isRepresentable .ios graph declaration 0 leaf = true ↔
      isRepresentable .web graph declaration 0 leaf = true ∧
        ¬ (declaration.type = Primitive.int.name ∧ graph.isComponent declaration.type = false ∧
          leaf.isFraction = true) := by
  unfold isRepresentable
  cases graph.isComponent declaration.type with
  | true => simp
  | false =>
    simp [Target.isSome_primitive, Target.isSome_literal?_ios, and_assoc, imp_iff_not_or]

/-- A property is present for iOS if it is for the web, unless it holds nothing but fractions and
is declared as whole numbers. -/
theorem isPresent_ios : isPresent .ios graph inst declaration = true ↔
    isPresent .web graph inst declaration = true ∧
      ¬ HoldsFractionsOnly graph inst declaration := by
  unfold isPresent HoldsFractionsOnly
  rcases inst.values.get? declaration.name with _ | value
  · simp
  simp only [Option.any_some, Option.mem_def, Option.some.injEq, forall_eq']
  rw [isRepresentable_iff, isRepresentable_iff]
  constructor
  · rintro ⟨leaf, member, represented⟩
    obtain ⟨onWeb, whole⟩ := (isRepresentable_ios_leaf leaf).mp represented
    refine ⟨⟨leaf, member, onWeb⟩, fun ⟨isInt, primitive, fractions⟩ => ?_⟩
    exact whole ⟨isInt, primitive, fractions leaf member onWeb⟩
  · rintro ⟨⟨leaf, member, onWeb⟩, others⟩
    by_contra none_left
    have fraction : ∀ leaf ∈ leaves declaration.depth [value],
        isRepresentable .web graph declaration 0 leaf = true →
          declaration.type = Primitive.int.name ∧ graph.isComponent declaration.type = false ∧
            leaf.isFraction = true := by
      intro leaf member onWeb
      by_contra whole
      exact none_left ⟨leaf, member, (isRepresentable_ios_leaf leaf).mpr ⟨onWeb, whole⟩⟩
    obtain ⟨isInt, primitive, -⟩ := fraction leaf member onWeb
    exact others ⟨isInt, primitive, fun leaf member onWeb => (fraction leaf member onWeb).2.2⟩

/-- The names of a type's properties that iOS packages leave out. -/
def LeavesOut (graph : Graph) (inst : Instance) (type : ComponentType) (name : String) : Prop :=
  ∃ declaration ∈ type.properties,
    declaration.name = name ∧ HoldsFractionsOnly graph inst declaration

instance (graph : Graph) (inst : Instance) (type : ComponentType) (name : String) :
    Decidable (LeavesOut graph inst type name) :=
  inferInstanceAs (Decidable (∃ declaration ∈ type.properties, _ ∧ _))

theorem filter_isPresent_ios (declarations : List Declaration) :
    declarations.filter (isPresent .ios graph inst) =
      (declarations.filter (isPresent .web graph inst)).filter
        fun declaration => !decide (HoldsFractionsOnly graph inst declaration) := by
  rw [List.filter_filter]
  refine List.filter_congr fun declaration _ => ?_
  rw [Bool.eq_iff_iff, isPresent_ios, and_comm]
  simp

/-- Where no name is declared twice, iOS packages leave out these properties of those of the web,
and keep the order of the others. -/
theorem eraseDups_provided_ios {type : ComponentType}
    (declared : graph.types.get? inst.type = some type)
    (distinct : (type.properties.map (·.name)).Nodup) :
    (provided .ios graph inst).eraseDups = (provided .web graph inst).eraseDups.filter
      fun name => !decide (LeavesOut graph inst type name) := by
  have nodup : ∀ test : Declaration → Bool, ((type.properties.filter test).map (·.name)).Nodup :=
    fun test => distinct.sublist (List.filter_sublist.map _)
  simp only [provided, declared]
  rw [OrderedSet.eraseDups_of_nodup (nodup _), OrderedSet.eraseDups_of_nodup (nodup _),
    filter_isPresent_ios,
    List.filter_map]
  congr 1
  refine List.filter_congr fun declaration member => ?_
  have listed : declaration ∈ type.properties := List.mem_of_mem_filter member
  simp only [Function.comp_apply, Bool.not_inj_iff, decide_eq_decide]
  constructor
  · exact fun fractions => ⟨declaration, listed, rfl, fractions⟩
  · rintro ⟨other, otherListed, sameName, fractions⟩
    obtain rfl := List.inj_on_of_nodup_map distinct otherListed listed sameName
    exact fractions

end Resolution

/-! ## Singletons -/

/-- Whether a type is a singleton is asked of each type by itself. -/
theorem singletons_eq_filter {components : OrderedMap String Component}
    (distinct : components.keys.Nodup) :
    singletons components = components.keys.filter fun type =>
      (components.get? type).any Component.isSingleton := by
  unfold singletons OrderedMap.keys
  rw [List.filter_map]
  congr 1
  refine List.filter_congr fun entry member => ?_
  rw [Function.comp_apply, OrderedMap.get?_of_mem_entries distinct member, Option.any_some]

/-- The two targets have bindings of their own for the same types. -/
theorem Target.isNone_bindings (webInstalled iosInstalled : Path) (type : String) :
    ((Web.bindings webInstalled).get? type).isNone =
      ((Ios.bindings iosInstalled).get? type).isNone := by
  have webKeys : (Web.bindings webInstalled).keys =
      ["File", "SVG", "Color", "Font", "Typograph"] := rfl
  have iosKeys : (Ios.bindings iosInstalled).keys =
      ["File", "SVG", "Color", "Font", "Typograph"] := rfl
  have sameKeys := webKeys.trans iosKeys.symm
  have listed := congrArg (type ∈ ·) sameKeys
  simp only [OrderedMap.mem_keys, eq_iff_iff] at listed
  rw [← Option.not_isSome, ← Option.not_isSome, Bool.eq_iff_iff.mpr listed]

namespace Compilation

variable {webSetup iosSetup : Setup} {program : Program} {visits : List Instance}
  {web ios : Roster}

/-- Two walks over one program whose bindings are for the same types find the same singletons. -/
theorem Walked.singletons_eq (first : Walked webSetup program visits web)
    (second : Walked iosSetup program visits ios)
    (bindings : ∀ type, (webSetup.bindings.get? type).isNone =
      (iosSetup.bindings.get? type).isNone) : singletons ios = singletons web := by
  rw [singletons_eq_filter first.nodup_keys, singletons_eq_filter second.nodup_keys,
    first.keys_eq, second.keys_eq]
  refine List.filter_congr fun type listed => ?_
  obtain ⟨inst, visited, rfl⟩ := List.mem_map.mp (List.mem_eraseDups.mp listed)
  obtain ⟨webComponent, onWeb⟩ := first.exists_get?_of_visited visited
  obtain ⟨iosComponent, onIos⟩ := second.exists_get?_of_visited visited
  obtain ⟨_, webRepresents⟩ := first.exists_represents onWeb
  obtain ⟨_, iosRepresents⟩ := second.exists_represents onIos
  simp only [onWeb, onIos, Option.any_some, Component.isSingleton, OrderedSet.size,
    webRepresents.ids_eq, iosRepresents.ids_eq, webRepresents.binding_eq, iosRepresents.binding_eq,
    bindings]

/-- The class of a type has what one of the instances that the walk meets provides. -/
theorem exists_provides {setup : Setup} {before after : Compiler}
    (walk : (do clear setup; walkRoots setup).Yields before () after) (type : String)
    (listed : type ∈ after.output.components.keys) :
    ∃ component inst, after.output.components.get? type = some component ∧
      IsMet before.program type inst ∧ component.spec.properties.keys =
        (Resolution.provided setup.target before.program.graph inst).eraseDups := by
  obtain ⟨-, visits, walked⟩ := clear_walkRoots_yields walk
  obtain ⟨component, found⟩ := Option.isSome_iff_exists.mp ((OrderedMap.mem_keys _ _).mp listed)
  obtain ⟨inst, represents⟩ := walked.exists_represents found
  refine ⟨component, inst, found, ?_, Resolution.keys_of_resolve represents.resolved⟩
  exact walked.isMet_iff_visited.mpr ⟨represents.visited, represents.componentName_eq⟩

open Resolution (isPresent HoldsFractionsOnly LeavesOut)

/-- The two targets compile the same design. Walks over one program that succeed for both meet the
same types and find the same singletons. The properties of a type are those that its first instance
provides, the first of every repeated name; iOS leaves out what holds nothing but fractions and is
declared as whole numbers. Where the type declares no name twice, these are the properties by which
the two differ, and the others keep their order. -/
theorem targets_compile_same_design {webBefore webAfter iosBefore iosAfter : Compiler}
    (isWeb : webSetup.target = .web) (isIos : iosSetup.target = .ios)
    (bindings : (webSetup.bindings = Web.bindings webSetup.installed ∧
        iosSetup.bindings = Ios.bindings iosSetup.installed) ∨
      (webSetup.bindings = ∅ ∧ iosSetup.bindings = ∅))
    (webProgram : webBefore.program = program) (iosProgram : iosBefore.program = program)
    (webWalk : (do clear webSetup; walkRoots webSetup).Yields webBefore () webAfter)
    (iosWalk : (do clear iosSetup; walkRoots iosSetup).Yields iosBefore () iosAfter) :
    iosAfter.output.components.keys = webAfter.output.components.keys ∧
      singletons iosAfter.output.components = singletons webAfter.output.components ∧
      ∀ type ∈ webAfter.output.components.keys, ∃ web ios inst declared,
        webAfter.output.components.get? type = some web ∧
        iosAfter.output.components.get? type = some ios ∧
        IsMet program type inst ∧ web.instances.items.head? = some inst.id ∧
        program.graph.types.get? inst.type = some declared ∧
        web.spec.properties.keys =
          ((declared.properties.filter (isPresent .web program.graph inst)).map
            (·.name)).eraseDups ∧
        ios.spec.properties.keys =
          (((declared.properties.filter (isPresent .web program.graph inst)).filter
            fun declaration => !decide (HoldsFractionsOnly program.graph inst declaration)).map
              (·.name)).eraseDups ∧
        ((declared.properties.map (·.name)).Nodup →
          ios.spec.properties.keys = web.spec.properties.keys.filter fun name =>
            !decide (LeavesOut program.graph inst declared name)) := by
  obtain ⟨-, visits, webWalked⟩ := clear_walkRoots_yields webWalk
  obtain ⟨-, others, iosWalked⟩ := clear_walkRoots_yields iosWalk
  rw [webProgram] at webWalked
  rw [iosProgram] at iosWalked
  obtain rfl := webWalked.preorder.unique iosWalked.preorder
  have unbound : ∀ type, (webSetup.bindings.get? type).isNone =
      (iosSetup.bindings.get? type).isNone := by
    intro type
    rcases bindings with ⟨shippedWeb, shippedIos⟩ | ⟨noneWeb, noneIos⟩
    · rw [shippedWeb, shippedIos]
      exact Target.isNone_bindings _ _ type
    · rw [noneWeb, noneIos]
  refine ⟨iosWalked.keys_eq.trans webWalked.keys_eq.symm, webWalked.singletons_eq iosWalked unbound,
    ?_⟩
  intro type listed
  rw [webWalked.keys_eq, List.mem_eraseDups] at listed
  obtain ⟨met, visited, rfl⟩ := List.mem_map.mp listed
  obtain ⟨web, onWeb⟩ := webWalked.exists_get?_of_visited visited
  obtain ⟨inst, represents⟩ := webWalked.exists_represents onWeb
  obtain ⟨ios, onIos, iosRepresents⟩ := iosWalked.represents_earliest represents.earliest
  have webKeys := Resolution.keys_of_resolve represents.resolved
  have iosKeys := Resolution.keys_of_resolve iosRepresents.resolved
  obtain ⟨declared, ofType⟩ : ∃ declared, program.graph.types.get? inst.type = some declared := by
    have resolved := represents.resolved
    rw [Resolution.resolve_eq, Option.bind_eq_some_iff] at resolved
    exact resolved.imp fun _ => And.left
  rw [isWeb] at webKeys
  rw [isIos] at iosKeys
  refine ⟨web, ios, inst, declared, onWeb, onIos, ?_, represents.head?_ids, ofType, ?_, ?_, ?_⟩
  · exact webWalked.isMet_iff_visited.mpr ⟨represents.visited, represents.componentName_eq⟩
  · rw [webKeys, Resolution.provided, ofType]
  · rw [iosKeys, Resolution.provided, ofType, ← Resolution.filter_isPresent_ios]
  · intro distinct
    rw [iosKeys, webKeys, Resolution.eraseDups_provided_ios ofType distinct]

/-- The prefab bindings of a target, for a package of this program. -/
def prefabSetup (target : Target) (program : Program) : Setup :=
  .ofProgram target ⟨"/", []⟩ (target.bindings ⟨"/", []⟩) (.ok "localhost") program

/-- One half. -/
def half : Value := .float (.finite false 4503599627370496 (-53))

/-- A card whose sizes are all fractions, and whose counts are not. -/
def card : Instance := ⟨"card", "Card",
  ⟨[("sizes", .list [half, half]), ("counts", .list [half, .int 2]), ("title", .text "Ace")]⟩⟩

def cardType : ComponentType :=
  ⟨"Card", [⟨"sizes", "int", 1⟩, ⟨"counts", "int", 1⟩, ⟨"title", "string", 0⟩]⟩

def cardProgram : Program where
  projectName := "Site"
  projectRoot := ⟨"/", ["site"]⟩
  graph := { types := ⟨[("Card", cardType)]⟩, instances := ⟨[("card", card)]⟩ }
  roots := ⟨[("Card", "card")]⟩

theorem targets_compile_same_card :
    let before (target : Target) : Compiler :=
      (prefabSetup target cardProgram).compiler cardProgram {}
    let walk (target : Target) : Compilation Unit := do
      clear (prefabSetup target cardProgram)
      walkRoots (prefabSetup target cardProgram)
    ∃ webAfter iosAfter web ios, (walk .web).Yields (before .web) () webAfter ∧
      (walk .ios).Yields (before .ios) () iosAfter ∧
      singletons iosAfter.output.components = singletons webAfter.output.components ∧
      webAfter.output.components.get? "Card" = some web ∧
      iosAfter.output.components.get? "Card" = some ios ∧
      web.spec.properties.keys = ["sizes", "counts", "title"] ∧
      ios.spec.properties.keys = ["counts", "title"] := by
  intro before walk
  have webWalk : (walk .web).Yields (before .web) () ((walk .web).outcome (before .web)).2 :=
    yields_outcome (by rfl)
  have iosWalk : (walk .ios).Yields (before .ios) () ((walk .ios).outcome (before .ios)).2 :=
    yields_outcome (by rfl)
  obtain ⟨-, sameSingletons, names⟩ := targets_compile_same_design rfl rfl
    (.inl ⟨rfl, rfl⟩) (show (before .web).program = cardProgram from rfl) rfl webWalk iosWalk
  have listed : ((walk .web).outcome (before .web)).2.output.components.keys = ["Card"] := by rfl
  obtain ⟨web, ios, inst, declared, onWeb, onIos, met, -, ofType, webNames, -, iosNames⟩ :=
    names "Card" (by simp [listed])
  obtain ⟨-, root, isRoot, reached⟩ := met
  obtain rfl : root = card := List.mem_singleton.mp isRoot
  obtain rfl : inst = card := by
    rcases Relation.ReflTransGen.cases_head reached with same | ⟨_, holds, -⟩
    · exact same.symm
    · cases holds
  obtain rfl : cardType = declared := Option.some.inj ofType
  have kept : ["sizes", "counts", "title"].filter (fun name =>
      !decide (LeavesOut cardProgram.graph card cardType name)) = ["counts", "title"] := by
    decide
  have all : ((cardType.properties.filter (isPresent .web cardProgram.graph card)).map
      (·.name)).eraseDups = ["sizes", "counts", "title"] := by
    decide
  rw [all] at webNames
  rw [webNames, kept] at iosNames
  exact ⟨_, _, web, ios, webWalk, iosWalk, sameSingletons, onWeb, onIos, webNames,
    iosNames (by decide)⟩

/-- A card that declares its size twice, first as a whole number. -/
def sizedCard : Instance := ⟨"card", "Card", ⟨[("size", half), ("title", .text "Ace")]⟩⟩

def sizedProgram : Program where
  projectName := "Site"
  projectRoot := ⟨"/", ["site"]⟩
  graph := {
    types := ⟨[("Card",
      ⟨"Card", [⟨"size", "int", 0⟩, ⟨"title", "string", 0⟩, ⟨"size", "float", 0⟩]⟩)]⟩
    instances := ⟨[("card", sizedCard)]⟩ }
  roots := ⟨[("Card", "card")]⟩

/-- The size comes first for the web and last for iOS. -/
theorem targets_order_size_of_sizedCard_differently :
    let before (target : Target) : Compiler :=
      (prefabSetup target sizedProgram).compiler sizedProgram {}
    let walk (target : Target) : Compilation Unit := do
      clear (prefabSetup target sizedProgram)
      walkRoots (prefabSetup target sizedProgram)
    ∃ webAfter iosAfter web ios, (walk .web).Yields (before .web) () webAfter ∧
      (walk .ios).Yields (before .ios) () iosAfter ∧
      webAfter.output.components.get? "Card" = some web ∧
      iosAfter.output.components.get? "Card" = some ios ∧
      web.spec.properties.keys = ["size", "title"] ∧
      ios.spec.properties.keys = ["title", "size"] ∧
      ∀ kept : String → Bool,
        ios.spec.properties.keys ≠ web.spec.properties.keys.filter kept := by
  intro before walk
  have webWalk : (walk .web).Yields (before .web) () ((walk .web).outcome (before .web)).2 :=
    yields_outcome (by rfl)
  have iosWalk : (walk .ios).Yields (before .ios) () ((walk .ios).outcome (before .ios)).2 :=
    yields_outcome (by rfl)
  have only : ∀ inst, IsMet sizedProgram "Card" inst → inst = sizedCard := by
    rintro inst ⟨-, root, isRoot, reached⟩
    obtain rfl : root = sizedCard := List.mem_singleton.mp isRoot
    rcases Relation.ReflTransGen.cases_head reached with same | ⟨_, holds, -⟩
    · exact same.symm
    · cases holds
  have webListed : ((walk .web).outcome (before .web)).2.output.components.keys = ["Card"] := by
    rfl
  have iosListed : ((walk .ios).outcome (before .ios)).2.output.components.keys = ["Card"] := by
    rfl
  obtain ⟨web, webInst, onWeb, webMet, webProvides⟩ :=
    exists_provides webWalk "Card" (by simp [webListed])
  obtain ⟨ios, iosInst, onIos, iosMet, iosProvides⟩ :=
    exists_provides iosWalk "Card" (by simp [iosListed])
  obtain rfl := only webInst webMet
  obtain rfl := only iosInst iosMet
  have webKeys : web.spec.properties.keys = ["size", "title"] := by
    rw [webProvides]
    decide
  have iosKeys : ios.spec.properties.keys = ["title", "size"] := by
    rw [iosProvides]
    decide
  refine ⟨_, _, web, ios, webWalk, iosWalk, onWeb, onIos, webKeys, iosKeys, ?_⟩
  intro kept same
  have sublist : ["title", "size"].Sublist ["size", "title"] := by
    rw [iosKeys, webKeys] at same
    rw [same]
    exact List.filter_sublist
  exact absurd sublist (by decide)

end Compilation

end DesignGraph
