import DesignGraph.Proofs.Compile.Plan

/-!
# Instances that no root reaches

A compilation looks instances up by id and at nothing else about them, so the instances under ids
that a successful walk never asks for have no influence on it. `Follows` compares a step on a
program with one on a program that has further instances: whenever the first succeeds, the second
succeeds too, with the same answer and the same changes. The binders of the prefab types look ids up
as well; those of other bindings may look at the whole program, so the bindings are the prefab ones
or have neither an initializer nor an asset binder.
-/

namespace DesignGraph

/-- The larger program has the instances of the other under their ids and in their order, and
further ones under ids that the other does not use. Nothing else differs. -/
structure Program.IsExtendedBy (program larger : Program) : Prop where
  rest_eq : larger =
    { program with graph := { program.graph with instances := larger.graph.instances } }
  shared_eq : larger.graph.instances.entries.filter
      (fun entry => program.graph.instances.contains entry.1) = program.graph.instances.entries

namespace Program.IsExtendedBy

variable {program larger : Program}

theorem projectRoot_eq (extended : program.IsExtendedBy larger) :
    larger.projectRoot = program.projectRoot := by
  rw [extended.rest_eq]

theorem roots_eq (extended : program.IsExtendedBy larger) : larger.roots = program.roots := by
  rw [extended.rest_eq]

theorem options_eq (extended : program.IsExtendedBy larger) :
    larger.options = program.options := by
  rw [extended.rest_eq]

theorem hot_eq (extended : program.IsExtendedBy larger) : larger.hot = program.hot := by
  rw [extended.rest_eq]

theorem types_eq (extended : program.IsExtendedBy larger) :
    larger.graph.types = program.graph.types := by
  rw [extended.rest_eq]

theorem isComponent_eq (extended : program.IsExtendedBy larger) (type : String) :
    larger.graph.isComponent type = program.graph.isComponent type := by
  rw [Graph.isComponent, extended.types_eq]
  rfl

theorem typeNamed_eq (extended : program.IsExtendedBy larger) (name : Value) :
    larger.graph.typeNamed name = program.graph.typeNamed name := by
  unfold Graph.typeNamed
  rw [extended.types_eq]

theorem get?_of (extended : program.IsExtendedBy larger) {id : String} {inst : Instance}
    (listed : program.graph.instances.get? id = some inst) :
    larger.graph.instances.get? id = some inst := by
  have used : program.graph.instances.contains id = true := by
    rw [OrderedMap.contains_eq_isSome, listed]
    rfl
  have found : program.graph.instances.entries.lookup id = some inst := listed
  rwa [← extended.shared_eq, OrderedMap.lookup_filter used] at found

theorem instanceOf_of (extended : program.IsExtendedBy larger) {value : Value} {inst : Instance}
    (found : program.graph.instanceOf value = .ok inst) :
    larger.graph.instanceOf value = .ok inst := by
  rw [Compilation.instanceOf_eq_ok] at found ⊢
  cases value with
  | text id => exact extended.get?_of found
  | _ => cases found

theorem hopsOf_le (extended : program.IsExtendedBy larger) :
    Compilation.hopsOf program.graph ≤ Compilation.hopsOf larger.graph := by
  have shorter := List.length_filter_le
    (fun entry => program.graph.instances.contains entry.1) larger.graph.instances.entries
  rw [extended.shared_eq] at shorter
  exact Nat.succ_le_succ shorter

end Program.IsExtendedBy

/-! ## Binders -/

/-- What the binder adds for an instance it also adds in a program with further instances. -/
def AssetBinder.LooksUpOnly (binder : AssetBinder) : Prop :=
  ∀ (around : Surroundings) (larger : Program) (inst : Instance) (reference : Option Reference)
    (effects : List Effect), around.program.IsExtendedBy larger →
    binder around inst reference = .ok effects →
    binder { around with program := larger } inst reference = .ok effects

theorem Asset.looksUpOnly_fileBinder : AssetBinder.LooksUpOnly fileBinder := by
  intro around larger inst reference effects extended bound
  simpa only [fileBinder, extended.projectRoot_eq] using bound

theorem Ios.looksUpOnly_svgBinder : AssetBinder.LooksUpOnly svgBinder := by
  intro around larger inst reference effects extended bound
  simpa only [svgBinder, extended.projectRoot_eq] using bound

theorem Web.looksUpOnly_colorBinder : AssetBinder.LooksUpOnly colorBinder :=
  fun _ _ _ _ _ _ bound => bound

theorem Web.looksUpOnly_fontBinder : AssetBinder.LooksUpOnly fontBinder := by
  intro around larger inst reference effects extended bound
  simp only [fontBinder, Answers.bind_eq_ok_iff] at bound ⊢
  obtain ⟨given, isGiven, file, found, rest⟩ := bound
  exact ⟨given, isGiven, file, extended.instanceOf_of found, rest⟩

theorem Web.looksUpOnly_typographBinder : AssetBinder.LooksUpOnly typographBinder := by
  intro around larger inst reference effects extended bound
  cases reference with
  | none => exact bound
  | some reference =>
    simp only [typographBinder, Answers.bind_eq_ok_iff] at bound ⊢
    obtain ⟨given, isGiven, font, found, name, named, family, quoted, rest⟩ := bound
    refine ⟨given, isGiven, font, extended.instanceOf_of found, name, named, family, quoted, ?_⟩
    cases colored : inst.values.get? "color" with
    | none =>
      simp only [colored] at rest
      exact rest
    | some value =>
      simp only [colored, Answers.bind_eq_ok_iff] at rest ⊢
      obtain ⟨color, held, written⟩ := rest
      exact ⟨color, extended.instanceOf_of held, written⟩

/-- Bindings of which no part looks at the program, except for instances that it knows by id. -/
def Setup.LooksUpOnly (setup : Setup) : Prop :=
  ∀ type, ∀ binder ∈ (setup.bindings.get? type).bind Binding.assets, binder.LooksUpOnly

/-- Bindings that construct and add nothing of their own. -/
def Setup.AddsNothing (setup : Setup) : Prop :=
  ∀ entry ∈ setup.bindings.entries, entry.2.initializer = none ∧ entry.2.assets = none

theorem Setup.AddsNothing.looksUpOnly {setup : Setup} (nothing : setup.AddsNothing) :
    setup.LooksUpOnly := by
  intro type binder bound
  obtain ⟨binding, found, assets⟩ := Option.bind_eq_some_iff.mp bound
  rw [(nothing _ (OrderedMap.mem_entries_of_get? found)).2] at assets
  cases assets

theorem Setup.looksUpOnly_of_shipped {setup : Setup} {installed : Path}
    (shipped : setup.bindings = setup.target.bindings installed) : setup.LooksUpOnly := by
  intro type binder bound
  obtain ⟨binding, found, assets⟩ := Option.bind_eq_some_iff.mp bound
  rw [shipped] at found
  have member := OrderedMap.mem_entries_of_get? found
  cases target : setup.target with
  | web =>
    rw [target] at member
    simp only [Target.bindings, Web.bindings, List.mem_cons, Prod.mk.injEq, List.not_mem_nil,
      or_false] at member
    rcases member with ⟨-, rfl⟩ | ⟨-, rfl⟩ | ⟨-, rfl⟩ | ⟨-, rfl⟩ | ⟨-, rfl⟩ <;> cases assets
    · exact Asset.looksUpOnly_fileBinder
    · exact Asset.looksUpOnly_fileBinder
    · exact Web.looksUpOnly_colorBinder
    · exact Web.looksUpOnly_fontBinder
    · exact Web.looksUpOnly_typographBinder
  | ios =>
    rw [target] at member
    simp only [Target.bindings, Ios.bindings, List.mem_cons, Prod.mk.injEq, List.not_mem_nil,
      or_false] at member
    rcases member with ⟨-, rfl⟩ | ⟨-, rfl⟩ | ⟨-, rfl⟩ | ⟨-, rfl⟩ | ⟨-, rfl⟩ <;> cases assets
    · exact Asset.looksUpOnly_fileBinder
    · exact Ios.looksUpOnly_svgBinder

namespace Compilation

variable {α β : Type} {setup : Setup} {program larger : Program}

/-! ## Steps on the larger program -/

/-- Where the step succeeds on the program, the other one succeeds in the same way on the larger
program. -/
def Follows (program larger : Program) (step other : Compilation α) : Prop :=
  ∀ (before after : Compiler) (answer : α), before.program = program →
    step.Yields before answer after →
      after.program = program ∧
        other.Yields { before with program := larger } answer { after with program := larger }

/-- The step succeeds on the larger program wherever it does on the program, in the same way. -/
abbrev Unaffected (program larger : Program) (step : Compilation α) : Prop :=
  Follows program larger step step

theorem follows_pure (a : α) : Unaffected program larger (pure a) := by
  intro before after answer same success
  obtain ⟨rfl, rfl⟩ := yields_pure.mp success
  exact ⟨same, yields_pure.mpr ⟨rfl, rfl⟩⟩

theorem follows_throw (fault : Fault) (other : Compilation α) :
    Follows program larger (throw fault) other :=
  fun _ _ _ _ success => absurd success yields_throw

theorem follows_ofExcept {result other : Except Fault α}
    (kept : ∀ a, result = .ok a → other = .ok a) :
    Follows program larger (ofExcept result) (ofExcept other) := by
  intro before after answer same success
  obtain ⟨found, rfl⟩ := yields_ofExcept.mp success
  exact ⟨same, yields_ofExcept.mpr ⟨kept answer found, rfl⟩⟩

theorem follows_changeOutput (change : Output → Output) :
    Unaffected program larger (changeOutput change) := by
  intro before after answer same success
  cases yields_changeOutput.mp success
  exact ⟨same, yields_changeOutput.mpr rfl⟩

theorem follows_warn (warning : Warning) : Unaffected program larger (warn warning) := by
  intro before after answer same success
  cases yields_warn.mp success
  exact ⟨same, yields_warn.mpr rfl⟩

theorem follows_onDisk (step : Disk α) : Unaffected program larger (onDisk step) := by
  intro before after answer same success
  obtain ⟨tree, ran, rfl⟩ := yields_onDisk_iff.mp success
  exact ⟨same, yields_onDisk_iff.mpr ⟨tree, ran, rfl⟩⟩

theorem Follows.bind {step other : Compilation α} {next following : α → Compilation β}
    (head : Follows program larger step other)
    (tail : ∀ a, Follows program larger (next a) (following a)) :
    Follows program larger (step >>= next) (other >>= following) := by
  intro before after answer same success
  obtain ⟨a, between, first, rest⟩ := yields_bind.mp success
  obtain ⟨kept, first⟩ := head _ _ _ same first
  obtain ⟨kept, rest⟩ := tail a _ _ _ kept rest
  exact ⟨kept, yields_bind.mpr ⟨a, _, first, rest⟩⟩

/-- A step that looks at the compiler sees the larger program in the other run. -/
theorem follows_get_bind {next following : Compiler → Compilation α}
    (tail : ∀ compiler, compiler.program = program →
      Follows program larger (next compiler) (following { compiler with program := larger })) :
    Follows program larger (get >>= next) (get >>= following) := by
  intro before after answer same success
  unfold Yields at success ⊢
  rw [outcome_get_bind] at success ⊢
  exact tail before same _ _ _ same success

theorem follows_mapM {step other : α → Compilation β} {items : List α}
    (each : ∀ a, Follows program larger (step a) (other a)) :
    Follows program larger (items.mapM step) (items.mapM other) := by
  induction items with
  | nil =>
    rw [List.mapM_nil, List.mapM_nil]
    exact follows_pure _
  | cons a rest ih =>
    rw [List.mapM_cons, List.mapM_cons]
    exact (each a).bind fun _ => ih.bind fun _ => follows_pure _

theorem follows_forM {step other : α → Compilation PUnit} {items : List α}
    (each : ∀ a, Follows program larger (step a) (other a)) :
    Follows program larger (items.forM step) (items.forM other) := by
  induction items with
  | nil => exact follows_pure _
  | cons a rest ih => exact (each a).bind fun _ => ih

/-! ## The walk -/

theorem follows_register (type : String) (isPublic : Bool) (id : String) :
    Unaffected program larger (register setup type isPublic id) :=
  follows_get_bind fun _ _ => (follows_changeOutput _).bind fun _ => follows_pure _

section nested

variable {visit other : Instance → Reference → Compilation Spec}
  (nested : ∀ inst reference, Follows program larger (visit inst reference) (other inst reference))

include nested

theorem follows_propertyOf (extended : program.IsExtendedBy larger) (parent : String)
    (declaration : Declaration) (depth : Nat) (value : Value) :
    Follows program larger (propertyOf setup visit parent declaration depth value)
      (propertyOf setup other parent declaration depth value) := by
  have warned : ∀ warning, Unaffected program larger
      (do warn warning; pure (none : Option Property)) :=
    fun warning => (follows_warn warning).bind fun _ => follows_pure _
  induction depth generalizing value with
  | zero =>
    simp only [propertyOf]
    refine follows_get_bind fun compiler same => ?_
    rw [same, extended.isComponent_eq]
    split
    · split
      · exact follows_pure _
      · exact warned _
    · refine (follows_ofExcept fun inst found => extended.instanceOf_of found).bind fun inst => ?_
      refine (nested _ _).bind fun spec => ?_
      split
      · exact (follows_ofExcept fun _ constructed => constructed).bind fun _ => follows_pure _
      · exact (follows_pure _).bind fun _ => follows_pure _
  | succ depth ih =>
    cases value with
    | list items => exact (follows_mapM ih).bind fun _ => follows_pure _
    | _ => exact warned _

theorem follows_properties (extended : program.IsExtendedBy larger) (type : String)
    (isFirst : Bool) (inst : Instance) (declarations : List Declaration)
    (done : OrderedMap String Property) :
    Follows program larger (properties setup visit type isFirst inst declarations done)
      (properties setup other type isFirst inst declarations done) := by
  induction declarations generalizing done with
  | nil => exact follows_pure _
  | cons declaration rest ih =>
    simp only [properties]
    split
    · exact (follows_warn _).bind fun _ => ih _
    · refine (follows_propertyOf nested extended _ _ _ _).bind fun property? => ?_
      split
      · exact ih _
      · split
        · exact (follows_changeOutput _).bind fun _ => ih _
        · exact ih _

end nested

theorem follows_bindAssets (lookups : setup.LooksUpOnly) (extended : program.IsExtendedBy larger)
    (type : String) (inst : Instance) (reference : Option Reference) :
    Unaffected program larger (bindAssets setup type inst reference) := by
  unfold bindAssets
  split
  · exact follows_pure _
  · next binder bound =>
    refine follows_get_bind fun compiler same => ?_
    refine (follows_ofExcept fun effects added => ?_).bind fun _ => follows_changeOutput _
    subst same
    exact lookups type binder bound _ _ _ _ _ extended added

/-- A walk with a larger bound on the path, for a larger program has a larger one. -/
theorem follows_walk (lookups : setup.LooksUpOnly) (extended : program.IsExtendedBy larger)
    {hops further : Nat} (enough : hops ≤ further) (path : List String) (isPublic : Bool)
    (inst : Instance) (reference : Option Reference) :
    Follows program larger (walk setup hops path isPublic inst reference)
      (walk setup further path isPublic inst reference) := by
  induction hops generalizing further path isPublic inst reference with
  | zero => exact follows_throw _ _
  | succ hops ih =>
    obtain ⟨further, rfl⟩ : ∃ n, further = n + 1 := ⟨further - 1, by omega⟩
    simp only [walk]
    split
    · exact follows_throw _ _
    · refine follows_get_bind fun compiler same => ?_
      rw [same, extended.typeNamed_eq]
      refine (follows_ofExcept fun _ found => found).bind fun type => ?_
      refine (follows_register _ _ _).bind fun isFirst => ?_
      refine (follows_properties (fun inner reference => ih ?_ _ _ inner _) extended _ _ _ _ _).bind
        fun resolved => ?_
      · exact Nat.le_of_succ_le_succ enough
      · exact (follows_bindAssets lookups extended _ _ _).bind fun _ =>
          follows_get_bind fun _ _ => follows_pure _

theorem follows_walkRoots (lookups : setup.LooksUpOnly)
    (extended : program.IsExtendedBy larger) :
    Unaffected program larger (walkRoots setup) := by
  refine follows_get_bind fun compiler same => ?_
  simp only [same, extended.roots_eq]
  refine follows_forM fun entry => ?_
  refine (follows_ofExcept fun inst found => extended.instanceOf_of found).bind fun inst => ?_
  refine Follows.bind ?_ fun _ => follows_pure _
  refine follows_get_bind fun between kept => ?_
  rw [kept]
  exact follows_walk lookups extended extended.hopsOf_le _ _ _ _

/-! ## The package -/

theorem follows_rendered (component suffix : String) (text : Except Fault String) :
    Unaffected program larger (rendered component suffix text) := by
  refine follows_get_bind fun compiler _ => ?_
  simp only
  split
  · exact (follows_throw _ _).bind fun _ => (follows_ofExcept fun _ same => same).bind
      fun _ => follows_pure _
  · exact (follows_ofExcept fun _ same => same).bind fun _ => follows_pure _

theorem follows_writeDeclarations (spec : Spec) :
    Unaffected program larger (writeDeclarations setup spec) := by
  unfold writeDeclarations
  split
  · exact follows_pure _
  · exact (follows_rendered _ _ _).bind fun _ => follows_changeOutput _

theorem follows_writeComponent (types : List String) (type : String) :
    Unaffected program larger (writeComponent setup types type) := by
  have classed : ∀ spec hasDefaults,
      Unaffected program larger (writeClass setup spec hasDefaults) :=
    fun spec hasDefaults => (follows_rendered _ _ _).bind fun _ => follows_changeOutput _
  refine (follows_changeOutput _).bind fun _ => follows_get_bind fun compiler _ => ?_
  simp only
  split
  · exact follows_pure _
  · refine (classed _ _).bind fun _ => ?_
    split
    · exact follows_writeDeclarations _
    · refine (follows_changeOutput _).bind fun _ => ?_
      split
      · exact follows_writeDeclarations _
      · exact follows_pure _

/-- The rendering of a package: every component gets its class, its declarations and the files of
its binding. -/
def renderComponents (setup : Setup) : Compilation Unit := do
  let components := (← get).output.components
  components.keys.forM fun type => writeComponent setup (singletons components) type

theorem follows_renderComponents : Unaffected program larger (renderComponents setup) :=
  follows_get_bind fun _ _ => follows_forM fun type => follows_writeComponent _ type

theorem staticRootInUse_of_extended (extended : program.IsExtendedBy larger) {compiler : Compiler}
    (same : compiler.program = program) :
    staticRootInUse setup { compiler with program := larger } = staticRootInUse setup compiler := by
  simp only [staticRootInUse, extended.hot_eq, same]

theorem follows_writeAsset (root : Path) (name : String) (asset : Asset) :
    Unaffected program larger (writeAsset root name asset) := by
  simp only [writeAsset]
  split_ifs
  · exact (follows_throw _ _).bind fun _ => follows_onDisk _
  · exact follows_onDisk _

theorem follows_writeStyleSheet (extended : program.IsExtendedBy larger) (language : String)
    (tokens : Style.Tokens) :
    Unaffected program larger (writeStyleSheet setup language tokens) := by
  refine follows_get_bind fun compiler same => ?_
  rw [staticRootInUse_of_extended extended same]
  exact (follows_onDisk _).bind fun _ => (follows_ofExcept fun _ same => same).bind
    fun _ => follows_onDisk _

theorem follows_writeAssets (extended : program.IsExtendedBy larger) :
    Unaffected program larger (writeAssets setup) := by
  have styled : Unaffected program larger styleTokens :=
    follows_get_bind fun _ _ => (follows_changeOutput _).bind fun _ => follows_pure _
  unfold writeAssets
  cases target : setup.target with
  | web =>
    simp only [reduceCtorEq, if_false, if_true]
    refine follows_get_bind fun compiler same => ?_
    simp only [staticRootInUse_of_extended extended same]
    exact (follows_forM fun _ => follows_writeAsset _ _ _).bind fun _ => styled.bind fun _ =>
      (follows_writeStyleSheet extended _ _).bind fun _ => follows_writeStyleSheet extended _ _
  | ios =>
    simp only [reduceCtorEq, if_false, if_true]
    refine (follows_onDisk _).bind fun _ => follows_get_bind fun compiler same => ?_
    simp only [staticRootInUse_of_extended extended same]
    exact (follows_forM fun _ => follows_writeAsset _ _ _).bind fun _ => follows_pure _

theorem follows_packageData (extended : program.IsExtendedBy larger) :
    Unaffected program larger (packageData setup) := by
  have read : ∀ sources, Unaffected program larger (readSources sources) :=
    fun sources => follows_get_bind fun _ _ => follows_ofExcept fun _ same => same
  refine follows_get_bind fun compiler same => ?_
  simp only [same, extended.options_eq, deploymentTarget]
  refine (follows_ofExcept fun _ same => same).bind fun _ => (read _).bind fun _ => ?_
  split
  · exact (read _).bind fun _ => follows_pure _
  · exact follows_pure _

theorem follows_writePackage (extended : program.IsExtendedBy larger) :
    Unaffected program larger (writePackage setup) := by
  have finish : Unaffected program larger (do
      writeAssets setup
      let data ← packageData setup
      let files ← onDisk
        (Template.fillAll (Stock.skeleton setup.installed setup.target) setup.sdkRoot data)
      pure (⟨files, data⟩ : Package)) :=
    (follows_writeAssets extended).bind fun _ => (follows_packageData extended).bind fun _ =>
      (follows_onDisk _).bind fun _ => follows_pure _
  refine follows_get_bind fun compiler _ => ?_
  refine (follows_forM fun type => follows_writeComponent _ type).bind fun _ => ?_
  refine follows_get_bind fun between same => ?_
  simp only [same, extended.hot_eq]
  split_ifs
  · exact (follows_changeOutput _).bind fun _ => finish
  · exact finish

/-- Instances that no root reaches have no influence. With the prefab bindings, or with bindings
that construct and add nothing, further instances under unused ids change nothing in a walk that
succeeds, in the rendering after it and in a whole run: they succeed as well and leave the same
components with the same instances, sources, declarations, imports, dependencies, assets, styles,
warnings and files. -/
theorem unreached_instances_have_no_influence {before walked ended : Compiler}
    (bindings : setup.bindings = setup.target.bindings setup.installed ∨ setup.AddsNothing)
    (extended : before.program.IsExtendedBy larger)
    (walking : (walkRoots setup).Yields before () walked)
    (rendering : (renderComponents setup).Yields walked () ended) :
    (walkRoots setup).Yields { before with program := larger } ()
        { walked with program := larger } ∧
      (renderComponents setup).Yields { walked with program := larger } ()
        { ended with program := larger } ∧
      ∀ compiler result after,
        (run setup (some before.program)).Yields compiler result after →
          (run setup (some larger)).Yields compiler result { after with program := larger } := by
  have lookups : setup.LooksUpOnly := bindings.elim Setup.looksUpOnly_of_shipped (·.looksUpOnly)
  obtain ⟨same, walks⟩ := follows_walkRoots lookups extended _ _ _ rfl walking
  refine ⟨walks, (follows_renderComponents _ _ _ same rendering).2, ?_⟩
  intro compiler result after success
  obtain ⟨reached, package, final, reaching, written, rfl, rfl⟩ := run_yields.mp success
  have begins : (begun setup ((some before.program).getD compiler.program) compiler).program =
      before.program := rfl
  obtain ⟨kept, again⟩ := follows_walkRoots lookups extended _ _ _ begins reaching
  obtain ⟨-, packed⟩ := follows_writePackage extended _ _ _ kept written
  exact run_yields.mpr ⟨_, package, _, again, packed, rfl, rfl⟩

/-- After the walk of a run every component can be rendered. -/
theorem exists_renderComponents {program : Program} {before walked : Compiler}
    (walking : (walkRoots setup).Yields (begun setup program before) () walked) :
    ∃ ended, (renderComponents setup).Yields walked () ended := by
  obtain ⟨-, -, -, visits, met⟩ := walkRoots_of_run walking
  have running : walked.isRunning = true := isRunning_of_walkRoots walking
  obtain ⟨parts, contributions⟩ := Answers.exists_mapM_eq_ok
    fun entry (_ : entry ∈ walked.output.components.entries) =>
      exists_contribution setup (singletons walked.output.components) entry
  have none_settled : walked.output.components = ⟨[] ++ walked.output.components.entries⟩ := rfl
  have looped := (writeComponents_yields none_settled met.nodup_keys).mpr
    ⟨fun _ => running, parts, contributions, rfl⟩
  exact ⟨_, yields_bind.mpr ⟨walked, walked, yields_get.mpr ⟨rfl, rfl⟩, looped⟩⟩

/-! A poster with a frame in a color, and the same poster beside parts that nothing refers to. A
spare font has neither a name nor a file, so a walk that met it would fail. -/

namespace Poster

def types : OrderedMap String ComponentType :=
  (Prefab.types.insert "Poster" ⟨"Poster", [⟨"frames", "Frame", 1⟩]⟩).insert
    "Frame" ⟨"Frame", [⟨"width", "int", 0⟩, ⟨"border", "Color", 0⟩]⟩

def poster : Instance :=
  ⟨"poster", "Poster", ⟨[("frames", .list [.text "thick", .text "thin"])]⟩⟩

def thick : Instance := ⟨"thick", "Frame", ⟨[("width", .int 4), ("border", .text "ink")]⟩⟩

def thin : Instance := ⟨"thin", "Frame", ⟨[("border", .text "ink")]⟩⟩

def ink : Instance := ⟨"ink", "Color", ⟨[("l", .int 0)]⟩⟩

def design : Program where
  projectName := "Site"
  projectRoot := ⟨"/", ["site"]⟩
  graph := {
    types := types
    instances := ⟨[("poster", poster), ("thick", thick), ("thin", thin), ("ink", ink)]⟩ }
  roots := ⟨[("Poster", "poster")]⟩

def crowded : Program := { design with
  graph := {
    types := types
    instances := ⟨[("spare", ⟨"spare", "Font", ⟨[]⟩⟩), ("poster", poster), ("thick", thick),
      ("draft", ⟨"draft", "Poster", ⟨[("frames", .list [.text "thin"])]⟩⟩), ("thin", thin),
      ("ink", ink)]⟩ } }

def webSetup : Setup :=
  .ofProgram .web ⟨"/", []⟩ (Target.bindings ⟨"/", []⟩ .web) (.ok "localhost") design

def begins : Compiler := begun webSetup design (webSetup.compiler design {})

theorem walks : (walkRoots webSetup).Yields begins () (outcome (walkRoots webSetup) begins).2 := by
  refine yields_of_isOk ?_
  decide +kernel

end Poster

theorem poster_beside_spare_parts_is_the_same :
    ∃ walked ended, (walkRoots Poster.webSetup).Yields Poster.begins () walked ∧
      (renderComponents Poster.webSetup).Yields walked () ended ∧
      (walkRoots Poster.webSetup).Yields { Poster.begins with program := Poster.crowded } ()
        { walked with program := Poster.crowded } ∧
      (renderComponents Poster.webSetup).Yields { walked with program := Poster.crowded } ()
        { ended with program := Poster.crowded } := by
  have extended : Poster.begins.program.IsExtendedBy Poster.crowded := ⟨rfl, rfl⟩
  obtain ⟨ended, rendering⟩ := exists_renderComponents Poster.walks
  obtain ⟨walks, renders, -⟩ :=
    unreached_instances_have_no_influence (.inl rfl) extended Poster.walks rendering
  exact ⟨_, ended, Poster.walks, rendering, walks, renders⟩

end Compilation

end DesignGraph
