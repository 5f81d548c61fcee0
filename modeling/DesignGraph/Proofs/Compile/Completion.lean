import DesignGraph.Proofs.Compile.Decoration
import DesignGraph.Proofs.Compile.Guard
import DesignGraph.Proofs.Compile.Kind
import DesignGraph.Proofs.Compile.Plan
import DesignGraph.Proofs.Compile.Presence
import DesignGraph.Proofs.Compile.Rerun
import DesignGraph.Proofs.Compile.Room

/-!
# Calls that complete

With the bindings that come with the library, what a call takes to complete is told by the values
alone: every visit of the walk can be added to the package (`CanBeAdded`). The walk itself never
fails over a value that is missing or that the target cannot represent. It omits the property and
says so in a warning.
-/

namespace DesignGraph

namespace Program

/-- The graph comes from a document that has the prefab types, and the roots have been checked. -/
structure IsAccepted (program : Program) (data : Value) : Prop where
  loaded : ∃ document, GraphDocument.ofValue data = .ok document ∧ program.graph = document.graph
  designSystem : GraphDocument.hasDesignSystem data = true
  checked : program.checkRoots = .ok program

/-- Whatever a property that the walk meets refers to is an instance of the declared type. -/
def HasTypedReferences (program : Program) : Prop :=
  ∀ outer, program.Meets outer → ∀ declaration leaf,
    program.graph.RefersAt outer declaration leaf →
      ∃ inst, program.graph.instance? leaf = some inst ∧ inst.type = declaration.type

/-- The files and drawings that the walk meets are files of the project. -/
def HasSources (program : Program) (tree : FileTree) : Prop :=
  ∀ inst, program.Meets inst → inst.type ∈ Compilation.fileTypes →
    HasProjectSource tree program.projectRoot inst

theorem IsAccepted.keyed {program : Program} {data : Value} (accepted : program.IsAccepted data) :
    program.graph.IsKeyed := by
  obtain ⟨document, loaded, sameGraph⟩ := accepted.loaded
  rw [sameGraph]
  exact GraphDocument.isKeyed_of_ofValue loaded

end Program

namespace Compilation

variable {setup : Setup} {before after : Compiler} {data : Value}

/-! ## The walk -/

/-- The shipped constructions of files and drawings never fail. -/
theorem exists_constructed (target : Target) (installed : Path) {type : String}
    {construct : Instance → Except Fault String} {tree : FileTree} {root : Path} {inst : Instance}
    (bound : ((target.bindings installed).get? type).bind Binding.initializer = some construct)
    (sourced : type ∈ fileTypes → HasProjectSource tree root inst) :
    ∃ text, construct inst = .ok text := by
  have entry : ∃ binding, (type, binding) ∈ (target.bindings installed).entries ∧
      binding.initializer = some construct := by
    obtain ⟨binding, found, initializer⟩ := Option.bind_eq_some_iff.mp bound
    exact ⟨binding, OrderedMap.mem_entries_of_get? found, initializer⟩
  obtain ⟨binding, member, initializer⟩ := entry
  cases target with
  | web =>
    simp only [Target.bindings, Web.bindings, Web.binding, List.mem_cons, List.not_mem_nil,
      or_false, Prod.mk.injEq] at member
    rcases member with ⟨-, rfl⟩ | ⟨-, rfl⟩ | ⟨-, rfl⟩ | ⟨-, rfl⟩ | ⟨-, rfl⟩ <;> cases initializer
  | ios =>
    simp only [Target.bindings, Ios.bindings, List.mem_cons, List.not_mem_nil, or_false,
      Prod.mk.injEq] at member
    have textual (isFile : type ∈ fileTypes) : ∃ s, Ios.sourceValue inst = .text s := by
      unfold Ios.sourceValue
      rcases (sourced isFile).sourceOf?_eq with ⟨-, absent⟩ | ⟨source, -, given, -⟩
      · exact ⟨"", by rw [absent]; rfl⟩
      · exact ⟨source, by rw [given]; rfl⟩
    rcases member with ⟨rfl, rfl⟩ | ⟨rfl, rfl⟩ | ⟨-, rfl⟩ | ⟨-, rfl⟩ | ⟨-, rfl⟩
    · cases initializer
      obtain ⟨s, source⟩ := textual (by decide)
      simp [Ios.fileConstruction, source, Value.literal?]
    · cases initializer
      obtain ⟨s, source⟩ := textual (by decide)
      simp [Ios.svgConstruction, source]
    all_goals cases initializer

/-- No visit of a walk can fail if its decorations do not. -/
theorem excused_of_canBeAdded (accepted : before.program.IsAccepted data)
    (shipped : setup.bindings = setup.target.bindings setup.installed)
    (typed : before.program.HasTypedReferences)
    (sourced : before.program.HasSources before.tree) {visited : Visit}
    (visits : before.program.Visits visited)
    (addable : CanBeAdded (setup.surroundings before) visited) :
    Excused setup (setup.surroundings before) (fun _ => False) visited where
  unknownType unknown := by
    have listed := visits.meets.listed accepted.keyed.id_eq
    obtain ⟨document, loaded, sameGraph⟩ := accepted.loaded
    change before.program.graph.types.get? visited.inst.type = none at unknown
    rw [sameGraph] at unknown listed
    obtain ⟨type, known⟩ := GraphDocument.exists_type_of_ofValue loaded listed
    rw [unknown] at known
    cases known
  unknownInstance refers unknown := by
    obtain ⟨inst, found, -⟩ := typed _ visits.meets _ _ refers
    change before.program.graph.instance? _ = none at unknown
    rw [found] at unknown
    cases unknown
  initializer := by
    intro declaration leaf inner construct fault refers found bound failed
    obtain ⟨inst, foundTyped, type_eq⟩ := typed _ visits.meets _ _ refers
    obtain rfl : inst = inner := Option.some.inj (foundTyped.symm.trans found)
    have met : before.program.Meets inst := visits.meets.inner refers found
    rw [shipped] at bound
    obtain ⟨text, constructed⟩ := exists_constructed setup.target setup.installed bound
      fun isFile => sourced inst met (type_eq ▸ isFile)
    rw [constructed] at failed
    cases failed
  added failed := by
    obtain ⟨effects, answered⟩ :=
      (added_ok_iff shipped (accepted.keyed.componentName_eq _) rfl
        (sourced _ visits.meets)).mpr addable
    rw [answered] at failed
    cases failed

/-- The walk ends with an answer exactly if every visit can be added. -/
theorem walkRoots_completes_iff (accepted : before.program.IsAccepted data)
    (shipped : setup.bindings = setup.target.bindings setup.installed)
    (typed : before.program.HasTypedReferences)
    (sourced : before.program.HasSources before.tree) :
    (∃ after, (walkRoots setup).Yields before () after) ↔ ∀ visited,
      before.program.Visits visited → CanBeAdded (setup.surroundings before) visited := by
  have keyed := accepted.keyed
  constructor
  · rintro ⟨after, walked⟩ visited visits
    obtain ⟨done, traced⟩ := walkRoots_traced walked
    obtain ⟨effects, paired, -⟩ := traced.decorated
    have member := (visit_mem_iff traced.trace visited).mpr visits
    obtain ⟨new, -, answered⟩ := Answers.exists_answer paired member
    exact (added_ok_iff shipped (keyed.componentName_eq _) rfl (sourced _ visits.meets)).mp
      ⟨new, answered⟩
  · intro addable
    have alike : AlikeInWalk setup (setup.surroundings before) (fun _ => False) (walkRoots setup)
        (walkRootsWithin setup (hopsOf before.program.graph)) := by
      refine walkRoots_alike keyed.id_eq ?_ ?_ ?_ le_rfl
      · intro circle cycle
        obtain ⟨document, loaded, sameGraph⟩ := accepted.loaded
        obtain ⟨id, -, back⟩ := cycle.exists_transGen_self
        change Relation.TransGen before.program.graph.Refers id id at back
        rw [sameGraph] at back
        exact GraphDocument.not_transGen_of_ofValue loaded id back
      · rintro ⟨name, id⟩ root unknown
        obtain ⟨inst, found, -⟩ := Program.root_of_checkRoots accepted.checked root
        change before.program.graph.instances.get? id = none at unknown
        rw [found] at unknown
        cases unknown
      · exact fun visited visits =>
          excused_of_canBeAdded accepted shipped typed sourced visits (addable visited visits)
    obtain ⟨-, expected⟩ := alike before rfl
    cases ending : (outcome (walkRoots setup) before).1 with
    | error fault => exact (expected.faulted ending).elim
    | ok answer => exact ⟨_, yields_outcome ending⟩

/-! ## The package -/

/-- Whether the target knows every dependency of the bindings. -/
def KnowsDependencies (setup : Setup) : Prop :=
  ∀ type, ∀ d ∈ ((setup.bindings.get? type).getD {}).dependencies,
    ∃ value, dependencyValue setup.target d = .ok value

theorem dependencies_shipped (target : Target) (installed : Path) (type : String) :
    (((target.bindings installed).get? type).getD {}).dependencies = [] := by
  cases found : (target.bindings installed).get? type with
  | none => rfl
  | some binding =>
    have none_has : ∀ entry ∈ (target.bindings installed).entries,
        entry.2.dependencies = [] := by
      cases target with
      | web => simp [Target.bindings, Web.bindings, Web.binding]
      | ios => simp [Target.bindings, Ios.bindings]
    exact none_has _ (OrderedMap.mem_entries_of_get? found)

theorem knowsDependencies_of_shipped
    (shipped : setup.bindings = setup.target.bindings setup.installed) :
    KnowsDependencies setup := by
  intro type d member
  rw [shipped, dependencies_shipped] at member
  cases member

/-- Assets stay inside the package if the effects do that add them. -/
theorem isInside_of_applyAll {effects : List Effect} {output : Output}
    (before : ∀ name ∈ output.assets.keys, isInside name = true)
    (inside : ∀ effect ∈ effects, effect.StaysInside) :
    ∀ name ∈ (output.applyAll effects).assets.keys, isInside name = true := by
  induction effects generalizing output with
  | nil => exact before
  | cons effect rest ih =>
    obtain ⟨first, others⟩ := List.forall_mem_cons.mp inside
    refine @ih (output.apply effect) ?_ others
    cases effect with
    | asset name asset =>
      intro other member
      change other ∈ (output.assets.insert name asset).keys at member
      rw [OrderedMap.keys_insert, OrderedSet.mem_insert] at member
      rcases member with earlier | rfl
      · exact before other earlier
      · exact first
    | styleVariable _ _ => exact before
    | ruleGroup _ _ => exact before
    | font _ _ => exact before

/-- Whatever the walk of a run adds stays inside the package. -/
theorem isInside_of_walkRoots (accepted : before.program.IsAccepted data)
    (shipped : setup.bindings = setup.target.bindings setup.installed)
    (sourced : before.program.HasSources before.tree)
    (none_yet : before.output.assets.keys = [])
    (walked : (walkRoots setup).Yields before () after) :
    ∀ entry ∈ after.output.assets.entries, isInside entry.1 = true := by
  obtain ⟨done, traced⟩ := walkRoots_traced walked
  obtain ⟨effects, paired, decorated⟩ := traced.decorated
  have assets_eq : after.output.assets = (before.output.applyAll effects.flatten).assets :=
    congrArg (·.1) decorated
  have inside : ∀ effect ∈ effects.flatten, effect.StaysInside := by
    intro effect member
    obtain ⟨new, listed, inNew⟩ := List.mem_flatten.mp member
    obtain ⟨event, isDone, answered⟩ := Answers.exists_item paired listed
    cases event with
    | omission _ =>
      cases answered
      cases inNew
    | visit visited =>
      have visits := (visit_mem_iff traced.trace visited).mp isDone
      exact staysInside_of_added shipped (accepted.keyed.componentName_eq _)
        (sourced _ visits.meets) answered effect inNew
  intro entry member
  have listed : entry.1 ∈ (before.output.applyAll effects.flatten).assets.keys := by
    rw [← assets_eq]
    exact List.mem_map_of_mem member
  exact isInside_of_applyAll (by simp [none_yet]) inside entry.1 listed

/-- The package has no part in the warnings. -/
theorem warnings_of_writePackage {package : Package}
    (distinct : before.output.components.keys.Nodup)
    (success : (writePackage setup).Yields before package after) :
    after.warnings = before.warnings := by
  obtain ⟨-, parts, filled, -, stored, -, written⟩ := (writePackage_yields distinct).mp success
  obtain ⟨_, rfl⟩ := writeAssets_yields stored
  obtain ⟨_, rfl⟩ := yields_onDisk written
  rfl

/-- The classes of a package are those that the walk has met, settled. -/
theorem exists_walked_of_run {program? : Option Program} {result : CompilationResult}
    (ran : (run setup program?).Yields before result after) :
    ∃ visits components, Walked setup after.program visits components ∧
      after.output.components = settledAll setup components := by
  obtain ⟨walked, package, last, walking, written, -, rfl⟩ := run_yields.mp ran
  obtain ⟨program_eq, -, -, visits, met⟩ := walkRoots_of_run walking
  obtain ⟨components_eq, -⟩ := writePackage_settles met.nodup_keys written
  have same : last.program = program?.getD before.program :=
    (preserves_writePackage.of_yields written).trans program_eq
  exact ⟨visits, _, same.symm ▸ met, components_eq⟩

/-- A run goes on from a walk that succeeds if there is room for the package. -/
theorem exists_run_of_known {walked : Compiler} (known : KnowsDependencies setup)
    (notHot : before.program.hot = false)
    (walking : (walkRoots setup).Yields (begun setup before.program before) () walked)
    (inside : ∀ entry ∈ walked.output.assets.entries, isInside entry.1 = true)
    (room : before.tree.Admits (packageJobs setup walked.output)) :
    ∃ result after, (run setup none).Yields before result after ∧
      after.program = before.program ∧
      after.output.components = settledAll setup walked.output.components ∧
      (setup.target = .web → after.output.styles.styleVariables =
        (Style.promotedProperties Style.scalarTypes after.output.components).foldl
          Style.Promoted.set walked.output.styles.styleVariables) := by
  obtain ⟨program_eq, tree_eq, lists_eq, visits, met⟩ := walkRoots_of_run walking
  have running : walked.isRunning = true := isRunning_of_walkRoots walking
  have suited : ∀ d ∈ dependenciesOf walked.output.components,
      ∃ value, dependencyValue setup.target d = .ok value := by
    intro d listed
    obtain ⟨⟨type, component⟩, member, depends⟩ := List.mem_flatMap.mp listed
    obtain ⟨first, represents⟩ :=
      met.exists_represents (OrderedMap.get?_of_mem_entries met.nodup_keys member)
    exact known type d (represents.binding_eq ▸ depends)
  rw [← tree_eq] at room
  obtain ⟨package, final, written, -⟩ := exists_writePackage running (program_eq ▸ notHot)
    lists_eq met.nodup_keys suited inside room
  obtain ⟨components_eq, promoted⟩ := writePackage_settles met.nodup_keys written
  have kept : final.program = before.program :=
    (preserves_writePackage.of_yields written).trans program_eq
  exact ⟨_, _, run_yields.mpr ⟨walked, package, final, walking, written, rfl, rfl⟩, kept,
    components_eq, promoted⟩

theorem exists_run {walked : Compiler}
    (shipped : setup.bindings = setup.target.bindings setup.installed)
    (notHot : before.program.hot = false)
    (walking : (walkRoots setup).Yields (begun setup before.program before) () walked)
    (inside : ∀ entry ∈ walked.output.assets.entries, isInside entry.1 = true)
    (room : before.tree.Admits (packageJobs setup walked.output)) :
    ∃ result after, (run setup none).Yields before result after ∧
      after.program = before.program ∧
      after.output.components = settledAll setup walked.output.components ∧
      (setup.target = .web → after.output.styles.styleVariables =
        (Style.promotedProperties Style.scalarTypes after.output.components).foldl
          Style.Promoted.set walked.output.styles.styleVariables) :=
  exists_run_of_known (knowsDependencies_of_shipped shipped) notHot walking inside room

/-- The walk of a call. -/
def walkOutcome (setup : Setup) (before : Compiler) : Except Fault Unit × Compiler :=
  outcome (walkRoots setup) (begun setup before.program before)

/-- A run whose walk succeeds makes its package if the file tree takes the files as it is. -/
theorem exists_run_of_takes (shipped : setup.bindings = setup.target.bindings setup.installed)
    (notHot : before.program.hot = false)
    (succeeds : (walkOutcome setup before).1.isOk = true)
    (inside : (walkOutcome setup before).2.output.assets.keys.all isInside = true)
    (taken : before.tree.takes [] (plainJobs setup (walkOutcome setup before).2.output) = true) :
    ∃ result after, (run setup none).Yields before result after ∧
      after.program = before.program ∧
      after.output.components =
        settledAll setup (walkOutcome setup before).2.output.components ∧
      (setup.target = .web → after.output.styles.styleVariables =
        (Style.promotedProperties Style.scalarTypes after.output.components).foldl
          Style.Promoted.set (walkOutcome setup before).2.output.styles.styleVariables) := by
  have walking : (walkRoots setup).Yields (begun setup before.program before) ()
      (walkOutcome setup before).2 := yields_of_isOk succeeds
  have allInside : ∀ entry ∈ (walkOutcome setup before).2.output.assets.entries,
      isInside entry.1 = true := by
    intro entry member
    exact List.all_eq_true.mp inside entry.1 (List.mem_map_of_mem member)
  exact exists_run shipped notHot walking allInside (admits_of_takes_plain taken)

/-- The file tree has room for the package of whatever the walk puts together. -/
def HasRoom (setup : Setup) (before : Compiler) : Prop :=
  ∀ walked, (walkRoots setup).Yields (begun setup before.program before) () walked →
    before.tree.Admits (packageJobs setup walked.output)

theorem hasRoom_of_takes
    (succeeds : (outcome (walkRoots setup) (begun setup before.program before)).1.isOk = true)
    (taken : before.tree.takes [] (plainJobs setup
      (outcome (walkRoots setup) (begun setup before.program before)).2.output) = true) :
    HasRoom setup before := by
  intro walked walking
  obtain ⟨-, rfl⟩ := (yields_of_isOk succeeds).unique walking
  exact admits_of_takes_plain taken

/-! ## The call -/

theorem start_yields_iff (notHot : before.program.hot = false)
    (deployable : setup.target = .ios → isVersion (deploymentTarget before.program) = true)
    {result : CompilationResult} :
    (start setup).Yields before result after ↔ (run setup none).Yields before result after := by
  have accepted :
      (setup.target = .ios && !isVersion (deploymentTarget before.program)) = false := by
    by_cases ios : setup.target = .ios
    · simp [deployable ios]
    · simp [ios]
  simp only [start, validateOptions, yields_bind, yields_get, and_assoc, exists_and_left,
    exists_eq_left, accepted, Bool.false_eq_true, if_false, yields_pure]
  constructor
  · rintro ⟨-, steps⟩
    simpa [notHot] using steps
  · intro ran
    refine ⟨trivial, ?_⟩
    simpa [notHot] using ran

/-- What is omitted from a package is what has no value or none that the target can represent, and
the warnings say so. -/
structure OmitsWithWarning (setup : Setup) (program : Program) (warnings : List Warning)
    (components : Roster) : Prop where
  warned : ∀ warning, warning ∈ warnings ↔ ∃ inst, program.Meets inst ∧
    .omission warning ∈ Event.below setup.target program.graph inst
  constructed : ∀ inst, program.Meets inst → ∃ properties,
    Resolution.resolve setup.target setup.bindings program.graph inst = some properties ∧
      properties.keys = (Resolution.provided setup.target program.graph inst).eraseDups
  shown : ∀ type component, components.get? type = some component → ∃ first,
    program.Meets first ∧ program.graph.componentName first = type ∧
      component.spec.properties.keys =
        (Resolution.provided setup.target program.graph first).eraseDups

theorem omitsWithWarning_of_run {result : CompilationResult}
    (ran : (run setup none).Yields before result after) :
    OmitsWithWarning setup before.program result.warnings after.output.components := by
  obtain ⟨walked, package, final, walking, written, rfl, rfl⟩ := run_yields.mp ran
  obtain ⟨done, traced⟩ := walkRoots_traced walking
  obtain ⟨-, -, -, visits, met⟩ := walkRoots_of_run walking
  change Walked setup before.program visits _ at met
  constructor
  case warned =>
    intro warning
    have store := omission_mem_iff traced.trace warning
    change _ ↔ ∃ inst, before.program.Meets inst ∧
      .omission warning ∈ Event.below setup.target before.program.graph inst at store
    rw [← store]
    change warning ∈ final.warnings ↔ _
    rw [warnings_of_writePackage met.nodup_keys written, traced.warnings_eq]
    change warning ∈ [] ++ done.filterMap Event.warning? ↔ _
    rw [List.nil_append, List.mem_filterMap]
    constructor
    · rintro ⟨event, member, warns⟩
      cases event with
      | visit _ => cases warns
      | omission _ =>
        cases warns
        exact member
    · exact fun member => ⟨_, member, rfl⟩
  case constructed =>
    intro inst isMet
    have visited : inst ∈ visits := (met.preorder.mem_visits_iff inst).mpr isMet
    obtain ⟨properties, resolved⟩ := Option.isSome_iff_exists.mp (met.resolves inst visited)
    exact ⟨properties, resolved, Resolution.keys_of_resolve resolved⟩
  case shown =>
    intro type component found
    obtain ⟨components_eq, -⟩ := writePackage_settles met.nodup_keys written
    change final.output.components.get? type = some component at found
    rw [components_eq, settledAll, OrderedMap.get?_map, Option.map_eq_some_iff] at found
    obtain ⟨original, listed, rfl⟩ := found
    obtain ⟨first, represents⟩ := met.exists_represents listed
    refine ⟨first, (met.preorder.mem_visits_iff first).mp represents.visited,
      represents.componentName_eq, ?_⟩
    rw [← Resolution.keys_of_resolve represents.resolved]
    exact keys_classSpec _ _

/-- What a call takes to complete. The program is one that the loader and the check of roots accept,
with the prefab types and the bindings of the library; every reference that is met leads to an
instance of its type, and files and drawings are files of the project. A call that completes could
add every visit of its walk, and if it could and the file tree has room for the package, it
completes. What is missing or cannot be represented never ends the walk: it is omitted and
reported. -/
theorem start_completes_iff_all_can_be_added (target : Target) (installed : Path)
    (host : Except String String) (before : Compiler)
    (accepted : before.program.IsAccepted data) (notHot : before.program.hot = false)
    (deployable : target = .ios → isVersion (deploymentTarget before.program) = true)
    (typed : before.program.HasTypedReferences)
    (sourced : before.program.HasSources before.tree) :
    let setup := Setup.ofProgram target installed (target.bindings installed) host before.program
    (∀ result after, (start setup).Yields before result after →
      (∀ visited, before.program.Visits visited →
        CanBeAdded (setup.surroundings before) visited) ∧
      OmitsWithWarning setup before.program result.warnings after.output.components) ∧
    ((∀ visited, before.program.Visits visited →
        CanBeAdded (setup.surroundings before) visited) →
      HasRoom setup before → ∃ result after, (start setup).Yields before result after) := by
  intro setup
  have shipped : setup.bindings = setup.target.bindings setup.installed := rfl
  have validates : setup.target = .ios → isVersion (deploymentTarget before.program) = true :=
    deployable
  let beginning := begun setup before.program before
  have acceptedStill : beginning.program.IsAccepted data := accepted
  have walks : (∃ walked, (walkRoots setup).Yields beginning () walked) ↔
      ∀ visited, before.program.Visits visited →
        CanBeAdded (setup.surroundings before) visited :=
    walkRoots_completes_iff acceptedStill shipped typed sourced
  simp only [start_yields_iff notHot validates]
  constructor
  · intro result after ran
    obtain ⟨walked, -, -, walking, -⟩ := run_yields.mp ran
    exact ⟨walks.mp ⟨walked, walking⟩, omitsWithWarning_of_run ran⟩
  · intro addable room
    obtain ⟨walked, walking⟩ := walks.mpr addable
    have none_yet : beginning.output.assets.keys = [] := by
      change (setup.target.seed setup.installed).assets.keys = []
      cases setup.target <;> rfl
    have inside := isInside_of_walkRoots acceptedStill shipped sourced none_yet walking
    obtain ⟨result, after, ran, -⟩ :=
      exists_run shipped notHot walking inside (room walked walking)
    exact ⟨result, after, ran⟩

/-! A page with a tint, a color with the given hue. -/

namespace Tinted

def document (hue : Value) : Value := .map [
  (.text "types", .map [(.text "Page", .map [(.text "tint", .text "Color")])]),
  (.text "instances", .map [
    (.text "home", .map [(.text "type", .text "Page"),
      (.text "values", .map [(.text "tint", .text "blue")])]),
    (.text "blue", .map [(.text "type", .text "Color"),
      (.text "values", .map [(.text "h", hue)])])]),
  (.text "roots", .map [(.text "Page", .text "home")])]

def page : Instance := ⟨"home", "Page", ⟨[("tint", .text "blue")]⟩⟩

def color (hue : Value) : Instance := ⟨"blue", "Color", ⟨[("h", hue)]⟩⟩

def program (hue : Value) : Program where
  projectName := "Site"
  projectRoot := ⟨"/", ["site"]⟩
  graph := {
    types := Prefab.types.insert "Page" ⟨"Page", [⟨"tint", "Color", 0⟩]⟩
    instances := ⟨[("home", page), ("blue", color hue)]⟩ }
  roots := ⟨[("Page", "home")]⟩

def webSetup (hue : Value) : Setup :=
  .ofProgram .web ⟨"/", []⟩ (Target.bindings ⟨"/", []⟩ .web) (.ok "localhost") (program hue)

/-- The files that the package is made from, and the directories that it is written to. -/
def files : FileTree where
  entries := ⟨[
    (["web"], .directory), (["web", "core"], .directory), (["web", "bindings"], .directory),
    (["web", "core", "Tessera.js"], .file ⟨#[]⟩), (["web", "core", "Tessera.d.ts"], .file ⟨#[]⟩),
    (["web", "bindings", "Color.js"], .file ⟨#[]⟩),
    (["web", "bindings", "Color.d.ts"], .file ⟨#[]⟩),
    (["site"], .directory), (["site", "build"], .directory),
    (["site", "build", "tessera-Site-web"], .directory),
    (["site", "build", "tessera-Site-web", "static"], .directory)]⟩

def compiler (hue : Value) : Compiler := (webSetup hue).compiler (program hue) files

theorem loaded (hue : Value) :
    GraphDocument.ofValue (document hue) = .ok ⟨(program hue).graph, (program hue).roots⟩ := by
  with_unfolding_all rfl

theorem accepted (hue : Value) : (program hue).IsAccepted (document hue) where
  loaded := ⟨_, loaded hue, rfl⟩
  designSystem := by rfl
  checked := by rfl

theorem eq_of_meets {hue : Value} {inst : Instance} (met : (program hue).Meets inst) :
    inst = page ∨ inst = color hue :=
  met.eq_or_eq rfl rfl rfl

/-- The one reference is that of the page. -/
theorem typed (hue : Value) : (program hue).HasTypedReferences := by
  intro outer met declaration leaf refers
  rw [Graph.refersAt_iff_mem] at refers
  rcases eq_of_meets met with rfl | rfl
  · have listing : (program hue).graph.referencesAt page =
        [(⟨"tint", "Color", 0⟩, .text "blue")] := rfl
    rw [listing, List.mem_singleton, Prod.mk.injEq] at refers
    obtain ⟨rfl, rfl⟩ := refers
    exact ⟨color hue, rfl, rfl⟩
  · cases refers

theorem sourced (hue : Value) (tree : FileTree) : (program hue).HasSources tree := by
  intro inst met isFile
  rcases eq_of_meets met with rfl | rfl
  · simp [page, fileTypes] at isFile
  · simp [color, fileTypes] at isFile

theorem canBeAdded {hue : Value} (isColor : Style.IsColor (color hue).values) {visited : Visit}
    (visits : (program hue).Visits visited) :
    CanBeAdded ((webSetup hue).surroundings (compiler hue)) visited := by
  rcases eq_of_meets visits.meets with isPage | isTint
  · refine ⟨?_, ?_, ?_⟩ <;> simp [isPage, page]
  · refine ⟨?_, ?_, ?_⟩
    · intro _ _
      rw [isTint]
      exact isColor
    · simp [isTint, color]
    · simp [isTint, color]

end Tinted

/-- A page with a tint of hue one, whose other channels have no value. -/
theorem page_with_tint_completes :
    let setup := Tinted.webSetup (.int 1)
    let before := Tinted.compiler (.int 1)
    before.program.IsAccepted (Tinted.document (.int 1)) ∧ before.program.hot = false ∧
      before.program.HasTypedReferences ∧
      before.program.HasSources before.tree ∧ HasRoom setup before ∧
      ∃ result after, (start setup).Yields before result after ∧
        OmitsWithWarning setup before.program result.warnings after.output.components := by
  intro setup before
  have isColor : Style.IsColor (Tinted.color (.int 1)).values := by
    have succeeds : (Style.colorCss (Tinted.color (.int 1)).values).isOk = true := by
      decide +kernel
    exact Style.exists_colorCss_iff.mp ⟨_, Answers.eq_ok_of_isOk "" succeeds⟩
  have hasRoom : HasRoom setup before := by
    refine hasRoom_of_takes ?_ ?_
    · decide +kernel
    · decide +kernel
  obtain ⟨sound, complete⟩ := start_completes_iff_all_can_be_added .web ⟨"/", []⟩
    (.ok "localhost") before (Tinted.accepted _) rfl (by simp) (Tinted.typed _) (Tinted.sourced _ _)
  obtain ⟨result, after, started⟩ := complete (fun _ => Tinted.canBeAdded isColor) hasRoom
  exact ⟨Tinted.accepted _, rfl, Tinted.typed _, Tinted.sourced _ _, hasRoom, result, after,
    started, (sound result after started).2⟩

/-- A hue that is given as null is met twice: the walk omits it with a warning, and the style sheets
cannot show it, which ends the call. -/
theorem page_with_null_hue_does_not_complete :
    let setup := Tinted.webSetup .null
    let before := Tinted.compiler .null
    before.program.IsAccepted (Tinted.document .null) ∧ before.program.hot = false ∧
      before.program.HasTypedReferences ∧
      before.program.HasSources before.tree ∧
      (outcome (start setup) before).1 = .error .kind := by
  intro setup before
  exact ⟨Tinted.accepted _, rfl, Tinted.typed _, Tinted.sourced _ _, by rfl⟩

end Compilation

end DesignGraph
