import DesignGraph.Proofs.Compile.Ending
import DesignGraph.Proofs.Compile.Visits

/-!
# The guard of the walk

The walk has a guard of its own against cycles, beside the search of the loader. `walk_alike` says
what a walk can fail with, namely at one of its visits (`Excused`) or at a cycle, and that its bound
never cuts it short: the ids on the path are distinct instances, each held by the one before
(`Trail`), so the guard closes a cycle of references before the bound is met. A graph that the
loader accepts has no cycle, so its walk never meets the guard; a walk that succeeds has met none.
-/

namespace DesignGraph

namespace Compilation

/-- A fault with which a binding itself ends, in one of the calls that the walk makes: of the
initializer of the declared type for what a property refers to, and of the binder of the type of an
instance for each of its visits. -/
inductive BindingFault (setup : Setup) (around : Surroundings) : Fault → Prop
  | initializer {outer inner : Instance} {declaration : Declaration} {leaf : Value}
      {construct : Instance → Except Fault String} {fault : Fault}
      (met : around.program.Meets outer)
      (refers : around.program.graph.RefersAt outer declaration leaf)
      (found : around.program.graph.instance? leaf = some inner)
      (bound : (setup.bindings.get? declaration.type).bind Binding.initializer = some construct)
      (failed : construct inner = .error fault) : BindingFault setup around fault
  | assets {visited : Visit} {binder : AssetBinder} {fault : Fault}
      (visits : around.program.Visits visited)
      (bound : (setup.bindings.get? (around.program.graph.componentName visited.inst)).bind
        Binding.assets = some binder)
      (failed : binder around visited.inst visited.reference = .error fault) :
      BindingFault setup around fault

/-- What a walk can fail with. -/
inductive WalkFault (setup : Setup) (around : Surroundings) : Fault → Prop
  | unknownType {inst : Instance} (met : around.program.Meets inst)
      (unknown : around.program.graph.types.get? inst.type = none) :
      WalkFault setup around (.graph (.unknownType (.text inst.type)))
  | unknownInstance {value : Value} (unknown : around.program.graph.instance? value = none) :
      WalkFault setup around (.graph (.unknownInstance value))
  | circular {ids : List String} (cycle : IsCycle around.program.graph.Refers ids) :
      WalkFault setup around (.graph (.circular ids))
  | binding {fault : Fault} (own : BindingFault setup around fault) :
      WalkFault setup around fault

/-- Whatever may go wrong at a visit itself is an expected fault. -/
structure Excused (setup : Setup) (around : Surroundings) (faults : Fault → Prop)
    (visited : Visit) : Prop where
  unknownType : around.program.graph.types.get? visited.inst.type = none →
    faults (.graph (.unknownType (.text visited.inst.type)))
  unknownInstance : ∀ {declaration leaf},
    around.program.graph.RefersAt visited.inst declaration leaf →
      around.program.graph.instance? leaf = none → faults (.graph (.unknownInstance leaf))
  initializer : ∀ {declaration leaf inner construct fault},
    around.program.graph.RefersAt visited.inst declaration leaf →
      around.program.graph.instance? leaf = some inner →
      (setup.bindings.get? declaration.type).bind Binding.initializer = some construct →
      construct inner = .error fault → faults fault
  added : ∀ {fault}, added setup around (.visit visited) = .error fault → faults fault

variable {setup : Setup} {around : Surroundings} {faults : Fault → Prop}

/-- Two steps of a walk that end in the same way. -/
abbrev AlikeInWalk {α : Type} (setup : Setup) (around : Surroundings) (faults : Fault → Prop)
    (step other : Compilation α) : Prop :=
  Alike setup around faults (fun _ => True) step other

theorem instanceOf_eq_error {graph : Graph} {value : Value} {fault : Fault}
    (failed : graph.instanceOf value = .error fault) :
    graph.instance? value = none ∧ fault = .graph (.unknownInstance value) := by
  unfold Graph.instanceOf at failed
  split at failed
  · cases failed
  · next unknown =>
    cases failed
    exact ⟨unknown, rfl⟩

theorem typeNamed_eq_error {graph : Graph} {name : String} {fault : Fault}
    (failed : graph.typeNamed (.text name) = .error fault) :
    graph.types.get? name = none ∧ fault = .graph (.unknownType (.text name)) := by
  unfold Graph.typeNamed at failed
  cases found : graph.types.get? name with
  | none =>
    simp only [found, Value.isKey, if_true, Except.error.injEq] at failed
    exact ⟨rfl, failed.symm⟩
  | some type =>
    simp only [found] at failed
    cases failed

/-- The visits of what a value holds are all that a resolution of it depends on. -/
theorem propertyOf_alike {visit other : Instance → Reference → Compilation Spec} {parent : String}
    {declaration : Declaration} {depth : Nat} {value : Value}
    (unknown : ∀ leaf, around.program.graph.isComponent declaration.type = true →
      Graph.Within depth value leaf → around.program.graph.instance? leaf = none →
        faults (.graph (.unknownInstance leaf)))
    (initializer : ∀ leaf inner construct fault,
      around.program.graph.isComponent declaration.type = true → Graph.Within depth value leaf →
        around.program.graph.instance? leaf = some inner →
        (setup.bindings.get? declaration.type).bind Binding.initializer = some construct →
        construct inner = .error fault → faults fault)
    (nested : ∀ leaf inner, around.program.graph.isComponent declaration.type = true →
      Graph.Within depth value leaf → around.program.graph.instance? leaf = some inner →
        AlikeInWalk setup around faults (visit inner ⟨parent, declaration.name⟩)
          (other inner ⟨parent, declaration.name⟩)) :
    AlikeInWalk setup around faults (propertyOf setup visit parent declaration depth value)
      (propertyOf setup other parent declaration depth value) := by
  induction depth generalizing value with
  | zero =>
    simp only [propertyOf]
    refine alike_get.bind fun compiler same => ?_
    have sameProgram : compiler.program = around.program := by rw [← same]; rfl
    rw [sameProgram]
    cases component : around.program.graph.isComponent declaration.type with
    | false =>
      simp only [Bool.not_false, if_true]
      cases setup.target.primitive declaration.type value with
      | ok property => exact alike_pure trivial
      | error warning => exact (alike_warn warning).bind fun _ _ => alike_pure trivial
    | true =>
      simp only [Bool.not_true, Bool.false_eq_true, if_false]
      refine (alike_ofExcept fun fault failed => ?_).bind fun inst found => ?_
      · obtain ⟨absent, rfl⟩ := instanceOf_eq_error failed
        exact unknown value component (.here value) absent
      rw [instanceOf_eq_ok] at found
      refine (nested value inst component (.here value) found).bind fun spec _ => ?_
      split
      · next construct bound =>
        refine (alike_ofExcept fun fault failed => ?_).bind fun _ _ => alike_pure trivial
        exact initializer value inst construct fault component (.here value) found bound failed
      · have constructed : AlikeInWalk setup around faults (pure (setup.target.construction spec))
            (pure (setup.target.construction spec)) := alike_pure trivial
        exact constructed.bind fun _ _ => alike_pure trivial
  | succ depth ih =>
    cases value with
    | list items =>
      simp only [propertyOf]
      refine (alike_mapM fun item member => ?_).bind fun _ _ => alike_pure trivial
      refine ih ?_ ?_ ?_
      · exact fun leaf component inside => unknown leaf component (.inside member inside)
      · exact fun leaf inner construct fault component inside =>
          initializer leaf inner construct fault component (.inside member inside)
      · exact fun leaf inner component inside => nested leaf inner component (.inside member inside)
    | _ => exact (alike_warn _).bind fun _ _ => alike_pure trivial

/-- The resolutions of the given values are all that the resolution of an instance depends on. -/
theorem properties_alike {visit other : Instance → Reference → Compilation Spec} {type : String}
    {isFirst : Bool} {inst : Instance} {declarations : List Declaration}
    {done : OrderedMap String Property}
    (each : ∀ declaration ∈ declarations, ∀ value,
      inst.values.get? declaration.name = some value →
        AlikeInWalk setup around faults
          (propertyOf setup visit type declaration declaration.depth value)
          (propertyOf setup other type declaration declaration.depth value)) :
    AlikeInWalk setup around faults (properties setup visit type isFirst inst declarations done)
      (properties setup other type isFirst inst declarations done) := by
  induction declarations generalizing done with
  | nil => exact alike_pure trivial
  | cons declaration rest ih =>
    have others : ∀ done, AlikeInWalk setup around faults
        (properties setup visit type isFirst inst rest done)
        (properties setup other type isFirst inst rest done) :=
      fun done => ih fun later member => each later (List.mem_cons_of_mem _ member)
    simp only [properties]
    cases given : inst.values.get? declaration.name with
    | none => exact (alike_warn _).bind fun _ _ => others done
    | some value =>
      refine (each declaration List.mem_cons_self value given).bind fun property? _ => ?_
      cases property? with
      | none => exact others done
      | some property =>
        cases isFirst with
        | false => exact others _
        | true => exact (alike_changeOutput _).bind fun _ _ => others _

theorem bindAssets_alike {visited : Visit} {type : String}
    (name_eq : around.program.graph.componentName visited.inst = type)
    (excused : Excused setup around faults visited) :
    AlikeInWalk setup around faults (bindAssets setup type visited.inst visited.reference)
      (bindAssets setup type visited.inst visited.reference) := by
  subst name_eq
  unfold bindAssets
  split
  · exact alike_pure trivial
  · next binder bound =>
    refine alike_get.bind fun compiler same => ?_
    change setup.surroundings compiler = around at same
    refine (alike_ofExcept fun fault failed => ?_).bind fun _ _ => alike_changeOutput _
    refine excused.added ?_
    subst around
    simp only [added, bound]
    exact failed

theorem register_alike (type : String) (isPublic : Bool) (id : String) :
    AlikeInWalk setup around faults (register setup type isPublic id)
      (register setup type isPublic id) :=
  alike_get.bind fun _ _ => (alike_changeOutput _).bind fun _ _ => alike_pure trivial

/-- The visit leads to the other one. -/
def LeadsTo (setup : Setup) (graph : Graph) (start visited : Visit) : Prop :=
  Relation.ReflTransGen (Event.Leads setup.target graph) (.visit start) (.visit visited)

/-- A walk fails as one of its visits does or at a cycle, and it is not cut short by its bound,
however far above the length of the path it is. -/
theorem walk_alike (ids : around.program.graph.IdsAreKeys)
    (circles : ∀ circle, IsCycle around.program.graph.Refers circle →
      faults (.graph (.circular circle)))
    {hops further : Nat} {path : List String} {isPublic : Bool} {inst : Instance}
    {reference : Option Reference}
    (excused : ∀ visited, LeadsTo setup around.program.graph ⟨inst, reference⟩ visited →
      Excused setup around faults visited)
    (listed : around.program.graph.instances.get? inst.id = some inst)
    (trail : Trail around.program.graph.Refers around.program.graph.instances.keys path inst.id)
    (room : around.program.graph.instances.keys.length < path.length + hops)
    (roomAlso : around.program.graph.instances.keys.length < path.length + further) :
    AlikeInWalk setup around faults (walk setup hops path isPublic inst reference)
      (walk setup further path isPublic inst reference) := by
  induction hops generalizing further path isPublic inst reference with
  | zero =>
    have bound := trail.length_le
    omega
  | succ hops ih =>
    cases further with
    | zero =>
      have bound := trail.length_le
      omega
    | succ further =>
      have own := excused ⟨inst, reference⟩ .refl
      simp only [walk]
      split
      · next onPath =>
        exact alike_throw (circles _ (trail.isCycle (by simpa using onPath)))
      · next offPath =>
        have fresh : inst.id ∉ path := by simpa using offPath
        refine alike_get.bind fun compiler same => ?_
        have sameProgram : compiler.program = around.program := by rw [← same]; rfl
        rw [sameProgram]
        refine (alike_ofExcept fun fault failed => ?_).bind fun type declared => ?_
        · obtain ⟨unknown, rfl⟩ := typeNamed_eq_error failed
          exact own.unknownType unknown
        rw [typeNamed_eq_ok] at declared
        have name_eq : around.program.graph.componentName inst = type.name := by
          simp only [Graph.componentName, declared]
        refine (register_alike _ _ _).bind fun isFirst _ => ?_
        refine (properties_alike fun declaration ofType value given => ?_).bind fun resolved _ => ?_
        · have refers : ∀ leaf, around.program.graph.isComponent declaration.type = true →
              Graph.Within declaration.depth value leaf →
                around.program.graph.RefersAt inst declaration leaf :=
            fun leaf component inside => ⟨component, type, declared, ofType, value, given, inside⟩
          refine propertyOf_alike ?_ ?_ ?_
          · exact fun leaf component inside => own.unknownInstance (refers leaf component inside)
          · exact fun leaf inner construct fault component inside =>
              own.initializer (refers leaf component inside)
          · intro leaf inner component inside found
            have holds := (refers leaf component inside).holds found
            obtain ⟨innerListed, refersTo⟩ := ids.refers_of_holds listed holds
            refine ih (fun visited leads => excused visited (leads.head ?_)) innerListed ?_ ?_ ?_
            · refine ⟨_, rfl, Event.visit_mem_below.mpr ⟨declaration, leaf, ?_, found, ?_⟩⟩
              · exact refers leaf component inside
              · rw [name_eq]
            · exact trail.extend fresh refersTo (OrderedMap.mem_keys_of_get? innerListed)
            · rw [List.length_append, List.length_singleton]
              omega
            · rw [List.length_append, List.length_singleton]
              omega
        · exact (bindAssets_alike name_eq own).bind fun _ _ => alike_get.bind fun _ _ =>
            alike_pure trivial

/-- The walk from every root, with this bound on the path. -/
def walkRootsWithin (setup : Setup) (hops : Nat) : Compilation Unit := do
  let program := (← get).program
  program.roots.entries.forM fun (_, id) => do
    let inst ← ofExcept (program.graph.instanceOf (.text id))
    let _ ← walk setup hops [] true inst none

/-- The bound on the path plays no part: with any larger one the walk ends in the same way. -/
def EndsByItself (setup : Setup) (before : Compiler) : Prop :=
  ∀ hops, hopsOf before.program.graph ≤ hops →
    outcome (walkRootsWithin setup hops) before = outcome (walkRoots setup) before

theorem process_alike (ids : around.program.graph.IdsAreKeys)
    (circles : ∀ circle, IsCycle around.program.graph.Refers circle →
      faults (.graph (.circular circle)))
    {hops : Nat} (enough : hopsOf around.program.graph ≤ hops) {isPublic : Bool} {inst : Instance}
    {reference : Option Reference}
    (excused : ∀ visited, LeadsTo setup around.program.graph ⟨inst, reference⟩ visited →
      Excused setup around faults visited)
    (listed : around.program.graph.instances.get? inst.id = some inst) :
    AlikeInWalk setup around faults (process setup isPublic inst reference)
      (walk setup hops [] isPublic inst reference) := by
  intro compiler same
  have sameProgram : compiler.program = around.program := by rw [← same]; rfl
  have opened : outcome (process setup isPublic inst reference) compiler =
      outcome (walk setup (hopsOf compiler.program.graph) [] isPublic inst reference) compiler :=
    outcome_get_bind _ compiler
  rw [opened, sameProgram]
  have room : around.program.graph.instances.keys.length <
      ([] : List String).length + hopsOf around.program.graph := by
    simp [hopsOf, OrderedMap.keys]
  exact walk_alike ids circles excused listed (.start (OrderedMap.mem_keys_of_get? listed)) room
    (by omega) compiler same

theorem walkRoots_alike (ids : around.program.graph.IdsAreKeys)
    (circles : ∀ circle, IsCycle around.program.graph.Refers circle →
      faults (.graph (.circular circle)))
    (roots : ∀ entry ∈ around.program.roots.entries,
      around.program.graph.instance? (.text entry.2) = none →
        faults (.graph (.unknownInstance (.text entry.2))))
    (excused : ∀ visited, around.program.Visits visited → Excused setup around faults visited)
    {hops : Nat} (enough : hopsOf around.program.graph ≤ hops) :
    AlikeInWalk setup around faults (walkRoots setup) (walkRootsWithin setup hops) := by
  refine alike_get.bind fun compiler same => ?_
  have sameProgram : compiler.program = around.program := by rw [← same]; rfl
  simp only [sameProgram]
  refine alike_forM ?_
  rintro ⟨name, id⟩ entry
  refine (alike_ofExcept fun fault failed => ?_).bind fun inst found => ?_
  · obtain ⟨unknown, rfl⟩ := instanceOf_eq_error failed
    exact roots _ entry unknown
  · rw [instanceOf_eq_ok] at found
    have isRoot : inst ∈ around.program.rootInstances :=
      List.mem_filterMap.mpr ⟨(name, id), entry, found⟩
    have below (visited : Visit)
        (leads : LeadsTo setup around.program.graph ⟨inst, none⟩ visited) :
        Excused setup around faults visited :=
      excused visited ((Program.visits_iff_leads setup.target).mpr ⟨inst, isRoot, leads⟩)
    have listed := Program.listed_of_rootInstances ids isRoot
    exact (process_alike ids circles enough below listed).bind fun _ _ => alike_pure trivial

/-- A visit of the walk fails with a fault of the walk. -/
theorem walkFault_excused {visited : Visit} (visits : around.program.Visits visited) :
    Excused setup around (WalkFault setup around) visited where
  unknownType := .unknownType visits.meets
  unknownInstance _ := .unknownInstance
  initializer refers found bound failed :=
    .binding (.initializer visits.meets refers found bound failed)
  added failed := by
    unfold Compilation.added at failed
    cases bound : (setup.bindings.get?
        (around.program.graph.componentName visited.inst)).bind Binding.assets with
    | none => simp [bound] at failed
    | some binder =>
      simp only [bound] at failed
      exact .binding (.assets visits bound failed)

/-- A walk that succeeds has met no cycle of references. -/
theorem not_transGen_of_walkRoots {before after : Compiler}
    (walked : (walkRoots setup).Yields before () after) {name root id : String}
    (entry : (name, root) ∈ before.program.roots.entries)
    (reached : Relation.ReflTransGen before.program.graph.Refers root id) :
    ¬ Relation.TransGen before.program.graph.Refers id id := by
  intro cycle
  obtain ⟨visits, walked⟩ := walkRoots_yields walked
  have path := Relation.TransGen.trans_right reached cycle
  obtain ⟨_, ⟨start, listed, _⟩, _⟩ := Relation.TransGen.head'_iff.mp path
  have isRoot : start ∈ before.program.rootInstances :=
    List.mem_filterMap.mpr ⟨(name, root), entry, listed⟩
  obtain ⟨inst, found, below⟩ := Graph.exists_transGen_holds listed path
  obtain ⟨again, foundAgain, back⟩ := Graph.exists_transGen_holds found cycle
  cases found.symm.trans foundAgain
  have visited : inst ∈ visits :=
    (walked.preorder.mem_visits_iff inst).mpr ⟨start, isRoot, below.to_reflTransGen⟩
  exact walked.preorder.not_transGen_self visited back

/-- The guard of the walk agrees with the search of the loader. On a graph that the loader accepts
the walk ends, and unless it ends as a binding does that it calls, it can only fail at a value that
is no id of an instance. On any graph with ids as keys the walk ends, meets its guard only at a
cycle of references, and does not succeed if a root leads to one. -/
theorem walk_guard_agrees_with_search (setup : Setup) (before : Compiler) :
    (∀ {data : Value} {document : GraphDocument}, GraphDocument.ofValue data = .ok document →
      before.program.graph = document.graph →
      EndsByItself setup before ∧
        ∀ fault, (outcome (walkRoots setup) before).1 = .error fault →
          ¬ BindingFault setup (setup.surroundings before) fault →
          ∃ value, before.program.graph.instance? value = none ∧
            fault = .graph (.unknownInstance value)) ∧
    (before.program.graph.IdsAreKeys →
      EndsByItself setup before ∧
      (∀ ids, (outcome (walkRoots setup) before).1 = .error (.graph (.circular ids)) →
        ¬ BindingFault setup (setup.surroundings before) (.graph (.circular ids)) →
        IsCycle before.program.graph.Refers ids) ∧
      ∀ {name root id : String}, (name, root) ∈ before.program.roots.entries →
        Relation.ReflTransGen before.program.graph.Refers root id →
        Relation.TransGen before.program.graph.Refers id id →
        ∀ answer, (outcome (walkRoots setup) before).1 ≠ .ok answer) := by
  have alike : ∀ {hops : Nat}, before.program.graph.IdsAreKeys →
      hopsOf before.program.graph ≤ hops →
      outcome (walkRootsWithin setup hops) before = outcome (walkRoots setup) before ∧
        Expected setup (setup.surroundings before) (WalkFault setup (setup.surroundings before))
          (fun _ => True) (outcome (walkRoots setup) before) :=
    fun ids enough => walkRoots_alike ids (fun _ cycle => .circular cycle)
      (fun _ _ unknown => .unknownInstance unknown) (fun _ visits => walkFault_excused visits)
      enough before rfl
  constructor
  · intro data document loaded sameGraph
    have ids : before.program.graph.IdsAreKeys := by
      rw [sameGraph]
      exact (GraphDocument.isKeyed_of_ofValue loaded).id_eq
    refine ⟨fun hops enough => (alike ids enough).1, fun fault failed notOwn => ?_⟩
    cases (alike ids le_rfl).2.faulted failed with
    | unknownType met unknown =>
      have listed := met.listed ids
      change before.program.graph.instances.get? _ = _ at listed
      rw [sameGraph] at listed
      obtain ⟨type, known⟩ := GraphDocument.exists_type_of_ofValue loaded listed
      change before.program.graph.types.get? _ = _ at unknown
      rw [sameGraph, known] at unknown
      cases unknown
    | unknownInstance unknown => exact ⟨_, unknown, rfl⟩
    | circular cycle =>
      obtain ⟨id, -, back⟩ := cycle.exists_transGen_self
      change Relation.TransGen before.program.graph.Refers id id at back
      rw [sameGraph] at back
      exact absurd back (GraphDocument.not_transGen_of_ofValue loaded id)
    | binding own => exact absurd own notOwn
  · intro ids
    refine ⟨fun hops enough => (alike ids enough).1, fun circle failed notOwn => ?_, ?_⟩
    · cases (alike ids le_rfl).2.faulted failed with
      | circular cycle => exact cycle
      | binding own => exact absurd own notOwn
    · intro name root id entry reached cycle answer success
      exact not_transGen_of_walkRoots (yields_outcome success) entry reached cycle

/-! A page with a document, a file of the project, and a logo that is no instance. Nothing refers to
the font that is listed besides, which has no file and could not be bound. -/

namespace Stray

def document : Value := .map [
  (.text "types", .map [
    (.text "Page", .map [(.text "doc", .text "File"), (.text "logo", .text "Logo")]),
    (.text "Logo", .map [])]),
  (.text "instances", .map [
    (.text "home", .map [(.text "type", .text "Page"),
      (.text "values", .map [(.text "doc", .text "plan"), (.text "logo", .text "lost")])]),
    (.text "plan", .map [(.text "type", .text "File"),
      (.text "values", .map [(.text "src", .text "plan.txt")])]),
    (.text "face", .map [(.text "type", .text "Font")])]),
  (.text "roots", .map [(.text "Page", .text "home")])]

def page : Instance := ⟨"home", "Page", ⟨[("doc", .text "plan"), ("logo", .text "lost")]⟩⟩

def plan : Instance := ⟨"plan", "File", ⟨[("src", .text "plan.txt")]⟩⟩

def font : Instance := ⟨"face", "Font", ⟨[]⟩⟩

def program : Program where
  projectName := "Site"
  projectRoot := ⟨"/", ["site"]⟩
  graph := {
    types := (Prefab.types.insert "Page" ⟨"Page", [⟨"doc", "File", 0⟩, ⟨"logo", "Logo", 0⟩]⟩).insert
      "Logo" ⟨"Logo", []⟩
    instances := ⟨[("home", page), ("plan", plan), ("face", font)]⟩ }
  roots := ⟨[("Page", "home")]⟩

def setupFor (target : Target) : Setup :=
  .ofProgram target ⟨"/", []⟩ (target.bindings ⟨"/", []⟩) (.ok "localhost") program

def compiler (target : Target) : Compiler := (setupFor target).compiler program
  { entries := ⟨[(["site"], .directory), (["site", "plan.txt"], .file ⟨#[]⟩)]⟩ }

theorem loaded : GraphDocument.ofValue document = .ok ⟨program.graph, program.roots⟩ := by
  with_unfolding_all rfl

theorem eq_of_meets {inst : Instance} (met : program.Meets inst) : inst = page ∨ inst = plan :=
  met.eq_or_eq rfl rfl rfl

/-- The initializer is called for the document, if the target has one. -/
theorem eq_of_refersAt {outer inner : Instance} {declaration : Declaration} {leaf : Value}
    (met : program.Meets outer) (refers : program.graph.RefersAt outer declaration leaf)
    (found : program.graph.instance? leaf = some inner) :
    declaration = ⟨"doc", "File", 0⟩ ∧ inner = plan := by
  rw [Graph.refersAt_iff_mem] at refers
  rcases eq_of_meets met with rfl | rfl
  · have listing : program.graph.referencesAt page =
        [(⟨"doc", "File", 0⟩, .text "plan"), (⟨"logo", "Logo", 0⟩, .text "lost")] := rfl
    simp only [listing, List.mem_cons, List.not_mem_nil, or_false, Prod.mk.injEq] at refers
    rcases refers with ⟨rfl, rfl⟩ | ⟨rfl, rfl⟩
    · exact ⟨rfl, (Option.some.inj found).symm⟩
    · cases found
  · cases refers

/-- The calls for the document return, and there are no others. -/
theorem not_bindingFault (target : Target) (fault : Fault) :
    ¬ BindingFault (setupFor target) ((setupFor target).surroundings (compiler target)) fault := by
  rintro (⟨met, refers, found, bound, failed⟩ | @⟨⟨inst, reference⟩, _, _, visits, bound, failed⟩)
  · obtain ⟨rfl, rfl⟩ := eq_of_refersAt met refers found
    cases target with
    | web => cases bound
    | ios =>
      cases bound
      have constructed : (Ios.fileConstruction plan).isOk = true := by decide +kernel
      rw [failed] at constructed
      cases constructed
  · rcases eq_of_meets visits.meets with same | same
    · change inst = page at same
      subst same
      cases target <;> cases bound
    · change inst = plan at same
      subst same
      have copied : (Asset.fileBinder ((setupFor target).surroundings (compiler target)) plan
          reference).isOk = true := by
        change (Asset.fileBinder ((setupFor target).surroundings (compiler target)) plan
          none).isOk = true
        cases target <;> decide +kernel
      cases target <;>
        · cases bound
          rw [failed] at copied
          cases copied

theorem exists_fault (target : Target) :
    ∃ fault, (outcome (walkRoots (setupFor target)) (compiler target)).1 = .error fault := by
  have fails : (outcome (walkRoots (setupFor target)) (compiler target)).1.isOk = false := by
    cases target <;> decide +kernel
  cases ended : (outcome (walkRoots (setupFor target)) (compiler target)).1 with
  | error fault => exact ⟨fault, rfl⟩
  | ok answer =>
    rw [ended] at fails
    cases fails

end Stray

/-! Slides that lead back to the first one. -/

namespace SlideShow

def program : Program where
  projectName := "Site"
  projectRoot := ⟨"/", ["site"]⟩
  graph := Graph.slides
  roots := ⟨[("Slide", "first")]⟩

def webSetup : Setup :=
  .ofProgram .web ⟨"/", []⟩ (Target.bindings ⟨"/", []⟩ .web) (.ok "localhost") program

def compiler : Compiler := { program := program, tree := {} }

theorem keyed : program.graph.IsKeyed := Graph.IsKeyed.of_entries (by decide) (by decide)

/-- No call is made, as slides have no binding. -/
theorem not_bindingFault (fault : Fault) :
    ¬ BindingFault webSetup (webSetup.surroundings compiler) fault := by
  rintro (@⟨_, _, declaration, _, _, _, -, refers, -, bound, -⟩ |
    @⟨⟨inst, reference⟩, _, _, visits, bound, -⟩)
  · have component : Graph.slides.types.contains declaration.type = true := refers.1
    have type_eq : "Slide" = declaration.type := by
      simpa [Graph.slides, OrderedMap.contains] using component
    rw [← type_eq] at bound
    cases bound
  · have member := OrderedMap.mem_entries_of_get? (visits.meets.listed keyed.id_eq)
    have type_eq : inst.type = "Slide" := by
      change (inst.id, inst) ∈ Graph.slides.instances.entries at member
      simp only [Graph.slides, List.mem_cons, List.not_mem_nil, or_false, Prod.mk.injEq] at member
      rcases member with ⟨-, rfl⟩ | ⟨-, rfl⟩ | ⟨-, rfl⟩ <;> rfl
    change (webSetup.bindings.get? (program.graph.componentName inst)).bind Binding.assets = _
      at bound
    rw [keyed.componentName_eq, type_eq] at bound
    cases bound

end SlideShow

/-- With the bindings of the library, the walk of the stray page ends on either target at the one
value that is no id, and that of the slides at their circle. -/
theorem guard_of_stray_and_slides :
    let stray (target : Target) : Prop :=
      (∀ fault, ¬ BindingFault (Stray.setupFor target)
        ((Stray.setupFor target).surroundings (Stray.compiler target)) fault) ∧
      EndsByItself (Stray.setupFor target) (Stray.compiler target) ∧
      ∃ value, Stray.program.graph.instance? value = none ∧
        (outcome (walkRoots (Stray.setupFor target)) (Stray.compiler target)).1 =
          .error (.graph (.unknownInstance value))
    let circle := ["first", "last", "first"]
    let ended := outcome (walkRoots SlideShow.webSetup) SlideShow.compiler
    GraphDocument.ofValue Stray.document = .ok ⟨Stray.program.graph, Stray.program.roots⟩ ∧
      stray .web ∧ stray .ios ∧
      EndsByItself SlideShow.webSetup SlideShow.compiler ∧
      ended.1 = .error (.graph (.circular circle)) ∧
      IsCycle SlideShow.program.graph.Refers circle ∧ ∀ answer, ended.1 ≠ .ok answer := by
  intro stray circle ended
  have strayed (target : Target) : stray target := by
    obtain ⟨ends, fails⟩ := (walk_guard_agrees_with_search (Stray.setupFor target)
      (Stray.compiler target)).1 Stray.loaded rfl
    obtain ⟨fault, failed⟩ := Stray.exists_fault target
    obtain ⟨value, unknown, rfl⟩ := fails fault failed (Stray.not_bindingFault target fault)
    exact ⟨Stray.not_bindingFault target, ends, value, unknown, failed⟩
  have circled : ended.1 = .error (.graph (.circular circle)) := by rfl
  obtain ⟨ends, guards, neverOk⟩ :=
    (walk_guard_agrees_with_search SlideShow.webSetup SlideShow.compiler).2 SlideShow.keyed.id_eq
  have cycle := guards circle circled (SlideShow.not_bindingFault _)
  obtain ⟨id, first, back⟩ := cycle.exists_transGen_self
  obtain rfl : "first" = id := Option.some.inj first
  exact ⟨Stray.loaded, strayed .web, strayed .ios, ends, circled, cycle,
    neverOk (List.mem_singleton_self _) .refl back⟩

end Compilation

end DesignGraph
