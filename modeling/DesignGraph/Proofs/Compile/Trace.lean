import DesignGraph.Proofs.Compile.Frame
import DesignGraph.Proofs.Graph.Cycle
import DesignGraph.Proofs.Compile.Walk

/-!
# Traces of walks

What a walk does besides keeping the roster, in the order in which it does it: it omits values, each
with a warning, and it leaves instances, each with what its binding adds to the package. An instance
is left once everything below it has been left, so a trace lists the visits in postorder. `Trace` is
a relation on the graph alone, and `walkRoots_traced` says that a walk that succeeds leaves exactly
the warnings, assets and styles of a trace.
-/

namespace DesignGraph

/-- An instance that is visited, and the property through which it was reached. -/
structure Visit where
  inst : Instance
  reference : Option Reference

inductive Event
  | visit (visited : Visit)
  | omission (warning : Warning)

namespace Event

def warning? : Event → Option Warning
  | visit _ => none
  | omission warning => some warning

section below

variable (target : Target) (graph : Graph)

/-- What a value of a property so many collections deep has in store. -/
def within (parent : String) (declaration : Declaration) : (depth : Nat) → Value → List Event
  | 0, value =>
      if graph.isComponent declaration.type then
        (graph.instance? value).toList.map fun inst => visit ⟨inst, some ⟨parent, declaration.name⟩⟩
      else match target.primitive declaration.type value with
        | .ok _ => []
        | .error warning => [omission warning]
  | depth + 1, .list items => items.flatMap (within parent declaration depth)
  | _ + 1, value => [omission (.notList parent declaration.name value)]

/-- What a declared property of an instance has in store. -/
def ofProperty (type : String) (inst : Instance) (declaration : Declaration) : List Event :=
  match inst.values.get? declaration.name with
  | none => [omission (.noValue type declaration.name inst.id)]
  | some value => within target graph type declaration declaration.depth value

/-- What an instance has in store, property by property. -/
def below (inst : Instance) : List Event :=
  match graph.types.get? inst.type with
  | none => []
  | some type => type.properties.flatMap (ofProperty target graph type.name inst)

/-- The one event is a visit that has the other in store. -/
def Leads (first next : Event) : Prop :=
  ∃ visited, first = visit visited ∧ next ∈ below target graph visited.inst

variable {target graph} {parent : String} {declaration : Declaration}

/-- A value has the visits of the instances in store that it leads to. -/
theorem visit_mem_within {depth : Nat} {value : Value} {visited : Visit} :
    visit visited ∈ within target graph parent declaration depth value ↔
      graph.isComponent declaration.type = true ∧ ∃ leaf, Graph.Within depth value leaf ∧
        graph.instance? leaf = some visited.inst ∧
        visited.reference = some ⟨parent, declaration.name⟩ := by
  induction depth generalizing value with
  | zero =>
    unfold within
    cases component : graph.isComponent declaration.type with
    | true =>
      simp only [if_true, List.mem_map, Option.mem_toList, true_and]
      constructor
      · rintro ⟨inst, found, ⟨⟩⟩
        exact ⟨value, .here value, found, rfl⟩
      · rintro ⟨_, ⟨⟩, found, same⟩
        obtain ⟨inst, reference⟩ := visited
        cases same
        exact ⟨inst, found, rfl⟩
    | false => cases target.primitive declaration.type value <;> simp
  | succ depth ih =>
    cases value with
    | list items =>
      simp only [within, List.mem_flatMap, ih]
      constructor
      · rintro ⟨item, member, component, leaf, inside, found⟩
        exact ⟨component, leaf, .inside member inside, found⟩
      · rintro ⟨component, leaf, inside | ⟨member, inside⟩, found⟩
        exact ⟨_, member, component, leaf, inside, found⟩
    | _ =>
      constructor
      · intro member
        simp [within] at member
      · rintro ⟨-, _, ⟨⟩, -⟩

/-- What an instance leads to is visited from it, by the property that holds it. -/
theorem visit_mem_below {outer : Instance} {visited : Visit} :
    visit visited ∈ below target graph outer ↔
      ∃ declaration leaf, graph.RefersAt outer declaration leaf ∧
        graph.instance? leaf = some visited.inst ∧
        visited.reference = some ⟨graph.componentName outer, declaration.name⟩ := by
  unfold below Graph.RefersAt Graph.componentName
  cases declared : graph.types.get? outer.type with
  | none => simp
  | some type =>
    simp only [List.mem_flatMap, ofProperty, Option.some.injEq, exists_eq_left']
    constructor
    · rintro ⟨declaration, ofType, member⟩
      cases given : outer.values.get? declaration.name with
      | none => simp [given] at member
      | some value =>
        simp only [given, visit_mem_within] at member
        obtain ⟨component, leaf, inside, found, same⟩ := member
        exact ⟨declaration, leaf, ⟨component, ofType, value, given, inside⟩, found, same⟩
    · rintro ⟨declaration, leaf, ⟨component, ofType, value, given, inside⟩, found, same⟩
      refine ⟨declaration, ofType, ?_⟩
      simp only [given, visit_mem_within]
      exact ⟨component, leaf, inside, found, same⟩

end below

end Event

/-- From what is waiting, everything below it is done as well, in this order. -/
inductive Trace (target : Target) (graph : Graph) : (waiting done : List Event) → Prop
  | nil : Trace target graph [] []
  | omission {warning : Warning} {rest after : List Event} (later : Trace target graph rest after) :
      Trace target graph (.omission warning :: rest) (.omission warning :: after)
  | visit {visited : Visit} {rest below after : List Event}
      (inner : Trace target graph (Event.below target graph visited.inst) below)
      (later : Trace target graph rest after) :
      Trace target graph (.visit visited :: rest) (below ++ .visit visited :: after)

namespace Trace

variable {target : Target} {graph : Graph} {waiting done : List Event}

theorem append {first second left right : List Event} (before : Trace target graph first left)
    (after : Trace target graph second right) :
    Trace target graph (first ++ second) (left ++ right) := by
  induction before with
  | nil => exact after
  | omission _ ih => exact .omission ih
  | visit inner _ _ ih =>
    rw [List.cons_append, List.append_assoc, List.cons_append]
    exact .visit inner ih

theorem mem_of_waiting (trace : Trace target graph waiting done) {event : Event}
    (member : event ∈ waiting) : event ∈ done := by
  induction trace with
  | nil => exact member
  | omission _ ih =>
    rcases List.mem_cons.mp member with rfl | member
    · exact List.mem_cons_self
    · exact List.mem_cons_of_mem _ (ih member)
  | visit _ _ _ ih =>
    rcases List.mem_cons.mp member with rfl | member
    · exact List.mem_append_right _ List.mem_cons_self
    · exact List.mem_append_right _ (List.mem_cons_of_mem _ (ih member))

theorem closed (trace : Trace target graph waiting done) {first next : Event}
    (member : first ∈ done) (leads : first.Leads target graph next) : next ∈ done := by
  induction trace with
  | nil => cases member
  | omission _ ih =>
    rcases List.mem_cons.mp member with rfl | member
    · obtain ⟨_, ⟨⟩, _⟩ := leads
    · exact List.mem_cons_of_mem _ (ih member)
  | visit inner _ innerClosed laterClosed =>
    rcases List.mem_append.mp member with member | member
    · exact List.mem_append_left _ (innerClosed member)
    rcases List.mem_cons.mp member with rfl | member
    · obtain ⟨_, ⟨⟩, store⟩ := leads
      exact List.mem_append_left _ (inner.mem_of_waiting store)
    · exact List.mem_append_right _ (List.mem_cons_of_mem _ (laterClosed member))

/-- Whatever an instance has in store is done before the instance is left. -/
theorem mem_of_below {visited : Visit} {front back : List Event}
    (trace : Trace target graph waiting (front ++ .visit visited :: back)) {event : Event}
    (member : event ∈ Event.below target graph visited.inst) : event ∈ front := by
  generalize split : front ++ Event.visit visited :: back = done at trace
  induction trace generalizing front back with
  | nil => simp at split
  | omission _ ih =>
    cases front with
    | nil => cases split
    | cons first front =>
      obtain ⟨-, rest⟩ := List.cons.inj split
      exact List.mem_cons_of_mem _ (ih rest)
  | visit inner _ innerBefore laterBefore =>
    -- The visit is the one that has just been made, or one before it, or one after it.
    rcases List.append_eq_append_iff.mp split with ⟨mid, below_eq, rest⟩ | ⟨mid, rfl, rest⟩
    · cases mid with
      | nil =>
        obtain ⟨⟨⟩, rfl⟩ := List.cons.inj rest
        rw [List.append_nil] at below_eq
        exact below_eq ▸ inner.mem_of_waiting member
      | cons first mid =>
        obtain ⟨rfl, -⟩ := List.cons.inj rest
        exact innerBefore below_eq.symm
    · cases mid with
      | nil =>
        obtain ⟨⟨⟩, rfl⟩ := List.cons.inj rest
        rw [List.append_nil]
        exact inner.mem_of_waiting member
      | cons first mid =>
        obtain ⟨rfl, after_eq⟩ := List.cons.inj rest
        exact List.mem_append_right _ (List.mem_cons_of_mem _ (laterBefore after_eq.symm))

/-- Done is what the waiting events lead to. -/
theorem mem_iff (trace : Trace target graph waiting done) (event : Event) :
    event ∈ done ↔
      ∃ start ∈ waiting, Relation.ReflTransGen (Event.Leads target graph) start event := by
  constructor
  · intro member
    induction trace with
    | nil => cases member
    | omission _ ih =>
      rcases List.mem_cons.mp member with rfl | member
      · exact ⟨_, List.mem_cons_self, .refl⟩
      · obtain ⟨start, listed, leads⟩ := ih member
        exact ⟨start, List.mem_cons_of_mem _ listed, leads⟩
    | visit _ _ innerReached laterReached =>
      rcases List.mem_append.mp member with member | member
      · obtain ⟨start, listed, leads⟩ := innerReached member
        exact ⟨_, List.mem_cons_self, .head ⟨_, rfl, listed⟩ leads⟩
      rcases List.mem_cons.mp member with rfl | member
      · exact ⟨_, List.mem_cons_self, .refl⟩
      · obtain ⟨start, listed, leads⟩ := laterReached member
        exact ⟨start, List.mem_cons_of_mem _ listed, leads⟩
  · rintro ⟨start, listed, leads⟩
    induction leads with
    | refl => exact trace.mem_of_waiting listed
    | tail _ step ih => exact trace.closed ih step

end Trace

namespace Compilation

variable {setup : Setup} {before between after : Compiler}

/-- What an event adds to the package. -/
def added (setup : Setup) (around : Surroundings) : Event → Except Fault (List Effect)
  | .omission _ => .ok []
  | .visit visited =>
      match (setup.bindings.get? (around.program.graph.componentName visited.inst)).bind
        Binding.assets with
      | none => .ok []
      | some binder => binder around visited.inst visited.reference

/-- What asset binders add to. -/
def decorations (output : Output) : OrderedMap String Asset × Styles :=
  (output.assets, output.styles)

theorem decorations_changeComponent (output : Output) (type : String)
    (change : Component → Component) :
    decorations (output.changeComponent type change) = decorations output := by
  unfold Output.changeComponent
  split <;> rfl

theorem applyAll_append (output : Output) (first second : List Effect) :
    output.applyAll (first ++ second) = (output.applyAll first).applyAll second :=
  List.foldl_append

/-- A mapping of the output in which effects set entries: the entries are set in their order. -/
theorem map_applyAll {κ α : Type} [BEq κ] (view : Output → OrderedMap κ α)
    (setting? : Effect → Option (κ × α))
    (step : ∀ output effect, view (output.apply effect) =
      (setting? effect).toList.foldl (fun m pair => m.insert pair.1 pair.2) (view output))
    (output : Output) (effects : List Effect) :
    view (output.applyAll effects) =
      (effects.filterMap setting?).foldl (fun m pair => m.insert pair.1 pair.2) (view output) := by
  induction effects generalizing output with
  | nil => rfl
  | cons effect rest ih =>
    have first : output.applyAll (effect :: rest) = (output.apply effect).applyAll rest := rfl
    rw [first, ih, step, List.filterMap_cons]
    cases setting? effect <;> rfl

theorem decorations_apply_congr {output other : Output}
    (same : decorations output = decorations other) (effect : Effect) :
    decorations (output.apply effect) = decorations (other.apply effect) := by
  obtain ⟨assets, styles⟩ := Prod.mk.inj same
  cases effect <;> simp only [decorations, Output.apply, assets, styles]

theorem decorations_applyAll_congr {output other : Output}
    (same : decorations output = decorations other) (effects : List Effect) :
    decorations (output.applyAll effects) = decorations (other.applyAll effects) := by
  induction effects generalizing output other with
  | nil => exact same
  | cons effect rest ih => exact ih (decorations_apply_congr same effect)

/-- A step that does what is waiting, and leaves the warnings and decorations of that. -/
structure Traced (setup : Setup) (before : Compiler) (waiting done : List Event)
    (after : Compiler) : Prop where
  trace : Trace setup.target before.program.graph waiting done
  surroundings_eq : setup.surroundings after = setup.surroundings before
  warnings_eq : after.warnings = before.warnings ++ done.filterMap Event.warning?
  decorated : ∃ effects,
    List.Forall₂ (fun event new => added setup (setup.surroundings before) event = .ok new)
      done effects ∧
    decorations after.output = decorations (before.output.applyAll effects.flatten)

namespace Traced

theorem nothing (surroundings_eq : setup.surroundings after = setup.surroundings before)
    (warnings_eq : after.warnings = before.warnings)
    (same : decorations after.output = decorations before.output) :
    Traced setup before [] [] after :=
  ⟨.nil, surroundings_eq, by simpa using warnings_eq, [], .nil, same⟩

theorem warned (warning : Warning) :
    Traced setup before [.omission warning] [.omission warning]
      { before with warnings := before.warnings ++ [warning] } :=
  ⟨.omission .nil, rfl, rfl, [[]], .cons rfl .nil, rfl⟩

/-- A change of the roster goes unnoticed. -/
theorem unseen {waiting done : List Event} {middle : Compiler}
    (traced : Traced setup before waiting done between)
    (around : setup.surroundings middle = setup.surroundings between)
    (warnings : middle.warnings = between.warnings)
    (same : decorations middle.output = decorations between.output) :
    Traced setup before waiting done middle := by
  obtain ⟨trace, aroundBefore, warningsBefore, effects, new, decorated⟩ := traced
  exact ⟨trace, around.trans aroundBefore, warnings.trans warningsBefore, effects, new,
    same.trans decorated⟩

/-- So does the filling in of properties. -/
theorem filledIn {waiting done : List Event} (traced : Traced setup before waiting done between)
    (isFirst : Bool) (type : String) (properties : OrderedMap String Property) :
    Traced setup before waiting done (filledIn isFirst type properties between) := by
  cases isFirst with
  | false => exact traced
  | true => exact traced.unseen rfl rfl (decorations_changeComponent ..)

theorem append {first second left right : List Event}
    (head : Traced setup before first left between)
    (tail : Traced setup between second right after) :
    Traced setup before (first ++ second) (left ++ right) after := by
  obtain ⟨tailTrace, tailAround, tailWarnings, late, tailAdded, tailDecorations⟩ := tail
  obtain ⟨early, headAdded, headDecorations⟩ := head.decorated
  have program_eq : between.program = before.program :=
    congrArg Surroundings.program head.surroundings_eq
  rw [program_eq] at tailTrace
  rw [head.surroundings_eq] at tailAdded tailAround
  refine ⟨head.trace.append tailTrace, tailAround, ?_, early ++ late, ?_, ?_⟩
  · rw [tailWarnings, head.warnings_eq, List.filterMap_append, List.append_assoc]
  · exact List.rel_append headAdded tailAdded
  · rw [tailDecorations, decorations_applyAll_congr headDecorations, List.flatten_append,
      applyAll_append]

end Traced

/-- What holds of two compilers and of the events between them if the resolution of a value builds
it up from warnings and nested visits. -/
structure Chronicles (visit : Instance → Reference → Compilation Spec)
    (between : Compiler → List Event → Compiler → Prop) : Prop where
  nothing (compiler : Compiler) : between compiler [] compiler
  warned (compiler : Compiler) (warning : Warning) :
    between compiler [.omission warning]
      { compiler with warnings := compiler.warnings ++ [warning] }
  visited {inst : Instance} {reference : Reference} {before after : Compiler} {spec : Spec} :
    (visit inst reference).Yields before spec after →
      between before [.visit ⟨inst, some reference⟩] after
  append {before middle after : Compiler} {first second : List Event} :
    between before first middle → between middle second after →
      between before (first ++ second) after
  program_eq {before after : Compiler} {events : List Event} :
    between before events after → after.program = before.program

namespace Chronicles

variable {visit : Instance → Reference → Compilation Spec}
  {holds : Compiler → List Event → Compiler → Prop} (chronicles : Chronicles visit holds)

include chronicles

theorem mapM (within : Graph → Value → List Event)
    {resolve : Value → Compilation (Option Property)}
    (each : ∀ {item : Value} {before after : Compiler} {result : Option Property},
      (resolve item).Yields before result after →
        holds before (within before.program.graph item) after)
    {items : List Value} {results : List (Option Property)}
    (success : (items.mapM resolve).Yields before results after) :
    holds before (items.flatMap (within before.program.graph)) after := by
  induction items generalizing before results with
  | nil =>
    obtain ⟨-, rfl⟩ := yields_mapM_nil.mp success
    exact chronicles.nothing _
  | cons item rest ih =>
    obtain ⟨_, between, _, first, later, rfl⟩ := yields_mapM_cons.mp success
    have head := each first
    have tail := ih later
    rw [chronicles.program_eq head] at tail
    exact chronicles.append head tail

/-- It holds of a value that is resolved, and of what the value has in store. -/
theorem propertyOf {parent : String} {declaration : Declaration} {depth : Nat} {value : Value}
    {result : Option Property}
    (success : (propertyOf setup visit parent declaration depth value).Yields before result
      after) :
    holds before (Event.within setup.target before.program.graph parent declaration depth value)
      after := by
  induction depth generalizing value before after result with
  | zero =>
    cases component : before.program.graph.isComponent declaration.type with
    | false =>
      simp only [Event.within, component, Bool.false_eq_true, if_false]
      rcases (yields_propertyOf_primitive component).mp success with
        ⟨property, represented, -, rfl⟩ | ⟨warning, refused, -, rfl⟩
      · rw [represented]
        exact chronicles.nothing _
      · rw [refused]
        exact chronicles.warned _ warning
    | true =>
      obtain ⟨inst, spec, initializer, found, visited, -, -⟩ :=
        propertyOf_component_yields component success
      simpa only [Event.within, component, if_true, found, Option.toList_some, List.map_cons,
        List.map_nil] using chronicles.visited visited
  | succ depth ih =>
    cases value with
    | list items =>
      obtain ⟨elements, each, -⟩ := yields_propertyOf_list.mp success
      exact chronicles.mapM (Event.within setup.target · parent declaration depth)
        (fun resolved => ih resolved) each
    | _ =>
      obtain ⟨-, rfl⟩ := (yields_propertyOf_not_list (by simp)).mp success
      exact chronicles.warned _ _

theorem resolveDeclared {type : String} {inst : Instance} {declaration : Declaration}
    {answer : Option Property}
    (success : (resolveDeclared setup visit type inst declaration).Yields before answer after) :
    holds before (Event.ofProperty setup.target before.program.graph type inst declaration)
      after := by
  unfold Event.ofProperty
  cases given : inst.values.get? declaration.name with
  | none =>
    obtain ⟨-, rfl⟩ := (yields_resolveDeclared_none given).mp success
    exact chronicles.warned _ _
  | some value =>
    rw [resolveDeclared_some given] at success
    exact chronicles.propertyOf success

end Chronicles

/-- A visit does all that is below it and then leaves the instance. -/
def TracesVisits (setup : Setup) (visit : Instance → Reference → Compilation Spec) : Prop :=
  ∀ {inst : Instance} {reference : Reference} {before after : Compiler} {spec : Spec},
    (visit inst reference).Yields before spec after →
      ∃ done, Traced setup before [.visit ⟨inst, some reference⟩] done after

section nested

variable {visit : Instance → Reference → Compilation Spec} (visits : TracesVisits setup visit)

include visits

theorem TracesVisits.chronicles :
    Chronicles visit fun before events after => ∃ done, Traced setup before events done after where
  nothing _ := ⟨[], .nothing rfl rfl rfl⟩
  warned _ warning := ⟨_, .warned warning⟩
  visited := visits
  append := fun ⟨early, head⟩ ⟨late, tail⟩ => ⟨early ++ late, head.append tail⟩
  program_eq := fun ⟨_, traced⟩ => congrArg Surroundings.program traced.surroundings_eq

theorem properties_traced {type : String} {isFirst : Bool} {inst : Instance}
    {declarations : List Declaration} {done result : OrderedMap String Property}
    (success : (properties setup visit type isFirst inst declarations done).Yields before result
      after) :
    ∃ events, Traced setup before
      (declarations.flatMap (Event.ofProperty setup.target before.program.graph type inst)) events
        after := by
  induction declarations generalizing done before with
  | nil =>
    obtain ⟨-, rfl⟩ := yields_pure.mp success
    exact ⟨[], .nothing rfl rfl rfl⟩
  | cons declaration rest ih =>
    obtain ⟨answer, between, first, others⟩ := properties_cons_yields success
    obtain ⟨early, head⟩ := visits.chronicles.resolveDeclared first
    rw [List.flatMap_cons]
    -- The rest goes on from where the property has been resolved and, for a first instance, noted.
    have continues : ∀ {middle : Compiler} {next : OrderedMap String Property},
        Traced setup before (Event.ofProperty setup.target before.program.graph type inst
          declaration) early middle →
        (properties setup visit type isFirst inst rest next).Yields middle result after →
        ∃ events, Traced setup before
          (Event.ofProperty setup.target before.program.graph type inst declaration ++
            rest.flatMap (Event.ofProperty setup.target before.program.graph type inst)) events
              after := by
      intro middle next head others
      obtain ⟨late, tail⟩ := ih others
      have program_eq : middle.program = before.program :=
        congrArg Surroundings.program head.surroundings_eq
      rw [program_eq] at tail
      exact ⟨early ++ late, head.append tail⟩
    rcases others with ⟨-, others⟩ | ⟨property, -, others⟩
    · exact continues head others
    · exact continues (head.filledIn isFirst type _) others

end nested

theorem register_unseen {type : String} {isPublic isFirst : Bool} {id : String}
    (success : (register setup type isPublic id).Yields before isFirst after) :
    setup.surroundings after = setup.surroundings before ∧ after.warnings = before.warnings ∧
      decorations after.output = decorations before.output := by
  obtain ⟨-, rfl⟩ := yields_register.mp success
  exact ⟨rfl, rfl, rfl⟩

theorem bindAssets_traced {type : String} {inst : Instance} {reference : Option Reference}
    {answer : Unit} (name_eq : before.program.graph.componentName inst = type)
    (success : (bindAssets setup type inst reference).Yields before answer after) :
    ∃ effects, added setup (setup.surroundings before) (.visit ⟨inst, reference⟩) = .ok effects ∧
      after = { before with output := before.output.applyAll effects } := by
  subst name_eq
  exact yields_bindAssets.mp success

/-- A visit that succeeds: all that is below the instance is done, and then the instance is left. -/
theorem walk_traced {hops : Nat} {path : List String} {isPublic : Bool} {inst : Instance}
    {reference : Option Reference} {spec : Spec}
    (success : (walk setup hops path isPublic inst reference).Yields before spec after) :
    ∃ done, Traced setup before [.visit ⟨inst, reference⟩] done after := by
  induction hops generalizing path isPublic inst reference before after spec with
  | zero => exact absurd success yields_throw
  | succ hops ih =>
    obtain ⟨type, isFirst, entered, resolved, found, registering, resolving, binding, -⟩ :=
      walk_succ_yields success
    obtain ⟨around, warnings, same⟩ := register_unseen registering
    have program_eq : entered.program = before.program := congrArg Surroundings.program around
    obtain ⟨events, inner⟩ := properties_traced (fun visited => ih visited) resolving
    have around_resolved : setup.surroundings resolved = setup.surroundings before :=
      inner.surroundings_eq.trans around
    have name_eq : resolved.program.graph.componentName inst = type.name := by
      have resolved_eq : resolved.program = before.program :=
        congrArg Surroundings.program around_resolved
      simp only [resolved_eq, Graph.componentName, found]
    obtain ⟨effects, answered, rfl⟩ := bindAssets_traced name_eq binding
    rw [around_resolved] at answered
    obtain ⟨trace, -, warningsInner, early, addedInner, decorated⟩ := inner
    rw [program_eq] at trace
    rw [around] at addedInner
    have below_eq : Event.below setup.target before.program.graph inst =
        type.properties.flatMap (Event.ofProperty setup.target before.program.graph type.name
          inst) := by
      simp only [Event.below, found]
    rw [← below_eq] at trace
    refine ⟨events ++ [.visit ⟨inst, reference⟩], .visit trace .nil, around_resolved, ?_,
      early ++ [effects], List.rel_append addedInner (.cons answered .nil), ?_⟩
    · simpa [List.filterMap_append, List.filterMap_cons, Event.warning?, warnings] using
        warningsInner
    · have before_eq := decorated.trans (decorations_applyAll_congr same early.flatten)
      rw [List.flatten_append, List.flatten_singleton, applyAll_append]
      exact decorations_applyAll_congr before_eq effects

/-- What is waiting when a walk begins. -/
def rootEvents (program : Program) : List Event :=
  program.rootInstances.map fun root => .visit ⟨root, none⟩

theorem RootVisits.traced {roots : List Instance} (visits : RootVisits setup before roots after) :
    ∃ done, Traced setup before (roots.map fun root => .visit ⟨root, none⟩) done after := by
  induction visits with
  | nil compiler => exact ⟨[], .nothing rfl rfl rfl⟩
  | @cons before between after root rest hops spec visited _ ih =>
    obtain ⟨early, head⟩ := walk_traced visited
    obtain ⟨late, tail⟩ := ih
    exact ⟨early ++ late, head.append tail⟩

/-- A walk that succeeds does what the roots have in store, and nothing else. -/
theorem walkRoots_traced (success : (walkRoots setup).Yields before () after) :
    ∃ done, Traced setup before (rootEvents before.program) done after :=
  (walkRoots_visits success).traced

end Compilation

end DesignGraph
