import DesignGraph.Compile.Package
import DesignGraph.Proofs.Compile.Ending
import Mathlib.Tactic.SplitIfs

/-!
# What a step leaves alone

`Preserves` speaks of every ending of a step, a fault included: what a view shows of the compiler is
the same before and after. A walk touches the components, the assets, the styles and the warnings
only, so it keeps all that an asset binder may look at, and the lists of the package. To write a
package touches the file tree as well, and keeps the program.
-/

namespace DesignGraph.Compilation

variable {α β σ : Type} {view : Compiler → σ} {setup : Setup}

/-- However the step ends, the view of the compiler stays. -/
def Preserves (view : Compiler → σ) (step : Compilation α) : Prop :=
  ∀ compiler, view (outcome step compiler).2 = view compiler

theorem Preserves.of_yields {step : Compilation α} {before after : Compiler} {answer : α}
    (preserves : Preserves view step) (success : step.Yields before answer after) :
    view after = view before :=
  (congrArg (view ·.2) success).symm.trans (preserves before)

theorem preserves_pure (a : α) : Preserves view (pure a) := fun _ => rfl

theorem preserves_throw (fault : Fault) : Preserves view (throw fault : Compilation α) :=
  fun _ => rfl

theorem preserves_get : Preserves view get := fun _ => rfl

theorem preserves_modify {change : Compiler → Compiler}
    (unseen : ∀ compiler, view (change compiler) = view compiler) :
    Preserves view (modify change) := unseen

theorem preserves_ofExcept (result : Except Fault α) : Preserves view (ofExcept result) := by
  cases result with
  | error fault => exact preserves_throw fault
  | ok a => exact preserves_pure a

theorem preserves_onDisk (unseen : ∀ compiler tree,
      view { compiler with tree := tree } = view compiler) (step : Disk α) :
    Preserves view (onDisk step) := by
  intro compiler
  rw [outcome_onDisk]
  exact unseen _ _

theorem Preserves.bind {step : Compilation α} {next : α → Compilation β}
    (head : Preserves view step) (tail : ∀ a, Preserves view (next a)) :
    Preserves view (step >>= next) := by
  intro compiler
  have kept := head compiler
  rw [outcome_bind]
  rcases ending : outcome step compiler with ⟨fault | a, between⟩
  · rwa [ending] at kept
  · rw [ending] at kept
    exact (tail a between).trans kept

theorem preserves_mapM {step : α → Compilation β} {items : List α}
    (each : ∀ a, Preserves view (step a)) : Preserves view (items.mapM step) := by
  induction items with
  | nil =>
    rw [List.mapM_nil]
    exact preserves_pure _
  | cons a rest ih =>
    rw [List.mapM_cons]
    exact (each a).bind fun _ => ih.bind fun _ => preserves_pure _

theorem preserves_forM {step : α → Compilation PUnit} {items : List α}
    (each : ∀ a, Preserves view (step a)) : Preserves view (items.forM step) := by
  induction items with
  | nil => exact preserves_pure _
  | cons a rest ih => exact (each a).bind fun _ => ih

/-! ## The walk -/

/-- What a package lists: its sources, declarations, imports and dependencies. -/
def listsOf (output : Output) :
    OrderedSet Source × OrderedSet Source × OrderedSet String × OrderedSet Dependency :=
  (output.sources, output.declarations, output.imports, output.dependencies)

theorem listsOf_changeComponent (output : Output) (type : String) (change : Component → Component) :
    listsOf (output.changeComponent type change) = listsOf output := by
  unfold Output.changeComponent
  split <;> rfl

theorem listsOf_applyAll (output : Output) (effects : List Effect) :
    listsOf (output.applyAll effects) = listsOf output := by
  induction effects generalizing output with
  | nil => rfl
  | cons effect rest ih =>
    have applied : listsOf (output.apply effect) = listsOf output := by cases effect <;> rfl
    exact (ih (output.apply effect)).trans applied

/-- What a walk keeps. -/
def keptByWalk (setup : Setup) (compiler : Compiler) :=
  (setup.surroundings compiler, compiler.isRunning, listsOf compiler.output)

theorem preserves_changeOutput {change : Output → Output}
    (unseen : ∀ output, listsOf (change output) = listsOf output) :
    Preserves (keptByWalk setup) (changeOutput change) :=
  preserves_modify fun compiler =>
    congrArg (setup.surroundings compiler, compiler.isRunning, ·) (unseen compiler.output)

theorem preserves_warn (warning : Warning) : Preserves (keptByWalk setup) (warn warning) :=
  preserves_modify fun _ => rfl

theorem preserves_register (type : String) (isPublic : Bool) (id : String) :
    Preserves (keptByWalk setup) (register setup type isPublic id) := by
  refine preserves_get.bind fun compiler => ?_
  refine (preserves_changeOutput ?_).bind fun _ => preserves_pure _
  exact fun _ => rfl

theorem preserves_bindAssets (type : String) (inst : Instance) (reference : Option Reference) :
    Preserves (keptByWalk setup) (bindAssets setup type inst reference) := by
  unfold bindAssets
  split
  · exact preserves_pure _
  · exact preserves_get.bind fun _ => (preserves_ofExcept _).bind fun _ =>
      preserves_changeOutput fun output => listsOf_applyAll output _

section nested

variable {visit : Instance → Reference → Compilation Spec}
  (nested : ∀ inst reference, Preserves (keptByWalk setup) (visit inst reference))

include nested

theorem preserves_propertyOf (parent : String) (declaration : Declaration) (depth : Nat)
    (value : Value) :
    Preserves (keptByWalk setup) (propertyOf setup visit parent declaration depth value) := by
  have warned : ∀ warning,
      Preserves (keptByWalk setup) (do warn warning; pure (none : Option Property)) :=
    fun warning => (preserves_warn warning).bind fun _ => preserves_pure _
  induction depth generalizing value with
  | zero =>
    simp only [propertyOf]
    refine preserves_get.bind fun compiler => ?_
    split
    · split
      · exact preserves_pure _
      · exact warned _
    · refine (preserves_ofExcept _).bind fun inst => (nested _ _).bind fun spec => ?_
      split
      · exact (preserves_ofExcept _).bind fun _ => preserves_pure _
      · exact (preserves_pure _).bind fun _ => preserves_pure _
  | succ depth ih =>
    cases value with
    | list items => exact (preserves_mapM ih).bind fun _ => preserves_pure _
    | _ => exact warned _

theorem preserves_properties (type : String) (isFirst : Bool) (inst : Instance)
    (declarations : List Declaration) (done : OrderedMap String Property) :
    Preserves (keptByWalk setup) (properties setup visit type isFirst inst declarations done) := by
  induction declarations generalizing done with
  | nil => exact preserves_pure _
  | cons declaration rest ih =>
    simp only [properties]
    split
    · exact (preserves_warn _).bind fun _ => ih _
    · refine (preserves_propertyOf nested _ _ _ _).bind fun property? => ?_
      split
      · exact ih _
      · split
        · exact (preserves_changeOutput fun output => listsOf_changeComponent output _ _).bind
            fun _ => ih _
        · exact ih _

end nested

theorem preserves_walk (hops : Nat) (path : List String) (isPublic : Bool) (inst : Instance)
    (reference : Option Reference) :
    Preserves (keptByWalk setup) (walk setup hops path isPublic inst reference) := by
  induction hops generalizing path isPublic inst reference with
  | zero => exact preserves_throw _
  | succ hops ih =>
    simp only [walk]
    split
    · exact preserves_throw _
    · refine preserves_get.bind fun _ => (preserves_ofExcept _).bind fun type => ?_
      refine (preserves_register _ _ _).bind fun isFirst => ?_
      refine (preserves_properties (fun inner reference => ih _ _ inner _) _ _ _ _ _).bind
        fun resolved => ?_
      exact (preserves_bindAssets _ _ _).bind fun _ => preserves_get.bind fun _ =>
        preserves_pure _

theorem preserves_walkRoots : Preserves (keptByWalk setup) (walkRoots setup) := by
  refine preserves_get.bind fun _ => preserves_forM fun entry => ?_
  refine (preserves_ofExcept _).bind fun inst => ?_
  exact (preserves_get.bind fun _ => preserves_walk _ _ _ _ _).bind fun _ => preserves_pure _

theorem isRunning_of_walkRoots {before after : Compiler}
    (walked : (walkRoots setup).Yields before () after) : after.isRunning = before.isRunning :=
  congrArg (·.2.1) (preserves_walkRoots.of_yields walked)

/-! ## The package -/

theorem preserves_rendered (component suffix : String) (text : Except Fault String) :
    Preserves view (rendered component suffix text) := by
  refine preserves_get.bind fun _ => ?_
  split
  · exact (preserves_throw _).bind fun _ => (preserves_ofExcept _).bind fun _ => preserves_pure _
  · exact (preserves_ofExcept _).bind fun _ => preserves_pure _

theorem preserves_packageData : Preserves view (packageData setup) := by
  have read : ∀ sources, Preserves view (readSources sources) := fun _ =>
    preserves_get.bind fun _ => preserves_ofExcept _
  refine preserves_get.bind fun _ => (preserves_ofExcept _).bind fun _ => (read _).bind fun _ => ?_
  split
  · exact (read _).bind fun _ => preserves_pure _
  · exact preserves_pure _

theorem output_unseen (change : Output → Output) :
    Preserves Compiler.program (changeOutput change) :=
  preserves_modify fun _ => rfl

theorem tree_unseen (step : Disk α) : Preserves Compiler.program (onDisk step) :=
  preserves_onDisk (fun _ _ => rfl) step

theorem preserves_writeDeclarations (spec : Spec) :
    Preserves Compiler.program (writeDeclarations setup spec) := by
  unfold writeDeclarations
  split
  · exact preserves_pure _
  · exact (preserves_rendered _ _ _).bind fun _ => output_unseen _

theorem preserves_writeComponent (types : List String) (type : String) :
    Preserves Compiler.program (writeComponent setup types type) := by
  have classed : ∀ spec hasDefaults,
      Preserves Compiler.program (writeClass setup spec hasDefaults) :=
    fun spec hasDefaults => (preserves_rendered _ _ _).bind fun _ => output_unseen _
  refine (output_unseen _).bind fun _ => preserves_get.bind fun _ => ?_
  split
  · exact preserves_pure _
  · refine (classed _ _).bind fun _ => ?_
    split
    · exact preserves_writeDeclarations _
    · refine (output_unseen _).bind fun _ => ?_
      split
      · exact preserves_writeDeclarations _
      · exact preserves_pure _

theorem preserves_writeAssets : Preserves Compiler.program (writeAssets setup) := by
  have copied : ∀ root name asset, Preserves Compiler.program (writeAsset root name asset) := by
    intro root name asset
    simp only [writeAsset]
    split_ifs
    · exact (preserves_throw _).bind fun _ => tree_unseen _
    · exact tree_unseen _
  have styled : ∀ language tokens,
      Preserves Compiler.program (writeStyleSheet setup language tokens) :=
    fun language tokens => preserves_get.bind fun _ => (tree_unseen _).bind fun _ =>
      (preserves_ofExcept _).bind fun _ => tree_unseen _
  have promoted : Preserves Compiler.program styleTokens :=
    preserves_get.bind fun _ => (output_unseen _).bind fun _ => preserves_pure _
  unfold writeAssets
  cases target : setup.target with
  | web =>
    simp only [reduceCtorEq, if_false, if_true]
    exact preserves_get.bind fun _ => (preserves_forM fun _ => copied _ _ _).bind fun _ =>
      promoted.bind fun _ => (styled _ _).bind fun _ => styled _ _
  | ios =>
    simp only [reduceCtorEq, if_false, if_true]
    exact (tree_unseen _).bind fun _ => preserves_get.bind fun _ =>
      (preserves_forM fun _ => copied _ _ _).bind fun _ => preserves_pure _

theorem preserves_writePackage : Preserves Compiler.program (writePackage setup) := by
  have finish : Preserves Compiler.program (do
      writeAssets setup
      let data ← packageData setup
      let files ← onDisk
        (Template.fillAll (Stock.skeleton setup.installed setup.target) setup.sdkRoot data)
      pure (⟨files, data⟩ : Package)) :=
    preserves_writeAssets.bind fun _ => preserves_packageData.bind fun _ =>
      (tree_unseen _).bind fun _ => preserves_pure _
  refine preserves_get.bind fun _ => ?_
  refine (preserves_forM fun type => preserves_writeComponent _ type).bind fun _ => ?_
  refine preserves_get.bind fun _ => ?_
  split_ifs
  · exact (output_unseen _).bind fun _ => finish
  · exact finish

end DesignGraph.Compilation
