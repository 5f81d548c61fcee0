import DesignGraph.Proofs.Compile.Contents
import DesignGraph.Proofs.Compile.Decoration

/-!
# Assets of a run

Files and drawings put a file into the package each, under a name that their source tells. Here is
what an instance registers (`Registers`), and that the assets of a run are what the visits of its
walk register, in their order (`Added`).
-/

namespace DesignGraph

/-- The static asset that an effect adds. -/
def Effect.asset? : Effect → Option (String × Asset)
  | .asset name content => some (name, content)
  | _ => none

/-- The font face that an effect adds. -/
def Effect.font? : Effect → Option (Value × StyleRules)
  | .font key rules => some (key, rules)
  | _ => none

/-- The class that an effect adds. -/
def Effect.ruleGroup? : Effect → Option (String × StyleRules)
  | .ruleGroup name rules => some (name, rules)
  | _ => none

/-- What an asset binder may look at in a run on a program: the file tree is that from before the
run. -/
def Setup.aroundRun (setup : Setup) (before : Compiler) (program : Program) : Surroundings :=
  ⟨setup.target, before.tree, program, before.hotUrl⟩

namespace Compilation

variable {setup : Setup} {around : Surroundings} {before after : Compiler} {inst : Instance}

theorem assets_applyAll (output : Output) (effects : List Effect) :
    (output.applyAll effects).assets =
      (effects.filterMap Effect.asset?).foldl (fun m pair => m.insert pair.1 pair.2)
        output.assets :=
  map_applyAll (·.assets) _ (fun _ effect => by cases effect <;> rfl) output effects

theorem fonts_applyAll (output : Output) (effects : List Effect) :
    (output.applyAll effects).styles.fonts =
      (effects.filterMap Effect.font?).foldl (fun m pair => m.insert pair.1 pair.2)
        output.styles.fonts :=
  map_applyAll (·.styles.fonts) _ (fun _ effect => by cases effect <;> rfl) output effects

theorem ruleGroups_applyAll (output : Output) (effects : List Effect) :
    (output.applyAll effects).styles.ruleGroups =
      (effects.filterMap Effect.ruleGroup?).foldl (fun m pair => m.insert pair.1 pair.2)
        output.styles.ruleGroups :=
  map_applyAll (·.styles.ruleGroups) _ (fun _ effect => by cases effect <;> rfl) output effects

/-! ## What an instance registers -/

/-- What an instance of a file type puts into the package: a copy of its source under the name of
the source, or a page around the drawing of its source. -/
inductive Registers (around : Surroundings) (inst : Instance) : String → Asset → Prop
  | copy {source : String} {path : Path}
      (isCopied : around.program.graph.componentName inst = "File" ∨
        around.program.graph.componentName inst = "SVG" ∧ around.target = .web)
      (given : Asset.sourceOf? inst = .ok (some source))
      (located : Asset.locate around.tree around.program.projectRoot source = .ok path) :
      Registers around inst source (.copyOf path.toText)
  | page {source : String} {path : Path} {drawing : String}
      (isPage : around.program.graph.componentName inst = "SVG" ∧ around.target = .ios)
      (given : Asset.sourceOf? inst = .ok (some source))
      (located : Asset.locate around.tree around.program.projectRoot source = .ok path)
      (read : Ios.readDrawing around.tree path = .ok drawing) :
      Registers around inst (source ++ ".html") (.text (Ios.page drawing))

/-- The name under which an instance of a type puts its source into the package. -/
def assetName (target : Target) (type source : String) : String :=
  if target = .ios ∧ type = "SVG" then source ++ ".html" else source

/-- A source that counts as given is a text that is not blank. -/
theorem sourceOf?_eq_some_iff {source : String} : Asset.sourceOf? inst = .ok (some source) ↔
    inst.values.get? "src" = some (.text source) ∧ source ≠ "" := by
  unfold Asset.sourceOf?
  cases given : inst.values.get? "src" with
  | none => simp
  | some value =>
    cases value with
    | text s =>
      by_cases blank : s = ""
      · simp [Value.isTruthy, blank, eq_comm]
      · simp only [Value.isTruthy, blank, Bool.not_eq_eq_eq_not, Bool.not_true,
          bne_eq_false_iff_eq, if_false, Except.ok.injEq, Option.some.injEq, Value.text.injEq]
        constructor
        · rintro rfl
          exact ⟨rfl, blank⟩
        · exact And.left
    | _ =>
      simp only [Option.some.injEq, reduceCtorEq, false_and, iff_false]
      split_ifs <;> simp

namespace Registers

variable {name other : String} {asset new : Asset}

theorem source (registers : Registers around inst name asset) :
    (around.program.graph.componentName inst = "File" ∨
      around.program.graph.componentName inst = "SVG") ∧
    ∃ source path, inst.values.get? "src" = some (.text source) ∧ source ≠ "" ∧
      Asset.locate around.tree around.program.projectRoot source = .ok path ∧
      name = assetName around.target (around.program.graph.componentName inst) source := by
  cases registers with
  | copy isCopied given located =>
    obtain ⟨value, notBlank⟩ := sourceOf?_eq_some_iff.mp given
    refine ⟨isCopied.imp_right And.left, name, _, value, notBlank, located, ?_⟩
    rcases isCopied with isFile | ⟨-, web⟩
    · simp [assetName, isFile]
    · simp [assetName, web]
  | page isPage given located _ =>
    obtain ⟨value, notBlank⟩ := sourceOf?_eq_some_iff.mp given
    refine ⟨.inr isPage.1, _, _, value, notBlank, located, ?_⟩
    simp [assetName, isPage]

/-- On the web, what is registered under a name is a copy of the file of that name. -/
theorem copy_of_name (web : around.target = .web) (registers : Registers around inst name asset) :
    ∃ path, Asset.locate around.tree around.program.projectRoot name = .ok path ∧
      asset = .copyOf path.toText := by
  cases registers with
  | copy _ _ located => exact ⟨_, located, rfl⟩
  | page isPage _ _ _ =>
    rw [web] at isPage
    cases isPage.2

theorem unique (first : Registers around inst name asset)
    (second : Registers around inst other new) : name = other ∧ asset = new := by
  have same : ∀ {source another : String}, Asset.sourceOf? inst = .ok (some source) →
      Asset.sourceOf? inst = .ok (some another) → source = another := by
    intro source another given again
    simpa using given.symm.trans again
  cases first with
  | copy isCopied given located =>
    cases second with
    | copy _ again relocated =>
      obtain rfl := same given again
      rw [located] at relocated
      cases relocated
      exact ⟨rfl, rfl⟩
    | page isPage _ _ _ => simp [isPage] at isCopied
  | page isPage given located read =>
    cases second with
    | copy isCopied _ _ => simp [isPage] at isCopied
    | page _ again relocated reread =>
      obtain rfl := same given again
      rw [located] at relocated
      cases relocated
      rw [read] at reread
      cases reread
      exact ⟨rfl, rfl⟩

/-- An instance without a source registers nothing. -/
theorem false_of_none (registers : Registers around inst name asset)
    (none_given : Asset.sourceOf? inst = .ok none) : False := by
  cases registers with
  | copy _ given _ =>
    rw [none_given] at given
    cases given
  | page _ given _ _ =>
    rw [none_given] at given
    cases given

/-- The one asset that is registered is all that is. -/
theorem mem_singleton_iff (registered : Registers around inst other new) :
    (name, asset) ∈ [Effect.asset other new].filterMap Effect.asset? ↔
      Registers around inst name asset := by
  simp only [List.filterMap_cons, Effect.asset?, List.filterMap_nil, List.mem_singleton,
    Prod.mk.injEq]
  constructor
  · rintro ⟨rfl, rfl⟩
    exact registered
  · exact fun registers => registers.unique registered

end Registers

/-- What a copying binder adds is what the instance registers. -/
theorem asset_mem_of_fileBinder_iff {reference : Option Reference} {effects : List Effect}
    (answered : Asset.fileBinder around inst reference = .ok effects)
    (isCopied : around.program.graph.componentName inst = "File" ∨
      around.program.graph.componentName inst = "SVG" ∧ around.target = .web)
    {name : String} {asset : Asset} :
    (name, asset) ∈ effects.filterMap Effect.asset? ↔ Registers around inst name asset := by
  rcases fileBinder_eq_ok_iff.mp answered with
    ⟨none_given, rfl⟩ | ⟨source, path, given, located, rfl⟩
  · exact iff_of_false List.not_mem_nil fun registers => registers.false_of_none none_given
  · exact (Registers.copy isCopied given located).mem_singleton_iff

/-- What the binder of drawings adds is what the instance registers. -/
theorem asset_mem_of_svgBinder_iff {reference : Option Reference} {effects : List Effect}
    (answered : Ios.svgBinder around inst reference = .ok effects)
    (isPage : around.program.graph.componentName inst = "SVG" ∧ around.target = .ios)
    {name : String} {asset : Asset} :
    (name, asset) ∈ effects.filterMap Effect.asset? ↔ Registers around inst name asset := by
  rcases svgBinder_eq_ok_iff.mp answered with
    ⟨none_given, rfl⟩ | ⟨source, path, drawing, given, located, read, rfl⟩
  · exact iff_of_false List.not_mem_nil fun registers => registers.false_of_none none_given
  · exact (Registers.page isPage given located read).mem_singleton_iff

section shipped

variable (shipped : setup.bindings = setup.target.bindings setup.installed)
  (target_eq : around.target = setup.target) {visited : Visit} {effects : List Effect}
  (answered : added setup around (.visit visited) = .ok effects)

include shipped target_eq answered

/-- With the bindings of the library, the assets that a visit adds are what the instance
registers. -/
theorem asset_mem_of_added_iff {name : String} {asset : Asset} :
    (name, asset) ∈ effects.filterMap Effect.asset? ↔
      Registers around visited.inst name asset := by
  rw [added_visit shipped, ← target_eq] at answered
  -- A visit of any other type adds no asset, and such an instance registers none.
  have neither (none_added : effects.filterMap Effect.asset? = [])
      (other : around.program.graph.componentName visited.inst ∉ fileTypes) :
      (name, asset) ∈ effects.filterMap Effect.asset? ↔
        Registers around visited.inst name asset := by
    rw [none_added]
    constructor
    · intro member
      cases member
    · intro registers
      exact absurd registers.source.1 (by simpa [fileTypes] using other)
  by_cases prefab : around.program.graph.componentName visited.inst ∈ prefabNames
  · simp only [prefabNames, List.mem_cons, List.not_mem_nil, or_false] at prefab
    cases target : around.target with
    | web =>
      rw [target] at answered
      rcases prefab with type | type | type | type | type <;>
        simp only [type, prefabBinder?] at answered
      · exact asset_mem_of_fileBinder_iff answered (.inl type)
      · exact asset_mem_of_fileBinder_iff answered (.inr ⟨type, target⟩)
      · refine neither ?_ (by simp [type, fileTypes])
        obtain ⟨-, rfl⟩ | ⟨_, _, -, -, rfl⟩ := effects_of_colorBinder answered <;> rfl
      · refine neither ?_ (by simp [type, fileTypes])
        obtain ⟨_, _, _, _, _, -, -, -, rfl⟩ := effects_of_fontBinder answered
        rfl
      · refine neither ?_ (by simp [type, fileTypes])
        obtain rfl | ⟨_, _, rfl⟩ := effects_of_typographBinder answered <;> rfl
    | ios =>
      rw [target] at answered
      rcases prefab with type | type | type | type | type <;>
        simp only [type, prefabBinder?] at answered
      · exact asset_mem_of_fileBinder_iff answered (.inl type)
      · exact asset_mem_of_svgBinder_iff answered ⟨type, target⟩
      all_goals
        cases answered
        exact neither rfl (by simp [type, fileTypes])
  · rw [prefabBinder?_eq_none around.target prefab] at answered
    cases answered
    refine neither rfl (mt (fun isFile => ?_) prefab)
    simp only [fileTypes, prefabNames, List.mem_cons, List.not_mem_nil, or_false] at isFile ⊢
    exact isFile.imp_right .inl

/-- An instance of a file type whose source counts as given registers it, or its visit would have
failed. -/
theorem exists_registers {source : String}
    (isFile : around.program.graph.componentName visited.inst = "File" ∨
      around.program.graph.componentName visited.inst = "SVG")
    (value : visited.inst.values.get? "src" = some (.text source)) (notBlank : source ≠ "") :
    ∃ asset, Registers around visited.inst
      (assetName around.target (around.program.graph.componentName visited.inst) source) asset := by
  have given : Asset.sourceOf? visited.inst = .ok (some source) :=
    sourceOf?_eq_some_iff.mpr ⟨value, notBlank⟩
  rw [added_visit shipped, ← target_eq] at answered
  have copies (isCopied : around.program.graph.componentName visited.inst = "File" ∨
        around.program.graph.componentName visited.inst = "SVG" ∧ around.target = .web)
      (bound : Asset.fileBinder around visited.inst visited.reference = .ok effects) :
      ∃ asset, Registers around visited.inst source asset := by
    rcases fileBinder_eq_ok_iff.mp bound with ⟨none_given, -⟩ | ⟨_, _, same, located, -⟩
    · rw [none_given] at given
      cases given
    · rw [given] at same
      cases same
      exact ⟨_, .copy isCopied given located⟩
  rcases isFile with type | type
  · have name_eq : assetName around.target "File" source = source := by simp [assetName]
    rw [type, name_eq]
    cases target : around.target with
    | web =>
      simp only [target, type, prefabBinder?] at answered
      exact copies (.inl type) answered
    | ios =>
      simp only [target, type, prefabBinder?] at answered
      exact copies (.inl type) answered
  · rw [type]
    cases target : around.target with
    | web =>
      simp only [target, type, prefabBinder?] at answered
      exact copies (.inr ⟨type, target⟩) answered
    | ios =>
      simp only [target, type, prefabBinder?] at answered
      rcases svgBinder_eq_ok_iff.mp answered with
        ⟨none_given, -⟩ | ⟨_, _, _, same, located, read, -⟩
      · rw [none_given] at given
        cases given
      · rw [given] at same
        cases same
        exact ⟨_, .page ⟨type, target⟩ given located read⟩

end shipped

/-! ## The run -/

/-- What the walk of a run has added to an output, event by event. -/
structure Added (setup : Setup) (around : Surroundings) (done : List Event)
    (effects : List (List Effect)) (output : Output) : Prop where
  trace : Trace setup.target around.program.graph (rootEvents around.program) done
  paired : List.Forall₂ (fun event new => added setup around event = .ok new) done effects
  assets_eq : output.assets = .ofList (effects.flatten.filterMap Effect.asset?)
  fonts_eq : output.styles.fonts = .ofList (effects.flatten.filterMap Effect.font?)

namespace Added

variable {done : List Event} {effects : List (List Effect)} {output : Output}

/-- All that a walk adds of one kind comes from its visits, as an omission adds nothing. -/
theorem mem_filterMap_iff {α : Type} {kind? : Effect → Option α} {a : α}
    (add : Added setup around done effects output) :
    a ∈ effects.flatten.filterMap kind? ↔
      ∃ visited, around.program.Visits visited ∧
        ∃ new, added setup around (.visit visited) = .ok new ∧ a ∈ new.filterMap kind? := by
  rw [List.filterMap_flatten, List.mem_flatten]
  simp only [List.mem_map, exists_exists_and_eq_and]
  constructor
  · rintro ⟨new, isNew, listed⟩
    obtain ⟨event, isDone, answered⟩ := Answers.exists_item add.paired isNew
    cases event with
    | omission _ =>
      cases answered
      cases listed
    | visit visited => exact ⟨visited, (visit_mem_iff add.trace _).mp isDone, new, answered, listed⟩
  · rintro ⟨visited, visits, new, answered, listed⟩
    obtain ⟨other, isNew, same⟩ :=
      Answers.exists_answer add.paired ((visit_mem_iff add.trace _).mpr visits)
    rw [answered, Except.ok.injEq] at same
    exact ⟨other, isNew, same ▸ listed⟩

/-- A walk has bound what it has visited. -/
theorem exists_added (add : Added setup around done effects output) {visited : Visit}
    (visits : around.program.Visits visited) :
    ∃ new, added setup around (.visit visited) = .ok new := by
  have isDone := (visit_mem_iff add.trace _).mpr visits
  obtain ⟨new, -, answered⟩ := Answers.exists_answer add.paired isDone
  exact ⟨new, answered⟩

/-- The assets that a walk adds are what the instances register that it meets. -/
theorem asset_mem_iff (add : Added setup around done effects output)
    (shipped : setup.bindings = setup.target.bindings setup.installed)
    (target_eq : around.target = setup.target) {name : String} {asset : Asset} :
    (name, asset) ∈ effects.flatten.filterMap Effect.asset? ↔
      ∃ inst, around.program.Meets inst ∧ Registers around inst name asset := by
  rw [add.mem_filterMap_iff]
  constructor
  · rintro ⟨visited, visits, new, answered, listed⟩
    exact ⟨visited.inst, visits.meets,
      (asset_mem_of_added_iff shipped target_eq answered).mp listed⟩
  · rintro ⟨inst, met, registers⟩
    obtain ⟨reference, visits⟩ := Program.meets_iff_exists_visits.mp met
    obtain ⟨new, answered⟩ := add.exists_added visits
    exact ⟨_, visits, new, answered,
      (asset_mem_of_added_iff shipped target_eq answered).mpr registers⟩

/-- Every instance of a file type that a walk meets has registered its source, if it has one. -/
theorem exists_registers (add : Added setup around done effects output)
    (shipped : setup.bindings = setup.target.bindings setup.installed)
    (target_eq : around.target = setup.target) (met : around.program.Meets inst)
    (isFile : around.program.graph.componentName inst = "File" ∨
      around.program.graph.componentName inst = "SVG") {source : String}
    (value : inst.values.get? "src" = some (.text source)) (notBlank : source ≠ "") :
    ∃ asset, Registers around inst
      (assetName around.target (around.program.graph.componentName inst) source) asset := by
  obtain ⟨reference, visits⟩ := Program.meets_iff_exists_visits.mp met
  obtain ⟨new, answered⟩ := add.exists_added visits
  exact Compilation.exists_registers shipped target_eq answered isFile value notBlank

end Added

theorem assets_styled (target : Target) (output : Output) :
    (output.styled target).assets = output.assets := by
  cases target <;> rfl

theorem fonts_styled (target : Target) (output : Output) :
    (output.styled target).styles.fonts = output.styles.fonts := by
  cases target <;> rfl

theorem ruleGroups_styled (target : Target) (output : Output) :
    (output.styled target).styles.ruleGroups = output.styles.ruleGroups := by
  cases target <;> rfl

/-- The package changes nothing of what the walk has added but the style variables. -/
theorem exists_classes_of_run {program? : Option Program} {result : CompilationResult}
    (ran : (run setup program?).Yields before result after) :
    ∃ done effects,
      Added setup (setup.aroundRun before after.program) done effects after.output ∧
        after.output.styles.ruleGroups = .ofList (effects.flatten.filterMap Effect.ruleGroup?) := by
  obtain ⟨walked, package, last, walking, written, -, rfl⟩ := run_yields.mp ran
  obtain ⟨program_eq, -, -, visits, met⟩ := walkRoots_of_run walking
  obtain ⟨done, traced⟩ := walkRoots_traced walking
  obtain ⟨effects, paired, decorated⟩ := traced.decorated
  obtain ⟨parts, -, output_eq⟩ := writePackage_output met.nodup_keys written
  have same : last.program = program?.getD before.program :=
    (preserves_writePackage.of_yields written).trans program_eq
  obtain ⟨assets, styles⟩ := Prod.mk.inj decorated
  have kept : (assembled setup walked.program.hot parts walked.output).assets =
        walked.output.assets ∧
      (assembled setup walked.program.hot parts walked.output).styles = walked.output.styles := by
    cases walked.program.hot <;> exact ⟨rfl, rfl⟩
  have none_yet : (begun setup (program?.getD before.program) before).output.assets = ∅ ∧
      (begun setup (program?.getD before.program) before).output.styles = {} := by
    change (setup.target.seed setup.installed).assets = ∅ ∧
      (setup.target.seed setup.installed).styles = {}
    cases setup.target <;> exact ⟨rfl, rfl⟩
  refine ⟨done, effects, ?_⟩
  change Added setup (setup.aroundRun before last.program) done effects last.output ∧
    last.output.styles.ruleGroups = _
  rw [same, output_eq]
  refine ⟨⟨traced.trace, paired, ?_, ?_⟩, ?_⟩
  · rw [assets_styled, kept.1, assets, assets_applyAll, none_yet.1]
    rfl
  · rw [fonts_styled, kept.2, styles, fonts_applyAll, none_yet.2]
    rfl
  · rw [ruleGroups_styled, kept.2, styles, ruleGroups_applyAll, none_yet.2]
    rfl

theorem exists_added_of_run {program? : Option Program} {result : CompilationResult}
    (ran : (run setup program?).Yields before result after) :
    ∃ done effects,
      Added setup (setup.aroundRun before after.program) done effects after.output := by
  obtain ⟨done, effects, add, -⟩ := exists_classes_of_run ran
  exact ⟨done, effects, add⟩

/-- What the walk of a run meets is stored under its name. -/
theorem exists_stored_of_run {program? : Option Program} {result : CompilationResult}
    (shipped : setup.bindings = setup.target.bindings setup.installed)
    (ran : (run setup program?).Yields before result after) {inst : Instance} {source : String}
    (met : after.program.Meets inst)
    (isFile : after.program.graph.componentName inst = "File" ∨
      after.program.graph.componentName inst = "SVG")
    (value : inst.values.get? "src" = some (.text source)) (notBlank : source ≠ "") :
    let key := assetName setup.target (after.program.graph.componentName inst) source
    key ∈ after.output.assets.keys ∧
      ∃ asset, Registers (setup.aroundRun before after.program) inst key asset := by
  intro key
  obtain ⟨done, effects, add⟩ := exists_added_of_run ran
  obtain ⟨asset, registers⟩ := add.exists_registers shipped rfl met isFile value notBlank
  have listed := (add.asset_mem_iff shipped rfl).mpr ⟨inst, met, registers⟩
  refine ⟨?_, asset, registers⟩
  rw [OrderedMap.mem_keys, add.assets_eq, OrderedMap.isSome_get?_ofList]
  exact ⟨asset, listed⟩

end Compilation

end DesignGraph
