import DesignGraph.Compile.Package
import DesignGraph.Proofs.Answers
import DesignGraph.Proofs.Compile.Success
import DesignGraph.Proofs.OrderedMap
import DesignGraph.Proofs.OrderedSet
import Mathlib.Data.List.Nodup

/-!
# Assembly of packages

What a successful `writePackage` does to the output, in closed form. A component contributes its
class, the files of its binding and its declarations, all told by the component alone
(`contribution`), so the loop over the components adds up their contributions in order. What follows
the loop changes nothing of the output but the style variables of the web. The stages after the loop
are told apart by their target, each by one equivalence (`yields_writeAssets_web`,
`yields_packageData_ios`, …).
-/

namespace DesignGraph

/-- What a component adds to a package. -/
structure Contribution where
  sources : List Source
  declarations : List Source
  imports : List String
  dependencies : List Dependency

/-- One contribution after the other. -/
def Contribution.join (parts : List Contribution) : Contribution where
  sources := parts.flatMap Contribution.sources
  declarations := parts.flatMap Contribution.declarations
  imports := parts.flatMap Contribution.imports
  dependencies := parts.flatMap Contribution.dependencies

/-- Merging keeps the first dependency of each name, in the order in which the names arrive. -/
theorem Dependency.items_mergeAll (new : List Dependency) :
    (mergeAll ⟨[]⟩ new).items.map name = (new.map name).eraseDups ∧
      ∀ d ∈ (mergeAll ⟨[]⟩ new).items, new.find? (·.name == d.name) = some d := by
  simp only [← OrderedSet.items_ofList]
  induction new using List.reverseRecOn with
  | nil => exact ⟨rfl, fun d member => nomatch member⟩
  | append_singleton new d ih =>
    obtain ⟨names, firsts⟩ := ih
    have merged : mergeAll ⟨[]⟩ (new ++ [d]) = merge (mergeAll ⟨[]⟩ new) d := List.foldl_append ..
    have known : (mergeAll ⟨[]⟩ new).items.any (·.name == d.name) = true ↔
        d.name ∈ (OrderedSet.ofList (new.map name)).items := by
      rw [← names, List.any_eq_true, List.mem_map]
      simp only [beq_iff_eq]
    have kept : ∀ other ∈ (mergeAll ⟨[]⟩ new).items,
        (new ++ [d]).find? (·.name == other.name) = some other := by
      intro other member
      rw [List.find?_append, firsts other member, Option.some_or]
    rw [merged, merge, List.map_append, List.map_singleton, OrderedSet.ofList_append_singleton]
    by_cases present : d.name ∈ (OrderedSet.ofList (new.map name)).items
    · rw [if_pos (known.mpr present), OrderedSet.items_insert_of_mem present]
      exact ⟨names, kept⟩
    · have absent : d ∉ (mergeAll ⟨[]⟩ new).items := by
        intro member
        exact present (names ▸ List.mem_map_of_mem member)
      have first : new.find? (·.name == d.name) = none := by
        refine List.find?_eq_none.mpr fun other member same => present ?_
        rw [OrderedSet.items_ofList, List.mem_eraseDups]
        exact List.mem_map.mpr ⟨other, member, beq_iff_eq.mp same⟩
      rw [if_neg (known.not.mpr present), OrderedSet.items_insert_of_not_mem present,
        OrderedSet.items_insert_of_not_mem absent, List.map_append, names]
      refine ⟨rfl, List.forall_mem_append.mpr ⟨kept, List.forall_mem_singleton.mpr ?_⟩⟩
      rw [List.find?_append, first, Option.none_or, List.find?_singleton,
        if_pos (beq_self_eq_true _)]

/-- Dependencies that are the first of their names are told by the names. -/
theorem Dependency.eq_filterMap_of_firsts {merged contributed : List Dependency}
    (firsts : ∀ d ∈ merged, contributed.find? (·.name == d.name) = some d) :
    merged = (merged.map name).filterMap fun name => contributed.find? (·.name == name) := by
  rw [List.filterMap_map]
  exact List.filterMap_some.symm.trans
    (List.filterMap_congr fun d member => (firsts d member).symm)

namespace Output

def extend (output : Output) (part : Contribution) : Output :=
  { output with
    sources := output.sources.insertAll part.sources
    declarations := output.declarations.insertAll part.declarations
    imports := output.imports.insertAll part.imports
    dependencies := Dependency.mergeAll output.dependencies part.dependencies }

theorem extend_join_cons (output : Output) (part : Contribution) (parts : List Contribution) :
    (output.extend part).extend (.join parts) = output.extend (.join (part :: parts)) := by
  simp only [extend, Contribution.join, List.flatMap_cons, OrderedSet.insertAll_append,
    Dependency.mergeAll, List.foldl_append]

/-- The output once the style variables are settled: those of the web include the promoted ones. -/
def styled (target : Target) (output : Output) : Output :=
  match target with
  | .web => (Style.tokens output).2
  | .ios => output

@[simp] theorem components_styled (target : Target) (output : Output) :
    (output.styled target).components = output.components := by
  cases target <;> rfl

@[simp] theorem sources_styled (target : Target) (output : Output) :
    (output.styled target).sources = output.sources := by
  cases target <;> rfl

@[simp] theorem declarations_styled (target : Target) (output : Output) :
    (output.styled target).declarations = output.declarations := by
  cases target <;> rfl

@[simp] theorem imports_styled (target : Target) (output : Output) :
    (output.styled target).imports = output.imports := by
  cases target <;> rfl

@[simp] theorem dependencies_styled (target : Target) (output : Output) :
    (output.styled target).dependencies = output.dependencies := by
  cases target <;> rfl

end Output

namespace Compilation

variable {setup : Setup} {types : List String} {before after : Compiler}

/-- The text of the class of a component. -/
def classText (setup : Setup) (spec : Spec) (hasDefaults : Bool) : Except Fault String :=
  Stock.render setup.installed setup.target (classTemplate setup.target)
    (specData spec ++ [("singleton", .bool hasDefaults)])

/-- The text of the declarations that are generated for a component. -/
def declarationText (setup : Setup) (spec : Spec) : Except Fault String :=
  Stock.render setup.installed .web "js.declaration.j2" (specData spec)

/-- The spec that the class of a type is rendered from. -/
def classSpec (setup : Setup) (singletons : List String) (component : Component) : Spec :=
  component.spec.useBareConstructions singletons setup.target.bareConstruction

/-- The component of a type as its class shows it. -/
def settled (setup : Setup) (singletons : List String) (component : Component) : Component :=
  { component with spec := classSpec setup singletons component }

/-- The declarations of a component: the files that its binding has for them, or else a generated
text. Packages for iOS have none. -/
def declarationsOf (setup : Setup) (spec : Spec) (files : List Path) :
    Except Fault (List Source) :=
  match setup.target with
  | .ios => .ok []
  | .web =>
      if files.isEmpty then do
        pure [.rendered spec.componentName ".d.ts" (← declarationText setup spec)]
      else .ok (files.map .file)

/-- What the component of a type adds to a package. -/
def contribution (setup : Setup) (singletons : List String) (entry : String × Component) :
    Except Fault Contribution := do
  let (type, component) := entry
  let spec := classSpec setup singletons component
  let binding := component.binding.getD {}
  let text ← classText setup spec (component.spec.isPublic || singletons.contains type)
  let declarations ← declarationsOf setup spec binding.declarations
  pure {
    sources := .rendered spec.componentName (classSuffix setup.target) text ::
      binding.sources.map .file
    declarations := declarations
    imports := match setup.target with
      | .web => []
      | .ios => binding.imports
    dependencies := binding.dependencies }

/-- A contribution says what the class and the declarations were rendered to. -/
theorem contribution_eq_ok_iff {type : String} {component : Component} {part : Contribution} :
    contribution setup types (type, component) = .ok part ↔
    ∃ text declarations,
      classText setup (classSpec setup types component)
        (component.spec.isPublic || types.contains type) = .ok text ∧
      declarationsOf setup (classSpec setup types component)
        (component.binding.getD {}).declarations = .ok declarations ∧
      part = {
        sources := .rendered component.spec.componentName (classSuffix setup.target) text ::
          (component.binding.getD {}).sources.map .file
        declarations := declarations
        imports := match setup.target with
          | .web => []
          | .ios => (component.binding.getD {}).imports
        dependencies := (component.binding.getD {}).dependencies } := by
  simp only [contribution, Answers.bind_eq_ok_iff]
  constructor
  · rintro ⟨text, rendered, declarations, declared, ⟨⟩⟩
    exact ⟨text, declarations, rendered, declared, rfl⟩
  · rintro ⟨text, declarations, rendered, declared, rfl⟩
    exact ⟨text, rendered, declarations, declared, rfl⟩

/-- The dependencies that the bindings of components have, in the order of the components. -/
def dependenciesOf (components : OrderedMap String Component) : List Dependency :=
  components.entries.flatMap fun entry => (entry.2.binding.getD {}).dependencies

theorem dependencies_of_contributions {components : OrderedMap String Component}
    {parts : List Contribution}
    (contributions : components.entries.mapM (contribution setup types) = .ok parts) :
    parts.flatMap Contribution.dependencies = dependenciesOf components := by
  have same : components.entries.map (fun entry => (entry.2.binding.getD {}).dependencies) =
      parts.map Contribution.dependencies := by
    rw [← List.forall₂_eq_eq_eq, List.forall₂_map_left_iff, List.forall₂_map_right_iff]
    refine (Answers.mapM_eq_ok_iff.mp contributions).imp fun entry part contributed => ?_
    obtain ⟨_, _, -, -, rfl⟩ := contribution_eq_ok_iff.mp contributed
    rfl
  rw [dependenciesOf, List.flatMap_def, List.flatMap_def, same]

/-! ## One component -/

theorem rendered_yields {component suffix : String} {text : Except Fault String}
    {source : Source} :
    (rendered component suffix text).Yields before source after ↔
      before.isRunning = true ∧
        ∃ s, text = .ok s ∧ source = .rendered component suffix s ∧ after = before := by
  simp only [rendered, yields_bind, yields_get, and_assoc, exists_and_left, exists_eq_left]
  cases running : before.isRunning with
  | false => simp [yields_throw]
  | true =>
    simp only [Bool.not_true, Bool.false_eq_true, if_false, yields_bind, yields_ofExcept,
      yields_pure, true_and]
    constructor
    · rintro ⟨s, _, ⟨rfl, rfl⟩, rfl, rfl⟩
      exact ⟨s, rfl, rfl, rfl⟩
    · rintro ⟨s, rfl, rfl, rfl⟩
      exact ⟨s, _, ⟨rfl, rfl⟩, rfl, rfl⟩

theorem writeClass_yields {spec : Spec} {hasDefaults : Bool} {answer : Unit} :
    (writeClass setup spec hasDefaults).Yields before answer after ↔
      before.isRunning = true ∧ ∃ text, classText setup spec hasDefaults = .ok text ∧
        after = { before with output := { before.output with
          sources := before.output.sources.insert
            (.rendered spec.componentName (classSuffix setup.target) text) } } := by
  simp only [writeClass, yields_bind, yields_changeOutput, rendered_yields]
  constructor
  · rintro ⟨_, _, ⟨running, text, rendered, rfl, rfl⟩, rfl⟩
    exact ⟨running, text, rendered, rfl⟩
  · rintro ⟨running, text, rendered, rfl⟩
    exact ⟨_, _, ⟨running, text, rendered, rfl, rfl⟩, rfl⟩

/-- Generated declarations are those of a component whose binding has no files for them. -/
theorem writeDeclarations_yields {spec : Spec} {answer : Unit}
    (running : before.isRunning = true) :
    (writeDeclarations setup spec).Yields before answer after ↔
      ∃ declarations, declarationsOf setup spec [] = .ok declarations ∧
        after = { before with output := { before.output with
          declarations := before.output.declarations.insertAll declarations } } := by
  unfold writeDeclarations declarationsOf
  cases target : setup.target with
  | ios =>
    simp only [yields_pure, Except.ok.injEq, exists_eq_left', true_and]
    exact Iff.rfl
  | web =>
    simp only [yields_bind, yields_changeOutput, rendered_yields, List.isEmpty_nil, if_true,
      Answers.bind_eq_ok_iff]
    constructor
    · rintro ⟨_, _, ⟨-, text, rendered, rfl, rfl⟩, rfl⟩
      exact ⟨_, ⟨text, rendered, rfl⟩, rfl⟩
    · rintro ⟨_, ⟨text, rendered, ⟨⟩⟩, rfl⟩
      exact ⟨_, _, ⟨running, text, rendered, rfl, rfl⟩, rfl⟩

/-- The files of a binding and the declarations, after the class of a component. -/
private theorem finish_yields {binding? : Option Binding} {spec : Spec} {answer : Unit}
    (running : before.isRunning = true) :
    (match binding? with
      | none => writeDeclarations setup spec
      | some binding => do
          changeOutput fun output => output.mergeBinding setup.target binding
          if binding.declarations.isEmpty then writeDeclarations setup spec).Yields before answer
        after ↔
      ∃ declarations,
        declarationsOf setup spec (binding?.getD {}).declarations = .ok declarations ∧
        after = { before with output := before.output.extend {
          sources := (binding?.getD {}).sources.map .file
          declarations := declarations
          imports := match setup.target with
            | .web => []
            | .ios => (binding?.getD {}).imports
          dependencies := (binding?.getD {}).dependencies } } := by
  cases binding? with
  | none =>
    rw [writeDeclarations_yields running]
    cases setup.target <;> rfl
  | some binding =>
    simp only [yields_bind, yields_changeOutput, Option.getD_some]
    by_cases generated : binding.declarations = []
    · have merged : ∀ declarations : List Source,
          let output := before.output.mergeBinding setup.target binding
          { output with declarations := output.declarations.insertAll declarations } =
            before.output.extend {
              sources := binding.sources.map .file
              declarations := declarations
              imports := match setup.target with
                | .web => []
                | .ios => binding.imports
              dependencies := binding.dependencies } := by
        intro declarations
        cases setup.target <;> simp [Output.mergeBinding, Output.extend, generated,
          OrderedSet.insertAll]
      rw [if_pos (List.isEmpty_iff.mpr generated), generated]
      constructor
      · rintro ⟨_, _, rfl, success⟩
        obtain ⟨declarations, listed, rfl⟩ :=
          (writeDeclarations_yields (by exact running)).mp success
        exact ⟨declarations, listed, congrArg (fun output => { before with output := output })
          (merged declarations)⟩
      · rintro ⟨declarations, listed, rfl⟩
        refine ⟨(), _, rfl, (writeDeclarations_yields (by exact running)).mpr
          ⟨declarations, listed, ?_⟩⟩
        exact congrArg (fun output => { before with output := output }) (merged declarations).symm
    · rw [if_neg (by simpa using generated)]
      have listed : declarationsOf setup spec binding.declarations = .ok (match setup.target with
          | .web => binding.declarations.map .file
          | .ios => []) := by
        unfold declarationsOf
        cases setup.target with
        | ios => rfl
        | web => exact if_neg (by simpa using generated)
      simp only [yields_pure, listed, Except.ok.injEq, exists_eq_left', true_and]
      cases setup.target with
      | ios => simp [Output.mergeBinding, Output.extend, OrderedSet.insertAll]
      | web => simp [Output.mergeBinding, Output.extend, OrderedSet.insertAll]

theorem writeComponent_yields {type : String} {component : Component} {answer : Unit}
    (found : before.output.components.get? type = some component) :
    (writeComponent setup types type).Yields before answer after ↔
      before.isRunning = true ∧
        ∃ part, contribution setup types (type, component) = .ok part ∧
          after = { before with output := { before.output.extend part with
            components :=
              before.output.components.insert type (settled setup types component) } } := by
  have changed : ∀ change : Component → Component,
      before.output.changeComponent type change = { before.output with
        components := before.output.components.insert type (change component) } := by
    intro change
    simp only [Output.changeComponent, found]
  simp only [writeComponent, yields_bind, yields_changeOutput, yields_get, and_assoc,
    exists_and_left, exists_eq_left, changed, OrderedMap.get?_insert_self, contribution,
    Answers.bind_eq_ok_iff]
  constructor
  · rintro ⟨_, _, classed, written, success⟩
    obtain ⟨running, text, rendered, rfl⟩ := writeClass_yields.mp written
    obtain ⟨declarations, listed, rfl⟩ := (finish_yields (by exact running)).mp success
    exact ⟨running, _, ⟨text, rendered, declarations, listed, rfl⟩, rfl⟩
  · rintro ⟨running, _, ⟨text, rendered, declarations, listed, ⟨⟩⟩, rfl⟩
    refine ⟨(), (), _, writeClass_yields.mpr ⟨running, text, rendered, rfl⟩, ?_⟩
    exact (finish_yields (by exact running)).mpr ⟨declarations, listed, rfl⟩

/-! ## The loop over the components -/

/-- The components before the loop has reached the rest are settled already. -/
theorem writeComponents_yields {settledOnes rest : List (String × Component)}
    (listed : before.output.components = ⟨settledOnes ++ rest⟩)
    (distinct : before.output.components.keys.Nodup) :
    ((rest.map (·.1)).forM fun type => writeComponent setup types type).Yields before ⟨⟩ after ↔
      (rest ≠ [] → before.isRunning = true) ∧
        ∃ parts, rest.mapM (contribution setup types) = .ok parts ∧
          after = { before with output := { before.output.extend (.join parts) with
            components :=
              ⟨settledOnes ++ rest.map fun entry => (entry.1, settled setup types entry.2)⟩ } } := by
  induction rest generalizing before settledOnes with
  | nil =>
    rw [List.map_nil, yields_forM_nil, List.map_nil, ← listed]
    constructor
    · rintro rfl
      exact ⟨fun absurd => (absurd rfl).elim, [], rfl, rfl⟩
    · rintro ⟨-, parts, ⟨⟩, rfl⟩
      rfl
  | cons entry rest ih =>
    obtain ⟨type, component⟩ := entry
    have absent : type ∉ settledOnes.map (·.1) := by
      intro earlier
      simp only [listed, OrderedMap.keys, List.map_append, List.map_cons] at distinct
      exact (List.disjoint_of_nodup_append distinct) earlier List.mem_cons_self
    have found : before.output.components.get? type = some component :=
      OrderedMap.get?_of_mem_entries distinct (by rw [listed]; simp)
    have split : before.output.components.insert type (settled setup types component) =
        ⟨(settledOnes ++ [(type, settled setup types component)]) ++ rest⟩ := by
      rw [listed, OrderedMap.insert_split _ _ absent, List.append_assoc, List.singleton_append]
    have kept : (before.output.components.insert type
        (settled setup types component)).keys.Nodup := by
      rwa [OrderedMap.keys_insert_of_mem _ (OrderedMap.mem_keys_of_get? found)]
    rw [List.map_cons, yields_forM_cons, List.map_cons]
    constructor
    · rintro ⟨between, first, others⟩
      obtain ⟨running, part, contributed, rfl⟩ := (writeComponent_yields found).mp first
      obtain ⟨-, parts, contributions, rfl⟩ := (ih split kept).mp others
      refine ⟨fun _ => running, part :: parts, ?_, ?_⟩
      · simp only [List.mapM_cons, contributed, contributions]
        rfl
      · rw [← Output.extend_join_cons, List.append_assoc, List.singleton_append]
        rfl
    · rintro ⟨running, parts, contributions, rfl⟩
      obtain ⟨part, others, contributed, paired, rfl⟩ :=
        List.forall₂_cons_left_iff.mp (Answers.mapM_eq_ok_iff.mp contributions)
      have isRunning := running (List.cons_ne_nil _ _)
      refine ⟨_, (writeComponent_yields found).mpr ⟨isRunning, part, contributed, rfl⟩, ?_⟩
      refine (ih split kept).mpr ⟨fun _ => isRunning, others, Answers.mapM_eq_ok_iff.mpr paired, ?_⟩
      rw [← Output.extend_join_cons, List.append_assoc, List.singleton_append]
      rfl

/-! ## The assets -/

theorem writeAssets_forM_yields {root : Path} {assets : List (String × Asset)}
    (success : (assets.forM fun (name, asset) => writeAsset root name asset).Yields before ⟨⟩
      after) :
    ∃ tree, after = { before with tree := tree } := by
  induction assets generalizing before with
  | nil =>
    obtain rfl := yields_forM_nil.mp success
    exact ⟨_, rfl⟩
  | cons entry rest ih =>
    obtain ⟨between, first, others⟩ := yields_forM_cons.mp success
    simp only [writeAsset] at first
    split_ifs at first
    · exact absurd first yields_throw
    · obtain ⟨_, rfl⟩ := yields_onDisk first
      obtain ⟨_, rfl⟩ := ih others
      exact ⟨_, rfl⟩

/-- The tokens of a style sheet are rendered once its directories stand. -/
theorem yields_writeStyleSheet {language : String} {tokens : Style.Tokens} {answer : Unit} :
    (writeStyleSheet setup language tokens).Yields before answer after ↔
      ∃ made, (onDisk (Disk.makeDirectories (staticRootInUse setup before))).Yields before () made ∧
        ∃ text, Stock.render setup.installed .web ("styles." ++ language ++ ".j2") tokens.data =
            .ok text ∧
          (onDisk (Disk.writeText
            ((staticRootInUse setup before).joinText ("styles." ++ language)) text)).Yields made
              answer after := by
  simp only [writeStyleSheet, yields_bind, yields_get, yields_ofExcept, and_assoc,
    exists_and_left, exists_eq_left]
  constructor
  · rintro ⟨⟨⟩, made, ready, text, rendered, written⟩
    exact ⟨made, ready, text, rendered, written⟩
  · rintro ⟨made, ready, text, rendered, written⟩
    exact ⟨(), made, ready, text, rendered, written⟩

/-- The tokens are those of the output that the components have left. -/
theorem yields_writeAssets_web {answer : Unit} (web : setup.target = .web) :
    (writeAssets setup).Yields before answer after ↔
      ∃ copied, (before.output.assets.entries.forM fun (name, asset) =>
          writeAsset (staticRootInUse setup before) name asset).Yields before ⟨⟩ copied ∧
        ∃ half, (writeStyleSheet setup "css" (Style.tokens copied.output).1).Yields
            { copied with output := copied.output.styled .web } () half ∧
          (writeStyleSheet setup "scss" (Style.tokens copied.output).1).Yields half answer
            after := by
  simp only [writeAssets, web, reduceCtorEq, if_false, if_true, yields_bind, yields_get, and_assoc,
    exists_and_left, exists_eq_left, styleTokens, yields_changeOutput, yields_pure]
  constructor
  · rintro ⟨⟨⟩, copied, assets, _, ⟨⟨⟩, rfl⟩, ⟨⟩, half, first, second⟩
    exact ⟨copied, assets, half, first, second⟩
  · rintro ⟨copied, assets, half, first, second⟩
    exact ⟨(), copied, assets, _, ⟨(), rfl⟩, (), half, first, second⟩

theorem yields_writeAssets_ios {answer : Unit} (ios : setup.target = .ios) :
    (writeAssets setup).Yields before answer after ↔
      ∃ made, (onDisk (Disk.makeDirectories setup.staticRoot)).Yields before () made ∧
        (made.output.assets.entries.forM fun (name, asset) =>
          writeAsset (staticRootInUse setup made) name asset).Yields made ⟨⟩ after := by
  simp only [writeAssets, ios, reduceCtorEq, if_false, if_true, yields_bind, yields_get,
    yields_pure, and_assoc, exists_and_left, exists_eq_left]
  constructor
  · rintro ⟨⟨⟩, made, ready, ⟨⟩, _, assets, -, rfl⟩
    exact ⟨made, ready, assets⟩
  · rintro ⟨made, ready, assets⟩
    exact ⟨(), made, ready, (), after, assets, trivial, rfl⟩

theorem writeStyleSheet_yields {language : String} {tokens : Style.Tokens} {answer : Unit}
    (success : (writeStyleSheet setup language tokens).Yields before answer after) :
    ∃ tree, after = { before with tree := tree } := by
  obtain ⟨_, made, _, -, written⟩ := yields_writeStyleSheet.mp success
  obtain ⟨_, rfl⟩ := yields_onDisk made
  obtain ⟨_, rfl⟩ := yields_onDisk written
  exact ⟨_, rfl⟩

/-- Assets are files. Of the output, only the style variables of the web change. -/
theorem writeAssets_yields {answer : Unit}
    (success : (writeAssets setup).Yields before answer after) :
    ∃ tree, after =
      { before with tree := tree, output := before.output.styled setup.target } := by
  cases target : setup.target with
  | web =>
    obtain ⟨_, written, _, first, second⟩ := (yields_writeAssets_web target).mp success
    obtain ⟨_, rfl⟩ := writeAssets_forM_yields written
    obtain ⟨_, rfl⟩ := writeStyleSheet_yields first
    obtain ⟨_, rfl⟩ := writeStyleSheet_yields second
    exact ⟨_, rfl⟩
  | ios =>
    obtain ⟨_, made, written⟩ := (yields_writeAssets_ios target).mp success
    obtain ⟨_, rfl⟩ := yields_onDisk made
    obtain ⟨_, rfl⟩ := writeAssets_forM_yields written
    exact ⟨_, rfl⟩

/-! ## The data of the skeleton -/

/-- What every skeleton receives. -/
def sharedData (setup : Setup) (compiler : Compiler) (dependencies : List Value)
    (sources : List String) : List (String × Value) :=
  [("module_name", .text setup.moduleName),
    ("sdk_version", .text compiler.program.options.sdkVersion),
    ("dependencies", .list dependencies), ("sources", texts sources)]

def webData (setup : Setup) (compiler : Compiler) (dependencies : List Value)
    (sources declarations : List String) : List (String × Value) :=
  sharedData setup compiler dependencies sources ++
    [("declarations", texts declarations), ("declaration_imports", texts []),
      ("static_url", urlValue compiler.hotUrl)]

def iosData (setup : Setup) (compiler : Compiler) (dependencies : List Value)
    (sources : List String) : List (String × Value) :=
  sharedData setup compiler dependencies sources ++
    [("deployment_target", .text (deploymentTarget compiler.program)),
      ("imports", texts compiler.output.imports.items), ("hot_url", urlValue compiler.hotUrl)]

theorem yields_packageData_web {data : List (String × Value)} (web : setup.target = .web) :
    (packageData setup).Yields before data after ↔
      ∃ dependencies sources declarations,
        before.output.dependencies.items.mapM (dependencyValue .web) = .ok dependencies ∧
        before.output.sources.items.mapM (readSource before.tree) = .ok sources ∧
        before.output.declarations.items.mapM (readSource before.tree) = .ok declarations ∧
        data = webData setup before dependencies sources declarations ∧ after = before := by
  simp only [packageData, readSources, web, yields_get_bind, yields_ofExcept_bind, bind_assoc,
    yields_pure, exists_and_left, webData, sharedData]

theorem yields_packageData_ios {data : List (String × Value)} (ios : setup.target = .ios) :
    (packageData setup).Yields before data after ↔
      ∃ dependencies sources,
        before.output.dependencies.items.mapM (dependencyValue .ios) = .ok dependencies ∧
        before.output.sources.items.mapM (readSource before.tree) = .ok sources ∧
        data = iosData setup before dependencies sources ∧ after = before := by
  simp only [packageData, readSources, ios, yields_get_bind, yields_ofExcept_bind, bind_assoc,
    yields_pure, exists_and_left, iosData, sharedData]

/-- The data of a package are told by the compiler that the skeleton is filled in from. -/
theorem packageData_yields {data : List (String × Value)}
    (success : (packageData setup).Yields before data after) :
    after = before ∧
    (∃ contents, before.output.sources.items.mapM (readSource before.tree) = .ok contents ∧
      data.lookup "sources" = some (texts contents)) ∧
    (setup.target = .web → ∃ contents,
      before.output.declarations.items.mapM (readSource before.tree) = .ok contents ∧
        data.lookup "declarations" = some (texts contents)) ∧
    (setup.target = .ios → data.lookup "imports" = some (texts before.output.imports.items)) := by
  cases target : setup.target with
  | web =>
    obtain ⟨_, contents, declared, -, read, readDeclared, rfl, rfl⟩ :=
      (yields_packageData_web target).mp success
    exact ⟨rfl, ⟨contents, read, rfl⟩, fun _ => ⟨declared, readDeclared, rfl⟩, by simp⟩
  | ios =>
    obtain ⟨_, contents, -, read, rfl, rfl⟩ := (yields_packageData_ios target).mp success
    exact ⟨rfl, ⟨contents, read, rfl⟩, by simp, fun _ => rfl⟩

/-! ## The package -/

/-- The output of a package before its assets are written: every component is settled and has added
its part, and the hot component comes last. -/
def assembled (setup : Setup) (hot : Bool) (parts : List Contribution) (output : Output) : Output :=
  let extended := { output.extend (.join parts) with
    components := output.components.map (settled setup (singletons output.components)) }
  if hot then { extended with sources := extended.sources.insert (.file setup.hotComponent) }
  else extended

theorem components_assembled (hot : Bool) (parts : List Contribution) (output : Output) :
    (assembled setup hot parts output).components =
      output.components.map (settled setup (singletons output.components)) := by
  cases hot <;> rfl

theorem sources_assembled (hot : Bool) (parts : List Contribution) (output : Output) :
    (assembled setup hot parts output).sources =
      output.sources.insertAll (parts.flatMap Contribution.sources ++
        if hot then [.file setup.hotComponent] else []) := by
  cases hot with
  | true =>
    rw [if_pos rfl, OrderedSet.insertAll_append]
    rfl
  | false =>
    rw [if_neg Bool.false_ne_true, List.append_nil]
    rfl

theorem declarations_assembled (hot : Bool) (parts : List Contribution) (output : Output) :
    (assembled setup hot parts output).declarations =
      output.declarations.insertAll (parts.flatMap Contribution.declarations) := by
  cases hot <;> rfl

theorem imports_assembled (hot : Bool) (parts : List Contribution) (output : Output) :
    (assembled setup hot parts output).imports =
      output.imports.insertAll (parts.flatMap Contribution.imports) := by
  cases hot <;> rfl

theorem dependencies_assembled (hot : Bool) (parts : List Contribution) (output : Output) :
    (assembled setup hot parts output).dependencies =
      Dependency.mergeAll output.dependencies (parts.flatMap Contribution.dependencies) := by
  cases hot <;> rfl

/-- The steps after the sources and declarations are complete. -/
private theorem finishPackage_yields {package : Package} :
    (do
      writeAssets setup
      let data ← packageData setup
      let files ← onDisk
        (Template.fillAll (Stock.skeleton setup.installed setup.target) setup.sdkRoot data)
      pure (⟨files, data⟩ : Package) : Compilation Package).Yields before package after ↔
      ∃ filled, (writeAssets setup).Yields before () filled ∧
        (packageData setup).Yields filled package.data filled ∧
        (onDisk (Template.fillAll (Stock.skeleton setup.installed setup.target) setup.sdkRoot
          package.data)).Yields filled package.files after := by
  simp only [yields_bind, yields_pure]
  constructor
  · rintro ⟨_, filled, stored, data, _, gathered, files, _, written, rfl, rfl⟩
    obtain rfl := (packageData_yields gathered).1
    exact ⟨_, stored, gathered, written⟩
  · rintro ⟨filled, stored, gathered, written⟩
    exact ⟨(), filled, stored, package.data, filled, gathered, package.files, after, written, rfl,
      rfl⟩

/-- The steps of `writePackage`: the loop over the components in closed form, the assets, the data
and the skeleton. -/
theorem writePackage_yields {package : Package}
    (distinct : before.output.components.keys.Nodup) :
    (writePackage setup).Yields before package after ↔
      (before.output.components.entries ≠ [] → before.isRunning = true) ∧
      ∃ parts filled,
        before.output.components.entries.mapM
          (contribution setup (singletons before.output.components)) = .ok parts ∧
        (writeAssets setup).Yields
          { before with output := assembled setup before.program.hot parts before.output } ()
          filled ∧
        (packageData setup).Yields filled package.data filled ∧
        (onDisk (Template.fillAll (Stock.skeleton setup.installed setup.target) setup.sdkRoot
          package.data)).Yields filled package.files after := by
  have none_settled : before.output.components = ⟨[] ++ before.output.components.entries⟩ := rfl
  simp only [writePackage, yields_bind, yields_get, and_assoc, exists_and_left, exists_eq_left]
  constructor
  · rintro ⟨_, classed, written, success⟩
    obtain ⟨running, parts, contributions, rfl⟩ :=
      (writeComponents_yields none_settled distinct).mp written
    refine ⟨running, parts, contributions, ?_⟩
    cases hot : before.program.hot with
    | true =>
      rw [hot, if_pos rfl] at success
      obtain ⟨_, _, served, rest⟩ := yields_bind.mp success
      obtain rfl := yields_changeOutput.mp served
      exact finishPackage_yields.mp rest
    | false =>
      rw [hot, if_neg Bool.false_ne_true] at success
      exact finishPackage_yields.mp success
  · rintro ⟨running, parts, contributions, steps⟩
    refine ⟨(), _, (writeComponents_yields none_settled distinct).mpr
      ⟨running, parts, contributions, rfl⟩, ?_⟩
    cases hot : before.program.hot with
    | true =>
      rw [if_pos rfl]
      rw [hot] at steps
      exact yields_bind.mpr ⟨(), _, yields_changeOutput.mpr rfl, finishPackage_yields.mpr steps⟩
    | false =>
      rw [if_neg Bool.false_ne_true]
      rw [hot] at steps
      exact finishPackage_yields.mpr steps

/-- The output that `writePackage` leaves. -/
theorem writePackage_output {package : Package}
    (distinct : before.output.components.keys.Nodup)
    (success : (writePackage setup).Yields before package after) :
    ∃ parts,
      before.output.components.entries.mapM
        (contribution setup (singletons before.output.components)) = .ok parts ∧
      after.output =
        (assembled setup before.program.hot parts before.output).styled setup.target := by
  obtain ⟨-, parts, filled, contributions, stored, _, written⟩ :=
    (writePackage_yields distinct).mp success
  obtain ⟨_, rfl⟩ := writeAssets_yields stored
  obtain ⟨_, rfl⟩ := yields_onDisk written
  exact ⟨parts, contributions, rfl⟩

end Compilation

end DesignGraph
