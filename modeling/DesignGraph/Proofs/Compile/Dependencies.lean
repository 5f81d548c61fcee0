import DesignGraph.Proofs.Compile.Completion

/-!
# Dependencies of packages

Dependencies are told apart by their names, whatever their versions, and the first one of a name
stays. So what is merged is told by the list of all that arrive (`Dependency.KeepsFirst`), and
nothing changes when a binding arrives again. The dependencies of a package are those of the
bindings of its types, in the order in which the walk meets the types.
-/

namespace DesignGraph

namespace Dependency

/-- Of the dependencies that arrive, the first of each name is kept, in the order in which the names
arrive. -/
structure KeepsFirst (arrived kept : List Dependency) : Prop where
  names_eq : kept.map name = (arrived.map name).eraseDups
  first : ∀ d ∈ kept, arrived.find? (·.name == d.name) = some d
  distinct : (kept.map name).Nodup

theorem keepsFirst_mergeAll (arrived : List Dependency) :
    KeepsFirst arrived (mergeAll ⟨[]⟩ arrived).items := by
  obtain ⟨names_eq, first⟩ := items_mergeAll arrived
  refine ⟨names_eq, first, ?_⟩
  rw [names_eq]
  exact OrderedSet.nodup_eraseDups _

theorem KeepsFirst.unique {arrived kept other : List Dependency} (keeps : KeepsFirst arrived kept)
    (same : KeepsFirst arrived other) : kept = other := by
  rw [eq_filterMap_of_firsts keeps.first, eq_filterMap_of_firsts same.first, keeps.names_eq,
    same.names_eq]

theorem keepsFirst_iff {arrived kept : List Dependency} :
    KeepsFirst arrived kept ↔ (mergeAll ⟨[]⟩ arrived).items = kept := by
  constructor
  · exact (keepsFirst_mergeAll arrived).unique
  · rintro rfl
    exact keepsFirst_mergeAll arrived

/-! ## Merging again -/

theorem merge_of_known {dependencies : OrderedSet Dependency} {d : Dependency}
    (known : d.name ∈ dependencies.items.map name) : merge dependencies d = dependencies := by
  have found : dependencies.items.any (·.name == d.name) = true := by simpa using known
  rw [merge, if_pos found]

/-- A merge keeps the names and adds the one of the new dependency. -/
theorem name_mem_merge {dependencies : OrderedSet Dependency} {d : Dependency} {n : String}
    (present : n ∈ dependencies.items.map name ∨ n = d.name) :
    n ∈ (merge dependencies d).items.map name := by
  by_cases known : d.name ∈ dependencies.items.map name
  · rw [merge_of_known known]
    exact present.elim id fun same => same ▸ known
  · have missed : ¬ dependencies.items.any (·.name == d.name) = true := by simpa using known
    rw [merge, if_neg missed]
    obtain listed | rfl := present
    · obtain ⟨other, member, rfl⟩ := List.mem_map.mp listed
      exact List.mem_map_of_mem (OrderedSet.mem_insert.mpr (.inl member))
    · exact List.mem_map_of_mem (OrderedSet.mem_insert.mpr (.inr rfl))

theorem name_mem_mergeAll {dependencies : OrderedSet Dependency} {new : List Dependency}
    {n : String} (present : n ∈ dependencies.items.map name ∨ n ∈ new.map name) :
    n ∈ (mergeAll dependencies new).items.map name := by
  induction new generalizing dependencies with
  | nil => simpa [mergeAll] using present
  | cons d rest ih =>
    change n ∈ (mergeAll (merge dependencies d) rest).items.map name
    refine ih ?_
    rw [List.map_cons, List.mem_cons, ← or_assoc] at present
    exact present.imp_left name_mem_merge

theorem mergeAll_of_known {dependencies : OrderedSet Dependency} {new : List Dependency}
    (known : ∀ d ∈ new, d.name ∈ dependencies.items.map name) :
    mergeAll dependencies new = dependencies := by
  induction new with
  | nil => rfl
  | cons d rest ih =>
    change mergeAll (merge dependencies d) rest = dependencies
    rw [merge_of_known (known d List.mem_cons_self),
      ih fun other member => known other (List.mem_cons_of_mem d member)]

theorem mergeAll_idem (dependencies : OrderedSet Dependency) (new : List Dependency) :
    mergeAll (mergeAll dependencies new) new = mergeAll dependencies new :=
  mergeAll_of_known fun _ member => name_mem_mergeAll (.inr (List.mem_map_of_mem member))

end Dependency

/-- Every list that a binding adds to knows the binding afterwards. -/
theorem Output.mergeBinding_idem (target : Target) (output : Output) (binding : Binding) :
    (output.mergeBinding target binding).mergeBinding target binding =
      output.mergeBinding target binding := by
  cases target <;>
    simp only [mergeBinding, OrderedSet.insertAll_idem, Dependency.mergeAll_idem]

namespace Compilation

variable {setup : Setup} {before after : Compiler}

/-! ## Runs -/

/-- Components keep their bindings when they are settled. -/
theorem dependenciesOf_settledAll (setup : Setup) (components : Roster) :
    dependenciesOf (settledAll setup components) = dependenciesOf components := by
  simp only [dependenciesOf, settledAll, OrderedMap.map, List.flatMap_map]
  rfl

/-- The dependencies that a run leaves, on any target. -/
theorem dependencies_of_run {program? : Option Program} {result : CompilationResult}
    (ran : (run setup program?).Yields before result after) :
    after.output.dependencies =
      Dependency.mergeAll ⟨[]⟩ (dependenciesOf after.output.components) := by
  obtain ⟨walked, package, last, walking, written, -, rfl⟩ := run_yields.mp ran
  obtain ⟨-, -, lists_eq, visits, met⟩ := walkRoots_of_run walking
  obtain ⟨parts, contributions, output_eq⟩ := writePackage_output met.nodup_keys written
  change last.output.dependencies = Dependency.mergeAll _ (dependenciesOf last.output.components)
  rw [output_eq, Output.dependencies_styled, dependencies_assembled,
    dependencies_of_begun lists_eq, Output.components_styled, components_assembled,
    dependencies_of_contributions contributions]
  exact congrArg _ (dependenciesOf_settledAll _ _).symm

/-- A component has the binding of its type. -/
theorem Walked.dependenciesOf_eq {program : Program} {visits : List Instance} {components : Roster}
    (met : Walked setup program visits components) :
    dependenciesOf components =
      components.keys.flatMap fun type => ((setup.bindings.get? type).getD {}).dependencies := by
  rw [dependenciesOf, OrderedMap.keys, List.flatMap_map, List.flatMap_def, List.flatMap_def]
  refine congrArg _ (List.map_congr_left fun entry listed => ?_)
  obtain ⟨first, represents⟩ :=
    met.exists_represents (OrderedMap.get?_of_mem_entries met.nodup_keys listed)
  rw [represents.binding_eq]

/-- Merging keeps the first dependency of each name. Of any dependencies that are merged one after
the other, the set lists the first of every name in the order in which the names arrive, and no two
of a name; this says exactly what it lists. A run merges the dependencies of the bindings of the
types that it meets, in the order in which the walk first meets them. And on any target, merging a
binding into an output for a second time changes nothing. -/
theorem dependencies_are_the_first_of_each_name :
    (∀ arrived kept : List Dependency,
      (Dependency.mergeAll ⟨[]⟩ arrived).items = kept ↔ Dependency.KeepsFirst arrived kept) ∧
    (∀ (setup : Setup) (program? : Option Program) (before after : Compiler)
        (result : CompilationResult), (run setup program?).Yields before result after →
      ∃ visits, after.program.graph.Preorder after.program.rootInstances visits ∧
        let types := (visits.map after.program.graph.componentName).eraseDups
        after.output.components.keys = types ∧
          Dependency.KeepsFirst
            (types.flatMap fun type => ((setup.bindings.get? type).getD {}).dependencies)
            after.output.dependencies.items) ∧
    ∀ (target : Target) (output : Output) (binding : Binding),
      (output.mergeBinding target binding).mergeBinding target binding =
        output.mergeBinding target binding := by
  refine ⟨fun _ _ => Dependency.keepsFirst_iff.symm, ?_, Output.mergeBinding_idem⟩
  intro setup program? before after result ran
  obtain ⟨visits, components, met, settled⟩ := exists_walked_of_run ran
  have keys_eq : after.output.components.keys = components.keys := by
    rw [settled, settledAll, OrderedMap.keys_map]
  refine ⟨visits, met.preorder, keys_eq.trans met.keys_eq, ?_⟩
  rw [dependencies_of_run ran, settled, dependenciesOf_settledAll, met.dependenciesOf_eq,
    met.keys_eq]
  exact Dependency.keepsFirst_mergeAll _

/-! A page with a label and an icon, which depend on one package in two versions. -/

namespace Bundled

def lit : Dependency := ⟨"lit", none, "^3.0"⟩

def clsx : Dependency := ⟨"clsx", none, "~2.1"⟩

def tslib : Dependency := ⟨"tslib", none, "*"⟩

def bindings : OrderedMap String Binding := ⟨[
  ("Label", { dependencies := [lit, clsx] }),
  ("Icon", { dependencies := [⟨"lit", none, "^2.0"⟩, tslib] })]⟩

def program (version : String) : Program where
  projectName := "Site"
  projectRoot := ⟨"/", ["site"]⟩
  graph := {
    types := ⟨[("Page", ⟨"Page", [⟨"title", "Label", 0⟩, ⟨"mark", "Icon", 0⟩]⟩),
      ("Label", ⟨"Label", []⟩), ("Icon", ⟨"Icon", []⟩)]⟩
    instances := ⟨[("home", ⟨"home", "Page", ⟨[("title", .text "name"), ("mark", .text "star")]⟩⟩),
      ("name", ⟨"name", "Label", ⟨[]⟩⟩), ("star", ⟨"star", "Icon", ⟨[]⟩⟩)]⟩ }
  roots := ⟨[("Page", "home")]⟩
  options := { sdkVersion := version }

def webSetup (version : String) : Setup :=
  .ofProgram .web ⟨"/", []⟩ bindings (.ok "localhost") (program version)

def files : FileTree where
  entries := ⟨[
    (["web"], .directory), (["web", "core"], .directory),
    (["web", "core", "Tessera.js"], .file ⟨#[]⟩), (["web", "core", "Tessera.d.ts"], .file ⟨#[]⟩),
    (["site"], .directory), (["site", "build"], .directory),
    (["site", "build", "tessera-Site-web"], .directory),
    (["site", "build", "tessera-Site-web", "static"], .directory)]⟩

def compiler (version : String) : Compiler := (webSetup version).compiler (program version) files

theorem knowsDependencies (version : String) : KnowsDependencies (webSetup version) := by
  have noAddress : ∀ entry ∈ bindings.entries, ∀ d ∈ entry.2.dependencies, d.url = none := by
    decide
  intro type d member
  change d ∈ ((bindings.get? type).getD {}).dependencies at member
  cases found : bindings.get? type with
  | none =>
    rw [found] at member
    cases member
  | some binding =>
    rw [found] at member
    have web : d.url = none := noAddress _ (OrderedMap.mem_entries_of_get? found) d member
    change ∃ value, dependencyValue .web d = .ok value
    simp [dependencyValue, web]

theorem exists_run (version : String)
    (succeeds : (walkOutcome (webSetup version) (compiler version)).1.isOk = true)
    (inside :
      (walkOutcome (webSetup version) (compiler version)).2.output.assets.keys.all isInside = true)
    (taken : files.takes [] (plainJobs (webSetup version)
      (walkOutcome (webSetup version) (compiler version)).2.output) = true) :
    ∃ result after, (run (webSetup version) none).Yields (compiler version) result after ∧
      after.program = program version ∧ after.output.components = settledAll (webSetup version)
        (walkOutcome (webSetup version) (compiler version)).2.output.components := by
  have allInside : ∀ entry ∈
      (walkOutcome (webSetup version) (compiler version)).2.output.assets.entries,
        isInside entry.1 = true := by
    intro entry member
    exact List.all_eq_true.mp inside entry.1 (List.mem_map_of_mem member)
  obtain ⟨result, after, ran, program_eq, components_eq, -⟩ :=
    exists_run_of_known (knowsDependencies version) rfl (yields_of_isOk succeeds) allInside
      (admits_of_takes_plain taken)
  exact ⟨result, after, ran, program_eq, components_eq⟩

end Bundled

/-- The label comes before the icon, so the package depends on the version that the label asks
for. -/
theorem dependencies_of_bundle :
    ∃ result after,
      (run (Bundled.webSetup "1.0.0") none).Yields (Bundled.compiler "1.0.0") result after ∧
      after.output.dependencies.items = [Bundled.lit, Bundled.clsx, Bundled.tslib] := by
  obtain ⟨result, after, ran, -, components_eq⟩ :=
    Bundled.exists_run "1.0.0" (by decide +kernel) (by decide +kernel) (by decide +kernel)
  obtain ⟨-, ofRun, -⟩ := dependencies_are_the_first_of_each_name
  obtain ⟨visits, -, keys_eq, keeps⟩ := ofRun _ none _ after result ran
  have types : after.output.components.keys = ["Page", "Label", "Icon"] := by
    rw [components_eq]
    decide +kernel
  rw [← keys_eq, types] at keeps
  exact ⟨result, after, ran, keeps.unique ⟨by decide +kernel, by decide +kernel, by decide +kernel⟩⟩

end Compilation

end DesignGraph
