import DesignGraph.Proofs.Compile.Completion
import DesignGraph.Proofs.Compile.Manifest
import DesignGraph.Proofs.Compile.Rerun
import DesignGraph.Proofs.Text.Trimmed

/-!
# Deployment targets

An iOS package names the least version of the system that it runs on. `SpellsVersion` is the grammar
of versions over a class of digits. The check of the options takes the versions in digits of any
script, and each of them with a line feed behind it (`isVersion_iff`), so it agrees with the
grammar over plain digits on the texts that have neither. Whatever it takes stands between the
quotes of the manifest, and whatever it refuses ends a call before anything is done.
-/

namespace DesignGraph

namespace Template

/-- A text begins with the texts of the first statements. -/
theorem exists_renderAll_append {scope after : Scope} {front back : List Statement}
    {texts : List String} {text : String}
    (each : List.Forall₂ (fun statement text => renderOne scope statement = .ok (text, scope))
      front texts) (rendered : renderAll scope (front ++ back) = .ok (text, after)) :
    ∃ tail, text = String.join texts ++ tail := by
  induction each generalizing text with
  | nil => exact ⟨text, by simp⟩
  | cons first _ ih =>
    rw [List.cons_append, renderAll, first, Answers.bind_eq_ok_iff] at rendered
    obtain ⟨_, ⟨⟩, rendered⟩ := rendered
    obtain ⟨⟨rest, _⟩, others, rendered⟩ := Answers.bind_eq_ok_iff.mp rendered
    cases rendered
    obtain ⟨tail, rfl⟩ := ih others
    exact ⟨tail, by rw [String.join_cons, String.append_assoc]⟩

theorem renderAll_of_renderAt {path : Path} {source text : String} {statements : List Statement}
    {data : List (String × Value)} (parsed : parse source = .ok statements)
    (rendered : renderAt path (some source) data = .ok text) :
    ∃ after, renderAll (Scope.ofData data) statements = .ok (text, after) := by
  unfold renderAt at rendered
  dsimp only at rendered
  split at rendered
  · next whole =>
    cases rendered
    rw [render, parsed] at whole
    obtain ⟨_, ⟨⟩, whole⟩ := Answers.bind_eq_ok_iff.mp whole
    obtain ⟨-, whole⟩ := Answers.unless_eq_ok_iff.mp whole
    obtain ⟨⟨_, after⟩, all, ⟨⟩⟩ := Answers.bind_eq_ok_iff.mp whole
    exact ⟨after, all⟩
  · cases rendered
  · cases rendered

end Template

namespace Compilation

open Template

variable {cs rest ending : List Char} {count : Nat}

/-- A decimal digit of any script. -/
def isScriptDigit (c : Char) : Bool := (Text.digitValue? c).isSome

/-- A run of digits of a class. -/
def IsNumber (isDigit : Char → Bool) (cs : List Char) : Prop :=
  cs ≠ [] ∧ ∀ c ∈ cs, isDigit c = true

/-- One to three numbers in digits of a class, with a point between them and nothing around them. -/
def SpellsVersion (isDigit : Char → Bool) (cs : List Char) : Prop :=
  ∃ numbers : List (List Char), 1 ≤ numbers.length ∧ numbers.length ≤ 3 ∧
    (∀ number ∈ numbers, IsNumber isDigit number) ∧ cs = ['.'].intercalate numbers

/-! ## The check -/

/-- What is dropped is a number, and no digit follows it. -/
theorem dropNumber?_eq_some_iff : dropNumber? cs = some rest ↔
    ∃ number, IsNumber isScriptDigit number ∧ cs = number ++ rest ∧
      ∀ c ∈ rest.head?, isScriptDigit c = false := by
  change (if (cs.dropWhile isScriptDigit).length < cs.length then
    some (cs.dropWhile isScriptDigit) else none) = some rest ↔ _
  constructor
  · intro dropped
    split_ifs at dropped with shorter
    cases dropped
    refine ⟨cs.takeWhile isScriptDigit, ⟨?_, fun c member => List.mem_takeWhile_imp member⟩,
      List.takeWhile_append_dropWhile.symm, Text.head?_dropWhile isScriptDigit cs⟩
    intro nothing
    have whole := List.takeWhile_append_dropWhile (p := isScriptDigit) (l := cs)
    rw [nothing, List.nil_append] at whole
    rw [whole] at shorter
    exact Nat.lt_irrefl _ shorter
  · rintro ⟨number, ⟨given, digits⟩, rfl, stops⟩
    have dropped : (number ++ rest).dropWhile isScriptDigit = rest := by
      rw [List.dropWhile_append_of_pos digits, Text.dropWhile_of_head? stops]
    have positive := List.length_pos_of_ne_nil given
    rw [dropped, List.length_append, if_pos (by omega)]

/-- No digit follows a number. -/
theorem head?_numbers (numbers : List (List Char)) (ended : ending = [] ∨ ending = ['\n']) :
    ∀ c ∈ (numbers.flatMap ('.' :: ·) ++ ending).head?, isScriptDigit c = false := by
  cases numbers with
  | nil =>
    rcases ended with rfl | rfl
    · rintro _ ⟨⟩
    · rintro _ ⟨⟩
      decide
  | cons _ _ =>
    rintro _ ⟨⟩
    decide

theorem endsVersion_of_numbers {numbers : List (List Char)} (few : numbers.length ≤ count)
    (each : ∀ number ∈ numbers, IsNumber isScriptDigit number)
    (ended : ending = [] ∨ ending = ['\n']) :
    endsVersion count (numbers.flatMap ('.' :: ·) ++ ending) = true := by
  induction numbers generalizing count with
  | nil => rcases ended with rfl | rfl <;> cases count <;> rfl
  | cons number others ih =>
    obtain ⟨count, rfl⟩ := Nat.exists_eq_add_of_le' (Nat.one_le_of_lt few)
    obtain ⟨first, later⟩ := List.forall_mem_cons.mp each
    have dropped := dropNumber?_eq_some_iff.mpr
      ⟨number, first, rfl, head?_numbers others ended⟩
    rw [List.flatMap_cons, List.cons_append, List.cons_append, List.append_assoc, endsVersion,
      dropped]
    exact ih (Nat.le_of_succ_le_succ few) later

theorem endsVersion_iff : endsVersion count cs = true ↔
    ∃ (numbers : List (List Char)) (ending : List Char), numbers.length ≤ count ∧
      (∀ number ∈ numbers, IsNumber isScriptDigit number) ∧
      (ending = [] ∨ ending = ['\n']) ∧ cs = numbers.flatMap ('.' :: ·) ++ ending := by
  constructor
  · intro ends
    fun_induction endsVersion count cs with
    | case1 => exact ⟨[], [], Nat.zero_le _, by simp, .inl rfl, rfl⟩
    | case2 => exact ⟨[], ['\n'], Nat.zero_le _, by simp, .inr rfl, rfl⟩
    | case3 parts rest _ dropped ih =>
      obtain ⟨numbers, ending, few, each, ended, rfl⟩ := ih ends
      obtain ⟨number, first, rfl, -⟩ := dropNumber?_eq_some_iff.mp dropped
      refine ⟨number :: numbers, ending, Nat.succ_le_succ few,
        List.forall_mem_cons.mpr ⟨first, each⟩, ended, ?_⟩
      rw [List.flatMap_cons, List.cons_append, List.cons_append, List.append_assoc]
    | case4 | case5 => cases ends
  · rintro ⟨numbers, ending, few, each, ended, rfl⟩
    exact endsVersion_of_numbers few each ended

variable {s : String}

/-- A text is taken for a version if it is one in digits of any script, or one with a line feed
behind it. -/
theorem isVersion_iff : isVersion s = true ↔ ∃ version, SpellsVersion isScriptDigit version ∧
    (s.toList = version ∨ s.toList = version ++ ['\n']) := by
  unfold isVersion
  constructor
  · intro accepted
    split at accepted
    · next rest dropped =>
      obtain ⟨number, first, split, -⟩ := dropNumber?_eq_some_iff.mp dropped
      obtain ⟨numbers, ending, few, each, ended, rfl⟩ := endsVersion_iff.mp accepted
      refine ⟨['.'].intercalate (number :: numbers), ⟨number :: numbers, Nat.le_add_left 1 _,
        Nat.succ_le_succ few, List.forall_mem_cons.mpr ⟨first, each⟩, rfl⟩, ?_⟩
      rw [split, Text.intercalate_cons]
      rcases ended with rfl | rfl
      · exact .inl (by rw [List.append_nil])
      · exact .inr (List.append_assoc _ _ _).symm
    · cases accepted
  · rintro ⟨_, ⟨numbers, given, few, each, rfl⟩, written⟩
    obtain _ | ⟨number, numbers⟩ := numbers
    · exact absurd given (by decide)
    obtain ⟨first, others⟩ := List.forall_mem_cons.mp each
    obtain ⟨ending, ended, split⟩ : ∃ ending : List Char, (ending = [] ∨ ending = ['\n']) ∧
        s.toList = number ++ (numbers.flatMap ('.' :: ·) ++ ending) := by
      rw [Text.intercalate_cons] at written
      rcases written with written | written
      · exact ⟨[], .inl rfl, by rw [written, List.append_nil]⟩
      · exact ⟨['\n'], .inr rfl, by rw [written, List.append_assoc]⟩
    have dropped := dropNumber?_eq_some_iff.mpr
      ⟨number, first, split, head?_numbers numbers ended⟩
    rw [dropped]
    exact endsVersion_of_numbers (Nat.le_of_succ_le_succ few) others ended

/-! ## Versions in plain digits -/

/-- A version consists of digits and points. -/
theorem SpellsVersion.digit_or_point {isDigit : Char → Bool} (spells : SpellsVersion isDigit cs) :
    ∀ c ∈ cs, isDigit c = true ∨ c = '.' := by
  obtain ⟨numbers, -, -, each, rfl⟩ := spells
  intro c written
  rcases Text.mem_intercalate written with point | ⟨number, member, within⟩
  · exact .inr point
  · exact .inl ((each number member).2 c within)

theorem SpellsVersion.imp {isDigit other : Char → Bool} (spells : SpellsVersion isDigit cs)
    (each : ∀ c ∈ cs, isDigit c = true → other c = true) : SpellsVersion other cs := by
  obtain ⟨numbers, given, few, digits, rfl⟩ := spells
  refine ⟨numbers, given, few, fun number member => ⟨(digits number member).1, ?_⟩, rfl⟩
  intro c written
  exact each c (Text.subset_intercalate member written) ((digits number member).2 c written)

theorem isScriptDigit_of_plain {c : Char} (plain : c.toNat < 0x80) :
    isScriptDigit c = c.isDigit := by
  unfold isScriptDigit Text.digitValue?
  rw [if_pos plain]
  split_ifs with digit
  · exact digit.symm
  · exact (Bool.eq_false_iff.mpr digit).symm

theorem plain_of_isDigit {c : Char} (digit : c.isDigit = true) : c.toNat < 0x80 := by
  simp only [Char.isDigit, Bool.and_eq_true, decide_eq_true_eq] at digit
  have atMost : c.toNat ≤ 57 := UInt32.le_iff_toNat_le.mp digit.2
  omega

/-- The check agrees with the grammar of versions in plain digits exactly on the texts that it does
not take, and on those without a line feed at the end and without digits of another script. -/
theorem isVersion_iff_spells_iff :
    (isVersion s = true ↔ SpellsVersion Char.isDigit s.toList) ↔
      (isVersion s = true →
        s.toList.getLast? ≠ some '\n' ∧ ∀ c ∈ s.toList, c.toNat < 0x80) := by
  constructor
  · intro agree accepted
    have written := (agree.mp accepted).digit_or_point
    constructor
    · intro last
      exact absurd (written '\n' (List.mem_of_getLast? last)) (by decide)
    · intro c member
      rcases written c member with digit | rfl
      · exact plain_of_isDigit digit
      · decide
  · intro plain
    constructor
    · intro accepted
      obtain ⟨noLineFeed, chars⟩ := plain accepted
      obtain ⟨version, spells, rfl | written⟩ := isVersion_iff.mp accepted
      · exact spells.imp fun c member digit => isScriptDigit_of_plain (chars c member) ▸ digit
      · rw [written] at noLineFeed
        exact absurd List.getLast?_concat noLineFeed
    · intro spells
      refine isVersion_iff.mpr ⟨s.toList, spells.imp ?_, .inl rfl⟩
      intro c _ digit
      rw [isScriptDigit_of_plain (plain_of_isDigit digit), digit]

/-! ## The manifest -/

variable {setup : Setup} {before after : Compiler}

/-- What the template of the manifest has up to the version of the system. -/
def platformStatements : List Statement := [
  .text "// swift-tools-version:5.5\nimport PackageDescription\n\nlet package = Package(\n    name: \"",
  .print (.name "module_name"), .text "\",\n    platforms: [.iOS(\"",
  .print (.name "deployment_target"), .text "\")],\n    products: [\n        .library(name: \""]

def platformTexts (name version : String) : List String := [
  "// swift-tools-version:5.5\nimport PackageDescription\n\nlet package = Package(\n    name: \"",
  name, "\",\n    platforms: [.iOS(\"", version, "\")],\n    products: [\n        .library(name: \""]

/-- What comes after that. -/
def productStatements : List Statement := [
  .print (.name "module_name"), .text "\", targets: [\"", .print (.name "module_name"),
  .text "\"]),\n    ],\n    dependencies: [\n",
  .loop (.one "dependency") (.name "dependencies") none [
    .text "        .package(url: \"", .print (.field (.name "dependency") "url"),
    .text "\", from: \"", .print (.field (.name "dependency") "version_constraint"),
    .text "\"),\n"] [],
  .text "    ],\n    targets: [\n        .target(\n            name: \"",
  .print (.name "module_name"), .text "\",\n            dependencies: [",
  .loop (.one "dependency") (.name "dependencies") none [
    .text "\"", .print (.field (.name "dependency") "name"), .text "\"",
    .print (.choice (.negation (.field (.name "loop") "last")) (.literal (.text ", "))
      (some (.literal (.text ""))))] [],
  .text "],\n            resources: [.copy(\"Static\")]\n        ),\n    ]\n)\n"]

/-- What the template is cut into. -/
def manifestTokens : List Token := [
  .text "// swift-tools-version:5.5\nimport PackageDescription\n\nlet package = Package(\n    name: \"",
  .printStart, .word "module_name", .printEnd, .text "\",\n    platforms: [.iOS(\"",
  .printStart, .word "deployment_target", .printEnd,
  .text "\")],\n    products: [\n        .library(name: \"",
  .printStart, .word "module_name", .printEnd, .text "\", targets: [\"",
  .printStart, .word "module_name", .printEnd, .text "\"]),\n    ],\n    dependencies: [\n",
  .blockStart, .word "for", .word "dependency", .word "in", .word "dependencies", .blockEnd,
  .text "        .package(url: \"",
  .printStart, .word "dependency", .symbol ".", .word "url", .printEnd, .text "\", from: \"",
  .printStart, .word "dependency", .symbol ".", .word "version_constraint", .printEnd,
  .text "\"),\n", .blockStart, .word "endfor", .blockEnd,
  .text "    ],\n    targets: [\n        .target(\n            name: \"",
  .printStart, .word "module_name", .printEnd, .text "\",\n            dependencies: [",
  .blockStart, .word "for", .word "dependency", .word "in", .word "dependencies", .blockEnd,
  .text "\"", .printStart, .word "dependency", .symbol ".", .word "name", .printEnd, .text "\"",
  .printStart, .string ", ", .word "if", .word "not", .word "loop", .symbol ".", .word "last",
  .word "else", .string "", .printEnd, .blockStart, .word "endfor", .blockEnd,
  .text "],\n            resources: [.copy(\"Static\")]\n        ),\n    ]\n)\n"]

set_option maxRecDepth 4000 in
theorem tokens_manifest : tokens Stock.Ios.manifest = .ok manifestTokens := by
  unfold tokens Stock.Ios.manifest manifestTokens
  simp only [Text.toList_ofLines, List.flatMap_cons, List.flatMap_nil]
  repeat rw [String.toList_ofList]
  rfl

set_option maxRecDepth 4000 in
theorem statements_manifest :
    (Parser.statements (20 * manifestTokens.length + 20) []).run manifestTokens =
      .ok (platformStatements ++ productStatements, []) := by
  unfold manifestTokens platformStatements productStatements
  rfl

theorem parse_platforms :
    parse Stock.Ios.manifest = .ok (platformStatements ++ productStatements) := by
  simp only [parse, Answers.bind_eq_ok_iff]
  exact ⟨_, tokens_manifest, _, statements_manifest, rfl⟩

/-- What the skeleton of an iOS package receives. -/
theorem packageData_ios {data : List (String × Value)} (ios : setup.target = .ios)
    (gathered : (packageData setup).Yields before data after) :
    data.lookup "module_name" = some (.text setup.moduleName) ∧
      data.lookup "deployment_target" = some (.text (deploymentTarget before.program)) := by
  obtain ⟨values, contents, -, -, rfl, -⟩ := (yields_packageData_ios ios).mp gathered
  exact ⟨rfl, rfl⟩

theorem target_platformPiece (installed destination : Path) :
    (⟨"Package.swift.j2", Stock.path installed .ios "sdk/Package.swift.j2",
        some Stock.Ios.manifest⟩ : Piece).target destination =
      destination.joinText "Package.swift" := by
  have listed : "Package.swift" ∈ skeletonFiles .ios := by simp [skeletonFiles]
  exact (withoutSuffix_of_skeletonFiles listed destination).2

/-- The manifest that a run leaves in an iOS package has the deployment target between quotes. -/
theorem platforms_of_run {program? : Option Program} {result : CompilationResult}
    (ios : setup.target = .ios) (ran : (run setup program?).Yields before result after) :
    ∃ others, after.tree.read (setup.sdkRoot.joinText "Package.swift") = .ok (String.toUTF8
      (String.join (platformTexts setup.moduleName (deploymentTarget after.program)) ++
        others)) := by
  have isLast : (Stock.skeleton setup.installed setup.target).getLast? =
      some ⟨"Package.swift.j2", Stock.path setup.installed .ios "sdk/Package.swift.j2",
        some Stock.Ios.manifest⟩ := by
    rw [ios, Stock.skeleton_ios]
    rfl
  obtain ⟨filled, gathered, program_eq, -, text, rendered, read⟩ := lastFile_of_run isLast ran
  obtain ⟨named, targeted⟩ := packageData_ios ios gathered
  rw [program_eq] at targeted
  obtain ⟨_, whole⟩ := renderAll_of_renderAt parse_platforms rendered
  obtain ⟨others, rfl⟩ := exists_renderAll_append
    (.cons rfl (.cons (renderOne_print (by rw [evaluate, Scope.find_ofData named]))
      (.cons rfl (.cons (renderOne_print (by rw [evaluate, Scope.find_ofData targeted]))
        (.cons rfl .nil))))) whole
  rw [target_platformPiece] at read
  exact ⟨others, read⟩

/-! ## Calls -/

theorem outcome_validateOptions (ios : setup.target = .ios) :
    outcome (validateOptions setup) before =
      if isVersion (deploymentTarget before.program) then (.ok (), before)
      else
        (.error (.compilation (.deploymentTarget (deploymentTarget before.program))), before) := by
  rw [validateOptions, outcome_get_bind]
  cases accepted : isVersion (deploymentTarget before.program) <;> simp [ios, accepted] <;> rfl

/-- A call that succeeds makes its package by a run on the same program. -/
theorem run_of_start {result : CompilationResult}
    (started : (start setup).Yields before result after) :
    (outcome (validateOptions setup) before).1 = .ok () ∧
      ∃ ready, (run setup none).Yields ready result after := by
  rw [start, yields_bind] at started
  obtain ⟨_, checked, validated, started⟩ := started
  refine ⟨congrArg Prod.fst validated, ?_⟩
  simp only [yields_bind, yields_get, and_assoc, exists_and_left, exists_eq_left] at started
  split_ifs at started
  · obtain ⟨_, ready, -, ran⟩ := yields_bind.mp started
    exact ⟨ready, ran⟩
  · exact ⟨checked, started⟩

/-- The deployment targets that a package can have. A text is accepted if it is a version in digits
of any script, or one with a line feed behind it; so what is accepted are the versions in plain
digits exactly as long as no text with a line feed at its end or with a character that is not plain
is. A refused text ends a call with nothing done, and an accepted one stands between the quotes of
the manifest as it is. -/
theorem deployment_targets_are_versions_iff (ios : setup.target = .ios)
    (given : before.program.options.targetOptions.get? "deployment_target" = some (.text s)) :
    let accepted := (outcome (validateOptions setup) before).1 = .ok ()
    (accepted ↔ ∃ version, SpellsVersion isScriptDigit version ∧
      (s.toList = version ∨ s.toList = version ++ ['\n'])) ∧
    ((accepted ↔ SpellsVersion Char.isDigit s.toList) ↔
      (accepted → s.toList.getLast? ≠ some '\n' ∧ ∀ c ∈ s.toList, c.toNat < 0x80)) ∧
    (¬ accepted →
      outcome (start setup) before = (.error (.compilation (.deploymentTarget s)), before)) ∧
    ∀ result after, (start setup).Yields before result after → accepted ∧
      ∃ others, after.tree.read (setup.sdkRoot.joinText "Package.swift") = .ok (String.toUTF8
        (String.join (platformTexts setup.moduleName s) ++ others)) := by
  intro accepted
  have target_eq : deploymentTarget before.program = s := by
    rw [deploymentTarget, given]
    rfl
  have validated : outcome (validateOptions setup) before = _ := outcome_validateOptions ios
  rw [target_eq] at validated
  have accepted_iff : accepted ↔ isVersion s = true := by
    change (outcome (validateOptions setup) before).1 = .ok () ↔ _
    rw [validated]
    cases isVersion s <;> simp
  refine ⟨accepted_iff.trans isVersion_iff, ?_, ?_, ?_⟩
  · rw [accepted_iff]
    exact isVersion_iff_spells_iff
  · intro refused
    rw [accepted_iff] at refused
    rw [if_neg refused] at validated
    rw [start, outcome_bind, validated]
  · intro result after started
    obtain ⟨checked, ready, ran⟩ := run_of_start started
    obtain ⟨others, read⟩ := platforms_of_run ios ran
    have program_eq : after.program = before.program := preserves_start.of_yields started
    rw [program_eq, target_eq] at read
    exact ⟨checked, others, read⟩

/-! A page for iOS with the given deployment target. -/

namespace Deployed

def program (version : String) : Program where
  projectName := "Site"
  projectRoot := ⟨"/", ["site"]⟩
  graph := {
    types := ⟨[("Page", ⟨"Page", []⟩)]⟩
    instances := ⟨[("home", ⟨"home", "Page", ⟨[]⟩⟩)]⟩ }
  roots := ⟨[("Page", "home")]⟩
  options := { targetOptions := ⟨[("deployment_target", .text version)]⟩ }

def iosSetup (version : String) : Setup :=
  .ofProgram .ios ⟨"/", []⟩ (Target.bindings ⟨"/", []⟩ .ios) (.ok "localhost") (program version)

def files : FileTree where
  entries := ⟨[
    (["ios"], .directory), (["ios", "core"], .directory),
    (["ios", "core", "Tessera.swift"], .file ⟨#[]⟩),
    (["site"], .directory), (["site", "build"], .directory),
    (["site", "build", "tessera-Site-ios"], .directory),
    (["site", "build", "tessera-Site-ios", "Sources"], .directory),
    (["site", "build", "tessera-Site-ios", "Sources", "TesseraSite"], .directory),
    (["site", "build", "tessera-Site-ios", "Sources", "TesseraSite", "Static"], .directory)]⟩

def compiler (version : String) : Compiler := (iosSetup version).compiler (program version) files

theorem exists_start {version : String} (accepted : isVersion version = true)
    (succeeds : (walkOutcome (iosSetup version) (compiler version)).1.isOk = true)
    (inside :
      (walkOutcome (iosSetup version) (compiler version)).2.output.assets.keys.all isInside = true)
    (taken : files.takes [] (plainJobs (iosSetup version)
      (walkOutcome (iosSetup version) (compiler version)).2.output) = true) :
    ∃ result after, (start (iosSetup version)).Yields (compiler version) result after := by
  have shipped :
      (iosSetup version).bindings =
        (iosSetup version).target.bindings (iosSetup version).installed := rfl
  have notHot : (compiler version).program.hot = false := rfl
  have target_eq : deploymentTarget (compiler version).program = version := rfl
  obtain ⟨result, after, ran, -⟩ := exists_run_of_takes shipped notHot succeeds inside taken
  exact ⟨result, after, (start_yields_iff notHot fun _ => target_eq ▸ accepted).mpr ran⟩

end Deployed

theorem page_is_deployed_on_version :
    let setup := Deployed.iosSetup "15.2"
    let before := Deployed.compiler "15.2"
    setup.target = .ios ∧
    before.program.options.targetOptions.get? "deployment_target" = some (.text "15.2") ∧
    SpellsVersion Char.isDigit "15.2".toList ∧
    ∃ result after others, (start setup).Yields before result after ∧
      after.tree.read (setup.sdkRoot.joinText "Package.swift") = .ok (String.toUTF8
        (String.join (platformTexts setup.moduleName "15.2") ++ others)) := by
  intro setup before
  obtain ⟨result, after, started⟩ : ∃ result after, (start setup).Yields before result after :=
    Deployed.exists_start (by decide +kernel) (by decide +kernel) (by decide +kernel)
      (by decide +kernel)
  obtain ⟨-, agree, -, made⟩ := deployment_targets_are_versions_iff
    (show setup.target = .ios from rfl)
    (show before.program.options.targetOptions.get? "deployment_target" = some (.text "15.2")
      from rfl)
  obtain ⟨accepted, others, read⟩ := made result after started
  have ended : "15.2".toList.getLast? ≠ some '\n' := by decide +kernel
  have plain : ("15.2".toList.all fun c => c.toNat < 0x80) = true := by decide +kernel
  rw [List.all_eq_true] at plain
  have spells := (agree.mpr fun _ => ⟨ended, fun c member => of_decide_eq_true (plain c member)⟩).mp
    accepted
  exact ⟨rfl, rfl, spells, result, after, others, started, read⟩

/-- A version with a line feed behind it is accepted, and is no version. -/
theorem version_before_line_feed_is_accepted :
    (outcome (validateOptions (Deployed.iosSetup "13.0\n")) (Deployed.compiler "13.0\n")).1 =
        .ok () ∧
      ¬ SpellsVersion Char.isDigit "13.0\n".toList := by
  have target_eq : deploymentTarget (Deployed.compiler "13.0\n").program = "13.0\n" := rfl
  have accepted : isVersion "13.0\n" = true := by decide +kernel
  refine ⟨?_, fun spells => ?_⟩
  · rw [outcome_validateOptions rfl, target_eq, if_pos accepted]
  · have written : '\n' ∈ "13.0\n".toList := by decide +kernel
    exact absurd (spells.digit_or_point '\n' written) (by decide)

end Compilation

end DesignGraph
