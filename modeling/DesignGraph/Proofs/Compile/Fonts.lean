import DesignGraph.Proofs.Compile.Assets
import DesignGraph.Proofs.Compile.Completion
import DesignGraph.Proofs.Text.Percent

/-!
# Fonts and their files

A font face of the style sheets gives the address of a file. The file is that of an instance of its
own, which the walk leaves before the font, so by then the file is among the assets, under the name
that the address holds in percent encoding.
-/

namespace DesignGraph

namespace Program

/-- The graph comes from a document that has the prefab types. -/
def HasDesignSystem (program : Program) : Prop :=
  ∃ data document, GraphDocument.ofValue data = .ok document ∧
    GraphDocument.hasDesignSystem data = true ∧ program.graph = document.graph

variable {program : Program}

theorem HasDesignSystem.prefab (designed : program.HasDesignSystem) {name : String}
    {type : ComponentType} (prefab : Prefab.types.get? name = some type) :
    program.graph.types.get? name = some type := by
  obtain ⟨data, document, loaded, designSystem, same⟩ := designed
  rw [same]
  exact GraphDocument.prefab_of_ofValue loaded designSystem prefab

theorem HasDesignSystem.keyed (designed : program.HasDesignSystem) : program.graph.IsKeyed := by
  obtain ⟨data, document, loaded, -, same⟩ := designed
  rw [same]
  exact GraphDocument.isKeyed_of_ofValue loaded

/-- A font refers to its file. -/
theorem HasDesignSystem.refersAt_file (designed : program.HasDesignSystem) {font : Instance}
    {fileValue : Value} (isFont : program.graph.componentName font = "Font")
    (names : font.values.get? "file" = some fileValue) :
    program.graph.RefersAt font ⟨"file", "File", 0⟩ fileValue := by
  rw [designed.keyed.componentName_eq] at isFont
  have declared : program.graph.types.get? font.type = some Prefab.font := by
    rw [isFont]
    exact designed.prefab rfl
  have component : program.graph.isComponent "File" = true := by
    unfold Graph.isComponent
    rw [OrderedMap.contains_eq_isSome, designed.prefab (show _ = some Prefab.file from rfl)]
    rfl
  exact ⟨component, Prefab.font, declared, List.mem_cons_self, fileValue, names, .here _⟩

end Program

namespace Compilation

variable {setup : Setup} {before after : Compiler}

/-- What a web target registers under a name is one asset, and it is kept. -/
theorem Added.get?_of_registers {around : Surroundings} {done : List Event}
    {effects : List (List Effect)} {output : Output}
    (add : Added setup around done effects output)
    (shipped : setup.bindings = setup.target.bindings setup.installed)
    (target_eq : around.target = setup.target) (web : around.target = .web) {inst : Instance}
    {name : String} {asset : Asset} (met : around.program.Meets inst)
    (registers : Registers around inst name asset) : output.assets.get? name = some asset := by
  have listed := (add.asset_mem_iff shipped target_eq).mpr ⟨inst, met, registers⟩
  obtain ⟨last, kept⟩ :=
    Option.isSome_iff_exists.mp (OrderedMap.isSome_get?_ofList.mpr ⟨asset, listed⟩)
  obtain ⟨other, -, again⟩ :=
    (add.asset_mem_iff shipped target_eq).mp (OrderedMap.mem_of_get?_ofList kept)
  obtain ⟨path, located, rfl⟩ := registers.copy_of_name web
  obtain ⟨_, relocated, rfl⟩ := again.copy_of_name web
  rw [located] at relocated
  cases relocated
  rw [add.assets_eq, kept]

/-- The address of a font leads to the copy of its file. In a run of the web target with the
bindings of the library, a visited font whose file has a source gets a face with the address of that
source below the address of the assets. The source is in percent encoding there, which holds nothing
that could end the address and gives the source back. When the face is added the copy of the file
has been registered under the source, and there it stays. -/
theorem font_address_leads_to_copied_file {program? : Option Program} {result : CompilationResult}
    (web : setup.target = .web) (shipped : setup.bindings = setup.target.bindings setup.installed)
    (ran : (run setup program?).Yields before result after)
    (designed : after.program.HasDesignSystem) {font file : Instance}
    {reference : Option Reference} {fileValue : Value} {source : String}
    (visits : after.program.Visits ⟨font, reference⟩)
    (isFont : after.program.graph.componentName font = "Font")
    (names : font.values.get? "file" = some fileValue)
    (found : after.program.graph.instance? fileValue = some file)
    (isFile : after.program.graph.componentName file = "File")
    (value : file.values.get? "src" = some (.text source)) (notBlank : source ≠ "") :
    let around := setup.aroundRun before after.program
    let escaped := Text.Percent.encode source
    Text.Percent.IsEscaped escaped.toList ∧ '"' ∉ escaped.toList ∧
    Text.Percent.decode escaped = some source ∧ Function.Injective Text.Percent.encode ∧
    ∃ path, Asset.locate before.tree after.program.projectRoot source = .ok path ∧
      after.output.assets.get? source = some (.copyOf path.toText) ∧
      ∃ done effects, Added setup around done effects after.output ∧
        .visit ⟨font, reference⟩ ∈ done ∧
        ∀ front back, done = front ++ .visit ⟨font, reference⟩ :: back →
          ∃ early late key rules, effects = early ++ [.font key rules] :: late ∧
            early.length = front.length ∧
            .asset source (.copyOf path.toText) ∈ early.flatten ∧
            rules.get? "src" = some
              ("url(\"" ++ around.hotUrl.getD "/tessera" ++ "/" ++ escaped ++ "\")") := by
  intro around escaped
  obtain ⟨done, effects, add⟩ := exists_added_of_run ran
  have escapes := Text.Percent.isEscaped_encode source
  have unquoted : '"' ∉ escaped.toList := by
    intro member
    rcases escapes.unreserved _ member with unreserved | isPercent
    · exact absurd unreserved (by decide)
    · exact absurd isPercent (by decide)
  have refers := designed.refersAt_file isFont names
  have fileMet : around.program.Meets file := visits.meets.inner refers found
  obtain ⟨asset, registers⟩ :=
    add.exists_registers shipped rfl fileMet (.inl isFile) value notBlank
  have name_eq : assetName around.target (around.program.graph.componentName file) source =
      source := by
    simp [assetName, isFile, around, Setup.aroundRun, web]
  rw [name_eq] at registers
  have kept := add.get?_of_registers shipped rfl web fileMet registers
  obtain ⟨path, located, rfl⟩ := registers.copy_of_name web
  refine ⟨escapes, unquoted, Text.Percent.decode_encode source, Text.Percent.encode_injective, path,
    located, kept, done, effects, add, (visit_mem_iff add.trace _).mpr visits, ?_⟩
  rintro front back rfl
  obtain ⟨early, faces, late, rfl, before_it, answered, -⟩ := Answers.exists_split add.paired
  -- The file is in store for the font, so it has been left before the font is.
  have fileBelow : .visit ⟨file, some ⟨around.program.graph.componentName font, "file"⟩⟩ ∈
      Event.below setup.target around.program.graph font :=
    Event.visit_mem_below.mpr ⟨_, fileValue, refers, found, rfl⟩
  obtain ⟨new, isEarly, fileAnswered⟩ :=
    Answers.exists_answer before_it (add.trace.mem_of_below fileBelow)
  have copied : .asset source (.copyOf path.toText) ∈ early.flatten := by
    have inNew := (asset_mem_of_added_iff shipped rfl fileAnswered).mpr registers
    obtain ⟨effect, listed, isAsset⟩ := List.mem_filterMap.mp inNew
    cases effect with
    | asset name content =>
      cases isAsset
      exact List.mem_flatten.mpr ⟨new, isEarly, listed⟩
    | _ => cases isAsset
  rw [added_visit shipped, web, show around.program.graph.componentName font = "Font" from isFont]
    at answered
  obtain ⟨fileValue', file', source', key, family, names', found', value', rfl⟩ :=
    effects_of_fontBinder answered
  obtain rfl := Option.some.inj (names.symm.trans names')
  obtain rfl := Option.some.inj (found.symm.trans found')
  obtain ⟨⟩ := Option.some.inj (value.symm.trans value')
  exact ⟨early, late, key, _, rfl, before_it.length_eq.symm, copied, rfl⟩

/-! A page with a font, whose file has a blank in its name. -/

namespace Lettered

def document : Value := .map [
  (.text "types", .map [(.text "Page", .map [(.text "face", .text "Font")])]),
  (.text "instances", .map [
    (.text "home", .map [(.text "type", .text "Page"),
      (.text "values", .map [(.text "face", .text "serif")])]),
    (.text "serif", .map [(.text "type", .text "Font"),
      (.text "values", .map [(.text "file", .text "woff"), (.text "name", .text "Serif")])]),
    (.text "woff", .map [(.text "type", .text "File"),
      (.text "values", .map [(.text "src", .text "old serif.woff")])])]),
  (.text "roots", .map [(.text "Page", .text "home")])]

def page : Instance := ⟨"home", "Page", ⟨[("face", .text "serif")]⟩⟩

def font : Instance := ⟨"serif", "Font", ⟨[("file", .text "woff"), ("name", .text "Serif")]⟩⟩

def file : Instance := ⟨"woff", "File", ⟨[("src", .text "old serif.woff")]⟩⟩

def program : Program where
  projectName := "Site"
  projectRoot := ⟨"/", ["site"]⟩
  graph := {
    types := Prefab.types.insert "Page" ⟨"Page", [⟨"face", "Font", 0⟩]⟩
    instances := ⟨[("home", page), ("serif", font), ("woff", file)]⟩ }
  roots := ⟨[("Page", "home")]⟩

def webSetup : Setup :=
  .ofProgram .web ⟨"/", []⟩ (Target.bindings ⟨"/", []⟩ .web) (.ok "localhost") program

def files : FileTree where
  entries := ⟨[
    (["web"], .directory), (["web", "core"], .directory), (["web", "bindings"], .directory),
    (["web", "core", "Tessera.js"], .file ⟨#[]⟩), (["web", "core", "Tessera.d.ts"], .file ⟨#[]⟩),
    (["web", "bindings", "Font.js"], .file ⟨#[]⟩),
    (["web", "bindings", "Font.d.ts"], .file ⟨#[]⟩),
    (["web", "bindings", "File.js"], .file ⟨#[]⟩),
    (["web", "bindings", "File.d.ts"], .file ⟨#[]⟩),
    (["site"], .directory), (["site", "old serif.woff"], .file ⟨#[1]⟩),
    (["site", "build"], .directory), (["site", "build", "tessera-Site-web"], .directory),
    (["site", "build", "tessera-Site-web", "static"], .directory)]⟩

def compiler : Compiler := webSetup.compiler program files

theorem hasDesignSystem : program.HasDesignSystem :=
  ⟨document, ⟨program.graph, program.roots⟩, by with_unfolding_all rfl, by rfl, rfl⟩

theorem visits_font : program.Visits ⟨font, some ⟨"Page", "face"⟩⟩ := by
  have met : program.Meets page := ⟨page, List.mem_singleton_self _, .refl⟩
  have refers : program.graph.RefersAt page ⟨"face", "Font", 0⟩ (.text "serif") :=
    ⟨rfl, _, rfl, List.mem_cons_self, _, rfl, .here _⟩
  exact .reference met refers rfl

end Lettered

/-- The face of a font whose file has a blank in its name. -/
theorem font_of_page_leads_to_copied_file :
    let setup := Lettered.webSetup
    let before := Lettered.compiler
    setup.target = .web ∧ setup.bindings = setup.target.bindings setup.installed ∧
    ∃ result after, (run setup none).Yields before result after ∧
      after.program.HasDesignSystem ∧
      after.program.Visits ⟨Lettered.font, some ⟨"Page", "face"⟩⟩ ∧
      ∃ path done effects, Added setup (setup.aroundRun before after.program) done effects
          after.output ∧
        after.output.assets.get? "old serif.woff" = some (.copyOf path) ∧
        ∃ early late key rules, effects = early ++ [.font key rules] :: late ∧
          .asset "old serif.woff" (.copyOf path) ∈ early.flatten ∧
          rules.get? "src" = some "url(\"/tessera/old%20serif.woff\")" := by
  intro setup before
  obtain ⟨result, after, ran, program_eq, -⟩ := exists_run_of_takes
    (show setup.bindings = _ from rfl) (show before.program.hot = false from rfl)
    (by decide +kernel) (by decide +kernel) (by decide +kernel)
  have designed : after.program.HasDesignSystem := program_eq ▸ Lettered.hasDesignSystem
  have visits : after.program.Visits ⟨Lettered.font, some ⟨"Page", "face"⟩⟩ :=
    program_eq ▸ Lettered.visits_font
  obtain ⟨-, -, -, -, path, -, kept, done, effects, add, isDone, faced⟩ :=
    font_address_leads_to_copied_file rfl rfl ran designed visits (by rw [program_eq]; rfl) rfl
      (by rw [program_eq]; rfl) (by rw [program_eq]; rfl) rfl (by decide)
  refine ⟨rfl, rfl, result, after, ran, designed, visits, path.toText, done, effects, add, kept, ?_⟩
  obtain ⟨front, back, split⟩ := List.append_of_mem isDone
  obtain ⟨early, late, key, rules, split, -, copied, address⟩ := faced front back split
  refine ⟨early, late, key, rules, split, copied, address.trans ?_⟩
  have cold : (setup.aroundRun before after.program).hotUrl = none := rfl
  rw [cold]
  decide +kernel

end Compilation

end DesignGraph
