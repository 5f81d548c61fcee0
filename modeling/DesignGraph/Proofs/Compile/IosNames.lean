import DesignGraph.Proofs.Compile.Assets
import DesignGraph.Proofs.Compile.Completion
import DesignGraph.Proofs.Text.SwiftLiteral

/-!
# Names of assets in iOS code

The code of an iOS package looks an asset up under a name that the construction of its instance
passes on. That name is quoted for files and percent-encoded for drawings, while the asset itself
is stored under the plain source. Here is for which sources the two are the same.
-/

namespace DesignGraph

namespace Ios

open Text

/-- What the runtime puts behind the name that it is given, to find the asset of an instance. -/
def extensionOf (type : String) : String := if type = "SVG" then ".html" else ""

/-- The literal that the construction of an instance passes on. -/
def sourceLiteral (type source : String) : String :=
  if type = "SVG" then "\"" ++ Percent.encode source ++ "\"" else quoted .plain source

/-- A source that reads the same in the code as among the assets: that of a drawing has no character
that a URL would escape, and that of a file no control that Swift writes in another way. -/
def IsSpelledOut (type source : String) : Prop :=
  if type = "SVG" then ∀ c ∈ source.toList, Percent.isUnreserved c = true
  else ∀ c ∈ source.toList, Swift.IsShared c

variable {type source : String}

instance : Decidable (IsSpelledOut type source) :=
  if isDrawing : type = "SVG" then
    decidable_of_iff (source.toList.all Percent.isUnreserved = true)
      (by rw [IsSpelledOut, if_pos isDrawing, List.all_eq_true])
  else
    decidable_of_iff (source.toList.all (decide <| Swift.IsShared ·) = true)
      (by simp only [IsSpelledOut, if_neg isDrawing, List.all_eq_true, decide_eq_true_eq])

/-- The name that code passes on, with what the runtime puts behind it, is the one under which the
asset is stored exactly if the source is spelled out. -/
theorem names_alike_iff : (∃ passed, Swift.IsLiteral (sourceLiteral type source) passed ∧
    passed ++ extensionOf type = Compilation.assetName .ios type source) ↔
      IsSpelledOut type source := by
  by_cases isDrawing : type = "SVG"
  · simp only [sourceLiteral, isDrawing, if_true, Swift.isLiteral_encode_iff, exists_eq_left,
      extensionOf, Compilation.assetName, and_self, String.append_left_inj, IsSpelledOut,
      Percent.encode_eq_self_iff]
  · simp only [sourceLiteral, isDrawing, if_false, Swift.isLiteral_quoted_iff, extensionOf,
      Compilation.assetName, and_false, String.append_empty, IsSpelledOut]
    constructor
    · rintro ⟨_, ⟨rfl, shared⟩, -⟩
      exact shared
    · exact fun shared => ⟨source, ⟨rfl, shared⟩, rfl⟩

/-- The construction of an instance of a file type, wherever a property shows it. -/
theorem constructionOf?_file (installed : Path) {inst : Instance}
    (isFile : type = "File" ∨ type = "SVG")
    (value : inst.values.get? "src" = some (.text source)) (spec : Spec) :
    Resolution.constructionOf? .ios (bindings installed) type inst spec =
      some (type ++ "(withSrc: " ++ sourceLiteral type source ++ ")") := by
  have given : sourceValue inst = .text source := by
    rw [sourceValue, value]
    rfl
  rcases isFile with rfl | rfl
  · have constructed : fileConstruction inst =
        .ok ("File(withSrc: " ++ quoted .plain source ++ ")") := by
      simp only [fileConstruction, given, Value.literal?]
    change (fileConstruction inst).toOption = _
    rw [constructed]
    rfl
  · have constructed : svgConstruction inst =
        .ok ("SVG(withSrc: \"" ++ Percent.encode source ++ "\")") := by
      simp only [svgConstruction, given]
    have opening : "SVG(withSrc: \"" = "SVG" ++ "(withSrc: " ++ "\"" := by decide
    have closing : "\")" = "\"" ++ ")" := by decide
    change (svgConstruction inst).toOption = _
    rw [constructed, opening, closing]
    simp only [Except.toOption, sourceLiteral, if_true, String.append_assoc]

end Ios

namespace Compilation

variable {setup : Setup} {before after : Compiler}

/-- When the code of an iOS package finds an asset. In a run with the bindings of the library, the
source of every file and drawing that the walk meets is stored under its name, and every
construction of the instance passes a literal on. With what the runtime puts behind it, that literal
denotes the name exactly if the source is spelled out. -/
theorem ios_code_finds_asset_iff {program? : Option Program} {result : CompilationResult}
    (ios : setup.target = .ios) (shipped : setup.bindings = setup.target.bindings setup.installed)
    (ran : (run setup program?).Yields before result after) {inst : Instance} {source : String}
    (met : after.program.Meets inst)
    (isFile : after.program.graph.componentName inst = "File" ∨
      after.program.graph.componentName inst = "SVG")
    (value : inst.values.get? "src" = some (.text source)) (notBlank : source ≠ "") :
    let type := after.program.graph.componentName inst
    let key := assetName .ios type source
    key ∈ after.output.assets.keys ∧
    (∃ asset, Registers (setup.aroundRun before after.program) inst key asset) ∧
    ∃ literal,
      (∀ spec, Resolution.constructionOf? setup.target setup.bindings type inst spec =
        some (type ++ "(withSrc: " ++ literal ++ ")")) ∧
      ((∃ passed, Text.Swift.IsLiteral literal passed ∧ passed ++ Ios.extensionOf type = key) ↔
        Ios.IsSpelledOut type source) := by
  intro type key
  obtain ⟨stored, registers⟩ := exists_stored_of_run shipped ran met isFile value notBlank
  rw [ios] at stored registers
  refine ⟨stored, registers, Ios.sourceLiteral type source, ?_, Ios.names_alike_iff⟩
  intro spec
  rw [shipped, ios]
  exact Ios.constructionOf?_file setup.installed isFile value spec

/-! A page with a drawing from the given source. -/

namespace Drawn

def page : Instance := ⟨"home", "Page", ⟨[("logo", .text "mark")]⟩⟩

def drawing (source : String) : Instance := ⟨"mark", "SVG", ⟨[("src", .text source)]⟩⟩

def program (source : String) : Program where
  projectName := "Site"
  projectRoot := ⟨"/", ["site"]⟩
  graph := {
    types := Prefab.types.insert "Page" ⟨"Page", [⟨"logo", "SVG", 0⟩]⟩
    instances := ⟨[("home", page), ("mark", drawing source)]⟩ }
  roots := ⟨[("Page", "home")]⟩

def iosSetup (source : String) : Setup :=
  .ofProgram .ios ⟨"/", []⟩ (Target.bindings ⟨"/", []⟩ .ios) (.ok "localhost") (program source)

def files (source : String) : FileTree where
  entries := ⟨[
    (["ios"], .directory), (["ios", "core"], .directory), (["ios", "bindings"], .directory),
    (["ios", "core", "Tessera.swift"], .file ⟨#[]⟩),
    (["ios", "bindings", "SVG.swift"], .file ⟨#[]⟩),
    (["site"], .directory), (["site", source], .file ⟨#[0x58]⟩),
    (["site", "build"], .directory), (["site", "build", "tessera-Site-ios"], .directory),
    (["site", "build", "tessera-Site-ios", "Sources"], .directory),
    (["site", "build", "tessera-Site-ios", "Sources", "TesseraSite"], .directory),
    (["site", "build", "tessera-Site-ios", "Sources", "TesseraSite", "Static"], .directory)]⟩

def compiler (source : String) : Compiler :=
  (iosSetup source).compiler (program source) (files source)

theorem meets_drawing (source : String) : (program source).Meets (drawing source) := by
  have met : (program source).Meets page := ⟨page, List.mem_singleton_self _, .refl⟩
  have refers : (program source).graph.RefersAt page ⟨"logo", "SVG", 0⟩ (.text "mark") :=
    ⟨rfl, _, rfl, List.mem_cons_self, _, rfl, .here _⟩
  exact met.inner refers rfl

end Drawn

/-- The code finds a drawing whose name has no blank. -/
theorem ios_code_finds_logo :
    let setup := Drawn.iosSetup "logo.svg"
    let before := Drawn.compiler "logo.svg"
    setup.target = .ios ∧ setup.bindings = setup.target.bindings setup.installed ∧
    ∃ result after, (run setup none).Yields before result after ∧
      after.program.Meets (Drawn.drawing "logo.svg") ∧
      ∃ literal passed,
        (∀ spec, Resolution.constructionOf? setup.target setup.bindings "SVG"
          (Drawn.drawing "logo.svg") spec = some ("SVG(withSrc: " ++ literal ++ ")")) ∧
        Text.Swift.IsLiteral literal passed ∧ passed ++ ".html" ∈ after.output.assets.keys := by
  intro setup before
  obtain ⟨result, after, ran, program_eq, -⟩ := exists_run_of_takes
    (show setup.bindings = _ from rfl) (show before.program.hot = false from rfl)
    (by decide +kernel) (by decide +kernel) (by decide +kernel)
  have met : after.program.Meets (Drawn.drawing "logo.svg") :=
    program_eq ▸ Drawn.meets_drawing "logo.svg"
  have type_eq : after.program.graph.componentName (Drawn.drawing "logo.svg") = "SVG" := by
    rw [program_eq]
    rfl
  obtain ⟨stored, -, literal, constructed, found⟩ :=
    ios_code_finds_asset_iff rfl rfl ran met (.inr type_eq) rfl (by decide)
  rw [type_eq] at stored constructed found
  have spelledOut : Ios.IsSpelledOut "SVG" "logo.svg" := by decide +kernel
  obtain ⟨passed, denotes, same⟩ := found.mpr spelledOut
  exact ⟨rfl, rfl, result, after, ran, met, literal, passed, constructed, denotes, same ▸ stored⟩

/-- A drawing with a blank in its name is stored under the name with the blank, and the code looks
for a name in which the blank is escaped. -/
theorem ios_code_misses_logo_with_blank :
    let setup := Drawn.iosSetup "my logo.svg"
    let before := Drawn.compiler "my logo.svg"
    setup.target = .ios ∧ setup.bindings = setup.target.bindings setup.installed ∧
    ∃ result after, (run setup none).Yields before result after ∧
      after.program.Meets (Drawn.drawing "my logo.svg") ∧
      "my logo.svg.html" ∈ after.output.assets.keys ∧
      (∃ asset, Registers (setup.aroundRun before after.program) (Drawn.drawing "my logo.svg")
        "my logo.svg.html" asset) ∧
      ∃ literal,
        (∀ spec, Resolution.constructionOf? setup.target setup.bindings "SVG"
          (Drawn.drawing "my logo.svg") spec = some ("SVG(withSrc: " ++ literal ++ ")")) ∧
        ∀ passed, Text.Swift.IsLiteral literal passed →
          passed = "my%20logo.svg" ∧ passed ++ ".html" ≠ "my logo.svg.html" := by
  intro setup before
  obtain ⟨result, after, ran, program_eq, -⟩ := exists_run_of_takes
    (show setup.bindings = _ from rfl) (show before.program.hot = false from rfl)
    (by decide +kernel) (by decide +kernel) (by decide +kernel)
  have met : after.program.Meets (Drawn.drawing "my logo.svg") :=
    program_eq ▸ Drawn.meets_drawing "my logo.svg"
  have type_eq : after.program.graph.componentName (Drawn.drawing "my logo.svg") = "SVG" := by
    rw [program_eq]
    rfl
  have stored := exists_stored_of_run rfl ran met (.inr type_eq) rfl (by decide)
  rw [type_eq] at stored
  refine ⟨rfl, rfl, result, after, ran, met, stored.1, stored.2,
    Ios.sourceLiteral "SVG" "my logo.svg", ?_, ?_⟩
  · exact Ios.constructionOf?_file ⟨"/", []⟩ (.inr rfl) rfl
  · intro passed denotes
    have encoded : Text.Percent.encode "my logo.svg" = "my%20logo.svg" := by decide +kernel
    obtain rfl : passed = "my%20logo.svg" :=
      (Text.Swift.isLiteral_encode_iff.mp denotes).trans encoded
    exact ⟨rfl, by decide⟩

end Compilation

end DesignGraph
