import DesignGraph.Compile.Asset
import DesignGraph.Stock.File
import DesignGraph.Text.Percent
import DesignGraph.Value.Quoted

/-!
# Bindings of the iOS target

The prefab types have classes of their own.  A drawing is wrapped in a page that a web view can
display.
-/

namespace DesignGraph.Ios

/-- The page around a drawing. -/
def page (svg : String) : String :=
  Text.ofLines [
    "<!DOCTYPE html>",
    "<html>",
    "<head>",
    "<meta name=\"viewport\" content=\"width=device-width, initial-scale=1\">",
    "<style>html, body \x7b margin: 0; padding: 0; \x7d "
      ++ "svg \x7b width: 100%; height: 100%; \x7d</style>",
    "</head>",
    "<body>",
    svg,
    "</body>",
    "</html>"]

/-- The text of a file, its line ends unified, or why it cannot be read. -/
def readDrawing (tree : FileTree) (path : Path) : Except Fault String :=
  match tree.read path with
  | .error _ => .error .fileSystem
  | .ok content => match String.fromUTF8? content with
      | some s => .ok (String.ofList (Text.trim (Text.unifyLineEnds s.toList)))
      | none => .error .encoding

def svgBinder : AssetBinder := fun around inst _ => do
  match ← Asset.sourceOf? inst with
  | none => pure []
  | some source => do
      let path ← Asset.locate around.tree around.program.projectRoot source
      pure [.asset (source ++ ".html") (.text (page (← readDrawing around.tree path)))]

/-- The source of an instance, empty if it is not given. -/
def sourceValue (inst : Instance) : Value := (inst.values.get? "src").getD (.text "")

def fileConstruction (inst : Instance) : Except Fault String :=
  match (sourceValue inst).literal? .plain with
  | some s => .ok ("File(withSrc: " ++ s ++ ")")
  | none => .error .kind

def svgConstruction (inst : Instance) : Except Fault String :=
  match sourceValue inst with
  | .text s => .ok ("SVG(withSrc: \"" ++ Text.Percent.encode s ++ "\")")
  | _ => .error .kind

def sources (installed : Path) (name : String) : List Path :=
  [Stock.path installed .ios ("bindings/" ++ name ++ ".swift")]

/-- The bindings of the prefab types. -/
def bindings (installed : Path) : OrderedMap String Binding :=
  ⟨[("File", {
      sources := sources installed "File"
      imports := ["Foundation"]
      initializer := some fileConstruction
      assets := some Asset.fileBinder }),
    ("SVG", {
      sources := sources installed "SVG"
      imports := ["UIKit", "WebKit"]
      updatable := true
      initializer := some svgConstruction
      assets := some svgBinder }),
    ("Color", {
      sources := sources installed "Color"
      imports := ["UIKit"]
      updatable := true }),
    ("Font", {
      sources := sources installed "Font"
      imports := ["UIKit", "CoreText"] }),
    ("Typograph", {
      sources := sources installed "Typograph"
      imports := ["UIKit"] })]⟩

end DesignGraph.Ios
