import DesignGraph.Compile.Asset
import DesignGraph.Stock.File
import DesignGraph.Style.Color
import DesignGraph.Style.Token
import DesignGraph.Text.Percent
import DesignGraph.Value.Quoted

/-!
# Bindings of the web target

The prefab types have classes of their own.  Colors, fonts and typographs are also put into the
style sheets: a color that a property holds becomes a variable and two classes, a font a font face,
and a typograph a class.
-/

namespace DesignGraph.Web

/-- The address of a static asset in a style sheet. Unless assets are served hot, the application
serves them below `/tessera`. -/
def assetUrl (hotUrl : Option String) (name : String) : String :=
  "url(\"" ++ hotUrl.getD "/tessera" ++ "/" ++ Text.Percent.encode name ++ "\")"

/-- Text for a style sheet, between quotes. -/
def quotedValue (v : Value) : Except Fault String :=
  match v.literal? .ascii with
  | some s => .ok s
  | none => .error .kind

/-- Styles exist in web packages only. -/
def requireStyles (around : Surroundings) : Except Fault Unit :=
  if around.target = .web then .ok () else .error .missingMember

def colorBinder : AssetBinder := fun around inst reference => do
  match reference with
  | none => pure []
  | some reference => do
      let name := Style.tokenName reference.parentType reference.name
      let css ← Style.colorCss inst.values
      requireStyles around
      let use := "var(--" ++ name ++ ")"
      pure [.styleVariable name css,
        .ruleGroup (name ++ "-color") ⟨[("color", use)]⟩,
        .ruleGroup (name ++ "-background-color") ⟨[("background-color", use)]⟩]

def fontBinder : AssetBinder := fun around inst _ => do
  let file ← around.program.graph.instanceOf (← Asset.given inst "file")
  let name ← Asset.given inst "name"
  let family ← quotedValue name
  let source ← match ← Asset.given file "src" with
    | .text s => pure (assetUrl around.hotUrl s)
    | _ => throw .kind
  requireStyles around
  if !name.isKey then throw .kind
  pure [.font name ⟨[("font-family", family), ("src", source)]⟩]

def typographBinder : AssetBinder := fun around inst reference => do
  match reference with
  | none => pure []
  | some reference => do
      let graph := around.program.graph
      let font ← graph.instanceOf (← Asset.given inst "font")
      let family ← quotedValue (← Asset.given font "name")
      let size := match inst.values.get? "fontSize" with
        | some v => [("font-size", v.plain ++ "px")]
        | none => []
      let color ← match inst.values.get? "color" with
        | some v => do
            let css ← Style.colorCss (← graph.instanceOf v).values
            pure [("color", css)]
        | none => pure []
      requireStyles around
      pure [.ruleGroup (Style.tokenName reference.parentType reference.name)
        ⟨("font-family", family) :: size ++ color⟩]

def binding (installed : Path) (name : String) (binder : AssetBinder) : Binding :=
  { sources := [Stock.path installed .web ("bindings/" ++ name ++ ".js")]
    declarations := [Stock.path installed .web ("bindings/" ++ name ++ ".d.ts")]
    assets := some binder }

/-- The bindings of the prefab types. -/
def bindings (installed : Path) : OrderedMap String Binding :=
  ⟨[("File", binding installed "File" Asset.fileBinder),
    ("SVG", binding installed "SVG" Asset.fileBinder),
    ("Color", binding installed "Color" colorBinder),
    ("Font", binding installed "Font" fontBinder),
    ("Typograph", binding installed "Typograph" typographBinder)]⟩

end DesignGraph.Web
