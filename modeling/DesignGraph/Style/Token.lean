import DesignGraph.Compile.Output
import DesignGraph.Naming

/-!
# Style tokens

What the style sheets are rendered from.  The scalar properties of components without a binding
become style variables named after component and property, in kebab form; they are added to the
variables that the asset binders have set, and replace those of the same name.
-/

namespace DesignGraph.Style

/-- The name of the variable or class for a property of a component. -/
def tokenName (component property : String) : String := Naming.joinKebab [component, property]

structure Promotion where
  styleVariables : OrderedMap String String
  /-- The variables that hold numbers. -/
  numbers : OrderedSet String := ⟨[]⟩

namespace Promotion

def addProperty (scalarTypes numberTypes : List String) (component : String) (p : Promotion)
    (entry : String × Property) : Promotion :=
  let (name, property) := entry
  if scalarTypes.contains property.type then
    let token := tokenName component name
    ⟨p.styleVariables.insert token property.initializer,
      if numberTypes.contains property.type then p.numbers.insert token else p.numbers⟩
  else p

def addComponent (scalarTypes numberTypes : List String) (p : Promotion)
    (entry : String × Component) : Promotion :=
  let (name, component) := entry
  if component.binding.isSome then p
  else component.spec.properties.entries.foldl (addProperty scalarTypes numberTypes name) p

end Promotion

/-- Promote the scalar properties of components without a binding to style variables. -/
def promote (components : OrderedMap String Component) (styleVariables : OrderedMap String String)
    (scalarTypes numberTypes : List String) : Promotion :=
  components.entries.foldl (Promotion.addComponent scalarTypes numberTypes) ⟨styleVariables, ∅⟩

/-- The types of a web package whose values a style sheet can hold. -/
def scalarTypes : List String := ["string", "number", "boolean"]

def numberTypes : List String := ["number"]

structure Variable where
  name : String
  value : String
  isNumber : Bool

structure Tokens where
  styleVariables : List Variable
  ruleGroups : List (String × StyleRules)
  fonts : List StyleRules

/-- The tokens of an output, whose variables then include the promoted ones. -/
def tokens (output : Output) : Tokens × Output :=
  let p := promote output.components output.styles.styleVariables scalarTypes numberTypes
  (⟨p.styleVariables.entries.map fun (name, value) => ⟨name, value, p.numbers.contains name⟩,
      output.styles.ruleGroups.entries, output.styles.fonts.values⟩,
    { output with styles := { output.styles with styleVariables := p.styleVariables } })

/-- The rules of a class or font face as pairs. -/
def rulesValue (rules : StyleRules) : Value :=
  .list (rules.entries.map fun (name, value) => .list [.text name, .text value])

/-- The data that the style sheet templates receive. -/
def Tokens.data (tokens : Tokens) : List (String × Value) :=
  let ofVariable (v : Variable) : Value := .map [(.text "name", .text v.name),
    (.text "value", .text v.value), (.text "is_number", .bool v.isNumber)]
  let ofGroup (g : String × StyleRules) : Value :=
    .map [(.text "name", .text g.1), (.text "rules", rulesValue g.2)]
  [("style_variables", .list (tokens.styleVariables.map ofVariable)),
    ("style_rule_groups", .list (tokens.ruleGroups.map ofGroup)),
    ("style_fonts", .list (tokens.fonts.map rulesValue))]

end DesignGraph.Style
