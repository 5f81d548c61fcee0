import DesignGraph.Graph.Basic

/-!
# Prefab types

The component types that every design can use without declaring them.
-/

namespace DesignGraph.Prefab

def file : ComponentType := ⟨"File", [⟨"src", "string", 0⟩, ⟨"type", "string", 0⟩]⟩

def color : ComponentType :=
  ⟨"Color", [⟨"h", "float", 0⟩, ⟨"s", "float", 0⟩, ⟨"l", "float", 0⟩, ⟨"a", "float", 0⟩]⟩

def svg : ComponentType := ⟨"SVG", [⟨"src", "string", 0⟩]⟩

def font : ComponentType := ⟨"Font", [⟨"file", "File", 0⟩, ⟨"name", "string", 0⟩]⟩

def typograph : ComponentType :=
  ⟨"Typograph", [⟨"font", "Font", 0⟩, ⟨"fontSize", "float", 0⟩, ⟨"color", "Color", 0⟩]⟩

def all : List ComponentType := [file, color, svg, font, typograph]

def types : OrderedMap String ComponentType :=
  OrderedMap.ofList (all.map fun type => (type.name, type))

end DesignGraph.Prefab
