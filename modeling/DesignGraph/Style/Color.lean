import DesignGraph.Fault
import DesignGraph.Number.Shortest

/-!
# Colors in style sheets

A color is written as `hsla` with its hue as an angle and its saturation and lightness as
percentages, each rounded to four decimal places and without a fraction when whole.  Hue,
saturation and lightness default to zero, the opacity to one.

A channel given as text counts for the numeral that remains after the text is repeated as often as
its scale says; the opacity has no scale.
-/

namespace DesignGraph.Style

/-- A channel enlarged to its scale. -/
def enlarge (scale : Nat) : Value → Except Fault Value
  | .int n => .ok (.int (n * scale))
  | .bool b => .ok (.int (if b then scale else 0))
  | .float x => .ok (.float (x.mul (Binary64.ofInt scale)))
  | .text s => .ok (.text (String.join (List.replicate scale s)))
  | _ => .error .kind

/-- The floating-point number of a channel. -/
def channelNumber : Value → Except Fault Binary64
  | .int n =>
      let x := Binary64.ofInt n
      if x.isFinite then .ok x else .error .overflow
  | .bool b => .ok (Binary64.ofInt (if b then 1 else 0))
  | .float x => .ok x
  | .text s => match Numeral.read? s with
      | some x => .ok x
      | none => .error .content
  | _ => .error .kind

def channelText (v : Value) : Except Fault String := do
  match (← channelNumber v).roundPlaces 4 with
  | .nan => throw .content
  | .infinite _ => throw .overflow
  | x => pure (match x.whole? with
      | some n => toString n
      | none => x.toText)

/-- The color with the given channel values. -/
def colorCss (values : OrderedMap String Value) : Except Fault String := do
  let channel (name : String) (fallback : Int) : Value := (values.get? name).getD (.int fallback)
  let hue ← channelText (← enlarge 360 (channel "h" 0))
  let saturation ← channelText (← enlarge 100 (channel "s" 0))
  let lightness ← channelText (← enlarge 100 (channel "l" 0))
  let opacity ← channelText (channel "a" 1)
  pure ("hsla(" ++ hue ++ ", " ++ saturation ++ "%, " ++ lightness ++ "%, " ++ opacity ++ ")")

end DesignGraph.Style
