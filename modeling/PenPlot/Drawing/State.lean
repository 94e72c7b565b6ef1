import PenPlot.Command.Basic
import PenPlot.Drawing.Call

/-!
# What commands do

A command leaves a `State` to those behind it (`Command.next`) and draws by calls that depend on the state it
found (`Command.calls`). Surfaces play no part in either.
-/

namespace PenPlot

/-- The pen, whether shapes are filled, and the offset that the surface was given last. -/
structure State where
  pen : Pen := .black
  filling : Bool := false
  origin : Point := .zero
deriving DecidableEq, Repr

namespace State

/-- Where every program starts. -/
def fresh : State := {}

def paint (state : State) : Paint :=
  if state.filling then .fill state.pen.color else .stroke state.pen.color

end State

/-- Twice the radius, or the closest number of 32 bits. -/
def diameter (radius : Int32) : Int32 :=
  Int32.ofInt (max Int32.minValue.toInt (min (2 * radius.toInt) Int32.maxValue.toInt))

namespace Command

def next (command : Command) (state : State) : State :=
  match command with
  | .position origin => { state with origin := origin }
  | .pen color => { state with pen := color }
  | .reset => { state with origin := .zero }
  | .fill on => { state with filling := on }
  | .draw _ | .clear | .rectangle _ | .circle _ | .triangle .. => state

/-- Shapes start at the origin, which the surface already draws from. -/
def calls (command : Command) (state : State) : List Call :=
  match command with
  | .position origin => [.resetTransform, .translate origin]
  | .reset => [.resetTransform]
  | .clear => [.clear .white]
  | .draw target =>
    if state.filling then [.rect state.paint target (.square 1)]
    else [.line state.pen.color .zero target]
  | .rectangle size => [.rect state.paint .zero size]
  | .circle radius => [.ellipse state.paint .zero (.square (diameter radius))]
  | .triangle a b c => [.polygon state.paint [a, b, c]]
  | .pen _ | .fill _ => []

end Command

end PenPlot
