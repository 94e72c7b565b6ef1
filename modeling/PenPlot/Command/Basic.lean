import PenPlot.Command.Keyword
import PenPlot.Point

/-!
# Commands

A `Command` is a keyword with its argument values. `Command.args` takes it apart and `Command.ofArgs` puts it
together again (`ofArgs_args`); `Command.text` is the one line that it is written as.
-/

namespace PenPlot

inductive Command
  /-- Moves the origin to a point of the surface. -/
  | position (origin : Point)
  /-- Picks the color of what follows. -/
  | pen (color : Pen)
  /-- Draws a line from the origin, or one filled pixel at its end. -/
  | draw (target : Point)
  /-- Wipes the surface. -/
  | clear
  /-- Moves the origin back to the corner of the surface. -/
  | reset
  | rectangle (size : Size)
  | circle (radius : Int32)
  | triangle (a b c : Point)
  /-- Switches filling on or off. -/
  | fill (on : Bool)
deriving DecidableEq, Repr

namespace Command

def keyword : Command → Keyword
  | .position _ => .position
  | .pen _ => .pen
  | .draw _ => .draw
  | .clear => .clear
  | .reset => .reset
  | .rectangle _ => .rectangle
  | .circle _ => .circle
  | .triangle .. => .triangle
  | .fill _ => .fill

def args : (command : Command) → Args command.keyword.slots
  | .position p => (p.x, p.y, ())
  | .pen color => (color, ())
  | .draw p => (p.x, p.y, ())
  | .clear => ()
  | .reset => ()
  | .rectangle size => (size.width, size.height, ())
  | .circle radius => (radius, ())
  | .triangle a b c => (a.x, a.y, b.x, b.y, c.x, c.y, ())
  | .fill on => (on, ())

def ofArgs : (keyword : Keyword) → Args keyword.slots → Command
  | .position, (x, y, ()) => .position ⟨x, y⟩
  | .pen, (color, ()) => .pen color
  | .draw, (x, y, ()) => .draw ⟨x, y⟩
  | .clear, () => .clear
  | .reset, () => .reset
  | .rectangle, (width, height, ()) => .rectangle ⟨width, height⟩
  | .circle, (radius, ()) => .circle radius
  | .triangle, (x₁, y₁, x₂, y₂, x₃, y₃, ()) => .triangle ⟨x₁, y₁⟩ ⟨x₂, y₂⟩ ⟨x₃, y₃⟩
  | .fill, (on, ()) => .fill on

theorem ofArgs_args (command : Command) : ofArgs command.keyword command.args = command := by
  cases command <;> rfl

theorem keyword_ofArgs (keyword : Keyword) (values : Args keyword.slots) :
    (ofArgs keyword values).keyword = keyword := by
  cases keyword <;> rfl

/-- The command as a line of a program, in lower case and with single spaces. -/
def text (command : Command) : String :=
  command.keyword.name ++ command.args.text

end Command

end PenPlot
