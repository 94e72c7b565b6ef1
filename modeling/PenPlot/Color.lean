import PenPlot.Text.Ascii

/-!
# Colors

A surface paints in any `Color`; a program only ever names one of the four pens. `ofName?_name` says that a
pen is found again under its own name.
-/

namespace PenPlot

/-- Red, green and blue from 0 to 255. -/
structure Color where
  red : UInt8
  green : UInt8
  blue : UInt8
deriving DecidableEq, Repr

namespace Color

def white : Color := ⟨255, 255, 255⟩

/-- The form that stylesheets use, `rgb(r,g,b)`. -/
def text (c : Color) : String :=
  "rgb(" ++ c.red.toNat.repr ++ "," ++ c.green.toNat.repr ++ "," ++ c.blue.toNat.repr ++ ")"

end Color

/-- The colors that a program can draw in. -/
inductive Pen
  | red
  | green
  | blue
  | black
deriving DecidableEq, Repr

namespace Pen

def all : List Pen :=
  [.red, .green, .blue, .black]

def name : Pen → String
  | .red => "red"
  | .green => "green"
  | .blue => "blue"
  | .black => "black"

/-- The pen of that name in any case. -/
def ofName? (s : String) : Option Pen :=
  all.find? fun pen => Text.sameLetters s pen.name

/-- Green is the dark green of stylesheets, at half brightness. -/
def color : Pen → Color
  | .red => ⟨255, 0, 0⟩
  | .green => ⟨0, 128, 0⟩
  | .blue => ⟨0, 0, 255⟩
  | .black => ⟨0, 0, 0⟩

theorem ofName?_name (pen : Pen) : ofName? pen.name = some pen := by
  cases pen <;> decide

end Pen

end PenPlot
