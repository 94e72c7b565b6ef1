import PenPlot.Color
import PenPlot.Point
import PenPlot.Text.Decimal

/-!
# Drawing calls

A program draws by `Call`s, which a surface carries out one by one. Coordinates are relative to the
offset of the surface at that moment, and sizes may be zero or negative: what to make of them is up to
the surface.

`Call.text` writes a call on one line.
-/

namespace PenPlot

def Point.text (p : Point) : String :=
  Text.Decimal.ofInt p.x.toInt ++ "," ++ Text.Decimal.ofInt p.y.toInt

def Size.text (size : Size) : String :=
  Text.Decimal.ofInt size.width.toInt ++ "x" ++ Text.Decimal.ofInt size.height.toInt

/-- Whether a shape is filled or only outlined, and in which color. -/
inductive Paint
  | fill (color : Color)
  | stroke (color : Color)
deriving DecidableEq, Repr

namespace Paint

def color : Paint → Color
  | .fill color => color
  | .stroke color => color

def verb : Paint → String
  | .fill _ => "fill"
  | .stroke _ => "stroke"

end Paint

inductive Call
  /-- Drops all offsets. -/
  | resetTransform
  /-- Moves what is drawn from here on, on top of earlier offsets. -/
  | translate (offset : Point)
  /-- Paints over the whole surface. -/
  | clear (color : Color)
  | line (color : Color) (start finish : Point)
  | rect (paint : Paint) (origin : Point) (size : Size)
  /-- The ellipse that touches the four sides of a rectangle. -/
  | ellipse (paint : Paint) (origin : Point) (size : Size)
  | polygon (paint : Paint) (points : List Point)
deriving DecidableEq, Repr

namespace Call

/-- A shape that is given by the rectangle around it. -/
def boxText (paint : Paint) (shape : String) (origin : Point) (size : Size) : String :=
  paint.verb ++ "_" ++ shape ++ " " ++ paint.color.text ++ " at " ++ origin.text ++ " size " ++ size.text

def text : Call → String
  | .resetTransform => "reset_transform"
  | .translate offset =>
    "translate " ++ Text.Decimal.ofInt offset.x.toInt ++ " " ++ Text.Decimal.ofInt offset.y.toInt
  | .clear color => "clear " ++ color.text
  | .line color start finish =>
    "stroke_line " ++ color.text ++ " " ++ start.text ++ " -> " ++ finish.text
  | .rect paint origin size => boxText paint "rect" origin size
  | .ellipse paint origin size => boxText paint "ellipse" origin size
  | .polygon paint points =>
    paint.verb ++ "_polygon " ++ paint.color.text ++ String.join (points.map fun p => " " ++ p.text)

end Call

end PenPlot
