import PenPlot.Drawing.Surface
import PenPlot.Svg.Half

/-!
# The canvas

A `Canvas` turns drawing calls into elements with absolute coordinates: moves of the drawing add up in its
`offset` and are worked into every shape as it is drawn, so that elements need no transformation of their own.

Coordinates are held to 64 bits; a sum beyond them stays at the closest one. Rectangles and ellipses without
a positive width and height leave no element.
-/

namespace PenPlot.Svg

/-! ## Coordinates -/

/-- A point of the canvas. -/
structure Pixel where
  x : Int
  y : Int
deriving DecidableEq, Repr

/-- The closest number of 64 bits. -/
def clamp64 (i : Int) : Int :=
  max Int64.minValue.toInt (min i Int64.maxValue.toInt)

namespace Pixel

def zero : Pixel := ⟨0, 0⟩

/-- The pixel at `p` as seen from `offset`. -/
def shift (offset : Pixel) (p : Point) : Pixel :=
  ⟨clamp64 (p.x.toInt + offset.x), clamp64 (p.y.toInt + offset.y)⟩

def text (p : Pixel) : String :=
  Text.Decimal.ofInt p.x ++ "," ++ Text.Decimal.ofInt p.y

end Pixel

/-! ## Elements -/

inductive Element
  | line (color : Color) (start finish : Pixel)
  | rect (paint : Paint) (origin : Pixel) (width height : Int)
  | ellipse (paint : Paint) (centerX centerY radiusX radiusY : Half)
  | polygon (paint : Paint) (points : List Pixel)
deriving DecidableEq, Repr

namespace Element

/-- A line is outlined like any other shape. -/
def paint : Element → Paint
  | .line color .. => .stroke color
  | .rect paint .. => paint
  | .ellipse paint .. => paint
  | .polygon paint _ => paint

/-- The ellipse inside the rectangle from `origin` that is `width` by `height`. -/
def inscribed (paint : Paint) (origin : Pixel) (width height : Int) : Element :=
  .ellipse paint (.add (.ofInt origin.x) ⟨width⟩) (.add (.ofInt origin.y) ⟨height⟩) ⟨width⟩ ⟨height⟩

end Element

/-! ## The surface -/

/-- The size of a document, and what it shows before anything is drawn. -/
structure Options where
  width : UInt32 := 640
  height : UInt32 := 480
  background : Color := .white
deriving DecidableEq, Repr

structure Canvas where
  options : Options
  background : Color
  offset : Pixel
  elements : Array Element
deriving DecidableEq, Repr

namespace Canvas

def new (options : Options) : Canvas :=
  ⟨options, options.background, .zero, #[]⟩

def add (canvas : Canvas) (element : Element) : Canvas :=
  { canvas with elements := canvas.elements.push element }

/-- Draws a shape that is given by the rectangle around it, unless there is nothing in it. -/
def addBox (canvas : Canvas) (size : Size) (shape : (width height : Int) → Element) : Canvas :=
  if size.width.toInt ≤ 0 ∨ size.height.toInt ≤ 0 then canvas
  else canvas.add (shape size.width.toInt size.height.toInt)

def draw (canvas : Canvas) : Call → Canvas
  | .resetTransform => { canvas with offset := .zero }
  | .translate offset => { canvas with offset := canvas.offset.shift offset }
  | .clear color => { canvas with background := color, elements := #[] }
  | .line color start finish =>
    canvas.add (.line color (canvas.offset.shift start) (canvas.offset.shift finish))
  | .rect paint origin size => canvas.addBox size (.rect paint (canvas.offset.shift origin))
  | .ellipse paint origin size => canvas.addBox size (.inscribed paint (canvas.offset.shift origin))
  | .polygon paint points => canvas.add (.polygon paint (points.map canvas.offset.shift))

instance : Surface Canvas where
  draw := draw

section

variable (canvas : Canvas)

@[simp] theorem offset_add (element : Element) : (canvas.add element).offset = canvas.offset := rfl

@[simp] theorem elements_add (element : Element) :
    (canvas.add element).elements.toList = canvas.elements.toList ++ [element] := by
  simp [add]

@[simp] theorem offset_addBox (size : Size) (shape : (width height : Int) → Element) :
    (canvas.addBox size shape).offset = canvas.offset := by
  unfold addBox
  split <;> rfl

theorem elements_addBox (size : Size) (shape : (width height : Int) → Element) :
    (canvas.addBox size shape).elements.toList =
      canvas.elements.toList ++
        (if 0 < size.width.toInt ∧ 0 < size.height.toInt then
          some (shape size.width.toInt size.height.toInt) else none).toList := by
  unfold addBox
  by_cases h : 0 < size.width.toInt ∧ 0 < size.height.toInt
  · rw [if_neg (by omega), if_pos h, elements_add]
    rfl
  · rw [if_pos (by omega), if_neg h]
    simp

end

end Canvas

end PenPlot.Svg
