import PenPlot.Svg.Canvas

/-!
# SVG documents

`Canvas.document` writes a canvas as SVG text: the background as a rectangle of the whole size, then the
elements in order, each as one tag on a line of its own. The attributes of a tag are sorted by name.
-/

namespace PenPlot.Svg

/-! ## Tags -/

structure Attribute where
  name : String
  value : String
deriving DecidableEq, Repr

namespace Attribute

def ofInt (name : String) (value : Int) : Attribute :=
  ⟨name, Text.Decimal.ofInt value⟩

def text (a : Attribute) : String :=
  " " ++ a.name ++ "=\"" ++ a.value ++ "\""

/-- Puts an attribute in front of the first one with a greater name. -/
def insert (a : Attribute) : List Attribute → List Attribute
  | [] => [a]
  | b :: bs => if a.name < b.name then a :: b :: bs else b :: insert a bs

def sort (attributes : List Attribute) : List Attribute :=
  attributes.foldr insert []

/-- The attributes as they stand in a tag. -/
def texts (attributes : List Attribute) : String :=
  String.join ((sort attributes).map text)

end Attribute

/-- A line with an empty element of that name. -/
def tagLine (name : String) (attributes : List Attribute) : String :=
  "<" ++ name ++ Attribute.texts attributes ++ "/>\n"

/-! ## Elements -/

/-- An outline is one pixel wide. -/
def paintAttributes : Paint → List Attribute
  | .fill color => [⟨"fill", color.text⟩]
  | .stroke color => [⟨"fill", "none"⟩, ⟨"stroke", color.text⟩, ⟨"stroke-width", "1"⟩]

namespace Element

def tagName : Element → String
  | .line .. => "line"
  | .rect .. => "rect"
  | .ellipse .. => "ellipse"
  | .polygon .. => "polygon"

def shapeAttributes : Element → List Attribute
  | .line _ start finish =>
    [.ofInt "x1" start.x, .ofInt "y1" start.y, .ofInt "x2" finish.x, .ofInt "y2" finish.y]
  | .rect _ origin width height =>
    [.ofInt "x" origin.x, .ofInt "y" origin.y, .ofInt "width" width, .ofInt "height" height]
  | .ellipse _ centerX centerY radiusX radiusY =>
    [⟨"cx", centerX.text⟩, ⟨"cy", centerY.text⟩, ⟨"rx", radiusX.text⟩, ⟨"ry", radiusY.text⟩]
  | .polygon _ points => [⟨"points", " ".intercalate (points.map Pixel.text)⟩]

def text (element : Element) : String :=
  tagLine element.tagName (element.shapeAttributes ++ paintAttributes element.paint)

end Element

/-! ## Documents -/

namespace Canvas

def backgroundText (canvas : Canvas) : String :=
  tagLine "rect"
    [.ofInt "x" 0, .ofInt "y" 0, ⟨"width", canvas.options.width.toNat.repr⟩,
      ⟨"height", canvas.options.height.toNat.repr⟩, ⟨"fill", canvas.background.text⟩]

def openingTag (options : Options) : String :=
  let width := options.width.toNat.repr
  let height := options.height.toNat.repr
  "<svg" ++ Attribute.texts
    [⟨"xmlns", "http://www.w3.org/2000/svg"⟩, ⟨"width", width⟩, ⟨"height", height⟩,
      ⟨"viewBox", "0 0 " ++ width ++ " " ++ height⟩] ++ ">\n"

def document (canvas : Canvas) : String :=
  openingTag canvas.options ++ canvas.backgroundText ++
    String.join (canvas.elements.toList.map Element.text) ++ "</svg>\n"

end Canvas

end PenPlot.Svg
