import PenPlot.Svg.Document

/-!
# Devices

The surfaces of this library as one type, for whoever picks one while running.
-/

namespace PenPlot

inductive Device
  | recording (calls : Recording)
  | canvas (picture : Svg.Canvas)
deriving DecidableEq, Repr

namespace Device

instance : Surface Device where
  draw
    | .recording calls, call => .recording (Surface.draw calls call)
    | .canvas picture, call => .canvas (Surface.draw picture call)

/-- Only a canvas makes a document. -/
def document? : Device → Option String
  | .recording _ => none
  | .canvas picture => some picture.document

end Device

end PenPlot
