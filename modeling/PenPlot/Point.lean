/-!
# Points and sizes

Whole pixels of 32 bits, to the right and downwards.
-/

namespace PenPlot

structure Point where
  x : Int32
  y : Int32
deriving DecidableEq, Repr

namespace Point

def zero : Point := ⟨0, 0⟩

end Point

/-- A width and a height; either may be zero or negative. -/
structure Size where
  width : Int32
  height : Int32
deriving DecidableEq, Repr

namespace Size

def square (side : Int32) : Size := ⟨side, side⟩

end Size

end PenPlot
