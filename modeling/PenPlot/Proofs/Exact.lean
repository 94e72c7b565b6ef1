import Mathlib.Algebra.Order.Ring.Int
import PenPlot.Drawing.State
import PenPlot.Svg.Canvas

/-!
# Where nothing is rounded

Coordinates are held to 64 bits, halves to 53 significant bits and diameters to 32 bits. A program has 32
bits for each number, so what it draws stays far inside: sums are exact there, and only a large diameter
is cut off.
-/

namespace PenPlot

theorem toInt_diameter (radius : Int32) :
    (diameter radius).toInt = max (-2 ^ 31) (min (2 * radius.toInt) (2 ^ 31 - 1)) := by
  have hlo := Int32.toInt_minValue
  have hhi := Int32.toInt_maxValue
  rw [diameter, Int32.toInt_ofInt_of_le (by omega) (by omega), hlo, hhi]

namespace Svg

theorem clamp64_of_mem {i : Int} (hlo : -2 ^ 63 ≤ i) (hhi : i < 2 ^ 63) : clamp64 i = i := by
  have hmin := Int64.toInt_minValue
  have hmax := Int64.toInt_maxValue
  unfold clamp64
  omega

theorem nearest53_of_lt {n : Nat} (h : n < 2 ^ 53) : nearest53 n = n := by
  have hbits : n.log2 + 1 - 53 = 0 := by
    rcases Nat.eq_zero_or_pos n with rfl | hpos
    · rfl
    · have := (Nat.log2_lt (Nat.ne_of_gt hpos)).mpr h
      omega
  simp [nearest53, hbits, Nat.mod_one]

namespace Half

theorem round_of_lt {h : Half} (hlt : h.twice.natAbs < 2 ^ 53) : h.round = h := by
  rw [round, nearest53_of_lt hlt, Int.sign_mul_natAbs]

theorem ofInt_of_lt {i : Int} (h : i.natAbs < 2 ^ 52) : ofInt i = ⟨2 * i⟩ :=
  round_of_lt (by dsimp only; omega)

theorem add_of_lt {a b : Half} (h : (a.twice + b.twice).natAbs < 2 ^ 53) :
    add a b = ⟨a.twice + b.twice⟩ :=
  round_of_lt h

end Half

/-- The center of an ellipse is exact while corner and center have 53 bits to themselves. -/
theorem Element.inscribed_eq (paint : Paint) {corner : Pixel} {width height : Int}
    (hx : corner.x.natAbs < 2 ^ 52) (hy : corner.y.natAbs < 2 ^ 52)
    (hcx : (2 * corner.x + width).natAbs < 2 ^ 53) (hcy : (2 * corner.y + height).natAbs < 2 ^ 53) :
    inscribed paint corner width height =
      .ellipse paint ⟨2 * corner.x + width⟩ ⟨2 * corner.y + height⟩ ⟨width⟩ ⟨height⟩ := by
  rw [inscribed, Half.ofInt_of_lt hx, Half.ofInt_of_lt hy, Half.add_of_lt hcx, Half.add_of_lt hcy]

/-- That is so while corner and size stay below `2 ^ 51`. -/
theorem Element.inscribed_of_lt (paint : Paint) {corner : Pixel} {width height : Int}
    (hx : corner.x.natAbs < 2 ^ 51) (hy : corner.y.natAbs < 2 ^ 51)
    (hw : width.natAbs < 2 ^ 51) (hh : height.natAbs < 2 ^ 51) :
    inscribed paint corner width height =
      .ellipse paint ⟨2 * corner.x + width⟩ ⟨2 * corner.y + height⟩ ⟨width⟩ ⟨height⟩ :=
  inscribed_eq paint (by omega) (by omega) (by omega) (by omega)

/-! ## Pixels around an origin -/

namespace Pixel

/-- The point itself, as a pixel. -/
def ofPoint (p : Point) : Pixel :=
  ⟨p.x.toInt, p.y.toInt⟩

theorem ofPoint_inj {p q : Point} : ofPoint p = ofPoint q ↔ p = q := by
  obtain ⟨x, y⟩ := p
  obtain ⟨x', y'⟩ := q
  simp only [ofPoint, Pixel.mk.injEq, Point.mk.injEq, Int32.toInt_inj]

/-- The pixel at `p` as seen from `offset`, in whole numbers without a bound. -/
def plus (offset : Pixel) (p : Point) : Pixel :=
  ⟨offset.x + p.x.toInt, offset.y + p.y.toInt⟩

/-- The same for an offset of 32 bits. -/
def around (origin p : Point) : Pixel :=
  ⟨origin.x.toInt + p.x.toInt, origin.y.toInt + p.y.toInt⟩

/-- A sum of 64 bits is not cut off. -/
theorem shift_eq_plus {offset : Pixel} {p : Point}
    (hx : -2 ^ 63 ≤ (offset.plus p).x ∧ (offset.plus p).x < 2 ^ 63)
    (hy : -2 ^ 63 ≤ (offset.plus p).y ∧ (offset.plus p).y < 2 ^ 63) : offset.shift p = offset.plus p := by
  rw [shift, Int.add_comm, Int.add_comm p.y.toInt]
  exact congrArg₂ Pixel.mk (clamp64_of_mem hx.1 hx.2) (clamp64_of_mem hy.1 hy.2)

theorem shift_ofPoint (origin p : Point) : shift (ofPoint origin) p = around origin p := by
  have hx := origin.x.le_toInt
  have hx' := origin.x.toInt_lt
  have hy := origin.y.le_toInt
  have hy' := origin.y.toInt_lt
  have := p.x.le_toInt
  have := p.x.toInt_lt
  have := p.y.le_toInt
  have := p.y.toInt_lt
  refine shift_eq_plus ?_ ?_ <;> simp only [plus, ofPoint] <;> omega

@[simp] theorem around_zero (origin : Point) : around origin .zero = ofPoint origin := by
  simp [around, ofPoint, Point.zero]

theorem zero_shift (p : Point) : shift .zero p = ofPoint p := by
  simpa [around, ofPoint, zero, Point.zero] using shift_ofPoint .zero p

end Pixel

end Svg

end PenPlot
