import Mathlib.Algebra.Order.Ring.Rat
import Mathlib.Tactic.Linarith
import PenPlot.Proofs.Moves
import PenPlot.Proofs.Precision

/-!
# Ellipses in their rectangles

A canvas gets an ellipse by the rectangle around it, and draws it by center and radius, in halves that are
rounded to 53 bits. As rational numbers these put the ellipse exactly into the rectangle that the same
arguments would draw, as long as there are at most `2 ^ 20` moves in force (`draw_ellipse`): the corner then
stays below `2 ^ 52`, and nothing is rounded.
-/

namespace PenPlot

open Svg (Canvas Element Half Options Pixel)

namespace Svg

/-! ## Halves as numbers -/

/-- The number that a half stands for. -/
def Half.value (h : Half) : ℚ :=
  h.twice / 2

/-- The half is below `2 ^ 52` and has at most 53 significant bits. -/
structure Half.Exact (h : Half) : Prop where
  small : |h.value| < 2 ^ 52
  fits : h.Fits

theorem Half.exact_of_lt {h : Half} (hlt : h.twice.natAbs < 2 ^ 53) : h.Exact where
  small := by
    have hlow : -2 ^ 53 < (h.twice : ℚ) := by exact_mod_cast (by omega : -2 ^ 53 < h.twice)
    have hhigh : (h.twice : ℚ) < 2 ^ 53 := by exact_mod_cast (by omega : h.twice < 2 ^ 53)
    rw [value, abs_lt]
    constructor <;> linarith
  fits := fits_of_lt hlt

/-! ## Touching the sides -/

/-- The ellipse touches the four sides of the rectangle from `corner` that is `width` by `height`. -/
structure Inscribed (corner : Pixel) (width height : Int) (centerX centerY radiusX radiusY : Half) :
    Prop where
  left : centerX.value - radiusX.value = corner.x
  top : centerY.value - radiusY.value = corner.y
  right : centerX.value + radiusX.value = corner.x + width
  bottom : centerY.value + radiusY.value = corner.y + height
  across : 2 * radiusX.value = width
  down : 2 * radiusY.value = height

theorem inscribed_halves (corner : Pixel) (width height : Int) :
    Inscribed corner width height ⟨2 * corner.x + width⟩ ⟨2 * corner.y + height⟩ ⟨width⟩ ⟨height⟩ := by
  constructor <;> simp only [Half.value] <;> push_cast <;> linarith

/-! ## Drawing -/

namespace Canvas

/-- Whatever the shape, a box is drawn if there is something in it. -/
theorem addBox_cases (canvas : Canvas) (size : Size) :
    ((size.width.toInt ≤ 0 ∨ size.height.toInt ≤ 0) ∧ ∀ shape, canvas.addBox size shape = canvas) ∨
      ∀ shape, canvas.addBox size shape = canvas.add (shape size.width.toInt size.height.toInt) := by
  by_cases h : size.width.toInt ≤ 0 ∨ size.height.toInt ≤ 0
  · exact .inl ⟨h, fun shape => if_pos h⟩
  · exact .inr fun shape => if_neg h

/-- `2 ^ 20` moves and one more point leave room for a size, to 53 bits. -/
theorem inscribed_plus {n : Nat} {offset : Pixel} (h : offset.Within n) (hn : n ≤ 2 ^ 20)
    (paint : Paint) (origin : Point) (size : Size) :
    ∃ centerX centerY radiusX radiusY,
      Element.inscribed paint (offset.plus origin) size.width.toInt size.height.toInt =
        .ellipse paint centerX centerY radiusX radiusY ∧
      Inscribed (offset.plus origin) size.width.toInt size.height.toInt centerX centerY radiusX radiusY ∧
      ∀ half ∈ [centerX, centerY, radiusX, radiusY, ⟨2 * (offset.plus origin).x⟩,
        ⟨2 * (offset.plus origin).y⟩], half.Exact := by
  obtain ⟨hx, hy⟩ := h.plus origin
  generalize offset.plus origin = corner at hx hy
  have hw := size.width.le_toInt
  have hw' := size.width.toInt_lt
  have hh := size.height.le_toInt
  have hh' := size.height.toInt_lt
  have hcx : (2 * corner.x + size.width.toInt).natAbs < 2 ^ 53 := by omega
  have hcy : (2 * corner.y + size.height.toInt).natAbs < 2 ^ 53 := by omega
  refine ⟨_, _, _, _, Element.inscribed_eq paint (by omega) (by omega) hcx hcy,
    inscribed_halves corner _ _, ?_⟩
  simp only [List.forall_mem_cons, List.not_mem_nil, false_imp_iff, implies_true, and_true]
  refine ⟨Half.exact_of_lt hcx, Half.exact_of_lt hcy, ?_, ?_, ?_, ?_⟩ <;>
    exact Half.exact_of_lt (by dsimp only; omega)

/-- **Ellipses are inscribed.** On a canvas with at most `2 ^ 20` moves in force, an ellipse and a rectangle
that are given by the same paint, point and size are both left out, if a side is not positive, or both drawn.
Then the ellipse has the paint of the rectangle and touches its four sides, in rational numbers; centers, radii
and the corner are halves below `2 ^ 52`, none of which is rounded. -/
theorem draw_ellipse (options : Options) {calls : List Call} (h : (moves calls).length ≤ 2 ^ 20)
    (paint : Paint) (origin : Point) (size : Size) :
    let canvas := Surface.drawAll (new options) calls
    let corner := (Pixel.total (moves calls)).plus origin
    let boxed := Surface.draw canvas (.rect paint origin size)
    let rounded := Surface.draw canvas (.ellipse paint origin size)
    ((size.width.toInt ≤ 0 ∨ size.height.toInt ≤ 0) ∧ boxed = canvas ∧ rounded = canvas) ∨
      ∃ centerX centerY radiusX radiusY,
        boxed = canvas.add (.rect paint corner size.width.toInt size.height.toInt) ∧
        rounded = canvas.add (.ellipse paint centerX centerY radiusX radiusY) ∧
        Inscribed corner size.width.toInt size.height.toInt centerX centerY radiusX radiusY ∧
        ∀ half ∈ [centerX, centerY, radiusX, radiusY, ⟨2 * corner.x⟩, ⟨2 * corner.y⟩], half.Exact := by
  intro canvas corner boxed rounded
  have hwithin := Pixel.within_total (moves calls)
  have hcorner : canvas.offset.shift origin = corner := by
    rw [offset_drawAll_new options (by omega)]
    exact hwithin.shift_eq (by omega) origin
  have hboxed : boxed = canvas.addBox size (.rect paint corner) := by
    rw [← hcorner]
    rfl
  have hrounded : rounded = canvas.addBox size (.inscribed paint corner) := by
    rw [← hcorner]
    rfl
  rw [hboxed, hrounded]
  obtain ⟨hempty, hnone⟩ | hboth := canvas.addBox_cases size
  · exact .inl ⟨hempty, hnone _, hnone _⟩
  · obtain ⟨centerX, centerY, radiusX, radiusY, heq, hinscribed, hexact⟩ :=
      inscribed_plus hwithin h paint origin size
    refine .inr ⟨centerX, centerY, radiusX, radiusY, hboth _, ?_, hinscribed, hexact⟩
    rw [hboth, heq]

/-- An odd size, far to the left: the center falls between two pixels. -/
theorem draw_ellipse_odd :
    let calls : List Call := [.translate ⟨2147483647, 2147483647⟩, .resetTransform,
      .translate ⟨-2147483648, 2147483647⟩, .translate ⟨-1, 1⟩]
    let canvas := Surface.drawAll (new {}) calls
    let rounded := Surface.draw canvas (.ellipse (.fill .white) ⟨-2147483648, 5⟩ ⟨3, 2147483647⟩)
    (moves calls).length ≤ 2 ^ 20 ∧
      ∃ centerX centerY radiusX radiusY,
        rounded = canvas.add (.ellipse (.fill .white) centerX centerY radiusX radiusY) ∧
        Inscribed ⟨-4294967297, 2147483653⟩ 3 2147483647 centerX centerY radiusX radiusY := by
  intro calls canvas rounded
  have hmoves : (moves calls).length ≤ 2 ^ 20 := by decide
  refine ⟨hmoves, ?_⟩
  obtain ⟨hempty, -⟩ | ⟨centerX, centerY, radiusX, radiusY, -, hdrawn, hinscribed, -⟩ :=
    draw_ellipse {} hmoves (.fill .white) ⟨-2147483648, 5⟩ ⟨3, 2147483647⟩
  · exact absurd hempty (by decide)
  · exact ⟨centerX, centerY, radiusX, radiusY, hdrawn, hinscribed⟩

end Canvas

end Svg

end PenPlot
