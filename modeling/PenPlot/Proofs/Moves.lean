import Mathlib.Data.List.DropRight
import Mathlib.Data.List.Induction
import PenPlot.Proofs.Exact

/-!
# Moves of a canvas

A canvas adds up the moves since the last reset of its transform (`moves`), and holds each sum to 64 bits. A
move has 32 bits, so that of up to `2 ^ 32 - 1` moves nothing is ever cut off, not even when one more point is
added (`Pixel.Within.shift_eq`): the lowest sum that a point can be given then is `-2 ^ 63` itself.

How often the canvas was moved before the last reset makes no difference to its offset (`offset_drawAll_new`).
-/

namespace PenPlot

open Svg (Canvas Pixel)

theorem Surface.drawAll_concat {σ : Type} [Surface σ] (surface : σ) (calls : List Call) (call : Call) :
    drawAll surface (calls ++ [call]) = draw (drawAll surface calls) call := by
  rw [drawAll_append, drawAll_cons, drawAll_nil]

/-! ## Moves in force -/

/-- The point that a call moves the drawing by. -/
def Call.move? : Call → Option Point
  | .translate offset => some offset
  | .resetTransform | .clear _ | .line .. | .rect .. | .ellipse .. | .polygon .. => none

/-- The moves behind the last reset. -/
def moves (calls : List Call) : List Point :=
  (calls.rtakeWhile (· ≠ .resetTransform)).filterMap Call.move?

section

variable (calls : List Call)

theorem moves_concat_reset : moves (calls ++ [.resetTransform]) = [] := by
  rw [moves, List.rtakeWhile_concat_neg _ _ _ (by simp), List.filterMap_nil]

theorem moves_concat {call : Call} (h : call ≠ .resetTransform) :
    moves (calls ++ [call]) = moves calls ++ call.move?.toList := by
  rw [moves, List.rtakeWhile_concat_pos _ _ _ (by simpa using h), List.filterMap_append]
  cases hmove : call.move? <;> simp [moves, hmove]

theorem length_moves_le_concat {call : Call} (h : call ≠ .resetTransform) :
    (moves calls).length ≤ (moves (calls ++ [call])).length := by
  rw [moves_concat calls h, List.length_append]
  exact Nat.le_add_right _ _

/-- At no moment are there more moves in force than there are moves at all. -/
theorem length_moves_le {calls before : List Call} (h : before <+: calls) :
    (moves before).length ≤ (calls.filterMap Call.move?).length := by
  have hbehind : before.rtakeWhile (· ≠ .resetTransform) <:+ before := List.rtakeWhile_suffix _ _
  exact ((hbehind.sublist.trans h.sublist).filterMap Call.move?).length_le

/-- Calls that only move are all in force. -/
theorem moves_map_translate (points : List Point) : moves (points.map .translate) = points := by
  induction points using List.reverseRecOn with
  | nil => rfl
  | append_singleton points p ih =>
    rw [List.map_append, List.map_singleton, moves_concat _ (by simp), ih]
    rfl

end

/-! ## Sums -/

namespace Svg.Pixel

/-- The sum of points, in whole numbers without a bound. -/
def total (points : List Point) : Pixel :=
  ⟨(points.map fun p => p.x.toInt).sum, (points.map fun p => p.y.toInt).sum⟩

/-- No further from zero than `n` points of 32 bits add up to. -/
structure Within (n : Nat) (p : Pixel) : Prop where
  x : -(n * 2 ^ 31) ≤ p.x ∧ p.x ≤ n * (2 ^ 31 - 1)
  y : -(n * 2 ^ 31) ≤ p.y ∧ p.y ≤ n * (2 ^ 31 - 1)

theorem total_concat (points : List Point) (p : Point) :
    total (points ++ [p]) = (total points).plus p := by
  simp [total, plus]

theorem total_replicate (n : Nat) (p : Point) :
    total (List.replicate n p) = ⟨n * p.x.toInt, n * p.y.toInt⟩ := by
  simp [total]

theorem Within.plus {n : Nat} {offset : Pixel} (h : offset.Within n) (p : Point) :
    (offset.plus p).Within (n + 1) := by
  obtain ⟨hx, hy⟩ := h
  have := p.x.le_toInt
  have := p.x.toInt_lt
  have := p.y.le_toInt
  have := p.y.toInt_lt
  constructor <;> simp only [Pixel.plus, Nat.cast_add, Nat.cast_one] <;> omega

theorem within_total (points : List Point) : (total points).Within points.length := by
  induction points using List.reverseRecOn with
  | nil => constructor <;> decide
  | append_singleton points p ih =>
    rw [total_concat, List.length_append]
    exact ih.plus p

/-- Below `2 ^ 32` moves there is always room for one more point. -/
theorem Within.shift_eq {n : Nat} {offset : Pixel} (h : offset.Within n) (hn : n ≤ 2 ^ 32 - 1)
    (p : Point) : offset.shift p = offset.plus p := by
  obtain ⟨hx, hy⟩ := h.plus p
  exact shift_eq_plus (by omega) (by omega)

end Svg.Pixel

/-! ## The offset -/

namespace Svg.Canvas

theorem offset_draw {canvas : Canvas} {calls : List Call} (h : canvas.offset = .total (moves calls))
    (hmoves : (moves calls).length ≤ 2 ^ 32 - 1) (call : Call) :
    (Surface.draw canvas call).offset = .total (moves (calls ++ [call])) := by
  by_cases hreset : call = .resetTransform
  · rw [hreset, moves_concat_reset]
    rfl
  · rw [moves_concat calls hreset]
    cases call with
    | resetTransform => exact absurd rfl hreset
    | translate p =>
      show canvas.offset.shift p = .total (moves calls ++ [p])
      rw [h, (Pixel.within_total _).shift_eq hmoves, Pixel.total_concat]
    | clear | line | rect | ellipse | polygon =>
      simpa [Surface.draw, draw, Call.move?] using h

/-- The offset is the sum of the moves in force, however many there were before the last reset. -/
theorem offset_drawAll_new (options : Options) {calls : List Call}
    (h : (moves calls).length ≤ 2 ^ 32 - 1) :
    (Surface.drawAll (new options) calls).offset = .total (moves calls) := by
  induction calls using List.reverseRecOn with
  | nil => rfl
  | append_singleton calls call ih =>
    rw [Surface.drawAll_concat]
    by_cases hreset : call = .resetTransform
    · rw [hreset, moves_concat_reset]
      rfl
    · have hbefore : (moves calls).length ≤ 2 ^ 32 - 1 :=
        Nat.le_trans (length_moves_le_concat calls hreset) h
      exact offset_draw (ih hbefore) hbefore call

end Svg.Canvas

end PenPlot
