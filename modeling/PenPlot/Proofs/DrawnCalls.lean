import PenPlot.Proofs.Moves
import PenPlot.Proofs.Past

/-!
# What calls leave on a canvas

A canvas that has been drawn on can be told from the calls alone. Its background is the color of the last
clear, its offset is the sum of the moves in force, and each drawing call behind the last clear has left at
most one element, which it draws from the sum of the moves that were in force before it (`drawing`).

All of it is in whole numbers without a bound, and is just what the canvas has, as long as it is never moved
`2 ^ 32` times without a reset in between (`holds_drawAll`). Every call keeps this (`Holds.draw`).
-/

namespace PenPlot

open Svg (Canvas Element Options Pixel)

/-! ## Telling by the calls -/

namespace Call

/-- The color that a call clears the surface with. -/
def wipe? : Call → Option Color
  | .clear color => some color
  | .resetTransform | .translate _ | .line .. | .rect .. | .ellipse .. | .polygon .. => none

/-- The element that a call leaves on a canvas with this offset, if any. -/
def element? (offset : Pixel) : Call → Option Element
  | .line color start finish => some (.line color (offset.plus start) (offset.plus finish))
  | .rect paint origin size =>
    if 0 < size.width.toInt ∧ 0 < size.height.toInt then
      some (.rect paint (offset.plus origin) size.width.toInt size.height.toInt)
    else none
  | .ellipse paint origin size =>
    if 0 < size.width.toInt ∧ 0 < size.height.toInt then
      some (.inscribed paint (offset.plus origin) size.width.toInt size.height.toInt)
    else none
  | .polygon paint points => some (.polygon paint (points.map offset.plus))
  | .resetTransform | .translate _ | .clear _ => none

end Call

/-- The elements of the calls behind the last clear, in order. -/
def drawing (calls : List Call) : List Element :=
  ((withPast calls).rtakeWhile fun (_, call) => call.wipe?.isNone).filterMap fun (past, call) =>
    call.element? (.total (moves past))

theorem drawing_concat (calls : List Call) (call : Call) :
    drawing (calls ++ [call]) =
      if call.wipe?.isSome then []
      else drawing calls ++ (call.element? (.total (moves calls))).toList := by
  rw [drawing, withPast_concat]
  cases hwipe : call.wipe? with
  | some color =>
    rw [List.rtakeWhile_concat_neg _ _ _ (by simp [hwipe]), List.filterMap_nil]
    rfl
  | none =>
    rw [List.rtakeWhile_concat_pos _ _ _ (by simp [hwipe]), List.filterMap_append]
    cases h : call.element? (.total (moves calls)) <;> simp [drawing, h]

/-- Calls that only move leave nothing. -/
theorem drawing_map_translate (points : List Point) : drawing (points.map .translate) = [] := by
  induction points using List.reverseRecOn with
  | nil => rfl
  | append_singleton points p ih =>
    rw [List.map_append, List.map_singleton, drawing_concat, ih]
    rfl

/-- A clear drops what was there, and leaves the moves in force. -/
example : drawing [.translate ⟨5, 5⟩, .line .white .zero ⟨1, 1⟩, .clear .white, .translate ⟨-7, 0⟩,
      .rect (.stroke .white) ⟨1, 2⟩ ⟨3, 0⟩, .rect (.fill .white) ⟨1, 2⟩ ⟨3, 4⟩] =
    [.rect (.fill .white) ⟨-1, 7⟩ 3 4] := by
  decide

/-! ## One call -/

namespace Svg.Canvas

section

variable (canvas : Canvas) (call : Call)

theorem options_draw : (Surface.draw canvas call).options = canvas.options := by
  cases call with
  | rect paint origin size | ellipse paint origin size =>
    show (addBox canvas size _).options = canvas.options
    unfold addBox
    split <;> rfl
  | resetTransform | translate | clear | line | polygon => rfl

theorem background_draw :
    (Surface.draw canvas call).background = call.wipe?.getD canvas.background := by
  cases call with
  | rect paint origin size | ellipse paint origin size =>
    show (addBox canvas size _).background = canvas.background
    unfold addBox
    split <;> rfl
  | resetTransform | translate | clear | line | polygon => rfl

theorem elements_draw (hexact : ∀ p, canvas.offset.shift p = canvas.offset.plus p) :
    (Surface.draw canvas call).elements.toList =
      if call.wipe?.isSome then []
      else canvas.elements.toList ++ (call.element? canvas.offset).toList := by
  have hpoints : canvas.offset.shift = canvas.offset.plus := funext hexact
  cases call with
  | resetTransform | translate | clear =>
    simp [Surface.draw, draw, Call.wipe?, Call.element?]
  | line | polygon => simp [Surface.draw, draw, Call.wipe?, Call.element?, hpoints]
  | rect | ellipse =>
    simp [Surface.draw, draw, Call.wipe?, Call.element?, hpoints, elements_addBox]

end

/-! ## All calls -/

/-- The canvas is what the calls make of a new one. -/
structure Holds (canvas : Canvas) (options : Options) (calls : List Call) : Prop where
  offset : canvas.offset = .total (moves calls)
  elements : canvas.elements.toList = drawing calls
  background : canvas.background = (calls.filterMap Call.wipe?).getLast?.getD options.background
  options : canvas.options = options

theorem holds_new (options : Options) : (new options).Holds options [] where
  offset := rfl
  elements := rfl
  background := rfl
  options := rfl

theorem Holds.draw {canvas : Canvas} {options : Options} {calls : List Call}
    (h : canvas.Holds options calls) (hmoves : (moves calls).length ≤ 2 ^ 32 - 1) (call : Call) :
    (Surface.draw canvas call).Holds options (calls ++ [call]) where
  offset := offset_draw h.offset hmoves call
  elements := by
    have hexact : ∀ p, canvas.offset.shift p = canvas.offset.plus p := by
      rw [h.offset]
      exact (Pixel.within_total _).shift_eq hmoves
    rw [elements_draw canvas call hexact, drawing_concat, h.elements, h.offset]
  background := by
    rw [background_draw, h.background, List.filterMap_append]
    cases hwipe : call.wipe? <;> simp [hwipe]
  options := by rw [options_draw, h.options]

/-- **A canvas is told by its calls.** If there are never more than `2 ^ 32 - 1` moves in force, calls of any
kind and in any order leave a new canvas with its options, with the background of the last clear, with the exact
sum of the moves in force as its offset, and with the elements of the drawing calls behind the last clear. -/
theorem holds_drawAll (options : Options) {calls : List Call}
    (h : ∀ before, before <+: calls → (moves before).length ≤ 2 ^ 32 - 1) :
    (Surface.drawAll (new options) calls).Holds options calls := by
  induction calls using List.reverseRecOn with
  | nil => exact holds_new options
  | append_singleton calls call ih =>
    rw [Surface.drawAll_concat]
    have hfront : calls <+: calls ++ [call] := List.prefix_append calls [call]
    exact (ih fun before hbefore => h before (hbefore.trans hfront)).draw (h calls hfront) call

/-- As many moves as are allowed, and a point that ends at the lowest number of 64 bits. -/
theorem holds_drawAll_far :
    let far : List Point := List.replicate (2 ^ 32 - 1) ⟨-2147483648, 2147483647⟩
    let calls := far.map Call.translate ++ [.line .white ⟨-2147483648, 2147483647⟩ .zero]
    let canvas := Surface.drawAll (new {}) calls
    (∀ before, before <+: calls → (moves before).length ≤ 2 ^ 32 - 1) ∧
      canvas.offset = ⟨-2 ^ 63 + 2 ^ 31, 2 ^ 63 - 2 ^ 32 - 2 ^ 31 + 1⟩ ∧
      canvas.elements.toList =
        [.line .white ⟨-2 ^ 63, 2 ^ 63 - 2 ^ 32⟩ ⟨-2 ^ 63 + 2 ^ 31, 2 ^ 63 - 2 ^ 32 - 2 ^ 31 + 1⟩] := by
  intro far calls canvas
  have hlength : far.length = 2 ^ 32 - 1 := List.length_replicate
  have htotal : Pixel.total far = ⟨-2 ^ 63 + 2 ^ 31, 2 ^ 63 - 2 ^ 32 - 2 ^ 31 + 1⟩ := by
    rw [Pixel.total_replicate]
    decide
  -- the list itself is far too long to be looked at
  clear_value far
  have hall : calls.filterMap Call.move? = far := by
    rw [List.filterMap_append, List.filterMap_map]
    exact (List.append_nil _).trans List.filterMap_some
  have hmoves : moves calls = far := by
    show moves (far.map .translate ++ [_]) = far
    rw [moves_concat _ (by simp), moves_map_translate]
    exact List.append_nil far
  have hbound : ∀ before, before <+: calls → (moves before).length ≤ 2 ^ 32 - 1 := by
    intro before hbefore
    rw [← hlength, ← hall]
    exact length_moves_le hbefore
  have hcanvas : canvas.Holds {} calls := holds_drawAll {} hbound
  refine ⟨hbound, ?_, ?_⟩
  · rw [hcanvas.offset, hmoves, htotal]
  · rw [hcanvas.elements, drawing_concat, drawing_map_translate, moves_map_translate, htotal]
    decide

end Svg.Canvas

end PenPlot
