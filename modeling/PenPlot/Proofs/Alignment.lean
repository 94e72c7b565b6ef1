import Mathlib.Data.List.Infix
import PenPlot.Proofs.Picture

/-!
# Origin and offset

A session on a canvas has its origin twice: in the state, and as the offset that the canvas adds to what it is
given. Nothing that can be done to a session (`Operation`) takes one without the other, also when it fails
half-way (`Session.Aligned`).

The origin has 32 bits, so an aligned offset has. It also has them between the calls of a command, and the
64 bits of a coordinate are never used up: every sum that the canvas makes is exact
(`Session.aligned_performAll`).
-/

namespace PenPlot

open Svg (Canvas Pixel)

/-! ## Sums of 64 bits -/

namespace Svg.Pixel

/-- Both coordinates have 32 bits. -/
structure Narrow (p : Pixel) : Prop where
  x : -2 ^ 31 ≤ p.x ∧ p.x < 2 ^ 31
  y : -2 ^ 31 ≤ p.y ∧ p.y < 2 ^ 31

/-- Nothing is cut off when `p` is added to the offset. -/
def Exact (offset : Pixel) (p : Point) : Prop :=
  offset.shift p = ⟨p.x.toInt + offset.x, p.y.toInt + offset.y⟩

theorem narrow_zero : zero.Narrow := by
  constructor <;> decide

theorem narrow_ofPoint (p : Point) : (ofPoint p).Narrow :=
  ⟨⟨p.x.le_toInt, p.x.toInt_lt⟩, ⟨p.y.le_toInt, p.y.toInt_lt⟩⟩

theorem Narrow.exact {offset : Pixel} (h : offset.Narrow) (p : Point) : offset.Exact p := by
  obtain ⟨⟨hx, hx'⟩, ⟨hy, hy'⟩⟩ := h
  have := p.x.le_toInt
  have := p.x.toInt_lt
  have := p.y.le_toInt
  have := p.y.toInt_lt
  have hsum : offset.shift p = offset.plus p := by
    refine shift_eq_plus ?_ ?_ <;> simp only [plus] <;> omega
  rw [Exact, hsum, plus, Int.add_comm, Int.add_comm offset.y]

end Svg.Pixel

/-- The points that a canvas adds its offset to when it draws the call. -/
def Call.points : Call → List Point
  | .resetTransform | .clear _ => []
  | .translate offset => [offset]
  | .line _ start finish => [start, finish]
  | .rect _ origin _ | .ellipse _ origin _ => [origin]
  | .polygon _ points => points

/-! ## Moments of a drawing -/

namespace Svg.Canvas

/-- The offset has 32 bits before the calls are drawn, and then behind each of them. -/
def StaysNarrow (canvas : Canvas) (calls : List Call) : Prop :=
  ∀ before, before <+: calls → (Surface.drawAll canvas before).offset.Narrow

section

variable {canvas : Canvas} {calls : List Call}

theorem StaysNarrow.nil (h : canvas.offset.Narrow) : canvas.StaysNarrow [] := by
  intro before hbefore
  rw [List.prefix_nil.mp hbefore]
  exact h

theorem StaysNarrow.cons {call : Call} (h : canvas.offset.Narrow)
    (hrest : (Surface.draw canvas call).StaysNarrow calls) : canvas.StaysNarrow (call :: calls) := by
  intro before hbefore
  rcases List.prefix_cons_iff.mp hbefore with rfl | ⟨rest, rfl, hprefix⟩
  · exact h
  · exact hrest rest hprefix

theorem StaysNarrow.append {more : List Call} (h : canvas.StaysNarrow calls)
    (hmore : (Surface.drawAll canvas calls).StaysNarrow more) : canvas.StaysNarrow (calls ++ more) := by
  intro before hbefore
  rcases List.prefix_or_prefix_of_prefix hbefore (List.prefix_append calls more) with hin | hbehind
  · exact h before hin
  · obtain ⟨rest, rfl⟩ := hbehind
    rw [Surface.drawAll_append]
    exact hmore rest ((List.prefix_append_right_inj calls).mp hbefore)

end

end Svg.Canvas

/-! ## Commands -/

namespace Session

/-- The canvas draws from the origin of the state. -/
def Aligned (session : Session Canvas) : Prop :=
  session.surface.offset = .ofPoint session.state.origin

theorem aligned_new (options : Svg.Options) : (new (Canvas.new options)).Aligned := rfl

section

variable {session : Session Canvas} (h : session.Aligned)

include h

theorem Aligned.narrow : session.surface.offset.Narrow := by
  rw [h]
  exact Pixel.narrow_ofPoint session.state.origin

theorem Aligned.apply (command : Command) : (session.apply command).Aligned :=
  offset_apply h command

theorem Aligned.applyAll (commands : List Command) : (session.applyAll commands).Aligned := by
  induction commands generalizing session with
  | nil => exact h
  | cons command commands ih => exact ih (h.apply command)

/-- Only a change of the origin takes two calls, and the offset is zero between them. -/
theorem Aligned.staysNarrow_calls (command : Command) :
    session.surface.StaysNarrow (command.calls session.state) := by
  have hend : (Surface.drawAll session.surface (command.calls session.state)).offset.Narrow :=
    (h.apply command).narrow
  cases command with
  | position origin => exact .cons h.narrow (.cons Pixel.narrow_zero (.nil hend))
  | pen | fill => exact .nil h.narrow
  | reset | clear | rectangle | circle | triangle => exact .cons h.narrow (.nil hend)
  | draw target =>
    have hone : ∃ call, Command.calls (.draw target) session.state = [call] := by
      by_cases hf : session.state.filling
      · exact ⟨_, if_pos hf⟩
      · exact ⟨_, if_neg hf⟩
    obtain ⟨call, hcall⟩ := hone
    rw [hcall] at hend ⊢
    exact .cons h.narrow (.nil hend)

theorem Aligned.staysNarrow_callsFrom (commands : List Command) :
    session.surface.StaysNarrow (callsFrom session.state commands) := by
  induction commands generalizing session with
  | nil => exact .nil h.narrow
  | cons command commands ih => exact (h.staysNarrow_calls command).append (ih (h.apply command))

end

end Session

/-! ## Operations -/

/-- What can be done to a session. -/
inductive Operation
  /-- Runs a line under a number; a line by itself has the number one. -/
  | runLine (number : Nat) (line : String)
  /-- Runs lines up to the first that is no command. -/
  | run (lines : List String)
  /-- Carries out a command. -/
  | apply (command : Command)
deriving DecidableEq, Repr

/-- The commands that the operation comes to. -/
def Operation.commands : Operation → List Command
  | .runLine _ line => leadingCommands [line]
  | .run lines => leadingCommands lines
  | .apply command => [command]

namespace Session

section

variable {σ : Type} [Surface σ]

/-- The session behind the operation, whether that failed or not. -/
def perform (session : Session σ) : Operation → Session σ
  | .runLine number line => (session.runLine number line).2
  | .run lines => (session.run lines).2
  | .apply command => session.apply command

def performAll (session : Session σ) (operations : List Operation) : Session σ :=
  operations.foldl perform session

theorem perform_eq (session : Session σ) (operation : Operation) :
    session.perform operation = session.applyAll operation.commands := by
  cases operation with
  | runLine number line =>
    show (session.runLine number line).2 = session.applyAll (leadingCommands [line])
    cases hline : Command.parse line with
    | ok command => rw [runLine_ok hline, leadingCommands_ok hline]; rfl
    | error fault => rw [runLine_error hline, leadingCommands_error hline]; rfl
  | run lines => exact congrArg Prod.snd (session.run_eq lines)
  | apply command => rfl

theorem performAll_eq (session : Session σ) (operations : List Operation) :
    session.performAll operations = session.applyAll (operations.flatMap Operation.commands) := by
  induction operations generalizing session with
  | nil => rfl
  | cons operation operations ih =>
    show (session.perform operation).performAll operations = _
    rw [ih, perform_eq, List.flatMap_cons, applyAll, applyAll, applyAll, List.foldl_append]

/-- A recording that starts empty has the calls of the operations. -/
theorem calls_performAll (state : State) (operations : List Operation) :
    (performAll ⟨state, Recording.empty⟩ operations).surface.calls.toList =
      callsFrom state (operations.flatMap Operation.commands) := by
  rw [performAll_eq, surface_applyAll, Recording.toList_drawAll]
  rfl

end

/-- **The canvas follows the origin.** From a session in which they agree, offset and origin agree after any
operations. As the same operations on a recording tell, the canvas has been through their calls one by one: its
offset had 32 bits at every moment, and no sum that a call made with it was cut off at 64 bits. -/
theorem aligned_performAll {session : Session Canvas} (h : session.Aligned)
    (operations : List Operation) :
    let after := session.performAll operations
    let calls := (performAll ⟨session.state, Recording.empty⟩ operations).surface.calls.toList
    after.surface.offset = .ofPoint after.state.origin ∧ after.surface.offset.Narrow ∧
    after.surface = Surface.drawAll session.surface calls ∧
    ∀ before, before <+: calls →
      let canvas := Surface.drawAll session.surface before
      canvas.offset.Narrow ∧
        ∀ call, before ++ [call] <+: calls → ∀ p ∈ call.points, canvas.offset.Exact p := by
  intro after calls
  have hcalls : calls = callsFrom session.state (operations.flatMap Operation.commands) :=
    calls_performAll session.state operations
  have hafter : after.Aligned := by
    have happly := h.applyAll (operations.flatMap Operation.commands)
    rwa [← performAll_eq] at happly
  have hdrawn : after.surface = Surface.drawAll session.surface calls := by
    rw [hcalls, ← surface_applyAll, ← performAll_eq]
  have hnarrow : session.surface.StaysNarrow calls := by
    rw [hcalls]
    exact h.staysNarrow_callsFrom _
  refine ⟨hafter, hafter.narrow, hdrawn, ?_⟩
  intro before hbefore canvas
  refine ⟨hnarrow before hbefore, ?_⟩
  intro call _ p _
  exact (hnarrow before hbefore).exact p

/-- From the far corner of the plane, through a program that stops half-way and a line that is refused. -/
theorem aligned_performAll_far :
    let session : Session Canvas :=
      ⟨{ origin := ⟨2147483647, -2147483648⟩ },
        { Canvas.new {} with offset := ⟨2147483647, -2147483648⟩ }⟩
    let operations : List Operation :=
      [.run ["draw 2147483647 -2147483648", "position -5 7", "fly 1 2", "reset"],
        .runLine 3 "pen purple", .apply (.circle 2000000000)]
    session.Aligned ∧ (session.performAll operations).Aligned ∧
      (session.performAll operations).surface.offset = ⟨-5, 7⟩ := by
  intro session operations
  have h : session.Aligned := by
    show (⟨2147483647, -2147483648⟩ : Pixel) = .ofPoint ⟨2147483647, -2147483648⟩
    decide
  refine ⟨h, (aligned_performAll h operations).1, ?_⟩
  decide

end Session

end PenPlot
