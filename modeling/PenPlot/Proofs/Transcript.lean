import Mathlib.Data.List.Forall2
import PenPlot.Proofs.Past
import PenPlot.Proofs.Picture
import PenPlot.Proofs.Replay

/-!
# The calls of a program

What a program asks of its surface can be told by looking back. Each command makes calls of its own
(`Command.Makes`), by the pen and the filling that the commands before it have set last, or that the program
began with. Commands that set something draw nothing, shapes make one call each, and coordinates go on as they
are written. A run makes these calls one after the other and leaves the state behind all commands (`run_calls`),
whatever it is run on.
-/

namespace PenPlot

/-! ## One command -/

/-- The calls of a command that finds `state`. -/
inductive Command.Makes (state : State) : Command → List Call → Prop
  | position (p : Point) : Makes state (.position p) [.resetTransform, .translate p]
  | reset : Makes state .reset [.resetTransform]
  | clear : Makes state .clear [.clear ⟨255, 255, 255⟩]
  | pen (color : Pen) : Makes state (.pen color) []
  | fill (on : Bool) : Makes state (.fill on) []
  | line (p : Point) : state.filling = false →
      Makes state (.draw p) [.line state.pen.color .zero p]
  | pixel (p : Point) : state.filling = true →
      Makes state (.draw p) [.rect (.fill state.pen.color) p ⟨1, 1⟩]
  | rectangle (size : Size) : Makes state (.rectangle size) [.rect state.paint .zero size]
  /-- Twice the radius, or the nearest number of 32 bits. -/
  | circle (radius d : Int32) : d.toInt = max (-2 ^ 31) (min (2 * radius.toInt) (2 ^ 31 - 1)) →
      Makes state (.circle radius) [.ellipse state.paint .zero ⟨d, d⟩]
  | triangle (a b c : Point) : Makes state (.triangle a b c) [.polygon state.paint [a, b, c]]

theorem Command.makes_calls (state : State) (command : Command) :
    command.Makes state (command.calls state) := by
  cases command with
  | position p => exact .position p
  | reset => exact .reset
  | clear => exact .clear
  | pen color => exact .pen color
  | fill on => exact .fill on
  | rectangle size => exact .rectangle size
  | circle radius => exact .circle radius (diameter radius) (toInt_diameter radius)
  | triangle a b c => exact .triangle a b c
  | draw p =>
    unfold calls
    cases hfilling : state.filling with
    | false => exact .line p hfilling
    | true =>
      have hpaint : state.paint = .fill state.pen.color := if_pos hfilling
      show Makes state (.draw p) [.rect state.paint p (.square 1)]
      rw [hpaint]
      exact .pixel p hfilling

/-! ## All commands -/

section

variable (state : State) (commands : List Command) (command : Command)

theorem stateFrom_concat :
    stateFrom state (commands ++ [command]) = command.next (stateFrom state commands) := by
  induction commands generalizing state with
  | nil => rfl
  | cons head commands ih => exact ih (head.next state)

theorem callsFrom_concat :
    callsFrom state (commands ++ [command]) =
      callsFrom state commands ++ command.calls (stateFrom state commands) := by
  induction commands generalizing state with
  | nil => simp [callsFrom, stateFrom]
  | cons head commands ih =>
    rw [List.cons_append, callsFrom, ih, callsFrom, stateFrom, List.append_assoc]

/-- What commands leave, step by step, is what looking back tells. -/
theorem stateFrom_eq_behind : stateFrom state commands = state.behind commands := by
  induction commands using List.reverseRecOn with
  | nil => rfl
  | append_singleton commands command ih => rw [stateFrom_concat, ih, State.behind_concat]

theorem callsFrom_eq_flatMap :
    callsFrom state commands =
      (withPast commands).flatMap fun (past, command) => command.calls (state.behind past) := by
  induction commands using List.reverseRecOn with
  | nil => rfl
  | append_singleton commands command ih =>
    rw [callsFrom_concat, ih, stateFrom_eq_behind, withPast_concat, List.flatMap_append,
      List.flatMap_singleton]

end

/-- **The calls of a run.** With the commands in front of the first line that is none, a run makes the calls of
each of them in turn, where pen and filling are those set last before it, and those of the initial state if
there are none. A recording gets these calls behind what it had, and every other surface carries them out. The
run leaves pen, filling and origin as the commands have set them last, and all else as it was. -/
theorem run_calls (initial : State) (lines : List String) :
    let commands := leadingCommands lines
    ∃ parts : List (List Call),
      List.Forall₂ (fun (past, command) part => command.Makes (initial.behind past) part)
        (withPast commands) parts ∧
      (∀ recording : Recording, (Session.run ⟨initial, recording⟩ lines).2 =
        ⟨initial.behind commands, ⟨recording.calls ++ parts.flatten⟩⟩) ∧
      ∀ (σ : Type) [Surface σ] (surface : σ), (Session.run ⟨initial, surface⟩ lines).2 =
        ⟨initial.behind commands, Surface.drawAll surface parts.flatten⟩ := by
  intro commands
  let parts := (withPast commands).map fun (past, command) => command.calls (initial.behind past)
  have hcalls : callsFrom initial commands = parts.flatten := by
    rw [callsFrom_eq_flatMap, List.flatMap_def]
  have hrun : ∀ (σ : Type) [Surface σ] (surface : σ), (Session.run ⟨initial, surface⟩ lines).2 =
      ⟨initial.behind commands, Surface.drawAll surface parts.flatten⟩ := by
    intro σ _ surface
    rw [Session.run_eq_drawAll, stateFrom_eq_behind, hcalls]
  refine ⟨parts, ?_, ?_, hrun⟩
  · rw [List.forall₂_map_right_iff, List.forall₂_same]
    rintro ⟨past, command⟩ -
    exact command.makes_calls (initial.behind past)
  · intro recording
    rw [hrun, Recording.drawAll_eq]

end PenPlot
