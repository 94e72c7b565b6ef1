import PenPlot.Proofs.Alignment
import PenPlot.Proofs.Transcript

/-!
# Programs on a used canvas

A program starts in a fresh state, but on the canvas as it finds it, and a canvas keeps its offset from one
program to the next. So state and canvas need not agree at first. Since no call depends on the origin of the
state, what is drawn is drawn from where the programs before have left the offset: a program on a used canvas
draws as if it began with a command that puts the origin there (`Program.offset_run_used`,
`Program.elements_run_used`).

The state that a run returns tells the offset of the canvas only if the program has set the origin, or if the
offset was zero when it began (`run_runEach`).
-/

namespace PenPlot

open Svg (Element Pixel Canvas)

/-! ## The origin of a state -/

namespace State

theorem origin_lookBack (history : List Command) :
    (lookBack history).origin = (history.filterMap Command.origin?).getLast?.getD .zero := rfl

/-- Commands behind a history set the origin, or leave it where it was. -/
theorem origin_lookBack_append (history commands : List Command) :
    (lookBack (history ++ commands)).origin =
      (commands.filterMap Command.origin?).getLast?.getD (lookBack history).origin := by
  rw [origin_lookBack, origin_lookBack, List.filterMap_append, List.getLast?_append]
  cases (commands.filterMap Command.origin?).getLast? <;> rfl

theorem origin_lookBack_position (origin : Point) (commands : List Command) :
    (lookBack (.position origin :: commands)).origin =
      (commands.filterMap Command.origin?).getLast?.getD origin :=
  origin_lookBack_append [.position origin] commands

/-- A beginning at `origin` shows, unless it is where a fresh state begins or a command sets the origin. -/
theorem origin_lookBack_position_eq_iff {origin : Point} {commands : List Command} :
    (lookBack (.position origin :: commands)).origin = (lookBack commands).origin ↔
      origin = .zero ∨ ∃ command ∈ commands, command.origin?.isSome := by
  rw [origin_lookBack_position, origin_lookBack]
  have hset : (∃ command ∈ commands, command.origin?.isSome) ↔
      commands.filterMap Command.origin? ≠ [] := by
    simp [List.filterMap_eq_nil_iff, Option.isSome_iff_ne_none]
  rw [hset]
  -- with a last origin among the commands, neither side knows where it began
  cases hlast : (commands.filterMap Command.origin?).getLast? with
  | none => simp [List.getLast?_eq_none_iff.mp hlast]
  | some p =>
    have hne : commands.filterMap Command.origin? ≠ [] := by
      intro hnil
      rw [hnil] at hlast
      cases hlast
    simp [hne]

end State

theorem Command.next_origin (command : Command) (state : State) (origin : Point) :
    ∃ origin', command.next { state with origin := origin } =
      { command.next state with origin := origin' } := by
  cases command with
  | position target => exact ⟨target, rfl⟩
  | reset => exact ⟨.zero, rfl⟩
  | pen | fill | draw | clear | rectangle | circle | triangle => exact ⟨origin, rfl⟩

theorem Command.calls_origin (command : Command) (state : State) (origin : Point) :
    command.calls { state with origin := origin } = command.calls state := by
  cases command <;> rfl

/-- The surface draws from the origin, so calls need not say where it is. -/
theorem callsFrom_origin (state : State) (origin : Point) (commands : List Command) :
    callsFrom { state with origin := origin } commands = callsFrom state commands := by
  induction commands generalizing state origin with
  | nil => rfl
  | cons command commands ih =>
    obtain ⟨origin', hnext⟩ := command.next_origin state origin
    rw [callsFrom, callsFrom, command.calls_origin, hnext, ih]

theorem stateFrom_fresh (commands : List Command) : stateFrom .fresh commands = .lookBack commands :=
  stateFrom_eq_behind .fresh commands

/-! ## Sessions on a used canvas -/

namespace Session

/-- The session is where the commands of `history` leave a canvas that had the elements `old`. -/
structure Continues (session : Session Canvas) (old : List Element) (history : List Command) :
    Prop where
  state : session.state = .lookBack history
  aligned : session.Aligned
  elements : session.surface.elements.toList =
    (if .clear ∈ history then [] else old) ++ picture history

variable {session : Session Canvas} {old : List Element} {history : List Command}

theorem Continues.apply (h : session.Continues old history) (command : Command) :
    (session.apply command).Continues old (history ++ [command]) where
  state := by rw [State.lookBack_concat, ← h.state]; rfl
  aligned := h.aligned.apply command
  elements := by
    rw [elements_apply h.aligned, picture_concat, h.elements, h.state]
    by_cases hclear : command = .clear
    · simp [hclear]
    · simp [hclear, Ne.symm hclear]

theorem Continues.applyAll (h : session.Continues old history) (commands : List Command) :
    (session.applyAll commands).Continues old (history ++ commands) := by
  induction commands generalizing session history with
  | nil => rwa [List.append_nil]
  | cons command commands ih =>
    rw [List.append_cons]
    exact ih (h.apply command)

/-- A canvas with an offset is as good as one where a command has put the origin there. -/
theorem continues_position {canvas : Canvas} {origin : Point} (h : canvas.offset = .ofPoint origin) :
    (⟨{ origin := origin }, canvas⟩ : Session Canvas).Continues canvas.elements.toList
      [.position origin] where
  state := rfl
  aligned := h
  elements := (List.append_nil _).symm

end Session

/-! ## Programs -/

namespace Program

/-- A fresh state draws like one with any other origin. -/
theorem snd_run_origin {σ : Type} [Surface σ] (program : Program) (surface : σ) (origin : Point) :
    (program.run surface).2 =
      (Session.applyAll ⟨{ origin := origin }, surface⟩ (leadingCommands program.lines)).surface := by
  rw [snd_run, Session.surface_applyAll, Session.surface_applyAll]
  exact congrArg _ (callsFrom_origin .fresh origin _).symm

section

variable {canvas : Canvas} {origin : Point} (h : canvas.offset = .ofPoint origin) (program : Program)

include h

theorem offset_run_used :
    (program.run canvas).2.offset =
      .ofPoint (State.lookBack (.position origin :: leadingCommands program.lines)).origin := by
  have hend := (Session.continues_position h).applyAll (leadingCommands program.lines)
  rw [program.snd_run_origin canvas origin, hend.aligned, hend.state]
  rfl

theorem elements_run_used :
    (program.run canvas).2.elements.toList =
      (if .clear ∈ leadingCommands program.lines then [] else canvas.elements.toList) ++
        picture (.position origin :: leadingCommands program.lines) := by
  have hend := (Session.continues_position h).applyAll (leadingCommands program.lines)
  rw [program.snd_run_origin canvas origin, hend.elements]
  simp

end

theorem state_of_run_ok {σ : Type} [Surface σ] {program : Program} {surface : σ} {state : State}
    (h : (program.run surface).1 = .ok state) : state = .lookBack (leadingCommands program.lines) := by
  cases hfails : firstFailureFrom? 1 program.lines with
  | none =>
    rw [fst_run_of_none hfails, Session.state_applyAll, Except.ok.injEq] at h
    exact h.symm.trans (stateFrom_fresh _)
  | some e =>
    rw [fst_run_of_some hfails] at h
    cases h

end Program

/-! ## Programs one after the other -/

/-- Runs programs in turn on one surface, each from a fresh state, whether those before it failed or not. -/
def runEach {σ : Type} [Surface σ] (surface : σ) (programs : List Program) : σ :=
  programs.foldl (fun surface program => (program.run surface).2) surface

theorem runEach_concat {σ : Type} [Surface σ] (surface : σ) (programs : List Program)
    (program : Program) :
    runEach surface (programs ++ [program]) = (program.run (runEach surface programs)).2 := by
  simp [runEach, List.foldl_append]

/-- The commands that the programs carry out when they are run. -/
def carriedOut (programs : List Program) : List Command :=
  programs.flatMap fun program => leadingCommands program.lines

theorem offset_runEach (options : Svg.Options) (programs : List Program) :
    (runEach (Canvas.new options) programs).offset =
      .ofPoint (State.lookBack (carriedOut programs)).origin := by
  induction programs using List.reverseRecOn with
  | nil => exact Session.aligned_new options
  | append_singleton programs program ih =>
    have hcommands : carriedOut (programs ++ [program]) =
        carriedOut programs ++ leadingCommands program.lines := by
      simp [carriedOut]
    rw [runEach_concat, program.offset_run_used ih, hcommands, State.origin_lookBack_position,
      State.origin_lookBack_append]

/-- **What a run on a used canvas comes to.** The programs before leave the offset at `left`, the origin that
was set last by any of them. A program then draws as if it began by putting the origin there, and so ends with
the offset. The state that it returns tells of its own commands only: its origin is the offset of the canvas
exactly if `left` is zero or one of them sets the origin. -/
theorem run_runEach (options : Svg.Options) (earlier : List Program) (program : Program) :
    let canvas := runEach (Canvas.new options) earlier
    let left := (State.lookBack (carriedOut earlier)).origin
    let commands := leadingCommands program.lines
    let after := (program.run canvas).2
    canvas.offset = .ofPoint left ∧
    after.offset = .ofPoint (State.lookBack (.position left :: commands)).origin ∧
    after.elements.toList =
      (if .clear ∈ commands then [] else canvas.elements.toList) ++ picture (.position left :: commands) ∧
    ∀ state, (program.run canvas).1 = .ok state → state = .lookBack commands ∧
      (after.offset = .ofPoint state.origin ↔
        left = .zero ∨ ∃ command ∈ commands, command.origin?.isSome) := by
  intro canvas left commands after
  have hleft : canvas.offset = .ofPoint left := offset_runEach options earlier
  have hoffset := program.offset_run_used hleft
  refine ⟨hleft, hoffset, program.elements_run_used hleft, ?_⟩
  intro state hok
  have hstate : state = .lookBack commands := Program.state_of_run_ok hok
  refine ⟨hstate, ?_⟩
  have hpoints : after.offset = .ofPoint state.origin ↔
      (State.lookBack (.position left :: commands)).origin = (State.lookBack commands).origin := by
    rw [hstate, hoffset]
    exact Pixel.ofPoint_inj
  rw [hpoints, State.origin_lookBack_position_eq_iff]

/-- The second program returns a state without an origin, and yet draws from where the first one went. -/
theorem run_runEach_shifted :
    let program := Program.ofSource "draw 1 1\n"
    let canvas := runEach (Canvas.new {}) [Program.ofSource "position 5 5\n"]
    (program.run canvas).1 = .ok .fresh ∧
      (program.run canvas).2.offset ≠ .ofPoint State.fresh.origin ∧
      (program.run canvas).2.elements ≠ (program.run (Canvas.new {})).2.elements := by
  decide

end PenPlot
