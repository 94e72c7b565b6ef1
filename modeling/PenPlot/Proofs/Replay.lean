import PenPlot.Device
import PenPlot.Proofs.Run

/-!
# Recording and playing back

The commands of a run make the same calls whatever they are drawn on, and leave the same state. So a run on
any surface is told by three things that are the same for all of them: how it ended, the state that is left,
and the calls, which the surface carries out in order (`Session.run_eq_drawAll`). A recording keeps these calls
behind those it had (`Recording.drawAll_eq`), and a device hands them on to what is in it.
-/

namespace PenPlot

/-- The state that commands leave when they are carried out in turn, the first one in `state`. -/
def stateFrom (state : State) : List Command → State
  | [] => state
  | command :: commands => stateFrom (command.next state) commands

/-! ## Surfaces -/

theorem Recording.drawAll_eq (recording : Recording) (calls : List Call) :
    Surface.drawAll recording calls = ⟨recording.calls ++ calls⟩ := by
  have h := recording.toList_drawAll calls
  rw [← Array.toList_appendList] at h
  exact congrArg Recording.mk (Array.toList_inj.mp h)

namespace Device

theorem drawAll_canvas (picture : Svg.Canvas) (calls : List Call) :
    Surface.drawAll (canvas picture) calls = canvas (Surface.drawAll picture calls) := by
  induction calls generalizing picture with
  | nil => rfl
  | cons call calls ih => exact ih (Surface.draw picture call)

theorem drawAll_recording (old : Recording) (calls : List Call) :
    Surface.drawAll (recording old) calls = recording (Surface.drawAll old calls) := by
  induction calls generalizing old with
  | nil => rfl
  | cons call calls ih => exact ih (Surface.draw old call)

end Device

/-! ## Runs -/

namespace Session

variable {σ : Type} [Surface σ]

theorem state_applyAll (session : Session σ) (commands : List Command) :
    (session.applyAll commands).state = stateFrom session.state commands := by
  induction commands generalizing session with
  | nil => rfl
  | cons command commands ih => exact ih (session.apply command)

theorem applyAll_eq (session : Session σ) (commands : List Command) :
    session.applyAll commands =
      ⟨stateFrom session.state commands,
        Surface.drawAll session.surface (callsFrom session.state commands)⟩ := by
  rw [← state_applyAll, ← surface_applyAll]

/-- Everything about a run but the surface is the same for all surfaces. -/
theorem run_eq_drawAll (state : State) (surface : σ) (lines : List String) :
    run ⟨state, surface⟩ lines =
      (firstFailureFrom? 1 lines, ⟨stateFrom state (leadingCommands lines),
        Surface.drawAll surface (callsFrom state (leadingCommands lines))⟩) := by
  rw [run_eq, applyAll_eq]

/-- **A recorded run can be played back.** Lines that are run on a canvas and on a recording, from one state,
end alike and leave one state. The recording keeps what it had and gets some calls behind it, and drawing these
on the canvas, one by one, gives what the run on the canvas left. A device does the same as what is in it. -/
theorem run_recorded (state : State) (canvas : Svg.Canvas) (recording : Recording)
    (lines : List String) :
    ∃ error? left calls,
      run ⟨state, canvas⟩ lines = (error?, ⟨left, Surface.drawAll canvas calls⟩) ∧
      run ⟨state, recording⟩ lines = (error?, ⟨left, ⟨recording.calls ++ calls⟩⟩) ∧
      run ⟨state, Device.canvas canvas⟩ lines =
        (error?, ⟨left, .canvas (Surface.drawAll canvas calls)⟩) ∧
      run ⟨state, Device.recording recording⟩ lines =
        (error?, ⟨left, .recording ⟨recording.calls ++ calls⟩⟩) ∧
      Surface.drawAll (Device.canvas canvas) calls = .canvas (Surface.drawAll canvas calls) := by
  refine ⟨firstFailureFrom? 1 lines, stateFrom state (leadingCommands lines),
    callsFrom state (leadingCommands lines), ?_, ?_, ?_, ?_, ?_⟩
  · exact run_eq_drawAll state canvas lines
  · rw [run_eq_drawAll, Recording.drawAll_eq]
  · rw [run_eq_drawAll, Device.drawAll_canvas]
  · rw [run_eq_drawAll, Device.drawAll_recording, Recording.drawAll_eq]
  · exact Device.drawAll_canvas canvas _

end Session

end PenPlot
