import Mathlib.Data.List.Forall2
import PenPlot.Proofs.Lines
import PenPlot.Proofs.Run
import PenPlot.Proofs.Strictness

/-!
# Saving and loading again

A program that is written and read again has the same lines, each without one carriage return at its end
(`lines_ofSource_source`). A program that was read from a text has such lines only where the text has two
carriage returns in front of a line feed or one at its very end; otherwise it comes back unchanged
(`ofSource_source_ofSource_iff`).

A carriage return at the end of a line is a blank that no reader sees. So the program that comes back reads
in the same way line by line (`SameReading`), and runs in the same way (`run_reloaded`).
-/

namespace PenPlot

open Text

/-! ## Lines without their carriage return -/

/-- A line without one carriage return at its end, if it has any. -/
def withoutReturn (line : String) : String :=
  String.ofList (dropReturn line.toList)

theorem withoutReturn_of_ne {line : String} (h : line.toList.getLast? ≠ some '\r') :
    withoutReturn line = line := by
  rw [withoutReturn, dropReturn_of_ne h, String.ofList_toList]

theorem withoutReturn_eq_self_iff {line : String} :
    withoutReturn line = line ↔ line.toList.getLast? ≠ some '\r' := by
  rw [← dropReturn_eq_self_iff, ← String.toList_inj, withoutReturn, String.toList_ofList]

theorem tokens_withoutReturn (line : String) : tokens (withoutReturn line) = tokens line := by
  unfold tokens withoutReturn
  rw [String.toList_ofList]
  rcases dropReturn_cases line.toList with h | ⟨-, h⟩
  · have hblank : ∀ c ∈ ['\r'], isBlank c = true := by simp [isBlank]
    conv_rhs => rw [h]
    rw [tokensAt_append_blanks hblank]
  · rw [h]

/-! ## Source texts -/

namespace Program

theorem newline_notMem_ofSource {source line : String} (h : line ∈ (ofSource source).lines) :
    '\n' ∉ line.toList := by
  obtain ⟨cs, hcs, rfl⟩ := List.mem_map.mp h
  rw [String.toList_ofList]
  exact newline_notMem_of_mem_cutLines hcs

theorem lines_ofSource_source {program : Program} (h : ∀ line ∈ program.lines, '\n' ∉ line.toList) :
    (ofSource program.source).lines = program.lines.map withoutReturn := by
  have hlists : ∀ cs ∈ program.lines.map String.toList, '\n' ∉ cs := by
    intro cs hcs
    obtain ⟨line, hline, rfl⟩ := List.mem_map.mp hcs
    exact h line hline
  have hcut : cutLines program.source.toList =
      (program.lines.map String.toList).map dropReturn := by
    rw [source, String.toList_ofList, cutLines_joinLines hlists]
  rw [ofSource, hcut, List.map_map, List.map_map]
  rfl

theorem lines_reloaded (source : String) :
    (ofSource (ofSource source).source).lines = (ofSource source).lines.map withoutReturn :=
  lines_ofSource_source fun _ => newline_notMem_ofSource

/-- **What comes back unchanged.** A text is read, written and read again to the same lines, unless there are
two carriage returns in front of a line feed, or one at the very end. -/
theorem ofSource_source_ofSource_iff (source : String) :
    ofSource (ofSource source).source = ofSource source ↔
      ¬ ['\r', '\r', '\n'] <:+: source.toList ∧ source.toList.getLast? ≠ some '\r' := by
  have hlines : ofSource (ofSource source).source = ofSource source ↔
      ∀ line ∈ (ofSource source).lines, line.toList.getLast? ≠ some '\r' := by
    have hkept := List.map_eq_map_iff (f := withoutReturn) (g := id) (l := (ofSource source).lines)
    rw [Program.mk.injEq]
    rw [List.map_id, ← lines_reloaded] at hkept
    simpa only [id, withoutReturn_eq_self_iff] using hkept
  have hreturn : (∃ line ∈ cutLines source.toList, line.getLast? = some '\r') ↔
      ['\r', '\r', '\n'] <:+: source.toList ∨ source.toList.getLast? = some '\r' :=
    exists_mem_cutLines_return_iff
  rw [hlines, ← not_or, ← hreturn]
  simp [ofSource]

/-- Two carriage returns in front of a line feed: the second one ends the line, and is lost with the next
reading. -/
theorem ofSource_source_ofSource_ne :
    ofSource (ofSource "clear\r\r\n").source ≠ ofSource "clear\r\r\n" := by
  decide

end Program

/-! ## The same reading -/

/-- Both lines read as one command, or are refused for one reason. -/
def SameReading (line line' : String) : Prop :=
  (∃ command, Command.parse line = .ok command ∧ Command.parse line' = .ok command) ∨
    ∃ fault fault', Command.parse line = .error fault ∧ Command.parse line' = .error fault' ∧
      fault.reason = fault'.reason

theorem sameReading_of_tokens {line line' : String} (h : tokens line = tokens line') :
    SameReading line line' := by
  cases hline : tokens line with
  | nil =>
    -- only the span of such a line tells how long it is
    have hline' : tokens line' = [] := h.symm.trans hline
    exact .inr ⟨_, _, Command.parse_of_tokens_eq_nil hline, Command.parse_of_tokens_eq_nil hline', rfl⟩
  | cons head words =>
    have hline' : tokens line' = head :: words := h.symm.trans hline
    rw [SameReading, Command.parse_of_tokens hline, Command.parse_of_tokens hline']
    cases Command.ofWords head words with
    | ok command => exact .inl ⟨command, rfl, rfl⟩
    | error fault => exact .inr ⟨fault, fault, rfl, rfl, rfl⟩

theorem sameReading_withoutReturn (line : String) : SameReading line (withoutReturn line) :=
  sameReading_of_tokens (tokens_withoutReturn line).symm

section Lines

variable {lines lines' : List String} (h : List.Forall₂ SameReading lines lines')

include h

theorem leadingCommands_congr : leadingCommands lines = leadingCommands lines' := by
  induction h with
  | nil => rfl
  | cons hline _ ih =>
    rcases hline with ⟨command, hp, hp'⟩ | ⟨fault, fault', hp, hp', -⟩
    · rw [leadingCommands_ok hp, leadingCommands_ok hp', ih]
    · rw [leadingCommands_error hp, leadingCommands_error hp']

/-- Lines that read the same fail together, at the same number and for the same reason. -/
theorem firstFailureFrom?_congr (number : Nat) :
    (firstFailureFrom? number lines = none ∧ firstFailureFrom? number lines' = none) ∨
      ∃ e e', firstFailureFrom? number lines = some e ∧ firstFailureFrom? number lines' = some e' ∧
        e.number = e'.number ∧ e.reason = e'.reason := by
  induction h generalizing number with
  | nil => exact .inl ⟨rfl, rfl⟩
  | cons hline _ ih =>
    rcases hline with ⟨command, hp, hp'⟩ | ⟨fault, fault', hp, hp', hreason⟩
    · rw [firstFailureFrom?_ok hp, firstFailureFrom?_ok hp']
      exact ih (number + 1)
    · rw [firstFailureFrom?_error hp, firstFailureFrom?_error hp']
      exact .inr ⟨_, _, rfl, rfl, rfl, hreason⟩

end Lines

/-! ## Checked lines -/

/-- A line that passes the check has no carriage return to lose. -/
theorem withoutReturn_of_checkLine_ok {number : Nat} {line : String} {command : Command}
    (h : checkLine number line = .ok command) : withoutReturn line = line := by
  have htidy : Tidy line.toList := tidy_of_wellShaped (wellShaped_of_checkLine_ok h)
  refine withoutReturn_of_ne fun hlast => ?_
  have hblank : isBlank '\r' = false := htidy.last '\r' hlast
  exact absurd hblank (by decide)

namespace Program

/-- **A program that is saved and loaded again.** It has as many lines, makes the same calls on every surface,
ends in the same state or fails at the same line for the same reason, and a line that passed the check passes
as the same command. -/
theorem run_reloaded (source : String) :
    let program := ofSource source
    let reloaded := ofSource program.source
    reloaded.lines.length = program.lines.length ∧
    (∃ calls, ∀ (σ : Type) [Surface σ] (surface : σ),
      (program.run surface).2 = Surface.drawAll surface calls ∧
      (reloaded.run surface).2 = Surface.drawAll surface calls) ∧
    (∀ (σ : Type) [Surface σ] (surface : σ),
      (∃ state, (program.run surface).1 = .ok state ∧ (reloaded.run surface).1 = .ok state) ∨
      ∃ e e', (program.run surface).1 = .error e ∧ (reloaded.run surface).1 = .error e' ∧
        e.number = e'.number ∧ e.reason = e'.reason) ∧
    ∀ (i number : Nat) (line : String) (command : Command), program.lines[i]? = some line →
      checkLine number line = .ok command →
      ∃ line', reloaded.lines[i]? = some line' ∧ checkLine number line' = .ok command := by
  intro program reloaded
  have hlines : reloaded.lines = program.lines.map withoutReturn := lines_reloaded source
  have hsame : List.Forall₂ SameReading program.lines reloaded.lines := by
    rw [hlines, List.forall₂_map_right_iff]
    exact List.forall₂_same.mpr fun line _ => sameReading_withoutReturn line
  have hcommands := leadingCommands_congr hsame
  refine ⟨by rw [hlines, List.length_map], ?_, ?_, ?_⟩
  · refine ⟨callsFrom .fresh (leadingCommands program.lines), ?_⟩
    intro σ _ surface
    rw [snd_run, snd_run, ← hcommands, Session.surface_applyAll]
    exact ⟨rfl, rfl⟩
  · intro σ _ surface
    rcases firstFailureFrom?_congr hsame 1 with ⟨hnone, hnone'⟩ | ⟨e, e', he, he', hat⟩
    · rw [fst_run_of_none hnone, fst_run_of_none hnone', ← hcommands]
      exact .inl ⟨_, rfl, rfl⟩
    · rw [fst_run_of_some he, fst_run_of_some he']
      exact .inr ⟨e, e', rfl, rfl, hat⟩
  · intro i number line command hline hcheck
    refine ⟨line, ?_, hcheck⟩
    rw [hlines, List.getElem?_map, hline, Option.map_some, withoutReturn_of_checkLine_ok hcheck]

end Program

end PenPlot
