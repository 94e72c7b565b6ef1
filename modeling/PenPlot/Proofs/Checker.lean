import PenPlot.Check
import PenPlot.Proofs.Results
import PenPlot.Proofs.Run

/-!
# Checking and running

A line that is checked has one of three results (`checkLine_cases`): the command that a run takes it for,
the fault that a run finds in it, or that it is malformed. A whole program therefore passes only if it
also runs, and a check that stops elsewhere than the run stops earlier, at a malformed line
(`firstErrorFrom?_cases`). The end puts together what that means for programs and for single lines.
-/

namespace PenPlot

/-! ## One line -/

/-- The shape only decides between the result of reading the line and a malformed line. -/
theorem checkedCommand_cases (line : String) :
    checkedCommand line = Command.parse line ∨
      (∃ span, checkedCommand line = .error ⟨.malformedLine, span⟩) ∧
        ∀ name span, Command.parse line ≠ .error ⟨.invalidCommand name, span⟩ := by
  unfold checkedCommand
  cases LineShape.Rule.line.parse line with
  | ok pieces => exact .inl rfl
  | error pos =>
    cases Command.parse line with
    | ok command => exact .inr ⟨⟨_, rfl⟩, nofun⟩
    | error fault =>
      obtain ⟨reason, span⟩ := fault
      cases reason with
      | invalidCommand name => exact .inl rfl
      | malformedLine | missingArguments | unexpectedArgument | notAnInteger | invalidColor
      | invalidFillMode => exact .inr ⟨⟨_, rfl⟩, nofun⟩

theorem checkLine_eq_ok_iff {number : Nat} {line : String} {command : Command} :
    checkLine number line = .ok command ↔ checkedCommand line = .ok command :=
  mapError_eq_ok_iff

theorem checkLine_eq_error_iff {number : Nat} {line : String} {e : CheckError} :
    checkLine number line = .error e ↔
      ∃ fault, checkedCommand line = .error fault ∧ ⟨number, line, fault⟩ = e :=
  mapError_eq_error_iff

theorem checkLine_eq_fault_iff {number : Nat} {line : String} {fault : Fault} :
    checkLine number line = .error ⟨number, line, fault⟩ ↔ checkedCommand line = .error fault := by
  rw [checkLine_eq_error_iff]
  constructor
  · rintro ⟨fault', h, he⟩
    rw [h, (LineError.mk.inj he).2.2]
  · intro h
    exact ⟨fault, h, rfl⟩

theorem checkLine_cases (number : Nat) (line : String) :
    (∃ command, checkLine number line = .ok command ∧ Command.parse line = .ok command) ∨
    (∃ fault, checkLine number line = .error ⟨number, line, fault⟩ ∧
      Command.parse line = .error fault) ∨
    ∃ span, checkLine number line = .error ⟨number, line, .malformedLine, span⟩ := by
  rcases checkedCommand_cases line with h | ⟨⟨span, h⟩, -⟩
  · cases hparse : Command.parse line with
    | ok command =>
      refine .inl ⟨command, checkLine_eq_ok_iff.mpr ?_, rfl⟩
      rw [h, hparse]
    | error fault =>
      refine .inr (.inl ⟨fault, checkLine_eq_error_iff.mpr ⟨fault, ?_, rfl⟩, rfl⟩)
      rw [h, hparse]
  · exact .inr (.inr ⟨span, checkLine_eq_error_iff.mpr ⟨_, h, rfl⟩⟩)

theorem parse_of_checkLine_ok {number : Nat} {line : String} {command : Command}
    (h : checkLine number line = .ok command) : Command.parse line = .ok command := by
  rcases checkLine_cases number line with ⟨c, hc, hp⟩ | ⟨fault, hc, -⟩ | ⟨span, hc⟩
  · rw [h, Except.ok.injEq] at hc
    rw [hp, hc]
  · exact absurd hc (by simp [h])
  · exact absurd hc (by simp [h])

/-- An unknown command is reported as one whatever the shape of the line. -/
theorem checkLine_invalidCommand_iff {number : Nat} {line name : String} {span : Text.Span} :
    checkLine number line = .error ⟨number, line, .invalidCommand name, span⟩ ↔
      Command.parse line = .error ⟨.invalidCommand name, span⟩ := by
  rw [checkLine_eq_fault_iff]
  rcases checkedCommand_cases line with h | ⟨⟨span', h⟩, hparse⟩
  · rw [h]
  · rw [h]
    exact ⟨nofun, fun hfault => absurd hfault (hparse name span)⟩

/-! ## All lines -/

theorem checkFrom_eq_map (number : Nat) (lines : List String) :
    checkFrom number lines = (lines.zipIdx number).map fun line => checkLine line.2 line.1 := by
  induction lines generalizing number with
  | nil => rfl
  | cons line lines ih => rw [checkFrom, ih, List.zipIdx_cons, List.map_cons]

theorem firstErrorFrom?_ok {number : Nat} {line : String} {command : Command}
    (h : checkLine number line = .ok command) (lines : List String) :
    firstErrorFrom? number (line :: lines) = firstErrorFrom? (number + 1) lines := by
  simp [firstErrorFrom?, h]

theorem firstErrorFrom?_error {number : Nat} {line : String} {e : CheckError}
    (h : checkLine number line = .error e) (lines : List String) :
    firstErrorFrom? number (line :: lines) = some e := by
  simp [firstErrorFrom?, h]

theorem checkLine_of_firstErrorFrom? {number : Nat} {lines : List String}
    (h : firstErrorFrom? number lines = none) (i : Nat) (hi : i < lines.length) :
    ∃ command, checkLine (number + i) lines[i] = .ok command := by
  induction lines generalizing number i with
  | nil => cases hi
  | cons line lines ih =>
    cases hline : checkLine number line with
    | error e => rw [firstErrorFrom?_error hline] at h; cases h
    | ok command =>
      rw [firstErrorFrom?_ok hline] at h
      cases i with
      | zero => exact ⟨command, hline⟩
      | succ i =>
        have := ih h i (Nat.lt_of_succ_lt_succ hi)
        rwa [Nat.add_right_comm] at this

/-- How the first error of a check and the failure of a run can lie to each other. -/
theorem firstErrorFrom?_cases (number : Nat) (lines : List String) :
    (firstErrorFrom? number lines = none ∧ firstFailureFrom? number lines = none) ∨
    (∃ k text fault, firstErrorFrom? number lines = some ⟨k, text, fault⟩ ∧
      firstFailureFrom? number lines = some ⟨k, text, fault⟩) ∨
    ∃ e, firstErrorFrom? number lines = some e ∧ e.reason = .malformedLine ∧
      ∀ e', firstFailureFrom? number lines = some e' → e.number ≤ e'.number := by
  induction lines generalizing number with
  | nil => exact .inl ⟨rfl, rfl⟩
  | cons line lines ih =>
    rcases checkLine_cases number line with ⟨command, hc, hp⟩ | ⟨fault, hc, hp⟩ | ⟨span, hc⟩
    · rw [firstErrorFrom?_ok hc, firstFailureFrom?_ok hp]
      exact ih (number + 1)
    · rw [firstErrorFrom?_error hc, firstFailureFrom?_error hp]
      exact .inr (.inl ⟨number, line, fault, rfl, rfl⟩)
    · rw [firstErrorFrom?_error hc]
      exact .inr (.inr ⟨_, rfl, rfl, fun e' he' => le_number_of_firstFailureFrom? he'⟩)

theorem firstFailureFrom?_eq_none_of_check {number : Nat} {lines : List String}
    (h : firstErrorFrom? number lines = none) : firstFailureFrom? number lines = none := by
  rcases firstErrorFrom?_cases number lines with ⟨-, hrun⟩ | ⟨k, text, fault, hc, -⟩ | ⟨e, hc, -⟩
  · exact hrun
  · exact absurd hc (by simp [h])
  · exact absurd hc (by simp [h])

/-! ## A run of checked lines -/

section Session

variable {σ : Type} [Surface σ] (session : Session σ) {lines : List String}

/-- In a program that passes the check, every line is run as the command that it was checked as. -/
theorem runLine_of_firstError? (h : firstError? lines = none) (i : Nat) (hi : i < lines.length) :
    ∃ command, checkLine (i + 1) lines[i] = .ok command ∧
      (session.run (lines.take i)).2.runLine (i + 1) lines[i] =
        (.ok command, (session.run (lines.take i)).2.apply command) ∧
      (session.run (lines.take (i + 1))).2 = (session.run (lines.take i)).2.apply command := by
  have hparse := firstFailureFrom?_eq_none_iff.mp (firstFailureFrom?_eq_none_of_check h)
  obtain ⟨command, hcheck⟩ := checkLine_of_firstErrorFrom? h i hi
  rw [Nat.add_comm] at hcheck
  have hline := parse_of_checkLine_ok hcheck
  have hbefore : ∀ line ∈ lines.take i, ∃ c, Command.parse line = .ok c := fun line hmem =>
    hparse line (List.mem_of_mem_take hmem)
  refine ⟨command, hcheck, Session.runLine_ok hline _ _, ?_⟩
  rw [← List.take_append_getElem hi]
  exact session.snd_run_concat hbefore hline

theorem run_of_firstError? (h : firstError? lines = none) : (session.run lines).1 = none := by
  rw [Session.run_eq]
  exact firstFailureFrom?_eq_none_of_check h

theorem firstError?_of_run {e : RunError} (h : (session.run lines).1 = some e) :
    ∃ e', firstError? lines = some e' ∧ e'.number ≤ e.number ∧
      (e'.reason = .malformedLine ∨
        e'.number = e.number ∧ e'.text = e.text ∧ e'.fault = e.fault) := by
  rw [Session.run_eq] at h
  rcases firstErrorFrom?_cases 1 lines with ⟨-, hrun⟩ | ⟨k, text, fault, hc, hrun⟩ | ⟨e', hc, hm, hle⟩
  · exact absurd h (by simp [hrun])
  · rw [hrun, Option.some.injEq] at h
    subst h
    exact ⟨_, hc, Nat.le_refl k, .inr ⟨rfl, rfl, rfl⟩⟩
  · exact ⟨e', hc, hle e h, .inl hm⟩

theorem run_of_firstError?_ne_malformed {e : CheckError} (h : firstError? lines = some e)
    (hreason : e.reason ≠ .malformedLine) :
    (session.run lines).1 = some ⟨e.number, e.text, e.fault⟩ := by
  rw [Session.run_eq]
  rcases firstErrorFrom?_cases 1 lines with ⟨hc, -⟩ | ⟨k, text, fault, hc, hrun⟩ | ⟨e', hc, hm, -⟩
  · exact absurd h (by simp [firstError?, hc])
  · rw [firstError?, hc, Option.some.injEq] at h
    subst h
    exact hrun
  · rw [firstError?, hc, Option.some.injEq] at h
    subst h
    exact absurd hm hreason

/-- **The check against the run.** A program that passes the check runs through, each line as the command it
was checked as. A run that fails fails the check no later, and at the same fault unless a malformed line is in
front; every other error of a check is the failure of the run. Unknown commands are the same for both. -/
theorem check_run (lines : List String) :
    (firstError? lines = none →
      (session.run lines).1 = none ∧
      ∀ i (hi : i < lines.length), ∃ command, checkLine (i + 1) lines[i] = .ok command ∧
        (session.run (lines.take i)).2.runLine (i + 1) lines[i] =
          (.ok command, (session.run (lines.take i)).2.apply command) ∧
        (session.run (lines.take (i + 1))).2 = (session.run (lines.take i)).2.apply command) ∧
    (∀ e, (session.run lines).1 = some e →
      ∃ e', firstError? lines = some e' ∧ e'.number ≤ e.number ∧
        (e'.reason = .malformedLine ∨
          e'.number = e.number ∧ e'.text = e.text ∧ e'.fault = e.fault)) ∧
    (∀ e, firstError? lines = some e → e.reason ≠ .malformedLine →
      (session.run lines).1 = some ⟨e.number, e.text, e.fault⟩) ∧
    ∀ number line name span,
      checkLine number line = .error ⟨number, line, .invalidCommand name, span⟩ ↔
        (session.runLine number line).1 = .error ⟨number, line, .invalidCommand name, span⟩ := by
  refine ⟨?_, ?_, ?_, ?_⟩
  · intro h
    exact ⟨run_of_firstError? session h, runLine_of_firstError? session h⟩
  · intro e h
    exact firstError?_of_run session h
  · intro e h hreason
    exact run_of_firstError?_ne_malformed session h hreason
  · intro number line name span
    rw [checkLine_invalidCommand_iff, Session.fst_runLine_eq_error_iff]

end Session

end PenPlot
