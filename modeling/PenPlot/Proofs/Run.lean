import PenPlot.Program.Basic

/-!
# What a run comes to

The lines of a program are run in turn, and two things are all that a run makes of them: the commands on
the lines in front of the first line that is none (`leadingCommands`), and the error of that line
(`firstFailureFrom?`). A run carries out the former and ends in the latter (`runFrom_eq`). Its calls are
those of the commands (`callsFrom`), whatever the surface makes of them (`surface_applyAll`).
-/

namespace PenPlot

/-! ## Lines -/

/-- The commands on the lines in front of the first line that is none. -/
def leadingCommands : List String → List Command
  | [] => []
  | line :: lines =>
    match Command.parse line with
    | .ok command => command :: leadingCommands lines
    | .error _ => []

/-- The error of the first line that is no command, with the lines numbered from `number` on. -/
def firstFailureFrom? (number : Nat) : List String → Option RunError
  | [] => none
  | line :: lines =>
    match Command.parse line with
    | .ok _ => firstFailureFrom? (number + 1) lines
    | .error fault => some ⟨number, line, fault⟩

section Lines

variable {line : String}

theorem leadingCommands_ok {command : Command} (h : Command.parse line = .ok command)
    (lines : List String) : leadingCommands (line :: lines) = command :: leadingCommands lines := by
  simp [leadingCommands, h]

theorem leadingCommands_error {fault : Fault} (h : Command.parse line = .error fault)
    (lines : List String) : leadingCommands (line :: lines) = [] := by
  simp [leadingCommands, h]

theorem firstFailureFrom?_ok {command : Command} (h : Command.parse line = .ok command)
    (number : Nat) (lines : List String) :
    firstFailureFrom? number (line :: lines) = firstFailureFrom? (number + 1) lines := by
  simp [firstFailureFrom?, h]

theorem firstFailureFrom?_error {fault : Fault} (h : Command.parse line = .error fault)
    (number : Nat) (lines : List String) :
    firstFailureFrom? number (line :: lines) = some ⟨number, line, fault⟩ := by
  simp [firstFailureFrom?, h]

end Lines

/-- A failure has the number of one of the lines. -/
theorem le_number_of_firstFailureFrom? {number : Nat} {lines : List String} {e : RunError}
    (h : firstFailureFrom? number lines = some e) : number ≤ e.number := by
  induction lines generalizing number with
  | nil => cases h
  | cons line lines ih =>
    cases hline : Command.parse line with
    | ok command =>
      rw [firstFailureFrom?_ok hline] at h
      exact Nat.le_of_succ_le (ih h)
    | error fault =>
      rw [firstFailureFrom?_error hline, Option.some.injEq] at h
      subst h
      exact Nat.le_refl number

theorem firstFailureFrom?_eq_none_iff {number : Nat} {lines : List String} :
    firstFailureFrom? number lines = none ↔
      ∀ line ∈ lines, ∃ command, Command.parse line = .ok command := by
  induction lines generalizing number with
  | nil => simp [firstFailureFrom?]
  | cons line lines ih =>
    cases hline : Command.parse line with
    | ok command => simp [firstFailureFrom?_ok hline, hline, ih]
    | error fault => simp [firstFailureFrom?_error hline, hline]

theorem leadingCommands_append {lines : List String}
    (h : ∀ line ∈ lines, ∃ command, Command.parse line = .ok command) (more : List String) :
    leadingCommands (lines ++ more) = leadingCommands lines ++ leadingCommands more := by
  induction lines with
  | nil => rfl
  | cons line lines ih =>
    obtain ⟨command, hline⟩ := h line (by simp)
    rw [List.cons_append, leadingCommands_ok hline, leadingCommands_ok hline, List.cons_append,
      ih fun line' hmem => h line' (by simp [hmem])]

/-! ## Sessions -/

/-- The calls that commands make in turn, the first one in `state`. -/
def callsFrom (state : State) : List Command → List Call
  | [] => []
  | command :: commands => command.calls state ++ callsFrom (command.next state) commands

namespace Session

variable {σ : Type} [Surface σ]

/-- Carries out commands in order. -/
def applyAll (session : Session σ) (commands : List Command) : Session σ :=
  commands.foldl apply session

@[simp] theorem applyAll_nil (session : Session σ) : session.applyAll [] = session := rfl

@[simp] theorem applyAll_cons (session : Session σ) (command : Command) (commands : List Command) :
    session.applyAll (command :: commands) = (session.apply command).applyAll commands := rfl

theorem applyAll_concat (session : Session σ) (commands : List Command) (command : Command) :
    session.applyAll (commands ++ [command]) = (session.applyAll commands).apply command := by
  simp [applyAll, List.foldl_append]

theorem surface_applyAll (session : Session σ) (commands : List Command) :
    (session.applyAll commands).surface =
      Surface.drawAll session.surface (callsFrom session.state commands) := by
  induction commands generalizing session with
  | nil => rfl
  | cons command commands ih =>
    rw [applyAll_cons, ih, callsFrom, Surface.drawAll_append]
    rfl

theorem runLine_ok {line : String} {command : Command} (h : Command.parse line = .ok command)
    (session : Session σ) (number : Nat) :
    session.runLine number line = (.ok command, session.apply command) := by
  simp [runLine, h]

theorem runLine_error {line : String} {fault : Fault} (h : Command.parse line = .error fault)
    (session : Session σ) (number : Nat) :
    session.runLine number line = (.error ⟨number, line, fault⟩, session) := by
  simp [runLine, h]

theorem fst_runLine_eq_error_iff {session : Session σ} {number : Nat} {line : String} {fault : Fault} :
    (session.runLine number line).1 = .error ⟨number, line, fault⟩ ↔
      Command.parse line = .error fault := by
  cases h : Command.parse line with
  | ok command => simp [runLine_ok h]
  | error fault' => simp [runLine_error h]

theorem exists_fault_of_runLine_error {session : Session σ} {number : Nat} {line : String}
    {e : RunError} (h : (session.runLine number line).1 = .error e) :
    ∃ fault, Command.parse line = .error fault ∧ ⟨number, line, fault⟩ = e := by
  cases hparse : Command.parse line with
  | ok command =>
    rw [runLine_ok hparse] at h
    cases h
  | error fault =>
    rw [runLine_error hparse, Except.error.injEq] at h
    exact ⟨fault, rfl, h⟩

theorem runFrom_ok {line : String} {command : Command} (h : Command.parse line = .ok command)
    (session : Session σ) (number : Nat) (lines : List String) :
    session.runFrom number (line :: lines) = (session.apply command).runFrom (number + 1) lines := by
  rw [runFrom, runLine_ok h]

theorem runFrom_error {line : String} {fault : Fault} (h : Command.parse line = .error fault)
    (session : Session σ) (number : Nat) (lines : List String) :
    session.runFrom number (line :: lines) = (some ⟨number, line, fault⟩, session) := by
  rw [runFrom, runLine_error h]

theorem runFrom_eq (session : Session σ) (number : Nat) (lines : List String) :
    session.runFrom number lines =
      (firstFailureFrom? number lines, session.applyAll (leadingCommands lines)) := by
  induction lines generalizing session number with
  | nil => rfl
  | cons line lines ih =>
    cases h : Command.parse line with
    | ok command =>
      rw [runFrom_ok h, firstFailureFrom?_ok h, leadingCommands_ok h, applyAll_cons]
      exact ih _ _
    | error fault =>
      rw [runFrom_error h, firstFailureFrom?_error h, leadingCommands_error h, applyAll_nil]

theorem run_eq (session : Session σ) (lines : List String) :
    session.run lines = (firstFailureFrom? 1 lines, session.applyAll (leadingCommands lines)) :=
  session.runFrom_eq 1 lines

/-- One more command behind lines that are all commands. -/
theorem snd_run_concat (session : Session σ) {lines : List String}
    (h : ∀ line ∈ lines, ∃ command, Command.parse line = .ok command) {line : String}
    {command : Command} (hline : Command.parse line = .ok command) :
    (session.run (lines ++ [line])).2 = (session.run lines).2.apply command := by
  rw [run_eq, run_eq, leadingCommands_append h, leadingCommands_ok hline]
  exact applyAll_concat session _ command

end Session

/-! ## Programs -/

namespace Program

variable {σ : Type} [Surface σ]

/-- A run leaves the surface to which its commands have been applied, however it ends. -/
theorem snd_run (program : Program) (surface : σ) :
    (program.run surface).2 =
      ((Session.new surface).applyAll (leadingCommands program.lines)).surface := by
  rw [run, Session.run_eq]
  cases firstFailureFrom? 1 program.lines <;> rfl

theorem fst_run_of_none {program : Program} (h : firstFailureFrom? 1 program.lines = none)
    (surface : σ) :
    (program.run surface).1 =
      .ok ((Session.new surface).applyAll (leadingCommands program.lines)).state := by
  rw [run, Session.run_eq, h]

theorem fst_run_of_some {program : Program} {e : RunError}
    (h : firstFailureFrom? 1 program.lines = some e) (surface : σ) :
    (program.run surface).1 = .error e := by
  rw [run, Session.run_eq, h]

end Program

end PenPlot
