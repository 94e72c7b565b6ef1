import PenPlot.Proofs.Run

/-!
# The first failure

A run fails if there is a line that is no command, and then at the first of them (`FirstFailure`). It ends
as if that line and all behind it were not there: the lines in front, run by themselves, go through and
leave the same session, and whatever stands behind could be anything else.
-/

namespace PenPlot

/-- The line `k`, counted from zero, is the first that is no command: it reads `text`, and `fault` is what is
wrong with it. -/
structure FirstFailure (lines : List String) (k : Nat) (text : String) (fault : Fault) : Prop where
  line : lines[k]? = some text
  parse : Command.parse text = .error fault
  before : ∀ line ∈ lines.take k, ∃ command, Command.parse line = .ok command

/-- A line is a command or has a fault. -/
theorem exists_error_iff {lines : List String} :
    (∃ line ∈ lines, ∃ fault, Command.parse line = .error fault) ↔
      ¬ ∀ line ∈ lines, ∃ command, Command.parse line = .ok command := by
  have hline : ∀ line, (∃ fault, Command.parse line = .error fault) ↔
      ¬ ∃ command, Command.parse line = .ok command := by
    intro line
    cases Command.parse line <;> simp
  simp only [hline, Classical.not_forall, exists_prop]

theorem exists_firstFailure {lines : List String}
    (h : ∃ line ∈ lines, ∃ fault, Command.parse line = .error fault) :
    ∃ k text fault, FirstFailure lines k text fault := by
  induction lines with
  | nil =>
    obtain ⟨line, hmem, -⟩ := h
    cases hmem
  | cons head lines ih =>
    cases hhead : Command.parse head with
    | error fault => exact ⟨0, head, fault, rfl, hhead, by simp⟩
    | ok command =>
      -- the bad line is not the first one, so there is a first bad line among the others
      obtain ⟨line, hmem, fault, hline⟩ := h
      have hne : line ≠ head := by
        rintro rfl
        rw [hhead] at hline
        cases hline
      have hrest : line ∈ lines := (List.mem_cons.mp hmem).resolve_left hne
      obtain ⟨k, text, fault', hk⟩ := ih ⟨line, hrest, fault, hline⟩
      refine ⟨k + 1, text, fault', ⟨hk.line, hk.parse, fun line' hline' => ?_⟩⟩
      rw [List.take_succ_cons, List.mem_cons] at hline'
      rcases hline' with rfl | hline'
      · exact ⟨command, hhead⟩
      · exact hk.before line' hline'

theorem firstFailureFrom?_append {before : List String}
    (h : ∀ line ∈ before, ∃ command, Command.parse line = .ok command) (number : Nat)
    (lines : List String) :
    firstFailureFrom? number (before ++ lines) = firstFailureFrom? (number + before.length) lines := by
  induction before generalizing number with
  | nil => rfl
  | cons line before ih =>
    obtain ⟨command, hline⟩ := h line (by simp)
    rw [List.cons_append, firstFailureFrom?_ok hline, ih (fun line' hmem => h line' (by simp [hmem])),
      List.length_cons]
    congr 1
    omega

namespace Session

variable {σ : Type} [Surface σ] (session : Session σ)

theorem fst_run_eq_none_iff {lines : List String} :
    (session.run lines).1 = none ↔ ∀ line ∈ lines, ∃ command, Command.parse line = .ok command := by
  rw [run_eq]
  exact firstFailureFrom?_eq_none_iff

/-- Behind lines that are all commands, a line that is none ends the run and does nothing else. -/
theorem run_append_of_error {before : List String}
    (h : ∀ line ∈ before, ∃ command, Command.parse line = .ok command) {line : String} {fault : Fault}
    (hline : Command.parse line = .error fault) (others : List String) :
    session.run (before ++ line :: others) =
      (some ⟨before.length + 1, line, fault⟩, (session.run before).2) := by
  have hcommands : leadingCommands (before ++ line :: others) = leadingCommands before := by
    rw [leadingCommands_append h, leadingCommands_error hline, List.append_nil]
  rw [run_eq, run_eq, hcommands, firstFailureFrom?_append h, firstFailureFrom?_error hline, Nat.add_comm]

end Session

namespace FirstFailure

variable {lines : List String} {k : Nat} {text : String} {fault : Fault}
  (h : FirstFailure lines k text fault)

include h

theorem length_take : (lines.take k).length = k := by
  have hk : k < lines.length := (List.getElem?_eq_some_iff.mp h.line).1
  rw [List.length_take]
  omega

theorem take_succ : lines.take (k + 1) = lines.take k ++ [text] := by
  rw [List.take_add_one, h.line]
  rfl

/-- The line and those in front of it decide the run. -/
theorem run_take_append {σ : Type} [Surface σ] (session : Session σ) (others : List String) :
    session.run (lines.take (k + 1) ++ others) =
      (some ⟨k + 1, text, fault⟩, (session.run (lines.take k)).2) := by
  have hrun := session.run_append_of_error h.before h.parse others
  rw [h.length_take] at hrun
  rw [h.take_succ, List.append_assoc, List.singleton_append, hrun]

theorem run_eq {σ : Type} [Surface σ] (session : Session σ) :
    session.run lines = (some ⟨k + 1, text, fault⟩, (session.run (lines.take k)).2) := by
  have hrun := h.run_take_append session (lines.drop (k + 1))
  rwa [List.take_append_drop] at hrun

end FirstFailure

/-- **Where a run stops, and what it leaves.** Lines run through exactly if all of them are commands. Otherwise
the first that is none decides, for every session alike: its number, its text and its fault are the error, the
lines in front of it run through and leave what the whole run leaves, the line itself does nothing to that, and
in place of those behind it there may be any others. -/
theorem run_firstFailure (lines : List String) :
    (∀ (σ : Type) [Surface σ] (session : Session σ),
      (session.run lines).1 ≠ none ↔ ∃ line ∈ lines, ∃ fault, Command.parse line = .error fault) ∧
    ((∃ line ∈ lines, ∃ fault, Command.parse line = .error fault) →
      ∃ k text fault, FirstFailure lines k text fault ∧
        ∀ (σ : Type) [Surface σ] (session : Session σ),
          let left := (session.run (lines.take k)).2
          (session.run (lines.take k)).1 = none ∧
          session.run lines = (some ⟨k + 1, text, fault⟩, left) ∧
          left.runLine (k + 1) text = (.error ⟨k + 1, text, fault⟩, left) ∧
          ∀ others, session.run (lines.take (k + 1) ++ others) = session.run lines) := by
  constructor
  · intro σ _ session
    rw [Ne, session.fst_run_eq_none_iff, exists_error_iff]
  · intro hbad
    obtain ⟨k, text, fault, h⟩ := exists_firstFailure hbad
    refine ⟨k, text, fault, h, ?_⟩
    intro σ _ session left
    refine ⟨session.fst_run_eq_none_iff.mpr h.before, h.run_eq session, ?_, ?_⟩
    · exact Session.runLine_error h.parse left (k + 1)
    · intro others
      rw [h.run_take_append session others, h.run_eq session]

end PenPlot
