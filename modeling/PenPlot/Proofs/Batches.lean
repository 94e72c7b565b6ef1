import PenPlot.Proofs.Run

/-!
# Running in batches

Lines may be given to a session all at once or in parts, one after the other. A run of the first part that fails
is the whole run, and behind one that goes through the other lines are run from the session that it left, where
they count on (`Session.runFrom_append`). What line a run counts from shows in nothing but the number of its
error (`Session.runFrom_add`), so that a second part comes to the same as the rest of one run, but for that
number (`run_batches`).
-/

namespace PenPlot

/-- The same error, `offset` lines further down. -/
def LineError.later {phase : Phase} (offset : Nat) (e : LineError phase) : LineError phase :=
  { e with number := offset + e.number }

namespace Session

variable {σ : Type} [Surface σ] (session : Session σ)

/-- The first lines are run first, and the others from where these have led, unless they failed. -/
theorem runFrom_append (number : Nat) (xs ys : List String) :
    session.runFrom number (xs ++ ys) =
      match session.runFrom number xs with
      | (none, left) => left.runFrom (number + xs.length) ys
      | (some e, left) => (some e, left) := by
  induction xs generalizing session number with
  | nil => rfl
  | cons line xs ih =>
    cases h : Command.parse line with
    | ok command =>
      have hlength : number + 1 + xs.length = number + (line :: xs).length := by
        rw [List.length_cons, Nat.add_assoc, Nat.add_comm 1]
      rw [List.cons_append, runFrom_ok h, runFrom_ok h, ih, hlength]
    | error fault => rw [List.cons_append, runFrom_error h, runFrom_error h]

/-- Lines with higher numbers do the same, and fail with a higher number. -/
theorem runFrom_add (offset number : Nat) (lines : List String) :
    session.runFrom (offset + number) lines =
      ((session.runFrom number lines).1.map (LineError.later offset), (session.runFrom number lines).2) := by
  induction lines generalizing session number with
  | nil => rfl
  | cons line lines ih =>
    cases h : Command.parse line with
    | ok command => rw [runFrom_ok h, runFrom_ok h, Nat.add_assoc, ih]
    | error fault =>
      rw [runFrom_error h, runFrom_error h]
      rfl

theorem run_append (xs ys : List String) :
    session.run (xs ++ ys) =
      match session.run xs with
      | (none, left) => ((left.run ys).1.map (LineError.later xs.length), (left.run ys).2)
      | (some e, left) => (some e, left) := by
  rw [run, runFrom_append, Nat.add_comm]
  simp only [runFrom_add, run]

end Session

/-- **Batches.** Lines that are run in two parts, in one session, do what they do when they are run at once. If
the first part fails, so does the whole, with the same error, and leaves the same session. Otherwise the whole
leaves what the second part leaves when it is run behind the first, and it fails just if the second part does:
with the same text, reason and span, and with a number that is higher by the length of the first part, also in
the message and in the name of the source. -/
theorem run_batches {σ : Type} [Surface σ] (session : Session σ) (xs ys : List String) :
    match session.run xs with
    | (some e, left) => session.run (xs ++ ys) = (some e, left)
    | (none, left) =>
      match left.run ys with
      | (none, after) => session.run (xs ++ ys) = (none, after)
      | (some e, after) =>
        ∃ e', session.run (xs ++ ys) = (some e', after) ∧
          e'.number = xs.length + e.number ∧ e'.text = e.text ∧ e'.reason = e.reason ∧
          e'.fault.span = e.fault.span ∧
          e'.message = "error on line " ++ (xs.length + e.number).repr ++ ": " ++ e.reason.message ∧
          e'.sourceName = "line " ++ (xs.length + e.number).repr := by
  have hwhole := session.run_append xs ys
  rcases hfirst : session.run xs with ⟨_ | e, left⟩
  · rw [hfirst] at hwhole
    dsimp only at hwhole ⊢
    rcases hsecond : left.run ys with ⟨_ | e, after⟩
    · rw [hwhole, hsecond]
      rfl
    · rw [hsecond] at hwhole
      exact ⟨e.later xs.length, hwhole, rfl, rfl, rfl, rfl, rfl, rfl⟩
  · rw [hwhole, hfirst]

end PenPlot
