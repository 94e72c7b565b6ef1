import PenPlot.Proofs.Checker

/-!
# Checking line by line

All lines can be checked, or only those up to the first error. What is found on a line is the same either way, and
has to do with no other line (`getElem?_checkFrom`). So the first error is that of the list of all results
(`firstErrorFrom?_eq_some_iff`), and lines behind it count for nothing.
-/

namespace PenPlot

/-! ## The first error of a list -/

/-- Result `i`, counted from zero, is the error `e`, and there is no error before it. -/
structure IsFirstError (results : List (Except CheckError Command)) (i : Nat) (e : CheckError) : Prop where
  error : results[i]? = some (.error e)
  before : ∀ j < i, ∃ command, results[j]? = some (.ok command)

section Results

variable {results : List (Except CheckError Command)} {e e' : CheckError} {command : Command} {i : Nat}

theorem isFirstError_nil : ¬ IsFirstError [] i e :=
  fun h => absurd h.error nofun

theorem isFirstError_error_iff : IsFirstError (.error e :: results) i e' ↔ i = 0 ∧ e = e' := by
  constructor
  · intro h
    cases i with
    | zero => exact ⟨rfl, Except.error.inj (Option.some.inj h.error)⟩
    | succ i =>
      obtain ⟨command, hfirst⟩ := h.before 0 (Nat.succ_pos i)
      exact absurd hfirst nofun
  · rintro ⟨rfl, rfl⟩
    exact ⟨rfl, nofun⟩

theorem isFirstError_ok_iff :
    IsFirstError (.ok command :: results) i e ↔ ∃ j, i = j + 1 ∧ IsFirstError results j e := by
  constructor
  · intro h
    cases i with
    | zero => exact absurd h.error nofun
    | succ i => exact ⟨i, rfl, h.error, fun j hj => h.before (j + 1) (Nat.succ_lt_succ hj)⟩
  · rintro ⟨j, rfl, h⟩
    refine ⟨h.error, fun k hk => ?_⟩
    cases k with
    | zero => exact ⟨command, rfl⟩
    | succ k => exact h.before k (Nat.lt_of_succ_lt_succ hk)

/-- The results up to the first error decide which it is. -/
theorem IsFirstError.congr {results' : List (Except CheckError Command)} (h : IsFirstError results i e)
    (hsame : ∀ j ≤ i, results'[j]? = results[j]?) : IsFirstError results' i e := by
  refine ⟨(hsame i (Nat.le_refl i)).trans h.error, fun j hj => ?_⟩
  rw [hsame j (Nat.le_of_lt hj)]
  exact h.before j hj

end Results

/-! ## All results, and the first error -/

section Lines

variable {number i : Nat} {lines lines' : List String} {e : CheckError}

/-- Every line is checked by itself. -/
theorem getElem?_checkFrom (number : Nat) (lines : List String) (i : Nat) :
    (checkFrom number lines)[i]? = lines[i]?.map (checkLine (number + i)) := by
  rw [checkFrom_eq_map, List.getElem?_map, List.getElem?_zipIdx, Option.map_map]
  rfl

theorem getElem?_checkLines (lines : List String) (i : Nat) :
    (checkLines lines)[i]? = lines[i]?.map (checkLine (i + 1)) := by
  rw [checkLines, getElem?_checkFrom, Nat.add_comm]

theorem length_checkLines (lines : List String) : (checkLines lines).length = lines.length := by
  rw [checkLines, checkFrom_eq_map, List.length_map, List.length_zipIdx]

theorem firstErrorFrom?_eq_some_iff :
    firstErrorFrom? number lines = some e ↔ ∃ i, IsFirstError (checkFrom number lines) i e := by
  induction lines generalizing number with
  | nil => exact ⟨nofun, fun ⟨_, h⟩ => absurd h isFirstError_nil⟩
  | cons line lines ih =>
    cases hline : checkLine number line with
    | error e' =>
      rw [firstErrorFrom?_error hline, checkFrom, hline]
      simp only [isFirstError_error_iff, Option.some.injEq, exists_eq_left]
    | ok command =>
      rw [firstErrorFrom?_ok hline, checkFrom, hline, ih]
      simp only [isFirstError_ok_iff]
      constructor
      · rintro ⟨i, h⟩
        exact ⟨i + 1, i, rfl, h⟩
      · rintro ⟨-, i, -, h⟩
        exact ⟨i, h⟩

theorem firstErrorFrom?_eq_none_iff :
    firstErrorFrom? number lines = none ↔
      ∀ result ∈ checkFrom number lines, ∃ command, result = .ok command := by
  induction lines generalizing number with
  | nil => exact ⟨fun _ => nofun, fun _ => rfl⟩
  | cons line lines ih =>
    rw [checkFrom, List.forall_mem_cons]
    cases hline : checkLine number line with
    | error e => simp [firstErrorFrom?_error hline]
    | ok command => simp [firstErrorFrom?_ok hline, ih]

/-- An error tells the line that it belongs to. -/
theorem getElem?_checkLines_eq_error_iff :
    (checkLines lines)[i]? = some (.error e) ↔
      e.number = i + 1 ∧ lines[i]? = some e.text ∧ checkedCommand e.text = .error e.fault := by
  rw [getElem?_checkLines, Option.map_eq_some_iff]
  constructor
  · rintro ⟨line, hline, herror⟩
    obtain ⟨fault, hfault, rfl⟩ := checkLine_eq_error_iff.mp herror
    exact ⟨rfl, hline, hfault⟩
  · rintro ⟨hnumber, hline, hfault⟩
    refine ⟨e.text, hline, checkLine_eq_error_iff.mpr ⟨e.fault, hfault, ?_⟩⟩
    rw [← hnumber]

theorem firstError?_congr (h : firstError? lines = some e)
    (hsame : lines'.take e.number = lines.take e.number) : firstError? lines' = some e := by
  obtain ⟨i, hi⟩ := firstErrorFrom?_eq_some_iff.mp h
  obtain ⟨hnumber, -⟩ := getElem?_checkLines_eq_error_iff.mp hi.error
  refine firstErrorFrom?_eq_some_iff.mpr ⟨i, hi.congr fun j hj => ?_⟩
  have hlt : j < e.number := by omega
  have hline : lines'[j]? = lines[j]? := by
    rw [← List.getElem?_take_of_lt hlt, hsame, List.getElem?_take_of_lt hlt]
  rw [getElem?_checkFrom, getElem?_checkFrom, hline]

end Lines

/-- **Checking line by line.** There is one result for each line, which is that of the line checked by itself, and
an error in it has the number and the text of the line. The check that stops gives the first error of these
results, and none if there is none among them; with the same lines up to that error, it is the same whatever
stands behind. -/
theorem check_line_by_line (lines : List String) :
    (checkLines lines).length = lines.length ∧
    (∀ i, (checkLines lines)[i]? = lines[i]?.map (checkLine (i + 1))) ∧
    (∀ i e, (checkLines lines)[i]? = some (.error e) ↔
      e.number = i + 1 ∧ lines[i]? = some e.text ∧ checkedCommand e.text = .error e.fault) ∧
    (∀ e, firstError? lines = some e ↔ ∃ i, IsFirstError (checkLines lines) i e) ∧
    (firstError? lines = none ↔ ∀ result ∈ checkLines lines, ∃ command, result = .ok command) ∧
    ∀ e, firstError? lines = some e →
      ∀ lines', lines'.take e.number = lines.take e.number → firstError? lines' = some e := by
  refine ⟨length_checkLines lines, getElem?_checkLines lines, ?_, ?_, firstErrorFrom?_eq_none_iff, ?_⟩
  · intro i e
    exact getElem?_checkLines_eq_error_iff
  · intro e
    exact firstErrorFrom?_eq_some_iff
  · intro e h lines' hsame
    exact firstError?_congr h hsame

end PenPlot
