import PenPlot.Proofs.Spaced
import PenPlot.Text.Lines

/-!
# Cutting and joining lines

`joinLines` ends every line by a line feed, and `cutLines` cuts behind every line feed, so lines without
one come back from the joined text, except that each loses one carriage return at its end
(`cutLines_joinLines`, `cutLines_joinLines_iff`). Lines that were cut from a text have no line feed of their own
(`newline_notMem_of_mem_cutLines`); one of them ends in a carriage return if two of these stand in front of
a line feed, or one at the very end (`exists_mem_cutLines_return_iff`).
-/

namespace PenPlot.Text

/-! ## A stretch and what follows it -/

/-- Two texts that begin with a longest stretch of one class agree in the stretch and in the rest. -/
theorem append_inj_of_stop {p : Char → Bool} {front front' rest rest' : List Char}
    (h : front ++ rest = front' ++ rest') (hfront : ∀ c ∈ front, p c = true)
    (hfront' : ∀ c ∈ front', p c = true) (hstop : ∀ c ∈ rest.head?, p c = false)
    (hstop' : ∀ c ∈ rest'.head?, p c = false) : front = front' ∧ rest = rest' := by
  have htake := congrArg (List.takeWhile p) h
  have hdrop := congrArg (List.dropWhile p) h
  rw [takeWhile_append_stop hfront hstop, takeWhile_append_stop hfront' hstop'] at htake
  rw [dropWhile_append_stop hfront hstop, dropWhile_append_stop hfront' hstop'] at hdrop
  exact ⟨htake, hdrop⟩

/-- A text up to the first `c` and the text behind it are determined. -/
theorem append_inj_of_notMem {c : Char} {front front' rest rest' : List Char}
    (h : front ++ c :: rest = front' ++ c :: rest') (hfront : c ∉ front) (hfront' : c ∉ front') :
    front = front' ∧ rest = rest' := by
  have hne : ∀ {cs : List Char}, c ∉ cs → ∀ d ∈ cs, (d != c) = true := by
    intro cs hcs d hd
    rw [bne_iff_ne]
    rintro rfl
    exact hcs hd
  obtain ⟨hfronts, hrests⟩ := append_inj_of_stop h (hne hfront) (hne hfront') (by simp) (by simp)
  exact ⟨hfronts, (List.cons.inj hrests).2⟩

/-! ## Carriage returns -/

/-- A line without one carriage return at its end, if it has any. -/
def dropReturn (line : List Char) : List Char :=
  if line.getLast? = some '\r' then line.dropLast else line

section Returns

variable {line : List Char}

theorem dropReturn_of_ne (h : line.getLast? ≠ some '\r') : dropReturn line = line :=
  if_neg h

@[simp] theorem dropReturn_concat (line : List Char) : dropReturn (line ++ ['\r']) = line := by
  simp [dropReturn]

/-- A line ends in the carriage return that it is left without, or in none. -/
theorem dropReturn_cases (line : List Char) :
    line = dropReturn line ++ ['\r'] ∨ line.getLast? ≠ some '\r' ∧ dropReturn line = line := by
  by_cases h : line.getLast? = some '\r'
  · obtain ⟨front, rfl⟩ := List.getLast?_eq_some_iff.mp h
    exact .inl (by rw [dropReturn_concat])
  · exact .inr ⟨h, dropReturn_of_ne h⟩

theorem dropReturn_eq_self_iff : dropReturn line = line ↔ line.getLast? ≠ some '\r' := by
  rcases dropReturn_cases line with h | ⟨h, heq⟩
  · have hlen := congrArg List.length h
    have hlast : line.getLast? = some '\r' := by rw [h]; simp
    constructor
    · intro heq
      rw [heq] at hlen
      simp at hlen
    · intro hno
      exact absurd hlast hno
  · exact ⟨fun _ => h, fun _ => heq⟩

theorem dropReturn_cons {c : Char} (h : line = [] → c ≠ '\r') :
    dropReturn (c :: line) = c :: dropReturn line := by
  cases line with
  | nil => simp [dropReturn, h rfl]
  | cons d line =>
    unfold dropReturn
    rw [List.getLast?_cons_cons, List.dropLast_cons_cons]
    split <;> rfl

end Returns

/-! ## Cutting -/

section Cut

variable {line rest : List Char}

/-- What is neither a line feed nor the carriage return in front of one goes into the line behind it. -/
theorem cutLines_cons {c : Char} {cs : List Char} (hfeed : c ≠ '\n')
    (hreturn : c = '\r' → cs.head? ≠ some '\n') :
    cutLines (c :: cs) =
      match cutLines cs with
      | [] => [[c]]
      | line :: lines => (c :: line) :: lines := by
  refine cutLines.eq_4 c cs hfeed ?_
  rintro ds rfl rfl
  exact hreturn rfl rfl

/-- The first line of a text, without its line feed and one carriage return in front of it. -/
theorem cutLines_append_newline (h : '\n' ∉ line) (rest : List Char) :
    cutLines (line ++ '\n' :: rest) = dropReturn line :: cutLines rest := by
  induction line with
  | nil => rfl
  | cons c line ih =>
    simp only [List.mem_cons, not_or] at h
    obtain ⟨hc, hline⟩ := h
    by_cases hreturn : line = [] ∧ c = '\r'
    · obtain ⟨rfl, rfl⟩ := hreturn
      rfl
    · have hhead : c = '\r' → (line ++ '\n' :: rest).head? ≠ some '\n' := by
        rintro rfl hnewline
        obtain ⟨d, line, rfl⟩ := List.exists_cons_of_ne_nil fun hnil => hreturn ⟨hnil, rfl⟩
        obtain rfl : d = '\n' := by simpa using hnewline
        exact hline (by simp)
      have hkeep : line = [] → c ≠ '\r' := fun hnil hcr => hreturn ⟨hnil, hcr⟩
      rw [List.cons_append, cutLines_cons (Ne.symm hc) hhead, ih hline, dropReturn_cons hkeep]

theorem joinLines_cons (line : List Char) (lines : List (List Char)) :
    joinLines (line :: lines) = line ++ '\n' :: joinLines lines := by
  simp [joinLines]

/-- **Lines that are joined and cut again.** Each of them loses one carriage return at its end. -/
theorem cutLines_joinLines {lines : List (List Char)} (h : ∀ line ∈ lines, '\n' ∉ line) :
    cutLines (joinLines lines) = lines.map dropReturn := by
  induction lines with
  | nil => rfl
  | cons line lines ih =>
    rw [joinLines_cons, cutLines_append_newline (h line (by simp)), ih fun l hl => h l (by simp [hl]),
      List.map_cons]

/-- Only the empty text has no lines. -/
theorem cutLines_eq_nil_iff {cs : List Char} : cutLines cs = [] ↔ cs = [] := by
  constructor
  · intro h
    unfold cutLines at h
    split at h
    · rfl
    · cases h
    · cases h
    · split at h <;> cases h
  · rintro rfl
    rfl

/-- Where a first line is empty, its end comes first. -/
theorem ends_of_cutLines_eq_nil_cons {cs : List Char} {lines : List (List Char)}
    (h : cutLines cs = [] :: lines) : cs.head? = some '\n' ∨ ['\r', '\n'] <+: cs := by
  unfold cutLines at h
  split at h
  · cases h
  · exact .inl rfl
  · exact .inr ⟨_, rfl⟩
  · split at h <;> cases h

/-- Lines have no line feed of their own. -/
theorem newline_notMem_of_mem_cutLines {cs : List Char} (h : line ∈ cutLines cs) : '\n' ∉ line := by
  induction cs using cutLines.induct generalizing line with
  | case1 => cases h
  | case2 cs ih =>
    rcases List.mem_cons.mp h with rfl | h
    · simp
    · exact ih h
  | case3 cs ih =>
    rcases List.mem_cons.mp h with rfl | h
    · simp
    · exact ih h
  | case4 c cs hfeed hreturn hnil ih =>
    rw [cutLines.eq_4 c cs hfeed hreturn, hnil] at h
    obtain rfl := List.mem_singleton.mp h
    simpa using Ne.symm hfeed
  | case5 c cs hfeed hreturn first lines hlines ih =>
    rw [cutLines.eq_4 c cs hfeed hreturn, hlines] at h
    rcases List.mem_cons.mp h with rfl | h
    · have hfirst : '\n' ∉ first := ih (by simp [hlines])
      simpa using ⟨Ne.symm hfeed, hfirst⟩
    · exact ih (by simp [hlines, h])

theorem getLast?_cons_eq_return_iff {c : Char} {cs : List Char} :
    (c :: cs).getLast? = some '\r' ↔ cs.getLast? = some '\r' ∨ cs = [] ∧ c = '\r' := by
  cases cs with
  | nil => simp
  | cons d cs => simp [List.getLast?_cons_cons]

/-- Which texts have a line that ends in a carriage return. -/
theorem exists_mem_cutLines_return_iff {cs : List Char} :
    (∃ line ∈ cutLines cs, line.getLast? = some '\r') ↔
      ['\r', '\r', '\n'] <:+: cs ∨ cs.getLast? = some '\r' := by
  induction cs using cutLines.induct with
  | case1 => simp [cutLines]
  | case2 cs ih =>
    have hcut : cutLines ('\n' :: cs) = [] :: cutLines cs := rfl
    simpa [hcut, List.infix_cons_iff, getLast?_cons_eq_return_iff] using ih
  | case3 cs ih =>
    have hcut : cutLines ('\r' :: '\n' :: cs) = [] :: cutLines cs := rfl
    simpa [hcut, List.infix_cons_iff, getLast?_cons_eq_return_iff] using ih
  | case4 c cs hfeed hreturn hnil ih =>
    obtain rfl := cutLines_eq_nil_iff.mp hnil
    have hcut : cutLines [c] = [[c]] := cutLines.eq_4 c [] hfeed hreturn
    simp [hcut, List.infix_cons_iff]
  | case5 c cs hfeed hreturn first lines hlines ih =>
    have hne : cs ≠ [] := by
      rintro rfl
      cases hlines
    -- the line that `c` is put in front of is empty just where a carriage return and a line feed follow
    have hfirst : first = [] ∧ c = '\r' ↔ ['\r', '\r', '\n'] <+: c :: cs := by
      rw [List.cons_prefix_cons]
      constructor
      · rintro ⟨rfl, rfl⟩
        refine ⟨rfl, ?_⟩
        rcases ends_of_cutLines_eq_nil_cons hlines with hhead | hprefix
        · obtain ⟨ds, rfl⟩ := List.head?_eq_some_iff.mp hhead
          exact absurd rfl (hreturn ds rfl)
        · exact hprefix
      · rintro ⟨rfl, ds, rfl⟩
        have hcut : cutLines ('\r' :: '\n' :: ds) = [] :: cutLines ds := rfl
        rw [List.cons_append, List.cons_append, List.nil_append, hcut, List.cons.injEq] at hlines
        exact ⟨hlines.1.symm, rfl⟩
    have hcut : cutLines (c :: cs) = (c :: first) :: lines := by
      rw [cutLines.eq_4 c cs hfeed hreturn, hlines]
    rw [hlines] at ih
    rw [hcut, List.infix_cons_iff, ← hfirst]
    simp only [List.mem_cons, exists_eq_or_imp, getLast?_cons_eq_return_iff, hne, false_and,
      or_false] at ih ⊢
    rw [or_right_comm, ih, or_comm, or_assoc]

/-! ## Joined lines -/

theorem count_joinLines {lines : List (List Char)} (h : ∀ line ∈ lines, '\n' ∉ line) :
    (joinLines lines).count '\n' = lines.length := by
  induction lines with
  | nil => rfl
  | cons line lines ih =>
    rw [joinLines_cons, List.count_append, List.count_eq_zero_of_not_mem (h line (by simp)),
      List.count_cons_self, ih fun l hl => h l (by simp [hl]), Nat.zero_add, List.length_cons]

/-- Which lines come back as they are. -/
theorem cutLines_joinLines_iff {lines : List (List Char)} :
    cutLines (joinLines lines) = lines ↔
      ∀ line ∈ lines, '\n' ∉ line ∧ line.getLast? ≠ some '\r' := by
  constructor
  · intro h
    have hfeed : ∀ line ∈ lines, '\n' ∉ line := by
      rw [← h]
      exact fun line hline => newline_notMem_of_mem_cutLines hline
    rw [cutLines_joinLines hfeed] at h
    have hkept := List.map_inj_left.mp (h.trans (List.map_id lines).symm)
    exact fun line hline => ⟨hfeed line hline, dropReturn_eq_self_iff.mp (hkept line hline)⟩
  · intro h
    have hkeep : ∀ line ∈ lines, dropReturn line = line := fun line hline =>
      dropReturn_of_ne (h line hline).2
    rw [cutLines_joinLines fun line hline => (h line hline).1, List.map_congr_left hkeep, List.map_id']

/-- Lines without a line feed are determined by the joined text. -/
theorem joinLines_injective {lines lines' : List (List Char)} (h : ∀ line ∈ lines, '\n' ∉ line)
    (h' : ∀ line ∈ lines', '\n' ∉ line) (heq : joinLines lines = joinLines lines') :
    lines = lines' := by
  induction lines generalizing lines' with
  | nil =>
    cases lines' with
    | nil => rfl
    | cons line' lines' => simp [joinLines] at heq
  | cons line lines ih =>
    cases lines' with
    | nil => simp [joinLines] at heq
    | cons line' lines' =>
      rw [joinLines_cons, joinLines_cons] at heq
      obtain ⟨rfl, hrest⟩ := append_inj_of_notMem heq (h line (by simp)) (h' line' (by simp))
      rw [ih (fun l hl => h l (by simp [hl])) (fun l hl => h' l (by simp [hl])) hrest]

end Cut

end PenPlot.Text
