import PenPlot.Program.Basic
import PenPlot.Proofs.Lines

/-!
# What a source text keeps

A text is made up of lines and their ends in one way only (`Lined`), and the lines that are cut from it are
those (`lined_iff`). So writing them again changes nothing but the ends: each becomes a line feed, and the last
line gets one if it had none (`Program.source_ofSource`). The other way round, lines that are written come back
if they have no line feed of their own and no carriage return that the line feed behind them would take away
(`Program.ofSource_source_iff`).
-/

namespace PenPlot.Text

/-! ## Lines and their ends -/

/-- The text `cs` is made up of `lines`, each with its end behind it. -/
inductive Lined : List Char → List (List Char) → Prop
  | nil : Lined [] []
  /-- The last line may go without an end, but then there has to be something in it. -/
  | last {line : List Char} : line ≠ [] → '\n' ∉ line → Lined line [line]
  | feed {line rest : List Char} {lines : List (List Char)} :
      '\n' ∉ line → line.getLast? ≠ some '\r' → Lined rest lines →
      Lined (line ++ '\n' :: rest) (line :: lines)
  | returnFeed {line rest : List Char} {lines : List (List Char)} :
      '\n' ∉ line → Lined rest lines → Lined (line ++ '\r' :: '\n' :: rest) (line :: lines)

section Cut

variable {cs line : List Char} {lines : List (List Char)}

theorem cutLines_of_notMem (hne : line ≠ []) (h : '\n' ∉ line) : cutLines line = [line] := by
  induction line with
  | nil => contradiction
  | cons c line ih =>
    simp only [List.mem_cons, not_or] at h
    obtain ⟨hc, hline⟩ := h
    have hhead : c = '\r' → line.head? ≠ some '\n' := fun _ hhead =>
      hline (List.mem_of_mem_head? hhead)
    rw [cutLines_cons (Ne.symm hc) hhead]
    by_cases hnil : line = []
    · rw [hnil]
      rfl
    · rw [ih hnil hline]

theorem cutLines_append_returnFeed (h : '\n' ∉ line) (rest : List Char) :
    cutLines (line ++ '\r' :: '\n' :: rest) = line :: cutLines rest := by
  have hreturn : '\n' ∉ line ++ ['\r'] := by simpa using h
  rw [List.append_cons, cutLines_append_newline hreturn, dropReturn_concat]

theorem Lined.eq_cutLines (h : Lined cs lines) : lines = cutLines cs := by
  induction h with
  | nil => rfl
  | last hne hline => rw [cutLines_of_notMem hne hline]
  | feed hline hlast _ ih => rw [cutLines_append_newline hline, dropReturn_of_ne hlast, ih]
  | returnFeed hline _ ih => rw [cutLines_append_returnFeed hline, ih]

theorem lined_cutLines (cs : List Char) : Lined cs (cutLines cs) := by
  -- by the length of the text: what is left behind a line feed is shorter
  induction hn : cs.length using Nat.strong_induction_on generalizing cs with
  | _ n ih =>
  obtain ⟨front, rest, rfl, hfront, hstop⟩ := exists_stretch (fun c => c != '\n') cs
  have hline : '\n' ∉ front := fun hmem => absurd (hfront _ hmem) (by simp)
  cases rest with
  | nil =>
    rw [List.append_nil]
    by_cases hnil : front = []
    · rw [hnil]
      exact .nil
    · rw [cutLines_of_notMem hnil hline]
      exact .last hnil hline
  | cons c rest =>
    obtain rfl : c = '\n' := by simpa using hstop c rfl
    have hrest : Lined rest (cutLines rest) := by
      refine ih rest.length ?_ rest rfl
      simp only [← hn, List.length_append, List.length_cons]
      omega
    rcases dropReturn_cases front with hreturn | ⟨hlast, -⟩
    · -- the carriage return in front of the line feed belongs to the end of the line
      have hdrop : '\n' ∉ dropReturn front := fun hmem => hline (by rw [hreturn]; simp [hmem])
      rw [hreturn, List.append_assoc, List.singleton_append, cutLines_append_returnFeed hdrop]
      exact .returnFeed hdrop hrest
    · rw [cutLines_append_newline hline, dropReturn_of_ne hlast]
      exact .feed hline hlast hrest

theorem lined_iff : Lined cs lines ↔ lines = cutLines cs :=
  ⟨Lined.eq_cutLines, fun h => h ▸ lined_cutLines cs⟩

end Cut

/-! ## Writing the lines again -/

/-- Every carriage return and line feed in a row replaced by the line feed, in one pass from left to right. -/
def plainEnds : List Char → List Char
  | [] => []
  | '\r' :: '\n' :: cs => '\n' :: plainEnds cs
  | c :: cs => c :: plainEnds cs

/-- The last line goes without a line feed. -/
def IsUnended (cs : List Char) : Prop :=
  cs ≠ [] ∧ cs.getLast? ≠ some '\n'

instance (cs : List Char) : Decidable (IsUnended cs) :=
  inferInstanceAs (Decidable (_ ∧ _))

section Ends

variable {cs line rest : List Char} {lines : List (List Char)}

theorem plainEnds_cons {c : Char} (h : c = '\r' → cs.head? ≠ some '\n') :
    plainEnds (c :: cs) = c :: plainEnds cs := by
  refine plainEnds.eq_3 c cs ?_
  rintro ds rfl rfl
  exact h rfl rfl

theorem plainEnds_append (hline : '\n' ∉ line)
    (h : line.getLast? = some '\r' → rest.head? ≠ some '\n') :
    plainEnds (line ++ rest) = line ++ plainEnds rest := by
  induction line with
  | nil => rfl
  | cons c line ih =>
    have hline' : '\n' ∉ line := fun hmem => hline (by simp [hmem])
    rw [List.cons_append, List.cons_append]
    by_cases hnil : line = []
    · subst hnil
      exact plainEnds_cons fun hc => h (by rw [hc]; rfl)
    · have hhead : c = '\r' → (line ++ rest).head? ≠ some '\n' := fun _ hhead =>
        hline' (mem_of_mem_head?_append hnil hhead)
      have hlast : line.getLast? = some '\r' → rest.head? ≠ some '\n' := by
        rwa [List.getLast?_cons_of_ne_nil hnil] at h
      rw [plainEnds_cons hhead, ih hline' hlast]

theorem isUnended_of_notMem (hne : line ≠ []) (h : '\n' ∉ line) : IsUnended line :=
  ⟨hne, fun hlast => h (List.mem_of_getLast? hlast)⟩

theorem isUnended_append_feed (front rest : List Char) :
    IsUnended (front ++ '\n' :: rest) ↔ IsUnended rest := by
  cases rest with
  | nil => simp [IsUnended]
  | cons c rest => simp [IsUnended, List.getLast?_append, List.getLast?_cons_cons]

theorem isUnended_append_returnFeed (front rest : List Char) :
    IsUnended (front ++ '\r' :: '\n' :: rest) ↔ IsUnended rest := by
  rw [List.append_cons, isUnended_append_feed]

/-- What the lines of a text are joined to: the text with plain ends, and one for the last line too. -/
theorem Lined.joinLines_eq (h : Lined cs lines) :
    joinLines lines = plainEnds cs ++ if IsUnended cs then ['\n'] else [] := by
  induction h with
  | nil => rfl
  | @last line hne hline =>
    have hplain : plainEnds line = line := by
      have happend : plainEnds (line ++ []) = line ++ [] := plainEnds_append hline (by simp)
      rwa [List.append_nil] at happend
    rw [hplain, if_pos (isUnended_of_notMem hne hline)]
    simp [joinLines]
  | @feed line rest lines hline hlast _ ih =>
    have hplain : plainEnds (line ++ '\n' :: rest) = line ++ '\n' :: plainEnds rest :=
      plainEnds_append hline fun h => absurd h hlast
    rw [joinLines_cons, ih, hplain, List.append_assoc, List.cons_append]
    simp only [isUnended_append_feed]
  | @returnFeed line rest lines hline _ ih =>
    have hplain : plainEnds (line ++ '\r' :: '\n' :: rest) = line ++ '\n' :: plainEnds rest :=
      plainEnds_append hline (by simp)
    rw [joinLines_cons, ih, hplain, List.append_assoc, List.cons_append]
    simp only [isUnended_append_returnFeed]

theorem Lined.length_eq (h : Lined cs lines) :
    lines.length = cs.count '\n' + if IsUnended cs then 1 else 0 := by
  have hcount : ∀ {line : List Char}, '\n' ∉ line → line.count '\n' = 0 :=
    List.count_eq_zero_of_not_mem
  induction h with
  | nil => rfl
  | last hne hline => rw [hcount hline, if_pos (isUnended_of_notMem hne hline), List.length_singleton]
  | feed hline _ _ ih =>
    simp only [isUnended_append_feed]
    rw [List.length_cons, ih, List.count_append, hcount hline, List.count_cons_self]
    omega
  | @returnFeed line rest lines hline _ ih =>
    simp only [isUnended_append_returnFeed]
    rw [List.length_cons, ih, List.count_append, hcount hline,
      List.count_cons_of_ne (by decide), List.count_cons_self]
    omega

end Ends

end PenPlot.Text

namespace PenPlot.Program

open Text

theorem lines_foldl_push (program : Program) (lines : List String) :
    (lines.foldl push program).lines = program.lines ++ lines := by
  induction lines generalizing program with
  | nil => simp
  | cons line lines ih => simp [ih, push]

theorem toList_lines_ofSource (source : String) :
    (ofSource source).lines.map String.toList = cutLines source.toList := by
  simp [ofSource, Function.comp_def]

/-- **Which programs have a source text.** A list of lines, whether it is given as a whole or put together line
by line, comes back from its source text exactly if no line has a line feed in it or a carriage return at its
end. -/
theorem ofSource_source_iff (lines : List String) :
    lines.foldl push empty = ⟨lines⟩ ∧
    (ofSource (source ⟨lines⟩) = ⟨lines⟩ ↔
      ∀ line ∈ lines, '\n' ∉ line.toList ∧ line.toList.getLast? ≠ some '\r') := by
  constructor
  · exact congrArg mk (lines_foldl_push empty lines)
  · have hsource : (source ⟨lines⟩).toList = joinLines (lines.map String.toList) := String.toList_ofList
    have hlists : ofSource (source ⟨lines⟩) = ⟨lines⟩ ↔
        cutLines (joinLines (lines.map String.toList)) = lines.map String.toList := by
      rw [← hsource, ← toList_lines_ofSource, List.map_inj_right fun _ _ => String.toList_inj.mp]
      exact ⟨fun h => congrArg Program.lines h, fun h => congrArg mk h⟩
    rw [hlists, cutLines_joinLines_iff, List.forall_mem_map]

/-- **Ends of lines are all that a source text loses.** What is written for a text that was read is that text
with each carriage return and line feed in a row replaced by a line feed, and with a line feed behind its last
line if it had none. There are as many lines as line feeds, and one more for a last line without one, and with
their ends these lines, and no others, make up the text. -/
theorem source_ofSource (source : String) :
    let program := ofSource source
    let cs := source.toList
    program.source = String.ofList (plainEnds cs ++ if IsUnended cs then ['\n'] else []) ∧
    program.lines.length = cs.count '\n' + (if IsUnended cs then 1 else 0) ∧
    ∀ lines, Lined cs lines ↔ lines = program.lines.map String.toList := by
  intro program cs
  have hlines : program.lines.map String.toList = cutLines cs := toList_lines_ofSource source
  have hlined : Lined cs (program.lines.map String.toList) := lined_iff.mpr hlines
  refine ⟨?_, ?_, fun lines => ?_⟩
  · rw [← hlined.joinLines_eq]
    rfl
  · rw [← hlined.length_eq, List.length_map]
  · rw [lined_iff, hlines]

example : (ofSource "pen red\r\n\ncircle 10\r\r\nreset\r").source = "pen red\n\ncircle 10\r\nreset\r\n" := by
  decide

end PenPlot.Program
