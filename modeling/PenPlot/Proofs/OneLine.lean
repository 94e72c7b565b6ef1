import PenPlot.Proofs.Numerals
import PenPlot.Proofs.ReportedSpans
import PenPlot.Report

/-!
# Messages on one line

A line may have line feeds, tabs and other blanks in it, but no message about a line does (`IsOneLine`). The name of
a command that is not known is quoted, and a quotation has an escape for every blank but the space
(`isOneLine_quote`). The tokens in the other messages are written as they are, and have no blank to begin with
(`Faulty.unblank_token`). Messages that are written one on each line can therefore be cut apart again.
-/

namespace PenPlot

open Text

/-- No line feed, carriage return, tab or form feed. -/
def IsOneLine (s : String) : Prop :=
  ∀ c ∈ ['\n', '\r', '\t', '\x0c'], c ∉ s.toList

instance (s : String) : Decidable (IsOneLine s) :=
  List.decidableBAll (fun c => c ∉ s.toList) ['\n', '\r', '\t', '\x0c']

/-! ## Texts -/

section Texts

variable {s t : String}

theorem mem_breaks_iff {c : Char} : c ∈ ['\n', '\r', '\t', '\x0c'] ↔ isBlank c = true ∧ c ≠ ' ' := by
  simp only [List.mem_cons, List.not_mem_nil, or_false, isBlank, Bool.or_eq_true, beq_iff_eq]
  constructor
  · rintro (rfl | rfl | rfl | rfl) <;> decide
  · rintro ⟨(((h | h) | h) | h) | h, hspace⟩
    · exact absurd h hspace
    · exact .inr (.inr (.inl h))
    · exact .inl h
    · exact .inr (.inl h)
    · exact .inr (.inr (.inr h))

/-- Of the blanks, only spaces are left. -/
theorem isOneLine_iff : IsOneLine s ↔ ∀ c ∈ s.toList, isBlank c = true → c = ' ' := by
  constructor
  · intro h c hc hblank
    by_contra hspace
    exact h c (mem_breaks_iff.mpr ⟨hblank, hspace⟩) hc
  · intro h c hbreak hc
    obtain ⟨hblank, hspace⟩ := mem_breaks_iff.mp hbreak
    exact hspace (h c hc hblank)

theorem isOneLine_of_unblank (h : ∀ c ∈ s.toList, isBlank c = false) : IsOneLine s :=
  isOneLine_iff.mpr fun c hc hblank => absurd (h c hc) (by simp [hblank])

theorem isOneLine_append : IsOneLine (s ++ t) ↔ IsOneLine s ∧ IsOneLine t := by
  simp only [isOneLine_iff, String.toList_append, List.forall_mem_append]

theorem isOneLine_repr (n : Nat) : IsOneLine n.repr :=
  isOneLine_of_unblank (Decimal.isSolid_repr n).2

theorem Keyword.isOneLine_name (keyword : Keyword) : IsOneLine keyword.name := by
  cases keyword <;> decide

end Texts

/-! ## Quotations -/

theorem isBlank_digitChar (d : Nat) : isBlank d.digitChar = false := by
  by_contra h
  rw [Bool.not_eq_false] at h
  have hne : ∀ c, isBlank c = true → d.digitChar ≠ c := by
    intro c hc
    simp only [isBlank, Bool.or_eq_true, beq_iff_eq] at hc
    rcases hc with (((rfl | rfl) | rfl) | rfl) | rfl <;> exact Nat.digitChar_ne _ (by decide)
  exact hne _ h rfl

theorem isBlank_of_mem_toDigits {b n : Nat} (hb : 1 < b) {c : Char} (hc : c ∈ Nat.toDigits b n) :
    isBlank c = false := by
  induction n using Nat.strongRecOn with
  | ind n ih =>
    rw [Nat.toDigits_eq_if hb] at hc
    split at hc
    · rw [List.mem_singleton.mp hc]
      exact isBlank_digitChar n
    next hle =>
      rcases List.mem_append.mp hc with hc | hc
      · exact ih (n / b) (Nat.div_lt_self (by omega) hb) hc
      · rw [List.mem_singleton.mp hc]
        exact isBlank_digitChar (n % b)

theorem unblank_codePointEscape (c : Char) : ∀ d ∈ codePointEscape c, isBlank d = false := by
  have hopening : ∀ d ∈ ['\\', 'u', '\x7b'], isBlank d = false := by simp [isBlank]
  have hclosing : ∀ d ∈ ['\x7d'], isBlank d = false := by simp [isBlank]
  intro d hd
  rcases List.mem_append.mp hd with hd | hd
  · rcases List.mem_append.mp hd with hd | hd
    · exact hopening d hd
    · exact isBlank_of_mem_toDigits (by decide) hd
  · exact hclosing d hd

/-- A space is quoted as it is, and any other blank has an escape. -/
theorem eq_space_of_mem_escape {c d : Char} (hd : d ∈ escape c) (hblank : isBlank d = true) : d = ' ' := by
  have hshort : ∀ letter ∈ ['"', '\\', 't', 'n', 'r', '0'], ∀ d ∈ ['\\', letter], isBlank d = false := by
    simp [isBlank]
  have hno : ∀ letter ∈ ['"', '\\', 't', 'n', 'r', '0'], d ∉ ['\\', letter] := by
    intro letter hletter hd
    rw [hshort letter hletter d hd] at hblank
    cases hblank
  unfold escape at hd
  split_ifs at hd with _ _ _ _ _ _ hunshown
  · exact absurd hd (hno '"' (by decide))
  · exact absurd hd (hno '\\' (by decide))
  · exact absurd hd (hno 't' (by decide))
  · exact absurd hd (hno 'n' (by decide))
  · exact absurd hd (hno 'r' (by decide))
  · exact absurd hd (hno '0' (by decide))
  · rw [unblank_codePointEscape c d hd] at hblank
    cases hblank
  · obtain rfl := List.mem_singleton.mp hd
    by_contra hspace
    exact hunshown (isUnshown_of_isBlank hblank hspace)

theorem isOneLine_quote (s : String) : IsOneLine (quote s) := by
  rw [isOneLine_iff, quote, String.toList_ofList]
  intro c hc hblank
  rcases List.mem_append.mp hc with hc | hc
  · rcases List.mem_cons.mp hc with rfl | hc
    · exact absurd hblank (by decide)
    · obtain ⟨d, -, hd⟩ := List.mem_flatMap.mp hc
      exact eq_space_of_mem_escape hd hblank
  · obtain rfl := List.mem_singleton.mp hc
    exact absurd hblank (by decide)

/-! ## Reasons -/

/-- The token that a reason names has no blank. -/
theorem Faulty.unblank_token {line : String} {fault : Fault} (h : Faulty line (tokens line) fault)
    {name : String} (hname : fault.reason.token? = some name) : ∀ c ∈ name.toList, isBlank c = false := by
  rcases h.span_cases with ⟨hnil, -⟩ | ⟨t, ht, -, htoken⟩
  · rw [hnil] at h
    cases h with
    | blank =>
      obtain rfl := Option.some.inj hname
      nofun
  · rw [htoken name hname]
    exact unblank_of_mem_tokens ht

/-- A message breaks the line only where the token in it does. -/
theorem Reason.isOneLine_message {reason : Reason}
    (h : ∀ name, reason.token? = some name → IsOneLine name) : IsOneLine reason.message := by
  unfold message
  cases reason with
  | invalidCommand name =>
    simp only [isOneLine_append, isOneLine_quote, and_true]
    decide
  | malformedLine =>
    dsimp only
    decide
  | missingArguments keyword found =>
    simp only [isOneLine_append, Keyword.isOneLine_name, isOneLine_repr, and_true]
    decide
  | unexpectedArgument keyword token =>
    simp only [isOneLine_append, Keyword.isOneLine_name, h token rfl, and_true]
    decide
  | notAnInteger keyword position token =>
    simp only [isOneLine_append, Keyword.isOneLine_name, isOneLine_repr, h token rfl, and_true]
    decide
  | invalidColor token =>
    simp only [isOneLine_append, h token rfl, and_true]
    decide
  | invalidFillMode token =>
    simp only [isOneLine_append, h token rfl, and_true]
    decide

theorem isOneLine_of_parse_error {line : String} {fault : Fault} (h : Command.parse line = .error fault) :
    IsOneLine fault.reason.message :=
  Reason.isOneLine_message fun _ hname =>
    isOneLine_of_unblank ((Command.parse_eq_error_iff.mp h).unblank_token hname)

theorem isOneLine_of_checkedCommand_error {line : String} {fault : Fault}
    (h : checkedCommand line = .error fault) : IsOneLine fault.reason.message := by
  rcases checkedCommand_error_cases h with hparse | ⟨pos, rfl, -⟩
  · exact isOneLine_of_parse_error hparse
  · exact Reason.isOneLine_message nofun

/-! ## Errors -/

section Errors

variable {phase : Phase}

/-- The texts of an error: its message, and the label of its span. -/
def LineError.texts (e : LineError phase) : List String :=
  [e.message, e.label.text]

theorem LineError.isOneLine_of_mem_texts {e : LineError phase} (h : IsOneLine e.reason.message) :
    ∀ text ∈ e.texts, IsOneLine text := by
  have hheadline : IsOneLine phase.headline := by cases phase <;> decide
  have hmessage : IsOneLine e.message := by
    simp only [message, isOneLine_append, hheadline, isOneLine_repr, h, and_true]
    decide
  simp only [texts, List.forall_mem_cons, List.not_mem_nil, false_implies, implies_true, and_true]
  exact ⟨hmessage, h⟩

theorem isOneLine_of_checkLine_error {number : Nat} {line : String} {e : CheckError}
    (h : checkLine number line = .error e) : ∀ text ∈ e.texts, IsOneLine text := by
  obtain ⟨fault, hfault, rfl⟩ := checkLine_eq_error_iff.mp h
  exact LineError.isOneLine_of_mem_texts (isOneLine_of_checkedCommand_error hfault)

variable {σ : Type} [Surface σ]

theorem Session.isOneLine_of_runLine_error {session : Session σ} {number : Nat} {line : String} {e : RunError}
    (h : (session.runLine number line).1 = .error e) : ∀ text ∈ e.texts, IsOneLine text := by
  obtain ⟨fault, hfault, rfl⟩ := exists_fault_of_runLine_error h
  exact LineError.isOneLine_of_mem_texts (isOneLine_of_parse_error hfault)

/-- A text of the error that some line has when it is checked, or when it is run on a surface of this kind. -/
def IsReported (σ : Type) [Surface σ] (text : String) : Prop :=
  (∃ (number : Nat) (line : String) (e : CheckError), checkLine number line = .error e ∧ text ∈ e.texts) ∨
    ∃ (session : Session σ) (number : Nat) (line : String) (e : RunError),
      (session.runLine number line).1 = .error e ∧ text ∈ e.texts

theorem IsReported.isOneLine {text : String} (h : IsReported σ text) : IsOneLine text := by
  rcases h with ⟨number, line, e, h, htext⟩ | ⟨session, number, line, e, h, htext⟩
  · exact isOneLine_of_checkLine_error h text htext
  · exact Session.isOneLine_of_runLine_error h text htext

/-- Texts on one line each are the lines that they are written as. -/
theorem cutLines_joinLines_of_isOneLine {texts : List String} (h : ∀ text ∈ texts, IsOneLine text) :
    cutLines (joinLines (texts.map String.toList)) = texts.map String.toList := by
  refine cutLines_joinLines_iff.mpr (List.forall_mem_map.mpr fun text htext => ⟨?_, fun hlast => ?_⟩)
  · exact h text htext '\n' (by decide)
  · exact h text htext '\r' (by decide) (List.mem_of_getLast? hlast)

end Errors

/-- **Messages on one line.** Whatever a line holds, the error it has when it is checked, or when it is run, has no
line feed, carriage return, tab or form feed in its message or its label. A log that has one such text on each
line, behind any other text without these, is therefore cut into just these lines again. -/
theorem messages_on_one_line {σ : Type} [Surface σ] (session : Session σ) (number : Nat) (line : String) :
    (∀ e, checkLine number line = .error e → IsOneLine e.message ∧ IsOneLine e.label.text) ∧
    (∀ e, (session.runLine number line).1 = .error e → IsOneLine e.message ∧ IsOneLine e.label.text) ∧
    ∀ log : List (String × String), (∀ entry ∈ log, IsOneLine entry.1 ∧ IsReported σ entry.2) →
      let lines := log.map fun entry => entry.1 ++ entry.2
      cutLines (joinLines (lines.map String.toList)) = lines.map String.toList := by
  refine ⟨?_, ?_, ?_⟩
  · intro e h
    have htexts := isOneLine_of_checkLine_error h
    exact ⟨htexts e.message (by simp [LineError.texts]), htexts e.label.text (by simp [LineError.texts])⟩
  · intro e h
    have htexts := Session.isOneLine_of_runLine_error h
    exact ⟨htexts e.message (by simp [LineError.texts]), htexts e.label.text (by simp [LineError.texts])⟩
  · intro log hlog lines
    refine cutLines_joinLines_of_isOneLine (List.forall_mem_map.mpr fun entry hentry => ?_)
    obtain ⟨hfront, hreported⟩ := hlog entry hentry
    exact isOneLine_append.mpr ⟨hfront, hreported.isOneLine⟩

end PenPlot
