import PenPlot.Proofs.Openings

/-!
# Spans that can be cut out

An error carries its line and a span of it. What a run reports can always be cut out of the line, for a fault
of reading lies in a token or in the whole line. A check also reports malformed lines, and the span of these
is the byte at which the line stops being well shaped. It begins at a boundary and stays in the line, but it
ends inside a character where that character has several bytes (`uncut_iff`).
-/

namespace PenPlot

open Text LineShape

/-- Behind its longest opening the line goes on with a character of several bytes. -/
def StopsAtWide (line : String) : Prop :=
  ∃ front c back, line.toList = front ++ c :: back ∧ IsLongest IsOpening line.toList front ∧
    1 < c.utf8Size

section Lines

variable {line : String} {front back : List Char} {c : Char} {pos : Nat}

/-! ## The span of a malformed line -/

theorem malformedSpan_append (hline : line.toList = front ++ c :: back) :
    malformedSpan line (byteLength front) = ⟨byteLength front, byteLength front + 1⟩ := by
  have hsize : byteLength front + (c.utf8Size + byteLength back) = line.utf8ByteSize := by
    rw [← byteLength_toList, hline, byteLength_append, byteLength_cons]
  have hpos := c.utf8Size_pos
  refine (malformedSpan_eq_iff (by omega)).mpr ⟨rfl, ?_⟩
  rw [if_neg (by dsimp only; omega)]

/-- At the end of a line nothing is cut out. -/
theorem exists_slice?_malformedSpan_end (line : String) :
    ∃ piece, (malformedSpan line line.utf8ByteSize).slice? line = some piece := by
  have hspan : malformedSpan line line.utf8ByteSize = ⟨line.utf8ByteSize, line.utf8ByteSize⟩ :=
    (malformedSpan_eq_iff (Nat.le_refl _)).mpr ⟨rfl, by simp⟩
  obtain ⟨-, -, hend⟩ := exists_slice?_iff.mp ⟨line, slice?_whole line⟩
  rw [hspan]
  exact exists_slice?_iff.mpr ⟨Nat.le_refl _, hend, hend⟩

/-- One byte can be cut out just where it is a character. -/
theorem slice?_malformedSpan_append (hline : line.toList = front ++ c :: back) :
    (malformedSpan line (byteLength front)).slice? line = none ↔ 1 < c.utf8Size := by
  have hfront : IsBoundary line (byteLength front) := isBoundary_iff.mpr ⟨front, _, hline, rfl⟩
  have hpos := c.utf8Size_pos
  rw [malformedSpan_append hline, Option.eq_none_iff_forall_ne_some, ← not_exists, exists_slice?_iff,
    isBoundary_add_one_iff hline]
  constructor
  · intro h
    by_contra hno
    exact h ⟨Nat.le_succ _, hfront, by omega⟩
  · rintro h ⟨-, -, hone⟩
    omega

/-! ## Where a line stops being well shaped -/

theorem utf8Size_of_isBlank (h : isBlank c = true) : c.utf8Size = 1 := by
  simp only [isBlank, Bool.or_eq_true, beq_iff_eq] at h
  rcases h with (((rfl | rfl) | rfl) | rfl) | rfl <;> rfl

/-- A line that names a command but does not begin with its keyword begins with a blank. -/
theorem exists_blank_of_namesCommand (hnames : NamesCommand line)
    (hno : ∀ (k : Keyword) (name : List Char), name <+: line.toList → fold name ≠ k.name.toList) :
    ∃ b back, line.toList = b :: back ∧ isBlank b = true := by
  obtain ⟨head, words, k, htokens, hk⟩ := hnames
  have hspaced : Spaced 0 line.toList (head :: words) := spaced_iff.mpr htokens.symm
  generalize line.toList = cs at hno hspaced
  cases hspaced with
  | @word _ blanks word rest _ hblanks =>
    cases blanks with
    | nil =>
      rw [Spells, String.toList_ofList, Keyword.fold_name] at hk
      exact absurd hk (hno k word (List.prefix_append word rest))
    | cons b blanks => exact ⟨b, _, rfl, hblanks b (by simp)⟩

theorem stopsAtWide_iff_of_isLongest (hfront : IsLongest IsOpening line.toList front) :
    StopsAtWide line ↔ ∃ c back, line.toList = front ++ c :: back ∧ 1 < c.utf8Size := by
  constructor
  · rintro ⟨front', c, back, hline, hfront', hwide⟩
    obtain rfl := hfront.unique hfront'
    exact ⟨c, back, hline, hwide⟩
  · rintro ⟨c, back, hline, hwide⟩
    exact ⟨front, c, back, hline, hfront, hwide⟩

theorem StopsAtWide.not_wellShaped (h : StopsAtWide line) : ¬ WellShaped line.toList := by
  obtain ⟨front, c, back, hline, hfront, -⟩ := h
  intro hshape
  have hle := hfront.longest line.toList List.prefix_rfl (isOpening_of_wellShaped hshape)
  rw [hline, List.length_append, List.length_cons] at hle
  omega

theorem slice?_malformedSpan_eq_none_iff (hnames : NamesCommand line) (h : BlamedAt line.toList pos) :
    (malformedSpan line pos).slice? line = none ↔ StopsAtWide line := by
  cases h with
  | @opening front hfront =>
    rw [stopsAtWide_iff_of_isLongest hfront]
    obtain ⟨rest, hline⟩ := hfront.begins
    cases rest with
    | nil =>
      rw [List.append_nil] at hline
      subst hline
      obtain ⟨piece, hpiece⟩ := exists_slice?_malformedSpan_end line
      rw [byteLength_toList, hpiece]
      refine iff_of_false (by simp) ?_
      rintro ⟨c, back, heq, -⟩
      exact absurd (List.self_eq_append_right.mp heq) (by simp)
    | cons c back =>
      rw [slice?_malformedSpan_append hline.symm, ← hline]
      constructor
      · intro hwide
        exact ⟨c, back, rfl, hwide⟩
      · rintro ⟨c', back', heq, hwide⟩
        obtain ⟨rfl, -⟩ := List.cons_eq_cons.mp (List.append_cancel_left heq)
        exact hwide
  | start hno =>
    obtain ⟨b, back, hline, hblank⟩ := exists_blank_of_namesCommand hnames hno
    have hone := utf8Size_of_isBlank hblank
    refine iff_of_false ?_ ?_
    · have hcut := slice?_malformedSpan_append (hline.trans (List.nil_append _).symm)
      rw [byteLength_nil] at hcut
      rw [hcut]
      omega
    · rintro ⟨front, c, back, -, hfront, -⟩
      obtain ⟨k, name, hname, hk⟩ := hfront.exists_keyword
      exact hno k name hname hk

/-! ## Faults of a line that is checked -/

/-- The fault is one of reading, or the shape. -/
theorem checkedCommand_error_cases {fault : Fault} (h : checkedCommand line = .error fault) :
    Command.parse line = .error fault ∨
      ∃ pos, fault = ⟨.malformedLine, malformedSpan line pos⟩ ∧ NamesCommand line ∧
        BlamedAt line.toList pos := by
  rcases checkedCommand_cases line with hsame | ⟨⟨span, hspan⟩, -⟩
  · exact .inl (hsame ▸ h)
  · obtain rfl := Except.error.inj (hspan.symm.trans h)
    obtain ⟨pos, hpos, hnames, rfl⟩ := checkedCommand_eq_malformed_iff.mp h
    exact .inr ⟨pos, rfl, hnames, blamedAt_of_parse_error hpos⟩

theorem exists_slice?_of_parse_error {fault : Fault} (h : Command.parse line = .error fault) :
    ∃ piece, fault.span.slice? line = some piece :=
  (Command.parse_eq_error_iff.mp h).exists_slice?

theorem span_bounds {fault : Fault} (h : checkedCommand line = .error fault) :
    fault.span.start ≤ fault.span.stop ∧ fault.span.stop ≤ line.utf8ByteSize ∧
      IsBoundary line fault.span.start := by
  rcases checkedCommand_error_cases h with hparse | ⟨pos, rfl, -, hblamed⟩
  · obtain ⟨hle, hstart, hstop⟩ := exists_slice?_iff.mp (exists_slice?_of_parse_error hparse)
    exact ⟨hle, hstop.le_utf8ByteSize, hstart⟩
  · have hboundary := hblamed.isBoundary
    have hle := hboundary.le_utf8ByteSize
    refine ⟨?_, ?_, hboundary⟩ <;> dsimp only [malformedSpan] <;> omega

theorem exists_malformed (hnames : NamesCommand line) (hwide : StopsAtWide line) :
    ∃ span, checkedCommand line = .error ⟨.malformedLine, span⟩ := by
  obtain ⟨pos, hpos⟩ := exists_parse_error hwide.not_wellShaped
  exact ⟨_, checkedCommand_of_namesCommand hpos hnames⟩

/-- The span of an error cannot be cut out just where the line goes on with a wide character. -/
theorem uncut_iff {fault : Fault} (h : checkedCommand line = .error fault) :
    fault.span.slice? line = none ↔ NamesCommand line ∧ StopsAtWide line := by
  rcases checkedCommand_error_cases h with hparse | ⟨pos, rfl, hnames, hblamed⟩
  · obtain ⟨piece, hpiece⟩ := exists_slice?_of_parse_error hparse
    rw [hpiece]
    refine iff_of_false (by simp) ?_
    rintro ⟨hnames, hwide⟩
    obtain ⟨span, hspan⟩ := exists_malformed hnames hwide
    obtain rfl := Except.error.inj (h.symm.trans hspan)
    exact (Command.parse_eq_error_iff.mp hparse).reason_ne_malformedLine rfl
  · rw [slice?_malformedSpan_eq_none_iff hnames hblamed]
    exact ⟨fun hwide => ⟨hnames, hwide⟩, And.right⟩

end Lines

/-! ## Errors -/

/-- **Cutting out what is reported.** The error of a run carries the line, and its span can be cut out of it.
The error of a check carries the line too, with a span that stays in it and begins at a boundary; it cannot be
cut out just where the line names a command, and goes on behind its longest opening with a character of several
bytes. -/
theorem reported_spans {σ : Type} [Surface σ] (session : Session σ) (number : Nat) (line : String) :
    (∀ e, (session.runLine number line).1 = .error e →
      e.text = line ∧ ∃ piece, e.fault.span.slice? e.text = some piece) ∧
    (∀ e, checkLine number line = .error e →
      e.text = line ∧
        (e.fault.span.start ≤ e.fault.span.stop ∧ e.fault.span.stop ≤ line.utf8ByteSize ∧
          IsBoundary line e.fault.span.start) ∧
        (e.reason ≠ .malformedLine → ∃ piece, e.fault.span.slice? e.text = some piece)) ∧
    ((∃ e, checkLine number line = .error e ∧ e.fault.span.slice? e.text = none) ↔
      NamesCommand line ∧ StopsAtWide line) := by
  refine ⟨?_, ?_, ?_⟩
  · intro e h
    obtain ⟨fault, hparse, rfl⟩ := Session.exists_fault_of_runLine_error h
    exact ⟨rfl, exists_slice?_of_parse_error hparse⟩
  · intro e h
    obtain ⟨fault, hfault, rfl⟩ := checkLine_eq_error_iff.mp h
    refine ⟨rfl, span_bounds hfault, fun hreason => ?_⟩
    rcases checkedCommand_error_cases hfault with hparse | ⟨pos, rfl, -⟩
    · exact exists_slice?_of_parse_error hparse
    · exact absurd rfl hreason
  · constructor
    · rintro ⟨e, h, hcut⟩
      obtain ⟨fault, hfault, rfl⟩ := checkLine_eq_error_iff.mp h
      exact (uncut_iff hfault).mp hcut
    · rintro ⟨hnames, hwide⟩
      obtain ⟨span, hspan⟩ := exists_malformed hnames hwide
      exact ⟨_, checkLine_eq_fault_iff.mpr hspan, (uncut_iff hspan).mpr ⟨hnames, hwide⟩⟩

/-- An accented letter where a word should begin has two bytes, and only the first is reported. -/
theorem checkLine_pen_accent :
    checkLine 1 "pen é" = .error ⟨1, "pen é", .malformedLine, ⟨4, 5⟩⟩ ∧
      Span.slice? "pen é" ⟨4, 5⟩ = none := by
  decide +kernel

end PenPlot
