import Mathlib.Data.List.Basic
import PenPlot.Proofs.Spaced

/-!
# Slices of a line

A part of a line can be cut out between two bytes if both are boundaries, that is, if no character lies
across them. `Span.slice?` is this cut. What it gives is a text that the line consists of together with
what stands before and behind (`slice?_eq_some_iff`); the span of a token gives the token
(`slice?_span_of_mem_tokens`).
-/

namespace PenPlot.Text

/-! ## Boundaries -/

section Cuts

variable {front front' rest rest' : List Char}

theorem byteLength_pos (h : front ≠ []) : 0 < byteLength front := by
  obtain ⟨c, cs, rfl⟩ := List.exists_cons_of_ne_nil h
  have hpos := c.utf8Size_pos
  rw [byteLength_cons]
  omega

/-- Of two cuts through a text, the one that is not behind the other leaves what lies between to its rest. -/
theorem exists_append_of_byteLength_le (h : front ++ rest = front' ++ rest')
    (hle : byteLength front ≤ byteLength front') : ∃ mid, front' = front ++ mid ∧ rest = mid ++ rest' := by
  rcases List.append_eq_append_iff.mp h with hmid | ⟨mid, rfl, rfl⟩
  · exact hmid
  · by_cases hmid : mid = []
    · subst hmid
      exact ⟨[], by simp, by simp⟩
    · have hpos := byteLength_pos hmid
      rw [byteLength_append] at hle
      omega

theorem append_inj_of_byteLength_eq (h : front ++ rest = front' ++ rest')
    (hlength : byteLength front = byteLength front') : front = front' ∧ rest = rest' := by
  obtain ⟨mid, rfl, rfl⟩ := exists_append_of_byteLength_le h (Nat.le_of_eq hlength)
  by_cases hmid : mid = []
  · subst hmid
    exact ⟨by simp, by simp⟩
  · have hpos := byteLength_pos hmid
    rw [byteLength_append] at hlength
    omega

/-- A character that begins in front of a cut stands in front of it. -/
theorem mem_of_byteLength_lt {c : Char} (h : front ++ rest = front' ++ c :: rest')
    (hlt : byteLength front' < byteLength front) : c ∈ front := by
  obtain ⟨mid, rfl, hmid⟩ := exists_append_of_byteLength_le h.symm (Nat.le_of_lt hlt)
  cases mid with
  | nil =>
    rw [List.append_nil] at hlt
    omega
  | cons d mid =>
    obtain ⟨rfl, -⟩ := List.cons_eq_cons.mp hmid
    simp

end Cuts

/-- At byte `pos` a character begins or the line ends. -/
def IsBoundary (line : String) (pos : Nat) : Prop :=
  String.Pos.Raw.IsValid line ⟨pos⟩

instance (line : String) (pos : Nat) : Decidable (IsBoundary line pos) :=
  inferInstanceAs (Decidable (String.Pos.Raw.IsValid line ⟨pos⟩))

section Boundaries

variable {line : String} {pos : Nat}

theorem isBoundary_iff :
    IsBoundary line pos ↔ ∃ front rest, line.toList = front ++ rest ∧ byteLength front = pos := by
  unfold IsBoundary
  rw [String.Pos.Raw.isValid_iff_exists_append]
  constructor
  · rintro ⟨front, rest, rfl, hpos⟩
    refine ⟨front.toList, rest.toList, String.toList_append, ?_⟩
    rw [byteLength_toList]
    exact (congrArg String.Pos.Raw.byteIdx hpos).symm
  · rintro ⟨front, rest, hline, rfl⟩
    refine ⟨String.ofList front, String.ofList rest, ?_, ?_⟩
    · rw [← String.ofList_append, ← hline, String.ofList_toList]
    · rw [← utf8ByteSize_ofList]
      rfl

theorem IsBoundary.le_utf8ByteSize (h : IsBoundary line pos) : pos ≤ line.utf8ByteSize := by
  obtain ⟨front, rest, hline, rfl⟩ := isBoundary_iff.mp h
  rw [← byteLength_toList, hline, byteLength_append]
  omega

/-- The byte behind a boundary is another one just where a character of a single byte stands. -/
theorem isBoundary_add_one_iff {front rest : List Char} {c : Char}
    (hline : line.toList = front ++ c :: rest) :
    IsBoundary line (byteLength front + 1) ↔ c.utf8Size = 1 := by
  rw [isBoundary_iff]
  constructor
  · rintro ⟨front', rest', hline', hlength⟩
    obtain ⟨mid, rfl, hrest⟩ := exists_append_of_byteLength_le (hline.symm.trans hline') (by omega)
    cases mid with
    | nil =>
      rw [List.append_nil] at hlength
      omega
    | cons d mid =>
      obtain ⟨rfl, -⟩ := List.cons_eq_cons.mp hrest
      have hpos := c.utf8Size_pos
      rw [byteLength_append, byteLength_cons] at hlength
      omega
  · intro hc
    refine ⟨front ++ [c], rest, ?_, ?_⟩
    · rw [hline, List.append_assoc, List.singleton_append]
    · rw [byteLength_append, byteLength_cons, byteLength_nil, hc]

end Boundaries

/-! ## What a span cuts out -/

/-- The text between the ends of a span, unless an end lies past the line or inside a character. -/
def Span.slice? (line : String) (span : Span) : Option String :=
  if h : span.start ≤ span.stop ∧ IsBoundary line span.start ∧ IsBoundary line span.stop then
    some (line.slice (line.pos ⟨span.start⟩ h.2.1) (line.pos ⟨span.stop⟩ h.2.2) h.1).copy
  else
    none

section Slices

variable {line piece : String} {span : Span}

theorem exists_slice?_iff :
    (∃ piece, span.slice? line = some piece) ↔
      span.start ≤ span.stop ∧ IsBoundary line span.start ∧ IsBoundary line span.stop := by
  unfold Span.slice?
  split
  next h => exact ⟨fun _ => h, fun _ => ⟨_, rfl⟩⟩
  next h => exact ⟨nofun, fun h' => absurd h' h⟩

theorem slice?_eq_some_iff :
    span.slice? line = some piece ↔
      ∃ front back, line.toList = front ++ (piece.toList ++ back) ∧ span.start = byteLength front ∧
        span.stop = byteLength front + byteLength piece.toList := by
  constructor
  · intro h
    unfold Span.slice? at h
    split at h
    next hspan =>
      obtain ⟨front, back, hstart, hstop⟩ :=
        String.copy_slice_eq_iff_splits.mp ⟨hspan.1, Option.some.inj h⟩
      have hfirst : span.start = front.utf8ByteSize :=
        congrArg String.Pos.Raw.byteIdx hstart.offset_eq_rawEndPos
      have hlast : span.stop = (front ++ piece).utf8ByteSize :=
        congrArg String.Pos.Raw.byteIdx hstop.offset_eq_rawEndPos
      refine ⟨front.toList, back.toList, ?_, ?_, ?_⟩
      · rw [hstart.eq_append, String.toList_append, String.toList_append]
      · rw [byteLength_toList, hfirst]
      · rw [byteLength_toList, byteLength_toList, hlast, String.utf8ByteSize_append]
    · cases h
  · rintro ⟨front, back, hline, hstart, hstop⟩
    have hle : span.start ≤ span.stop := by omega
    have hfirst : IsBoundary line span.start := isBoundary_iff.mpr ⟨front, _, hline, hstart.symm⟩
    have hlast : IsBoundary line span.stop := by
      refine isBoundary_iff.mpr ⟨front ++ piece.toList, back, ?_, ?_⟩
      · rw [hline, List.append_assoc]
      · rw [byteLength_append, hstop]
    have hcut : line = String.ofList front ++ (piece ++ String.ofList back) := by
      rw [← String.toList_inj, hline, String.toList_append, String.toList_append, String.toList_ofList,
        String.toList_ofList]
    have hsplit : (line.pos ⟨span.start⟩ hfirst).Splits (String.ofList front)
        (piece ++ String.ofList back) := by
      refine ⟨hcut, String.Pos.Raw.ext ?_⟩
      show span.start = (String.ofList front).utf8ByteSize
      rw [utf8ByteSize_ofList, hstart]
    have hsplit' : (line.pos ⟨span.stop⟩ hlast).Splits (String.ofList front ++ piece)
        (String.ofList back) := by
      refine ⟨?_, String.Pos.Raw.ext ?_⟩
      · rw [hcut, String.append_assoc]
      · show span.stop = (String.ofList front ++ piece).utf8ByteSize
        rw [String.utf8ByteSize_append, utf8ByteSize_ofList, ← byteLength_toList piece, hstop]
    obtain ⟨hpos, hpiece⟩ := String.copy_slice_eq_iff_splits.mpr ⟨_, _, hsplit, hsplit'⟩
    unfold Span.slice?
    rw [dif_pos ⟨hle, hfirst, hlast⟩, hpiece]

theorem slice?_whole (line : String) : (Span.whole line).slice? line = some line := by
  refine slice?_eq_some_iff.mpr ⟨[], [], ?_, rfl, ?_⟩
  · rw [List.nil_append, List.append_nil]
  · show line.utf8ByteSize = byteLength [] + byteLength line.toList
    rw [byteLength_nil, byteLength_toList, Nat.zero_add]

example : Span.slice? "pen é" ⟨4, 6⟩ = some "é" ∧ Span.slice? "pen é" ⟨4, 5⟩ = none := by decide

end Slices

/-! ## Tokens -/

/-- Between `front` and `back`, `word` is a longest stretch of unblank characters. -/
structure IsRun (front word back : List Char) : Prop where
  ne_nil : word ≠ []
  unblank : ∀ c ∈ word, isBlank c = false
  before : ∀ c ∈ front.getLast?, isBlank c = true
  behind : ∀ c ∈ back.head?, isBlank c = true

theorem IsRun.append_front {front word back : List Char} (h : IsRun front word back)
    (hstop : ∀ c ∈ (front ++ (word ++ back)).head?, isBlank c = true) (before : List Char) :
    IsRun (before ++ front) word back := by
  refine ⟨h.ne_nil, h.unblank, ?_, h.behind⟩
  cases front with
  | nil =>
    -- the blank at the start would be a character of the word
    obtain ⟨c, word, rfl⟩ := List.exists_cons_of_ne_nil h.ne_nil
    exact absurd (hstop c rfl) (by simp [h.unblank c])
  | cons c front =>
    rw [List.getLast?_append_of_ne_nil _ (List.cons_ne_nil c front)]
    exact h.before

/-- A token stands in its text where it says, and goes as far as it can. -/
theorem Spaced.exists_isRun {pos : Nat} {cs : List Char} {ts : List Token} (h : Spaced pos cs ts)
    {t : Token} (ht : t ∈ ts) :
    ∃ front back, cs = front ++ (t.text.toList ++ back) ∧ t.start = pos + byteLength front ∧
      IsRun front t.text.toList back := by
  induction h with
  | blanks => cases ht
  | @word pos blanks word rest ts hblanks hne hword hstop _ ih =>
    rcases List.mem_cons.mp ht with rfl | ht
    · refine ⟨blanks, rest, ?_, rfl, ?_⟩
      · rw [String.toList_ofList]
      · rw [String.toList_ofList]
        exact ⟨hne, hword, fun c hc => hblanks c (List.mem_of_mem_getLast? hc), hstop⟩
    · obtain ⟨front, back, rfl, hstart, hrun⟩ := ih ht
      refine ⟨blanks ++ (word ++ front), back, ?_, ?_, ?_⟩
      · simp only [List.append_assoc]
      · rw [hstart, byteLength_append, byteLength_append]
        omega
      · rw [← List.append_assoc]
        exact hrun.append_front hstop (blanks ++ word)

theorem unblank_of_mem_tokens {line : String} {t : Token} (h : t ∈ tokens line) :
    ∀ c ∈ t.text.toList, isBlank c = false := by
  obtain ⟨front, back, -, -, hrun⟩ := (spaced_tokensAt 0 line.toList).exists_isRun h
  exact hrun.unblank

theorem slice?_span_of_mem_tokens {line : String} {t : Token} (h : t ∈ tokens line) :
    t.span.slice? line = some t.text := by
  obtain ⟨front, back, hline, hstart, -⟩ := (spaced_tokensAt 0 line.toList).exists_isRun h
  rw [Nat.zero_add] at hstart
  refine slice?_eq_some_iff.mpr ⟨front, back, hline, hstart, ?_⟩
  show t.start + t.text.utf8ByteSize = byteLength front + byteLength t.text.toList
  rw [hstart, byteLength_toList]

end PenPlot.Text
