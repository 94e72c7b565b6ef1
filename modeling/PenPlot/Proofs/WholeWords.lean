import Mathlib.Data.List.Induction
import Mathlib.Data.List.Sort
import PenPlot.Proofs.Past
import PenPlot.Proofs.Slices

/-!
# Tokens as whole words

A word of a line is a stretch of unblank characters that cannot be made longer (`IsWholeWord`). Two words that share
a character are one and the same (`IsWholeWord.eq_of_covers`). So only one list of spans is in order, has nothing
but words and leaves out nothing but blanks (`AreWords.unique`), and the tokens have it (`areWords_tokens`): whatever
else takes a line apart like that finds the tokens. In particular, words that are set with blanks between them are
the tokens of the line that they make (`Layout.tokens_line`).
-/

namespace PenPlot.Text

/-! ## Characters by their position -/

/-- At byte `pos` of the line the character `c` begins. -/
def StandsAt (line : String) (pos : Nat) (c : Char) : Prop :=
  ∃ front back, line.toList = front ++ c :: back ∧ byteLength front = pos

/-- The byte is one of the span. -/
def Span.Covers (span : Span) (pos : Nat) : Prop :=
  span.start ≤ pos ∧ pos < span.stop

section Positions

variable {line word : String} {span : Span} {pos start stop : Nat} {c : Char}

/-- From one boundary to another there are characters. -/
theorem exists_between (hstart : IsBoundary line start) (hstop : IsBoundary line stop) (hlt : start < stop) :
    ∃ front mid back, line.toList = front ++ (mid ++ back) ∧ mid ≠ [] ∧ byteLength front = start ∧
      byteLength front + byteLength mid = stop := by
  obtain ⟨front, rest, hline, rfl⟩ := isBoundary_iff.mp hstart
  obtain ⟨front', back, hline', rfl⟩ := isBoundary_iff.mp hstop
  obtain ⟨mid, rfl, rfl⟩ := exists_append_of_byteLength_le (hline.symm.trans hline') (Nat.le_of_lt hlt)
  refine ⟨front, mid, back, hline, ?_, rfl, (byteLength_append front mid).symm⟩
  rintro rfl
  simp at hlt

theorem exists_standsAt (hstart : IsBoundary line start) (hstop : IsBoundary line stop) (hlt : start < stop) :
    ∃ c, StandsAt line start c := by
  obtain ⟨front, mid, back, hline, hmid, rfl, -⟩ := exists_between hstart hstop hlt
  obtain ⟨c, mid, rfl⟩ := List.exists_cons_of_ne_nil hmid
  exact ⟨c, front, mid ++ back, hline, rfl⟩

theorem exists_standsAt_before (hstart : IsBoundary line start) (hstop : IsBoundary line stop)
    (hlt : start < stop) : ∃ pos c, StandsAt line pos c ∧ start ≤ pos ∧ pos + c.utf8Size = stop := by
  obtain ⟨front, mid, back, hline, hmid, rfl, rfl⟩ := exists_between hstart hstop hlt
  obtain ⟨mid, c, rfl⟩ : ∃ mid' c, mid = mid' ++ [c] := ⟨_, _, (List.dropLast_append_getLast hmid).symm⟩
  refine ⟨byteLength (front ++ mid), c, ⟨front ++ mid, back, ?_, rfl⟩, ?_, ?_⟩
  · rw [hline]
    simp only [List.append_assoc, List.singleton_append]
  · rw [byteLength_append]
    omega
  · simp only [byteLength_append, byteLength_cons, byteLength_nil]
    omega

/-- A character within a span is one of those that it cuts out. -/
theorem mem_of_standsAt (hslice : span.slice? line = some word) (hc : StandsAt line pos c)
    (hpos : span.Covers pos) : c ∈ word.toList := by
  obtain ⟨front, back, hline, hstart, hstop⟩ := slice?_eq_some_iff.mp hslice
  obtain ⟨front', back', hline', rfl⟩ := hc
  obtain ⟨hle, hlt⟩ := hpos
  obtain ⟨mid, rfl, hmid⟩ := exists_append_of_byteLength_le (hline.symm.trans hline') (by omega)
  rw [byteLength_append] at hlt
  exact mem_of_byteLength_lt hmid (by omega)

end Positions

/-! ## Words -/

/-- The span cuts `word` out of the line, which is unblank and has a blank or an end of the line on both sides. -/
structure IsWholeWord (line : String) (span : Span) (word : String) : Prop where
  slice : span.slice? line = some word
  ne_empty : word ≠ ""
  unblank : ∀ c ∈ word.toList, isBlank c = false
  before : ∀ pos c, StandsAt line pos c → pos + c.utf8Size = span.start → isBlank c = true
  behind : ∀ c, StandsAt line span.stop c → isBlank c = true

namespace IsWholeWord

variable {line word word' : String} {span span' : Span} {pos : Nat}

theorem isBoundary (h : IsWholeWord line span word) :
    IsBoundary line span.start ∧ IsBoundary line span.stop :=
  (exists_slice?_iff.mp ⟨word, h.slice⟩).2

/-- At the start of a word there is a character that is not blank. -/
theorem exists_unblank (h : IsWholeWord line span word) :
    span.Covers span.start ∧ ∃ c, StandsAt line span.start c ∧ isBlank c = false := by
  obtain ⟨front, back, hline, hstart, hstop⟩ := slice?_eq_some_iff.mp h.slice
  obtain ⟨c, cs, hword⟩ := List.exists_cons_of_ne_nil (mt String.toList_eq_nil_iff.mp h.ne_empty)
  have hpos := c.utf8Size_pos
  rw [hword] at hline hstop
  rw [byteLength_cons] at hstop
  refine ⟨⟨Nat.le_refl _, by omega⟩, c, ⟨front, cs ++ back, hline, hstart.symm⟩, ?_⟩
  exact h.unblank c (by simp [hword])

/-- Where words share a byte, neither begins behind the other: a blank is in front of each. -/
theorem start_le (h : IsWholeWord line span word) (h' : IsWholeWord line span' word') (hpos : span.Covers pos)
    (hpos' : span'.Covers pos) : span'.start ≤ span.start := by
  by_contra hlt
  obtain ⟨pos', c, hc, hle, hadd⟩ :=
    exists_standsAt_before h.isBoundary.1 h'.isBoundary.1 (Nat.lt_of_not_le hlt)
  have hcover : span.Covers pos' := by
    have hsize := c.utf8Size_pos
    have hstop := hpos.2
    have hstart := hpos'.1
    exact ⟨hle, by omega⟩
  exact absurd (h'.before pos' c hc hadd) (by simp [h.unblank c (mem_of_standsAt h.slice hc hcover)])

/-- Nor does one end in front of the end of the other. -/
theorem stop_le (h : IsWholeWord line span word) (h' : IsWholeWord line span' word') (hpos : span.Covers pos)
    (hpos' : span'.Covers pos) : span'.stop ≤ span.stop := by
  by_contra hlt
  obtain ⟨c, hc⟩ := exists_standsAt h.isBoundary.2 h'.isBoundary.2 (Nat.lt_of_not_le hlt)
  have hcover : span'.Covers span.stop := by
    have hstop := hpos.2
    have hstart := hpos'.1
    exact ⟨by omega, by omega⟩
  exact absurd (h.behind c hc) (by simp [h'.unblank c (mem_of_standsAt h'.slice hc hcover)])

theorem eq_of_covers (h : IsWholeWord line span word) (h' : IsWholeWord line span' word')
    (hpos : span.Covers pos) (hpos' : span'.Covers pos) : span = span' := by
  have hstart := Nat.le_antisymm (h'.start_le h hpos' hpos) (h.start_le h' hpos hpos')
  have hstop := Nat.le_antisymm (h'.stop_le h hpos' hpos) (h.stop_le h' hpos hpos')
  obtain ⟨start, stop⟩ := span
  obtain ⟨start', stop'⟩ := span'
  exact congrArg₂ Span.mk hstart hstop

end IsWholeWord

/-! ## All words of a line -/

/-- One span lies in front of another, and the two do not overlap. -/
def Span.Precedes (a b : Span) : Prop :=
  a.start < b.start ∧ a.stop ≤ b.start

instance : Std.Asymm Span.Precedes where
  asymm _ _ hab hba := Nat.lt_asymm hab.1 hba.1

/-- The spans are words of the line, in order, and all that they leave out is blank. -/
structure AreWords (line : String) (spans : List Span) : Prop where
  word : ∀ span ∈ spans, ∃ word, IsWholeWord line span word
  ordered : spans.Pairwise Span.Precedes
  outside : ∀ pos c, StandsAt line pos c → (∀ span ∈ spans, ¬ span.Covers pos) → isBlank c = true

namespace AreWords

variable {line word : String} {span : Span} {spans spans' : List Span}

/-- No word is left out. -/
theorem mem_iff (h : AreWords line spans) : span ∈ spans ↔ ∃ word, IsWholeWord line span word := by
  refine ⟨h.word span, ?_⟩
  rintro ⟨word, hword⟩
  obtain ⟨hcover, c, hc, hunblank⟩ := hword.exists_unblank
  by_contra hout
  refine absurd (h.outside span.start c hc fun span' hmem hcover' => ?_) (by simp [hunblank])
  obtain ⟨word', hword'⟩ := h.word span' hmem
  exact hout (hword.eq_of_covers hword' hcover hcover' ▸ hmem)

theorem unique (h : AreWords line spans) (h' : AreWords line spans') : spans = spans' :=
  h.ordered.eq_of_mem_iff h'.ordered fun _ => h.mem_iff.trans h'.mem_iff.symm

end AreWords

/-! ## Tokens -/

section Tokens

variable {line word : String} {span : Span} {pos : Nat} {cs front back : List Char} {ts : List Token}

/-- A longest stretch of unblank characters is a word where it stands. -/
theorem IsRun.isWholeWord (h : IsRun front word.toList back)
    (hline : line.toList = front ++ (word.toList ++ back)) (hstart : span.start = byteLength front)
    (hstop : span.stop = byteLength front + byteLength word.toList) : IsWholeWord line span word where
  slice := slice?_eq_some_iff.mpr ⟨front, back, hline, hstart, hstop⟩
  ne_empty := mt String.toList_eq_nil_iff.mpr h.ne_nil
  unblank := h.unblank
  before := by
    rintro _ c ⟨front', back', hline', rfl⟩ hadd
    have hcut : (front' ++ [c]) ++ back' = front ++ (word.toList ++ back) := by
      rw [← hline, hline', List.append_assoc, List.singleton_append]
    have hlength : byteLength (front' ++ [c]) = byteLength front := by
      rw [byteLength_append, byteLength_cons, byteLength_nil, Nat.add_zero, hadd, hstart]
    obtain ⟨rfl, -⟩ := append_inj_of_byteLength_eq hcut hlength
    exact h.before c (by simp)
  behind := by
    rintro c ⟨front', back', hline', hlength⟩
    have hcut : front' ++ c :: back' = (front ++ word.toList) ++ back := by
      rw [← hline', hline, List.append_assoc]
    rw [hstop, ← byteLength_append] at hlength
    obtain ⟨-, rfl⟩ := append_inj_of_byteLength_eq hcut hlength
    exact h.behind c rfl

theorem isWholeWord_of_mem_tokens {t : Token} (h : t ∈ tokens line) : IsWholeWord line t.span t.text := by
  obtain ⟨front, back, hline, hstart, hrun⟩ := (spaced_tokensAt 0 line.toList).exists_isRun h
  rw [Nat.zero_add] at hstart
  refine hrun.isWholeWord hline hstart ?_
  rw [← hstart, byteLength_toList]
  rfl

theorem Spaced.ordered (h : Spaced pos cs ts) : (ts.map Token.span).Pairwise Span.Precedes := by
  induction h with
  | blanks => exact .nil
  | @word pos blanks word rest ts _ hne _ _ hrest ih =>
    rw [List.map_cons, List.pairwise_cons]
    refine ⟨List.forall_mem_map.mpr fun t ht => ?_, ih⟩
    obtain ⟨front, back, -, hstart, -⟩ := hrest.exists_isRun ht
    have hpos := byteLength_pos hne
    simp only [Span.Precedes, Token.span, utf8ByteSize_ofList]
    omega

/-- A character is blank or in a token. -/
theorem Spaced.blank_or_covers {c : Char} (h : Spaced pos cs ts) (hcs : cs = front ++ c :: back) :
    isBlank c = true ∨ ∃ t ∈ ts, t.span.Covers (pos + byteLength front) := by
  induction h generalizing front with
  | blanks hblanks => exact .inl (hblanks c (by simp [hcs]))
  | @word pos blanks word rest ts hblanks _ _ _ _ ih =>
    by_cases hlt : byteLength front < byteLength blanks
    · exact .inl (hblanks c (mem_of_byteLength_lt hcs hlt))
    obtain ⟨mid, rfl, hmid⟩ := exists_append_of_byteLength_le hcs (Nat.le_of_not_lt hlt)
    rw [byteLength_append, ← Nat.add_assoc]
    by_cases hlt' : byteLength mid < byteLength word
    · refine .inr ⟨_, List.mem_cons_self, ?_⟩
      simp only [Span.Covers, Token.span, utf8ByteSize_ofList]
      omega
    obtain ⟨mid', rfl, hrest⟩ := exists_append_of_byteLength_le hmid (Nat.le_of_not_lt hlt')
    rw [byteLength_append, ← Nat.add_assoc]
    refine (ih hrest).imp_right ?_
    rintro ⟨t, ht, hcover⟩
    exact ⟨t, List.mem_cons_of_mem _ ht, hcover⟩

theorem areWords_tokens (line : String) : AreWords line ((tokens line).map Token.span) where
  word := List.forall_mem_map.mpr fun t ht => ⟨t.text, isWholeWord_of_mem_tokens ht⟩
  ordered := (spaced_tokensAt 0 line.toList).ordered
  outside := by
    rintro _ c ⟨front, back, hline, rfl⟩ hout
    refine ((spaced_tokensAt 0 line.toList).blank_or_covers hline).resolve_right ?_
    rintro ⟨t, ht, hcover⟩
    rw [Nat.zero_add] at hcover
    exact hout t.span (List.mem_map_of_mem ht) hcover

theorem areWords_iff {spans : List Span} : AreWords line spans ↔ spans = (tokens line).map Token.span :=
  ⟨fun h => h.unique (areWords_tokens line), fun h => h ▸ areWords_tokens line⟩

end Tokens

/-! ## Words with blanks between them -/

/-- One behind the other, the words of a row, each behind its gap. -/
def rowText (row : List (String × String)) : String :=
  String.join (row.map fun entry => entry.1 ++ entry.2)

/-- Words, each with a gap of blanks in front of it, and blanks behind the last one. There is a blank between any two
words, but there need be none at either end. -/
structure Layout where
  row : List (String × String)
  ending : String
  blank_gap : ∀ entry ∈ row, ∀ c ∈ entry.1.toList, isBlank c = true
  gap_ne_empty : ∀ entry ∈ row.tail, entry.1 ≠ ""
  word_ne_empty : ∀ entry ∈ row, entry.2 ≠ ""
  unblank_word : ∀ entry ∈ row, ∀ c ∈ entry.2.toList, isBlank c = false
  blank_ending : ∀ c ∈ ending.toList, isBlank c = true

namespace Layout

def line (layout : Layout) : String :=
  rowText layout.row ++ layout.ending

/-- The words, each at the byte behind all that is in front of it. -/
def tokens (layout : Layout) : List Token :=
  (withPast layout.row).map fun (before, gap, word) => ⟨word, (rowText before ++ gap).utf8ByteSize⟩

end Layout

section Rows

variable {gap word : String}

theorem rowText_concat (row : List (String × String)) (entry : String × String) :
    rowText (row ++ [entry]) = rowText row ++ (entry.1 ++ entry.2) := by
  simp [rowText]

theorem tokensAt_gap_word (hgap : ∀ c ∈ gap.toList, isBlank c = true) (hne : word ≠ "")
    (hword : ∀ c ∈ word.toList, isBlank c = false) (pos : Nat) :
    tokensAt pos (gap ++ word).toList = [⟨word, pos + gap.utf8ByteSize⟩] := by
  have hlist : word.toList ≠ [] := mt String.toList_eq_nil_iff.mp hne
  have hend : ∀ c ∈ [].head?, isBlank c = true := nofun
  have hone := tokensAt_word hlist hword hend (pos + byteLength gap.toList)
  rw [List.append_nil, tokensAt_nil, String.ofList_toList, byteLength_toList] at hone
  rw [String.toList_append, tokensAt_blanks hgap, byteLength_toList, hone]

end Rows

theorem Layout.tokens_line (layout : Layout) : Text.tokens layout.line = layout.tokens := by
  obtain ⟨row, ending, hgaps, hapart, hne, hwords, hending⟩ := layout
  unfold line tokens Text.tokens
  dsimp only at *
  rw [String.toList_append, tokensAt_append_blanks hending]
  clear hending
  -- from the last word backwards, since what stands in front of it decides where it begins
  induction row using List.reverseRecOn with
  | nil => rfl
  | append_singleton row entry ih =>
    obtain ⟨gap, word⟩ := entry
    have hgap := hgaps (gap, word) (by simp)
    have hlast := tokensAt_gap_word hgap (hne (gap, word) (by simp)) (hwords (gap, word) (by simp))
    rw [rowText_concat, withPast_concat, List.map_append, String.toList_append]
    by_cases hrow : row = []
    · subst hrow
      simpa [rowText, withPast_nil] using hlast 0
    · rw [List.tail_append_of_ne_nil hrow] at hapart
      have hhead : ∀ c ∈ (gap ++ word).toList.head?, isBlank c = true := by
        rw [String.toList_append]
        have hlist := mt String.toList_eq_nil_iff.mp (hapart (gap, word) (by simp))
        exact fun c hc => hgap c (mem_of_mem_head?_append hlist hc)
      have hrest := ih (fun e he => hgaps e (by simp [he])) (fun e he => hapart e (by simp [he]))
        (fun e he => hne e (by simp [he])) fun e he => hwords e (by simp [he])
      rw [tokensAt_append hhead, hrest, hlast, Nat.zero_add, byteLength_toList]
      simp

/-- **Exact tokens.** Each token is a whole word of the line, cut out between two boundaries. The spans of the tokens
are the words in order, with only blanks outside, and no other list of spans is like that. So words of any
characters but blanks, with blanks between them, are the tokens of the line that they make, each at its byte. -/
theorem tokens_whole_words (line : String) :
    (∀ t ∈ tokens line,
      IsWholeWord line t.span t.text ∧ IsBoundary line t.span.start ∧ IsBoundary line t.span.stop) ∧
    (∀ spans, AreWords line spans ↔ spans = (tokens line).map Token.span) ∧
    ∀ layout : Layout, tokens layout.line = layout.tokens := by
  refine ⟨fun t ht => ?_, fun spans => areWords_iff, Layout.tokens_line⟩
  have hword := isWholeWord_of_mem_tokens ht
  exact ⟨hword, hword.isBoundary⟩

-- a vertical tab is a character of a word, and the first word takes three bytes
example : tokens "é\x0b\tx" = [⟨"é\x0b", 0⟩, ⟨"x", 4⟩] := by decide

end PenPlot.Text
