import PenPlot.Proofs.Checker
import PenPlot.Proofs.LineLanguage

/-!
# How much stricter the check is

A line can be read as a command although it is malformed. Among the lines that begin with a keyword, the
well-shaped ones are told by their blanks and their further words (`wellShaped_iff`), and every word that
is read as an argument is a word of the grammar (`Slot.isWord_of_read?`). So a line that reads as a
command is malformed only because of its blanks or of words that nothing reads.
-/

namespace PenPlot

open Text LineShape

/-! ## Blanks -/

/-- Blanks only between words, and no other blanks than spaces and tabs. -/
structure Tidy (cs : List Char) : Prop where
  first : ∀ c ∈ cs.head?, isBlank c = false
  last : ∀ c ∈ cs.getLast?, isBlank c = false
  inner : ∀ c ∈ cs, isBlank c = true → isGap c = true

section Blanks

variable {cs : List Char}

theorem isGap_or_of_isBlank {c : Char} (h : isBlank c = true) :
    isGap c = true ∨ c = '\n' ∨ c = '\r' ∨ c = '\x0c' := by
  simp only [isBlank, isGap, Bool.or_eq_true, beq_iff_eq] at h ⊢
  tauto

theorem not_tidy_iff : ¬ Tidy cs ↔
    (∃ c ∈ cs.head?, isBlank c = true) ∨ (∃ c ∈ cs.getLast?, isBlank c = true) ∨
      ∃ c ∈ cs, c = '\n' ∨ c = '\r' ∨ c = '\x0c' := by
  constructor
  · intro h
    by_contra hno
    simp only [not_or, not_exists, not_and] at hno
    obtain ⟨hfirst, hlast, hinner⟩ := hno
    refine h ⟨fun c hc => by simpa using hfirst c hc, fun c hc => by simpa using hlast c hc, ?_⟩
    intro c hc hblank
    obtain ⟨hn, hr, hf⟩ := hinner c hc
    rcases isGap_or_of_isBlank hblank with hgap | rfl | rfl | rfl
    · exact hgap
    · exact absurd rfl hn
    · exact absurd rfl hr
    · exact absurd rfl hf
  · rintro (⟨c, hc, hblank⟩ | ⟨c, hc, hblank⟩ | ⟨c, hc, hother⟩) h
    · exact absurd hblank (by simp [h.first c hc])
    · exact absurd hblank (by simp [h.last c hc])
    · have hinner := h.inner c hc
      rcases hother with rfl | rfl | rfl <;> revert hinner <;> decide

end Blanks

/-! ## Well-shaped lines by their tokens -/

section Shape

variable {cs front back : List Char} {groups : List (List Char × List Char)}

theorem mem_of_mem_getLast?_append (hne : back ≠ []) {c : Char}
    (hc : c ∈ (front ++ back).getLast?) : c ∈ back := by
  rw [List.getLast?_append_of_ne_nil _ hne] at hc
  exact List.mem_of_mem_getLast? hc

/-- Groups end in a word. -/
theorem getLast?_groups (h : AreGroups groups) :
    ∀ c ∈ (groups.flatMap groupText).getLast?, isBlank c = false := by
  rcases List.eq_nil_or_concat groups with rfl | ⟨init, ⟨gap, word⟩, rfl⟩
  · nofun
  · have hword : IsWord word := (h (gap, word) (by simp)).2
    intro c hc
    rw [List.concat_eq_append, List.flatMap_append, List.flatMap_singleton, groupText,
      ← List.append_assoc] at hc
    exact hword.unblank c (mem_of_mem_getLast?_append hword.ne_nil hc)

theorem isGap_of_mem_groups (h : AreGroups groups) :
    ∀ c ∈ groups.flatMap groupText, isBlank c = true → isGap c = true := by
  intro c hc hblank
  obtain ⟨group, hmem, hc⟩ := List.mem_flatMap.mp hc
  obtain ⟨⟨-, hgap⟩, hword⟩ := h group hmem
  rcases List.mem_append.mp hc with hc | hc
  · exact hgap c hc
  · exact absurd hblank (by simp [hword.unblank c hc])

theorem tidy_of_wellShaped (h : WellShaped cs) : Tidy cs := by
  obtain ⟨k, name, groups, rfl, hk, hare⟩ := h
  have hname := unblank_name hk
  refine ⟨fun c hc => hname c (mem_of_mem_head?_append (name_ne_nil hk) hc), ?_, ?_⟩
  · intro c hc
    by_cases hnil : groups.flatMap groupText = []
    · rw [hnil, List.append_nil] at hc
      exact hname c (List.mem_of_mem_getLast? hc)
    · rw [List.getLast?_append_of_ne_nil _ hnil] at hc
      exact getLast?_groups hare c hc
  · intro c hc hblank
    rcases List.mem_append.mp hc with hc | hc
    · exact absurd hblank (by simp [hname c hc])
    · exact isGap_of_mem_groups hare c hc hblank

/-- Tidy blanks and words make groups, as long as a blank comes first. -/
theorem exists_groups_of_spaced {pos : Nat} {ts : List Token} (h : Spaced pos cs ts)
    (hfirst : ∀ c ∈ cs.head?, isBlank c = true) (hlast : ∀ c ∈ cs.getLast?, isBlank c = false)
    (hinner : ∀ c ∈ cs, isBlank c = true → isGap c = true)
    (hwords : ∀ t ∈ ts, IsWord t.text.toList) :
    ∃ groups, cs = groups.flatMap groupText ∧ AreGroups groups := by
  induction h with
  | @blanks pos blanks hb =>
    rcases List.eq_nil_or_concat blanks with rfl | ⟨init, c, rfl⟩
    · exact ⟨[], rfl, areGroups_nil⟩
    · have hc := hlast c (by simp)
      exact absurd hc (by simp [hb c (by simp)])
  | @word pos blanks word rest ts hb hne hw hstop hrest ih =>
    have hword : IsWord word := by
      have := hwords ⟨String.ofList word, pos + byteLength blanks⟩ (by simp)
      simpa using this
    have hgap : IsGap blanks := by
      constructor
      · rintro rfl
        obtain ⟨c, word, rfl⟩ := List.exists_cons_of_ne_nil hne
        have hc := hfirst c rfl
        exact absurd hc (by simp [hw c (by simp)])
      · intro c hc
        exact hinner c (by simp [hc]) (hb c hc)
    have hend : ∀ c ∈ rest.getLast?, isBlank c = false := by
      intro c hc
      refine hlast c ?_
      rw [← List.append_assoc]
      exact List.mem_getLast?_append_of_mem_getLast? hc
    obtain ⟨groups, rfl, hare⟩ := ih hstop hend (fun c hc => hinner c (by simp [hc]))
      fun t ht => hwords t (by simp [ht])
    refine ⟨(blanks, word) :: groups, ?_, areGroups_cons.mpr ⟨⟨hgap, hword⟩, hare⟩⟩
    rw [List.flatMap_cons, groupText, List.append_assoc]

end Shape

section Words

variable {line : String} {head : Token} {words : List Token} {k : Keyword}

theorem isWord_of_wellShaped (htokens : tokens line = head :: words) (h : WellShaped line.toList) :
    ∀ word ∈ words, IsWord word.text.toList := by
  obtain ⟨k, name, groups, hcs, hk, hare⟩ := h
  have htail := tokens_wellShaped hcs hk hare
  rw [htokens, List.cons.injEq] at htail
  obtain ⟨-, rfl⟩ := htail
  intro word hword
  have htext : word.text.toList ∈ groups.map Prod.snd := by
    rw [← map_text_tokensAt_groups hare]
    exact List.mem_map_of_mem hword
  obtain ⟨group, hmem, hgroup⟩ := List.mem_map.mp htext
  rw [← hgroup]
  exact (hare group hmem).2

theorem wellShaped_of_tidy (htokens : tokens line = head :: words)
    (hhead : Keyword.ofName? head.text = some k) (htidy : Tidy line.toList)
    (hwords : ∀ word ∈ words, IsWord word.text.toList) : WellShaped line.toList := by
  obtain ⟨hfirst, hlast, hinner⟩ := htidy
  have hspaced : Spaced 0 line.toList (head :: words) := htokens ▸ spaced_tokensAt 0 line.toList
  generalize line.toList = cs at *
  cases hspaced with
  | @word _ blanks name rest _ hb hne hw hstop hrest =>
    have hnil : blanks = [] := by
      by_contra hno
      obtain ⟨c, blanks, rfl⟩ := List.exists_cons_of_ne_nil hno
      have hc := hfirst c rfl
      exact absurd hc (by simp [hb c (by simp)])
    subst hnil
    have hend : ∀ c ∈ rest.getLast?, isBlank c = false := by
      intro c hc
      have hmem : c ∈ (name ++ rest).getLast? := List.mem_getLast?_append_of_mem_getLast? hc
      exact hlast c hmem
    obtain ⟨groups, rfl, hare⟩ := exists_groups_of_spaced hrest hstop hend
      (fun c hc => hinner c (by simp [hc])) hwords
    have hk := Keyword.ofName?_eq_some_iff.mp hhead
    rw [String.toList_ofList] at hk
    exact ⟨k, name, groups, rfl, hk, hare⟩

/-- Behind a keyword, the shape is a matter of the blanks and of each word by itself. -/
theorem wellShaped_iff (htokens : tokens line = head :: words)
    (hhead : Keyword.ofName? head.text = some k) :
    WellShaped line.toList ↔ Tidy line.toList ∧ ∀ word ∈ words, IsWord word.text.toList := by
  constructor
  · intro h
    exact ⟨tidy_of_wellShaped h, isWord_of_wellShaped htokens h⟩
  · rintro ⟨htidy, hwords⟩
    exact wellShaped_of_tidy htokens hhead htidy hwords

end Words

/-! ## Arguments -/

theorem isWordChar_of_isDigit {c : Char} (h : c.isDigit = true) : isWordChar c = true := by
  simp [isWordChar, Char.isAlphanum, h]

/-- What reads as an integer is a number behind at most one sign. -/
theorem readNat?_of_readInt? {cs : List Char} {i : Int} (h : Decimal.readInt? cs = some i) :
    ∃ sign digits n, cs = sign ++ digits ∧ (sign = [] ∨ sign = ['+'] ∨ sign = ['-']) ∧
      Decimal.readNat? digits = some n := by
  unfold Decimal.readInt? at h
  split at h
  · obtain ⟨n, hn, -⟩ := Option.map_eq_some_iff.mp h
    exact ⟨['-'], _, n, rfl, by simp, hn⟩
  · obtain ⟨n, hn, -⟩ := Option.map_eq_some_iff.mp h
    exact ⟨['+'], _, n, rfl, by simp, hn⟩
  · obtain ⟨n, hn, -⟩ := Option.map_eq_some_iff.mp h
    exact ⟨[], cs, n, rfl, by simp, hn⟩

theorem isWord_of_readInt32? {s : String} {i : Int32} (h : Decimal.readInt32? s = some i) :
    IsWord s.toList := by
  unfold Decimal.readInt32? at h
  cases hread : Decimal.readInt? s.toList with
  | none =>
    exact absurd h (by simp [hread])
  | some j =>
    obtain ⟨sign, digits, n, hs, hsign, hdigits⟩ := readNat?_of_readInt? hread
    unfold Decimal.readNat? at hdigits
    split at hdigits
    next hall =>
      refine ⟨sign, digits, hs, hsign, hall.1, ?_⟩
      intro c hc
      exact isWordChar_of_isDigit (List.all_eq_true.mp hall.2 c hc)
    · cases hdigits

/-- A name in another case is a word where the name is one. -/
theorem isWord_of_sameLetters {s name : String} (h : sameLetters s name = true)
    (hname : fold name.toList ≠ [] ∧ (fold name.toList).all isWordChar = true) :
    IsWord s.toList := by
  have hfold : fold s.toList = fold name.toList := beq_iff_eq.mp h
  refine ⟨[], s.toList, rfl, .inl rfl, ?_, forall_isWordChar_of_fold hfold hname.2⟩
  intro hnil
  rw [hnil] at hfold
  exact hname.1 hfold.symm

theorem isWord_of_readPen {s : String} {pen : Pen} (h : Pen.ofName? s = some pen) :
    IsWord s.toList := by
  have hsame : sameLetters s pen.name = true := by
    unfold Pen.ofName? at h
    simpa using List.find?_some h
  refine isWord_of_sameLetters hsame ?_
  cases pen <;> decide

theorem isWord_of_readToggle {s : String} {on : Bool} (h : Toggle.ofName? s = some on) :
    IsWord s.toList := by
  unfold Toggle.ofName? at h
  split_ifs at h with hon hoff
  · exact isWord_of_sameLetters hon (by decide)
  · exact isWord_of_sameLetters hoff (by decide)

/-- Every word that is read as an argument is a word of the grammar. -/
theorem Slot.isWord_of_read? {slot : Slot} {s : String} {value : slot.Value}
    (h : slot.read? s = some value) : IsWord s.toList := by
  cases slot with
  | int => exact isWord_of_readInt32? h
  | color => exact isWord_of_readPen h
  | toggle => exact isWord_of_readToggle h

theorem parse_word_of_isWord {s : String} (h : IsWord s.toList) :
    Rule.word.parse s = .ok [⟨.word, .whole s⟩] := by
  have hword : word? s.toList = some (s.toList, []) :=
    word?_eq_some_iff.mpr ⟨by simp, h, nofun⟩
  simp only [Rule.parse, hword, byteLength_toList]
  rfl

theorem isWord_of_fits {slots : List Slot} {words : List Token}
    (h : List.Forall₂ Slot.Fits slots words) : ∀ word ∈ words, IsWord word.text.toList := by
  induction h with
  | nil => nofun
  | cons hfits _ ih =>
    obtain ⟨value, hread⟩ := hfits
    intro word hword
    rcases List.mem_cons.mp hword with rfl | hword
    · exact Slot.isWord_of_read? hread
    · exact ih word hword

/-! ## Lines that read as commands -/

section Lines

variable {line : String} {command : Command}

theorem checkLine_of_wellShaped (number : Nat) (hshape : WellShaped line.toList)
    (h : Command.parse line = .ok command) : checkLine number line = .ok command := by
  obtain ⟨pieces, hpieces⟩ := parse_line_ok_iff.mpr hshape
  rw [checkLine_eq_ok_iff, checkedCommand, hpieces]
  exact h

theorem checkLine_of_not_wellShaped (number : Nat) (hshape : ¬ WellShaped line.toList)
    (h : Command.parse line = .ok command) :
    ∃ span, checkLine number line = .error ⟨number, line, .malformedLine, span⟩ := by
  obtain ⟨pos, hpos⟩ := exists_parse_error hshape
  refine ⟨malformedSpan line pos, checkLine_eq_fault_iff.mpr ?_⟩
  simp only [checkedCommand, hpos, h]

theorem wellShaped_of_checkLine_ok {number : Nat} (h : checkLine number line = .ok command) :
    WellShaped line.toList := by
  by_contra hshape
  have hparse := parse_of_checkLine_ok h
  obtain ⟨span, hno⟩ := checkLine_of_not_wellShaped number hshape hparse
  exact absurd hno (by simp [h])

/-- A line that reads as a command is well shaped up to its blanks and the words that are left unread. -/
theorem wellShaped_iff_of_parse_ok (h : Command.parse line = .ok command) :
    WellShaped line.toList ↔ Tidy line.toList ∧
      ∀ token ∈ (tokens line).drop (1 + command.keyword.arity), IsWord token.text.toList := by
  obtain ⟨head, words, htokens, hhead, hfits, -⟩ := Command.words_of_parse_ok h
  have hread := isWord_of_fits hfits
  rw [wellShaped_iff htokens hhead, htokens, Nat.add_comm, List.drop_succ_cons]
  constructor
  · rintro ⟨htidy, hwords⟩
    exact ⟨htidy, fun word hword => hwords word (List.mem_of_mem_drop hword)⟩
  · rintro ⟨htidy, hrest⟩
    refine ⟨htidy, ?_⟩
    intro word hword
    rw [← List.take_append_drop command.keyword.arity words, List.mem_append] at hword
    rcases hword with hword | hword
    · exact hread word hword
    · exact hrest word hword

/-- **What the check refuses beyond a run.** A line that reads as a command is refused just for a blank at an
end, a blank other than space and tab, or an unread word that the grammar does not have; it is then malformed,
and otherwise the check returns the same command. No word that any slot accepts is at fault. -/
theorem checkLine_of_parse_ok (number : Nat) (h : Command.parse line = .ok command) :
    ((∃ e, checkLine number line = .error e) ↔
      (∃ c ∈ line.toList.head?, isBlank c = true) ∨ (∃ c ∈ line.toList.getLast?, isBlank c = true) ∨
      (∃ c ∈ line.toList, c = '\n' ∨ c = '\r' ∨ c = '\x0c') ∨
      ∃ token ∈ (tokens line).drop (1 + command.keyword.arity), ¬ IsWord token.text.toList) ∧
    (∀ e, checkLine number line = .error e → e.reason = .malformedLine) ∧
    ((∀ e, checkLine number line ≠ .error e) → checkLine number line = .ok command) ∧
    ∀ (slot : Slot) (value : slot.Value) (word : String), slot.read? word = some value →
      IsWord word.toList ∧ Rule.word.parse word = .ok [⟨.word, .whole word⟩] := by
  have hwords : ∀ (slot : Slot) (value : slot.Value) (word : String), slot.read? word = some value →
      IsWord word.toList ∧ Rule.word.parse word = .ok [⟨.word, .whole word⟩] := by
    intro slot value word hread
    have hword := Slot.isWord_of_read? hread
    exact ⟨hword, parse_word_of_isWord hword⟩
  have hiff := wellShaped_iff_of_parse_ok h
  have hcauses := not_congr hiff
  rw [not_and_or, not_tidy_iff] at hcauses
  simp only [not_forall, exists_prop, or_assoc] at hcauses
  rw [← hcauses]
  by_cases hshape : WellShaped line.toList
  · have hcheck := checkLine_of_wellShaped number hshape h
    rw [hcheck]
    exact ⟨⟨nofun, fun hno => absurd hshape hno⟩, nofun, fun _ => rfl, hwords⟩
  · obtain ⟨span, hcheck⟩ := checkLine_of_not_wellShaped number hshape h
    rw [hcheck]
    refine ⟨⟨fun _ => hshape, fun _ => ⟨_, rfl⟩⟩, ?_, fun hno => absurd rfl (hno _), hwords⟩
    rintro e ⟨⟩
    rfl

/-- A sign alone is no word, but nothing reads it. -/
theorem checkLine_of_parse_ok_draw :
    Command.parse "draw 1 2 +" = .ok (.draw ⟨1, 2⟩) ∧ ∃ e, checkLine 1 "draw 1 2 +" = .error e := by
  have hparse : Command.parse "draw 1 2 +" = .ok (.draw ⟨1, 2⟩) := by rfl
  refine ⟨hparse, (checkLine_of_parse_ok 1 hparse).1.mpr (.inr (.inr (.inr ?_)))⟩
  exact ⟨⟨"+", 9⟩, by decide, by decide⟩

end Lines

end PenPlot
