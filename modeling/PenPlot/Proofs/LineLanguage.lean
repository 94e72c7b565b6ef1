import PenPlot.Proofs.Grammar
import PenPlot.Proofs.Reading

/-!
# The language of lines

A line is well shaped (`WellShaped`) if it is a keyword in any case and then groups of a gap and a word,
with nothing before and nothing behind. The grammar accepts just these lines (`parse_line_ok_iff`), and in
such a line it sees the words that the tokens are: `groupsAt` goes through the groups as `tokensAt` does
(`groupsAt_groups`).
-/

namespace PenPlot.LineShape

open Text

/-! ## Groups as text -/

def groupText (group : List Char × List Char) : List Char :=
  group.1 ++ group.2

/-- Each of the groups is a gap and a word. -/
def AreGroups (groups : List (List Char × List Char)) : Prop :=
  ∀ group ∈ groups, IsGap group.1 ∧ IsWord group.2

section Groups

variable {gap word rest : List Char} {groups : List (List Char × List Char)}

theorem areGroups_nil : AreGroups [] := by
  simp [AreGroups]

theorem areGroups_cons :
    AreGroups ((gap, word) :: groups) ↔ (IsGap gap ∧ IsWord word) ∧ AreGroups groups := by
  simp [AreGroups]

/-- Groups begin with a gap. -/
theorem head?_groups (h : AreGroups groups) : ∀ c ∈ (groups.flatMap groupText).head?, isGap c = true := by
  cases groups with
  | nil => nofun
  | cons group groups =>
    obtain ⟨⟨⟨hne, hgap⟩, -⟩, -⟩ := areGroups_cons.mp h
    intro c hc
    obtain ⟨d, ds, hd⟩ := List.exists_cons_of_ne_nil hne
    rw [List.flatMap_cons, groupText, hd] at hc
    obtain rfl : d = c := by simpa using hc
    exact hgap d (by simp [hd])

theorem tokensAt_group (hgap : IsGap gap) (hword : IsWord word)
    (hrest : ∀ c ∈ rest.head?, isGap c = true) (pos : Nat) :
    tokensAt pos (gap ++ (word ++ rest)) =
      ⟨String.ofList word, pos + byteLength gap⟩ ::
        tokensAt (pos + byteLength gap + byteLength word) rest := by
  have hblanks : ∀ c ∈ gap, isBlank c = true := fun c hc => isBlank_of_isGap (hgap.2 c hc)
  have hstop : ∀ c ∈ rest.head?, isBlank c = true := fun c hc => isBlank_of_isGap (hrest c hc)
  rw [tokensAt_blanks hblanks, tokensAt_word hword.ne_nil hword.unblank hstop]

theorem gap?_group (hgap : IsGap gap) (hword : IsWord word) (cs : List Char) :
    gap? (gap ++ (word ++ cs)) = some (gap, word ++ cs) := by
  refine gap?_eq_some_iff.mpr ⟨rfl, hgap, ?_⟩
  intro c hc
  exact isGap_eq_false_of_unblank (hword.unblank c (mem_of_mem_head?_append hword.ne_nil hc))

theorem groupsAt_group (hgap : IsGap gap) (hword : IsWord word)
    (hrest : ∀ c ∈ rest.head?, isGap c = true) (pos : Nat) :
    groupsAt pos (gap ++ (word ++ rest)) =
      (groupsAt (pos + byteLength gap + byteLength word) rest).map
        (⟨pos + byteLength gap, pos + byteLength gap + byteLength word⟩ :: ·) := by
  refine groupsAt_of_word?_eq_some (gap?_group hgap hword rest)
    (word?_eq_some_iff.mpr ⟨rfl, hword, ?_⟩) pos
  intro c hc
  exact isWordChar_eq_false_of_isGap (hrest c hc)

/-- In groups, words are found where the tokens are. -/
theorem groupsAt_groups (h : AreGroups groups) (pos : Nat) :
    groupsAt pos (groups.flatMap groupText) =
      .ok ((tokensAt pos (groups.flatMap groupText)).map Token.span) := by
  induction groups generalizing pos with
  | nil => simp
  | cons group groups ih =>
    obtain ⟨gap, word⟩ := group
    obtain ⟨⟨hgap, hword⟩, hgroups⟩ := areGroups_cons.mp h
    have hrest := head?_groups hgroups
    rw [List.flatMap_cons, groupText, List.append_assoc, groupsAt_group hgap hword hrest,
      tokensAt_group hgap hword hrest, ih hgroups]
    simp [Except.map, Token.span, utf8ByteSize_ofList]

theorem map_text_tokensAt_groups (h : AreGroups groups) (pos : Nat) :
    (tokensAt pos (groups.flatMap groupText)).map (·.text.toList) = groups.map Prod.snd := by
  induction groups generalizing pos with
  | nil => simp
  | cons group groups ih =>
    obtain ⟨gap, word⟩ := group
    obtain ⟨⟨hgap, hword⟩, hgroups⟩ := areGroups_cons.mp h
    rw [List.flatMap_cons, groupText, List.append_assoc,
      tokensAt_group hgap hword (head?_groups hgroups), List.map_cons, ih hgroups]
    simp

/-- Only groups pass as groups. -/
theorem exists_groups {pos : Nat} {cs : List Char} {words : List Span}
    (h : groupsAt pos cs = .ok words) : ∃ groups, cs = groups.flatMap groupText ∧ AreGroups groups := by
  induction pos, cs using groupsAt.induct generalizing words with
  | case1 pos => exact ⟨[], rfl, areGroups_nil⟩
  | case2 pos cs hne hgap =>
    rw [groupsAt_of_gap?_eq_none hne hgap] at h
    exact absurd h (by simp)
  | case3 pos cs hne gap rest hgap hword =>
    rw [groupsAt_of_word?_eq_none hgap hword] at h
    exact absurd h (by simp)
  | case4 pos cs hne gap rest hgap word rest' hword start =>
    rename_i ih
    rw [groupsAt_of_word?_eq_some hgap hword] at h
    obtain ⟨words', hrest, -⟩ := map_eq_ok_iff.mp h
    obtain ⟨groups, rfl, hare⟩ := ih hrest
    obtain ⟨rfl, hisGap, -⟩ := gap?_eq_some_iff.mp hgap
    obtain ⟨rfl, hisWord, -⟩ := word?_eq_some_iff.mp hword
    refine ⟨(gap, word) :: groups, ?_, areGroups_cons.mpr ⟨⟨hisGap, hisWord⟩, hare⟩⟩
    rw [List.flatMap_cons, groupText, List.append_assoc]

end Groups

/-! ## Lines -/

/-- A keyword in any case, and then groups. -/
def WellShaped (cs : List Char) : Prop :=
  ∃ (k : Keyword) (name : List Char) (groups : List (List Char × List Char)),
    cs = name ++ groups.flatMap groupText ∧ fold name = k.name.toList ∧ AreGroups groups

section Lines

variable {text : String} {name : List Char} {groups : List (List Char × List Char)} {k : Keyword}

theorem forall_isWordChar_name (h : fold name = k.name.toList) : ∀ c ∈ name, isWordChar c = true := by
  refine forall_isWordChar_of_fold h ?_
  cases k <;> decide

theorem name_ne_nil (h : fold name = k.name.toList) : name ≠ [] := by
  rintro rfl
  revert h
  cases k <;> decide

theorem unblank_name (h : fold name = k.name.toList) : ∀ c ∈ name, isBlank c = false := fun c hc =>
  isBlank_eq_false_of_isWordChar (forall_isWordChar_name h c hc)

/-- The tokens of a well-shaped line: its keyword and the words of its groups. -/
theorem tokens_wellShaped (hcs : text.toList = name ++ groups.flatMap groupText)
    (hk : fold name = k.name.toList) (h : AreGroups groups) :
    tokens text =
      ⟨String.ofList name, 0⟩ :: tokensAt (byteLength name) (groups.flatMap groupText) := by
  have hstop : ∀ c ∈ (groups.flatMap groupText).head?, isBlank c = true := fun c hc =>
    isBlank_of_isGap (head?_groups h c hc)
  have := tokensAt_word (name_ne_nil hk) (unblank_name hk) hstop 0
  rwa [Nat.zero_add, ← hcs] at this

theorem parse_line_wellShaped (hcs : text.toList = name ++ groups.flatMap groupText)
    (hk : fold name = k.name.toList) (h : AreGroups groups) :
    ∃ head words, tokens text = head :: words ∧ head.text = String.ofList name ∧
      Rule.line.parse text =
        .ok (⟨.line, .whole text⟩ :: ⟨.keyword, head.span⟩ :: words.map (⟨.word, ·.span⟩)
          ++ [⟨.finish, ⟨text.utf8ByteSize, text.utf8ByteSize⟩⟩]) := by
  refine ⟨_, _, tokens_wellShaped hcs hk h, rfl, ?_⟩
  rw [parse_line_of_groupsAt_ok (keyword?_eq_some_iff.mpr ⟨hcs, hk⟩) (groupsAt_groups h _)]
  simp [Token.span, utf8ByteSize_ofList, Function.comp_def]

theorem parse_line_ok_iff :
    (∃ pieces, Rule.line.parse text = .ok pieces) ↔ WellShaped text.toList := by
  constructor
  · rintro ⟨pieces, h⟩
    cases hkeyword : keyword? text.toList with
    | none =>
      exact absurd h (by simp [parse_line_of_keyword?_eq_none hkeyword])
    | some found =>
      obtain ⟨k, name, rest⟩ := found
      obtain ⟨hcs, hk⟩ := keyword?_eq_some_iff.mp hkeyword
      cases hgroups : groupsAt (byteLength name) rest with
      | error p =>
        exact absurd h (by simp [parse_line_of_groupsAt_error hkeyword hgroups])
      | ok words =>
        obtain ⟨groups, rfl, hare⟩ := exists_groups hgroups
        exact ⟨k, name, groups, hcs, hk, hare⟩
  · rintro ⟨k, name, groups, hcs, hk, hare⟩
    obtain ⟨head, words, -, -, h⟩ := parse_line_wellShaped hcs hk hare
    exact ⟨_, h⟩

theorem exists_parse_error (h : ¬ WellShaped text.toList) : ∃ pos, Rule.line.parse text = .error pos := by
  cases hparse : Rule.line.parse text with
  | ok pieces => exact absurd (parse_line_ok_iff.mp ⟨pieces, hparse⟩) h
  | error pos => exact ⟨pos, rfl⟩

/-- **The language of the line rule.** The grammar and `Rule.parse` give the same answers; the lines accepted
are the well-shaped ones; and in such a line the keyword and the words are where the tokens are, the first of
which names a command. -/
theorem line_language (text : String) :
    (∀ answer, Answers Rule.line.expr text answer ↔ answer = Rule.line.parse text) ∧
    ((∃ pieces, Rule.line.parse text = .ok pieces) ↔ WellShaped text.toList) ∧
    ∀ pieces, Rule.line.parse text = .ok pieces →
      ∃ head words k, tokens text = head :: words ∧
        pieces = ⟨.line, .whole text⟩ :: ⟨.keyword, head.span⟩ :: words.map (⟨.word, ·.span⟩)
          ++ [⟨.finish, ⟨text.utf8ByteSize, text.utf8ByteSize⟩⟩] ∧
        Keyword.ofName? head.text = some k ∧ sameLetters head.text k.name = true ∧
        ∀ name span, Command.parse text ≠ .error ⟨.invalidCommand name, span⟩ := by
  refine ⟨fun answer => answers_iff, parse_line_ok_iff, ?_⟩
  intro pieces h
  obtain ⟨k, name, groups, hcs, hk, hare⟩ := parse_line_ok_iff.mp ⟨pieces, h⟩
  obtain ⟨head, words, htokens, hhead, hpieces⟩ := parse_line_wellShaped hcs hk hare
  rw [h, Except.ok.injEq] at hpieces
  have hname : fold head.text.toList = k.name.toList := by
    rw [hhead, String.toList_ofList, hk]
  have hfound : Keyword.ofName? head.text = some k := Keyword.ofName?_eq_some_iff.mpr hname
  have hsame : sameLetters head.text k.name = true := Keyword.sameLetters_name_iff.mpr hname
  exact ⟨head, words, k, htokens, hpieces, hfound, hsame,
    Command.parse_ne_invalidCommand htokens hfound⟩

end Lines

end PenPlot.LineShape
