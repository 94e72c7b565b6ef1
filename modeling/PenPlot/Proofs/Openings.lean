import PenPlot.Proofs.Checker
import PenPlot.Proofs.Faults
import PenPlot.Proofs.LineLanguage

/-!
# Where a line stops being well shaped

A malformed line is blamed on one byte. This is the end of the longest beginning that could still become a
line (`IsOpening`): a keyword, groups, and any number of gap characters behind them. In a text that does not
even begin with a keyword it is byte zero (`BlamedAt`). The grammar keeps the furthest failure of a rule, and
also one behind a gap that it has given back, so it gives just this byte (`blamedAt_of_parse_error`).
-/

namespace PenPlot.LineShape

open Text

/-! ## Beginnings of lines -/

/-- Groups, and behind them spaces and tabs, if any. -/
inductive Stretch : List Char → Prop
  | gap {gap : List Char} : (∀ c ∈ gap, isGap c = true) → Stretch gap
  | group {gap word rest : List Char} : IsGap gap → IsWord word → Stretch rest →
      Stretch (gap ++ (word ++ rest))

/-- A keyword in any case, and behind it a stretch. -/
def IsOpening (cs : List Char) : Prop :=
  ∃ (k : Keyword) (name rest : List Char), cs = name ++ rest ∧ fold name = k.name.toList ∧ Stretch rest

/-- Of all beginnings of `cs` with a property, `front` is the longest. -/
structure IsLongest (p : List Char → Prop) (cs front : List Char) : Prop where
  begins : front <+: cs
  holds : p front
  longest : ∀ other, other <+: cs → p other → other.length ≤ front.length

/-- The byte on which a malformed text is blamed. -/
inductive BlamedAt (cs : List Char) : Nat → Prop
  | opening {front : List Char} : IsLongest IsOpening cs front → BlamedAt cs (byteLength front)
  | start : (∀ (k : Keyword) (name : List Char), name <+: cs → fold name ≠ k.name.toList) →
      BlamedAt cs 0

section Longest

variable {p : List Char → Prop} {cs front front' : List Char}

theorem IsLongest.unique (h : IsLongest p cs front) (h' : IsLongest p cs front') : front = front' := by
  have hle := h'.longest front h.begins h.holds
  have hle' := h.longest front' h'.begins h'.holds
  exact (List.prefix_of_prefix_length_le h.begins h'.begins hle).eq_of_length (by omega)

theorem IsLongest.exists_keyword (h : IsLongest IsOpening cs front) :
    ∃ (k : Keyword) (name : List Char), name <+: cs ∧ fold name = k.name.toList := by
  obtain ⟨k, name, rest, rfl, hk, -⟩ := h.holds
  exact ⟨k, name, (List.prefix_append name rest).trans h.begins, hk⟩

theorem BlamedAt.unique {pos pos' : Nat} (h : BlamedAt cs pos) (h' : BlamedAt cs pos') : pos = pos' := by
  cases h with
  | opening hfront =>
    cases h' with
    | opening hfront' => rw [hfront.unique hfront']
    | start hno =>
      obtain ⟨k, name, hname, hk⟩ := hfront.exists_keyword
      exact absurd hk (hno k name hname)
  | start hno =>
    cases h' with
    | opening hfront' =>
      obtain ⟨k, name, hname, hk⟩ := hfront'.exists_keyword
      exact absurd hk (hno k name hname)
    | start => rfl

theorem BlamedAt.isBoundary {line : String} {pos : Nat} (h : BlamedAt line.toList pos) :
    IsBoundary line pos := by
  cases h with
  | opening hfront =>
    obtain ⟨rest, hrest⟩ := hfront.begins
    exact isBoundary_iff.mpr ⟨_, rest, hrest.symm, rfl⟩
  | start => exact isBoundary_iff.mpr ⟨[], line.toList, rfl, rfl⟩

end Longest

/-! ## Stretches -/

section Stretches

variable {gap word rest more : List Char}

theorem Stretch.head?_isGap {cs : List Char} (h : Stretch cs) : ∀ c ∈ cs.head?, isGap c = true := by
  cases h with
  | gap hgap =>
    intro c hc
    exact hgap c (List.mem_of_mem_head? hc)
  | group hgap =>
    intro c hc
    exact hgap.2 c (mem_of_mem_head?_append hgap.1 hc)

/-- Spaces and tabs at the start of a text are part of its gap. -/
theorem length_le_of_gap? {cs front : List Char} (h : gap? cs = some (gap, rest))
    (hfront : front <+: cs) (hblank : ∀ c ∈ front, isGap c = true) : front.length ≤ gap.length := by
  obtain ⟨rfl, -, hstop⟩ := gap?_eq_some_iff.mp h
  obtain ⟨tail, htail⟩ := hfront
  rcases List.append_eq_append_iff.mp htail with ⟨mid, rfl, -⟩ | ⟨mid, rfl, rfl⟩
  · rw [List.length_append]
    omega
  · cases mid with
    | nil => simp
    | cons c mid =>
      have hc : isGap c = true := hblank c (by simp)
      exact absurd hc (by simp [hstop c rfl])

theorem IsWord.append (h : IsWord word) (hmore : ∀ c ∈ more, isWordChar c = true) :
    IsWord (word ++ more) := by
  obtain ⟨sign, body, rfl, hsign, hne, hbody⟩ := h
  refine ⟨sign, body ++ more, List.append_assoc _ _ _, hsign, by simp [hne], ?_⟩
  intro c hc
  rcases List.mem_append.mp hc with hc | hc
  · exact hbody c hc
  · exact hmore c hc

/-- A word at the start of a text is the beginning of the longest one there. -/
theorem exists_word?_append (h : IsWord word) (cs : List Char) :
    ∃ more rest, cs = more ++ rest ∧ (∀ c ∈ more, isWordChar c = true) ∧
      word? (word ++ cs) = some (word ++ more, rest) := by
  obtain ⟨more, rest, rfl, hmore, hstop⟩ := exists_stretch isWordChar cs
  refine ⟨more, rest, rfl, hmore, word?_eq_some_iff.mpr ⟨?_, h.append hmore, hstop⟩⟩
  rw [List.append_assoc]

/-- The stretches of a text that starts with a gap: they end in this gap, or have it as their own. -/
theorem Stretch.cases_of_gap? {cs front : List Char} (h : Stretch front) (hfront : front <+: cs)
    (hcs : gap? cs = some (gap, rest)) :
    front.length ≤ gap.length ∨
      ∃ word more tail, front = gap ++ (word ++ more) ∧ rest = word ++ (more ++ tail) ∧
        IsWord word ∧ Stretch more := by
  cases h with
  | gap hgap => exact .inl (length_le_of_gap? hcs hfront hgap)
  | @group gap' word more hgap hword hmore =>
    obtain ⟨tail, rfl⟩ := hfront
    rw [List.append_assoc, List.append_assoc, gap?_group hgap hword] at hcs
    obtain ⟨rfl, rfl⟩ := Prod.mk.inj (Option.some.inj hcs)
    exact .inr ⟨word, more, tail, rfl, rfl, hword, hmore⟩

/-- Behind the longest word of a text a stretch comes as far as behind any other. -/
theorem length_le_of_word? {word' tail front : List Char}
    (hlongest : word? (word' ++ (more ++ tail)) = some (word, rest)) (hword' : IsWord word')
    (hmore : Stretch more) (hfront : IsLongest Stretch rest front) :
    (word' ++ more).length ≤ (word ++ front).length := by
  obtain ⟨extra, rest', htail, hchars, hsome⟩ := exists_word?_append hword' (more ++ tail)
  rw [hlongest] at hsome
  obtain ⟨rfl, rfl⟩ := Prod.mk.inj (Option.some.inj hsome)
  simp only [List.length_append]
  cases extra with
  | nil =>
    have hle := hfront.longest more ⟨tail, htail⟩ hmore
    omega
  | cons c extra =>
    -- where the longest word goes on, no gap begins
    cases more with
    | nil => simp only [List.length_cons, List.length_nil]; omega
    | cons d more =>
      obtain ⟨rfl, -⟩ := List.cons_eq_cons.mp htail
      have hgap : isGap d = true := hmore.head?_isGap d rfl
      exact absurd (hchars d (by simp)) (by simp [isWordChar_eq_false_of_isGap hgap])

theorem stretch_groups {groups : List (List Char × List Char)} (h : AreGroups groups) :
    Stretch (groups.flatMap groupText) := by
  induction groups with
  | nil => exact .gap (by simp)
  | cons group groups ih =>
    obtain ⟨⟨hgap, hword⟩, hgroups⟩ := areGroups_cons.mp h
    rw [List.flatMap_cons, groupText, List.append_assoc]
    exact .group hgap hword (ih hgroups)

/-- Where groups stop, the longest stretch stops. -/
theorem isLongest_of_groupsAt_error {pos p : Nat} {cs : List Char} (h : groupsAt pos cs = .error p) :
    ∃ front, IsLongest Stretch cs front ∧ pos + byteLength front = p := by
  induction pos, cs using groupsAt.induct with
  | case1 pos => exact absurd h (by simp)
  | case2 pos cs hne hgap =>
    rw [groupsAt_of_gap?_eq_none hne hgap, Except.error.injEq] at h
    refine ⟨[], ⟨List.nil_prefix, .gap (by simp), ?_⟩, h⟩
    intro other hother hstretch
    cases other with
    | nil => exact Nat.le_refl 0
    | cons c other =>
      obtain ⟨rest, rfl⟩ := hother
      have hc : isGap c = true := hstretch.head?_isGap c rfl
      exact absurd hc (by simp [gap?_eq_none_iff.mp hgap c rfl])
  | case3 pos cs hne gap rest hgap hword =>
    rw [groupsAt_of_word?_eq_none hgap hword, Except.error.injEq] at h
    obtain ⟨hcs, hisGap, -⟩ := gap?_eq_some_iff.mp hgap
    refine ⟨gap, ⟨⟨rest, hcs.symm⟩, .gap hisGap.2, ?_⟩, h⟩
    intro other hother hstretch
    rcases hstretch.cases_of_gap? hother hgap with hle | ⟨word, more, tail, -, rfl, hisWord, -⟩
    · exact hle
    · obtain ⟨_, _, _, _, hsome⟩ := exists_word?_append hisWord (more ++ tail)
      rw [hword] at hsome
      cases hsome
  | case4 pos cs hne gap rest hgap word rest' hword start =>
    rename_i ih
    rw [groupsAt_of_word?_eq_some hgap hword] at h
    obtain ⟨front, hfront, hp⟩ := ih (map_eq_error_iff.mp h)
    obtain ⟨rfl, hisGap, -⟩ := gap?_eq_some_iff.mp hgap
    obtain ⟨hrest, hisWord, -⟩ := word?_eq_some_iff.mp hword
    refine ⟨gap ++ (word ++ front), ⟨?_, .group hisGap hisWord hfront.holds, ?_⟩, ?_⟩
    · rw [hrest]
      exact (List.prefix_append_right_inj gap).mpr
        ((List.prefix_append_right_inj word).mpr hfront.begins)
    · intro other hother hstretch
      rw [List.length_append]
      rcases hstretch.cases_of_gap? hother hgap with hle | ⟨word', more, tail, rfl, rfl, hword', hmore⟩
      · omega
      · have hle := length_le_of_word? hword hword' hmore hfront
        rw [List.length_append]
        omega
    · rw [byteLength_append, byteLength_append]
      omega

end Stretches

/-! ## Lines -/

section Lines

variable {text : String} {pos : Nat}

theorem isOpening_of_wellShaped {cs : List Char} (h : WellShaped cs) : IsOpening cs := by
  obtain ⟨k, name, groups, rfl, hk, hare⟩ := h
  exact ⟨k, name, _, rfl, hk, stretch_groups hare⟩

/-- Behind a keyword, the longest opening goes on with the longest stretch. -/
theorem IsLongest.opening {k : Keyword} {name rest front : List Char} (hk : fold name = k.name.toList)
    (h : IsLongest Stretch rest front) : IsLongest IsOpening (name ++ rest) (name ++ front) := by
  refine ⟨(List.prefix_append_right_inj name).mpr h.begins, ⟨k, name, front, rfl, hk, h.holds⟩, ?_⟩
  rintro other ⟨tail, htail⟩ ⟨k', name', stretch, rfl, hk', hstretch⟩
  rw [List.append_assoc] at htail
  obtain ⟨rfl, rfl, rfl⟩ := keyword_unique htail hk' hk
  have hle := h.longest stretch (List.prefix_append stretch tail) hstretch
  rw [List.length_append, List.length_append]
  omega

theorem blamedAt_of_parse_error (h : Rule.line.parse text = .error pos) :
    BlamedAt text.toList pos := by
  cases hkeyword : keyword? text.toList with
  | none =>
    rw [parse_line_of_keyword?_eq_none hkeyword, Except.error.injEq] at h
    subst h
    refine .start ?_
    rintro k name ⟨rest, hrest⟩
    exact keyword?_eq_none_iff.mp hkeyword k name rest hrest.symm
  | some found =>
    obtain ⟨k, name, rest⟩ := found
    obtain ⟨hcs, hk⟩ := keyword?_eq_some_iff.mp hkeyword
    cases hgroups : groupsAt (byteLength name) rest with
    | ok words =>
      rw [parse_line_of_groupsAt_ok hkeyword hgroups] at h
      cases h
    | error p =>
      rw [parse_line_of_groupsAt_error hkeyword hgroups, Except.error.injEq] at h
      subst h
      obtain ⟨front, hfront, rfl⟩ := isLongest_of_groupsAt_error hgroups
      rw [hcs, ← byteLength_append]
      exact .opening (hfront.opening hk)

theorem parse_line_eq_error_iff :
    Rule.line.parse text = .error pos ↔ ¬ WellShaped text.toList ∧ BlamedAt text.toList pos := by
  constructor
  · intro h
    refine ⟨?_, blamedAt_of_parse_error h⟩
    intro hshape
    obtain ⟨pieces, hok⟩ := parse_line_ok_iff.mpr hshape
    rw [h] at hok
    cases hok
  · rintro ⟨hno, hblamed⟩
    obtain ⟨pos', hpos'⟩ := exists_parse_error hno
    rw [hpos', (blamedAt_of_parse_error hpos').unique hblamed]

end Lines

end PenPlot.LineShape

/-! ## Malformed lines -/

namespace PenPlot

open Text LineShape

section Malformed

variable {line : String}

theorem checkedCommand_of_ok {pieces : List Piece} (h : Rule.line.parse line = .ok pieces) :
    checkedCommand line = Command.parse line := by
  rw [checkedCommand, h]

/-- A line that names a command is blamed for its shape, whatever else is wrong with it. -/
theorem checkedCommand_of_namesCommand {pos : Nat} (h : Rule.line.parse line = .error pos)
    (hnames : NamesCommand line) :
    checkedCommand line = .error ⟨.malformedLine, malformedSpan line pos⟩ := by
  unfold checkedCommand
  rw [h]
  cases hparse : Command.parse line with
  | ok command => rfl
  | error fault =>
    obtain ⟨reason, span⟩ := fault
    cases reason with
    | invalidCommand name =>
      exact absurd hnames (Command.parse_invalidCommand_iff.mp ⟨name, span, hparse⟩)
    | malformedLine | missingArguments | unexpectedArgument | notAnInteger | invalidColor
    | invalidFillMode => rfl

theorem checkedCommand_of_not_namesCommand (hnames : ¬ NamesCommand line) :
    checkedCommand line = Command.parse line := by
  obtain ⟨name, span, hparse⟩ := Command.parse_invalidCommand_iff.mpr hnames
  unfold checkedCommand
  rw [hparse]
  cases Rule.line.parse line <;> rfl

theorem checkedCommand_eq_malformed_iff {span : Span} :
    checkedCommand line = .error ⟨.malformedLine, span⟩ ↔
      ∃ pos, Rule.line.parse line = .error pos ∧ NamesCommand line ∧ malformedSpan line pos = span := by
  have hparse : Command.parse line ≠ .error ⟨.malformedLine, span⟩ := fun h =>
    (Command.parse_eq_error_iff.mp h).reason_ne_malformedLine rfl
  by_cases hnames : NamesCommand line
  · cases hshape : Rule.line.parse line with
    | ok pieces =>
      rw [checkedCommand_of_ok hshape]
      exact ⟨fun h => absurd h hparse, fun ⟨_, h, _⟩ => nomatch h⟩
    | error pos =>
      rw [checkedCommand_of_namesCommand hshape hnames]
      constructor
      · rintro ⟨⟩
        exact ⟨pos, rfl, hnames, rfl⟩
      · rintro ⟨_, ⟨⟩, -, rfl⟩
        rfl
  · rw [checkedCommand_of_not_namesCommand hnames]
    exact ⟨fun h => absurd h hparse, fun ⟨_, _, h, _⟩ => absurd h hnames⟩

theorem malformedSpan_eq_iff {pos : Nat} (hpos : pos ≤ line.utf8ByteSize) {span : Span} :
    malformedSpan line pos = span ↔
      pos = span.start ∧ span.stop = span.start + if span.start = line.utf8ByteSize then 0 else 1 := by
  obtain ⟨start, stop⟩ := span
  rw [malformedSpan, Span.mk.injEq]
  dsimp only
  constructor
  · rintro ⟨rfl, rfl⟩
    refine ⟨rfl, ?_⟩
    split <;> omega
  · rintro ⟨rfl, hstop⟩
    refine ⟨rfl, ?_⟩
    split at hstop <;> omega

/-- **Where a malformed line is blamed.** The furthest failure of the grammar in a text that is no line is the
end of the longest opening of the text, and zero if there is none. Malformed are the lines that name a command
and are no lines of the grammar; they are blamed on the byte at this place, which is a boundary in the line, or
on none if the line ends there. -/
theorem line_blame (line : String) :
    (∀ pos, (Answers Rule.line.expr line (.error pos) ↔ Rule.line.parse line = .error pos) ∧
      (Rule.line.parse line = .error pos ↔ ¬ WellShaped line.toList ∧ BlamedAt line.toList pos)) ∧
    ∀ number span, checkLine number line = .error ⟨number, line, .malformedLine, span⟩ ↔
      (¬ WellShaped line.toList ∧ NamesCommand line) ∧
        BlamedAt line.toList span.start ∧
        (IsBoundary line span.start ∧ span.start ≤ line.utf8ByteSize) ∧
        span.stop = span.start + if span.start = line.utf8ByteSize then 0 else 1 := by
  refine ⟨fun pos => ⟨answers_iff.trans eq_comm, parse_line_eq_error_iff⟩, ?_⟩
  intro number span
  rw [checkLine_eq_fault_iff, checkedCommand_eq_malformed_iff]
  constructor
  · rintro ⟨pos, hpos, hnames, hspan⟩
    obtain ⟨hshape, hblamed⟩ := parse_line_eq_error_iff.mp hpos
    have hboundary := hblamed.isBoundary
    obtain ⟨rfl, hstop⟩ := (malformedSpan_eq_iff hboundary.le_utf8ByteSize).mp hspan
    exact ⟨⟨hshape, hnames⟩, hblamed, ⟨hboundary, hboundary.le_utf8ByteSize⟩, hstop⟩
  · rintro ⟨⟨hshape, hnames⟩, hblamed, ⟨-, hle⟩, hstop⟩
    exact ⟨span.start, parse_line_eq_error_iff.mpr ⟨hshape, hblamed⟩, hnames,
      (malformedSpan_eq_iff hle).mpr ⟨rfl, hstop⟩⟩

end Malformed

end PenPlot
