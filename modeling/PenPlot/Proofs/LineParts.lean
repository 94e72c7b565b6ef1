import PenPlot.LineShape
import PenPlot.Proofs.Spaced

/-!
# Gaps, words and keywords

The matchers of a line cut off the front of a text. Each is settled here by what it cuts: `gap?` a longest
gap (`gap?_eq_some_iff`), `word?` a longest word (`word?_eq_some_iff`), and `keyword?` the one keyword
that the text begins with (`keyword?_eq_some_iff`). From then on only these statements are used.
-/

namespace PenPlot.LineShape

open Text

/-! ## Gaps -/

/-- Spaces and tabs, at least one. -/
def IsGap (cs : List Char) : Prop :=
  cs ≠ [] ∧ ∀ c ∈ cs, isGap c = true

theorem gap?_eq_some_iff {cs gap rest : List Char} :
    gap? cs = some (gap, rest) ↔
      cs = gap ++ rest ∧ IsGap gap ∧ ∀ c ∈ rest.head?, isGap c = false := by
  constructor
  · intro h
    obtain ⟨front, rest', rfl, hfront, hstop⟩ := exists_stretch isGap cs
    rw [gap?, takeWhile_append_stop hfront hstop, dropWhile_append_stop hfront hstop] at h
    split at h
    · cases h
    next hne =>
      simp only [Option.some.injEq, Prod.mk.injEq] at h
      obtain ⟨rfl, rfl⟩ := h
      exact ⟨rfl, ⟨hne, hfront⟩, hstop⟩
  · rintro ⟨rfl, ⟨hne, hgap⟩, hstop⟩
    rw [gap?, takeWhile_append_stop hgap hstop, dropWhile_append_stop hgap hstop, if_neg hne]

theorem gap?_eq_none_iff {cs : List Char} : gap? cs = none ↔ ∀ c ∈ cs.head?, isGap c = false := by
  cases cs with
  | nil => simp [gap?]
  | cons c cs => by_cases h : isGap c <;> simp [gap?, h]

/-! ## Words -/

/-- At most one sign, and behind it letters, digits and underscores, at least one. -/
def IsWord (cs : List Char) : Prop :=
  ∃ sign body, cs = sign ++ body ∧ (sign = [] ∨ sign = ['+'] ∨ sign = ['-']) ∧
    body ≠ [] ∧ ∀ c ∈ body, isWordChar c = true

theorem IsWord.ne_nil {cs : List Char} (h : IsWord cs) : cs ≠ [] := by
  obtain ⟨sign, body, rfl, -, hne, -⟩ := h
  simp [hne]

theorem isSign_eq_false_of_isWordChar {c : Char} (h : isWordChar c = true) : isSign c = false := by
  by_contra hc
  rw [Bool.not_eq_false, isSign, Bool.or_eq_true_iff, beq_iff_eq, beq_iff_eq] at hc
  rcases hc with rfl | rfl <;> revert h <;> decide

theorem sign_eq_nil {cs : List Char} (h : ∀ c ∈ cs.head?, isSign c = false) : sign cs = [] := by
  cases cs with
  | nil => rfl
  | cons c cs => simp [sign, h c rfl]

theorem sign_cons {c : Char} (h : isSign c = true) (cs : List Char) : sign (c :: cs) = [c] := by
  simp [sign, h]

/-- The sign that a text begins with is no character or one. -/
theorem sign_eq (cs : List Char) : sign cs = [] ∨ sign cs = ['+'] ∨ sign cs = ['-'] := by
  cases cs with
  | nil => exact .inl rfl
  | cons c cs =>
    by_cases h : isSign c = true
    · rw [sign_cons h]
      rw [isSign, Bool.or_eq_true_iff, beq_iff_eq, beq_iff_eq] at h
      rcases h with rfl | rfl <;> simp
    · exact .inl (sign_eq_nil (by simpa using h))

theorem word?_of_drop {cs body rest : List Char} (h : cs.drop (sign cs).length = body ++ rest)
    (hbody : ∀ c ∈ body, isWordChar c = true) (hstop : ∀ c ∈ rest.head?, isWordChar c = false) :
    word? cs = if body = [] then none else some (sign cs ++ body, rest) := by
  rw [word?, h]
  simp only [takeWhile_append_stop hbody hstop, dropWhile_append_stop hbody hstop]

theorem word?_eq_some_iff {cs word rest : List Char} :
    word? cs = some (word, rest) ↔
      cs = word ++ rest ∧ IsWord word ∧ ∀ c ∈ rest.head?, isWordChar c = false := by
  constructor
  · intro h
    obtain ⟨body, rest', hcs, hbody, hstop⟩ := exists_stretch isWordChar (cs.drop (sign cs).length)
    rw [word?_of_drop hcs hbody hstop] at h
    split at h
    · cases h
    next hne =>
      simp only [Option.some.injEq, Prod.mk.injEq] at h
      obtain ⟨rfl, rfl⟩ := h
      refine ⟨?_, ⟨sign cs, body, rfl, sign_eq cs, hne, hbody⟩, hstop⟩
      rw [List.append_assoc, ← hcs, sign_append_drop]
  · rintro ⟨rfl, ⟨sg, body, rfl, hsign, hne, hbody⟩, hstop⟩
    have hsg : sign (sg ++ (body ++ rest)) = sg := by
      rcases hsign with rfl | rfl | rfl
      · obtain ⟨c, body, rfl⟩ := List.exists_cons_of_ne_nil hne
        refine sign_eq_nil ?_
        rintro d ⟨⟩
        exact isSign_eq_false_of_isWordChar (hbody c (by simp))
      · exact sign_cons rfl _
      · exact sign_cons rfl _
    rw [List.append_assoc, word?_of_drop (by rw [hsg, List.drop_left]) hbody hstop, hsg, if_neg hne]

theorem word?_eq_none_iff {cs : List Char} :
    word? cs = none ↔ ∀ c ∈ (cs.drop (sign cs).length).head?, isWordChar c = false := by
  obtain ⟨body, rest, hcs, hbody, hstop⟩ := exists_stretch isWordChar (cs.drop (sign cs).length)
  rw [word?_of_drop hcs hbody hstop, hcs]
  cases body with
  | nil => simpa using hstop
  | cons c body => simp [hbody c]

theorem isBlank_eq_false_of_isWordChar {c : Char} (h : isWordChar c = true) : isBlank c = false := by
  by_contra hc
  simp only [Bool.not_eq_false, isBlank, Bool.or_eq_true, beq_iff_eq] at hc
  rcases hc with (((rfl | rfl) | rfl) | rfl) | rfl <;> revert h <;> decide

theorem isGap_eq_false_of_unblank {c : Char} (h : isBlank c = false) : isGap c = false := by
  by_contra hno
  rw [Bool.not_eq_false] at hno
  exact absurd h (by simp [isBlank_of_isGap hno])

theorem isWordChar_eq_false_of_isGap {c : Char} (h : isGap c = true) : isWordChar c = false := by
  by_contra hno
  rw [Bool.not_eq_false] at hno
  exact absurd (isBlank_eq_false_of_isWordChar hno) (by simp [isBlank_of_isGap h])

theorem IsWord.unblank {cs : List Char} (h : IsWord cs) : ∀ c ∈ cs, isBlank c = false := by
  obtain ⟨sign, body, rfl, hsign, -, hbody⟩ := h
  intro c hc
  rcases List.mem_append.mp hc with hc | hc
  · rcases hsign with rfl | rfl | rfl
    · cases hc
    · obtain rfl := List.mem_singleton.mp hc
      rfl
    · obtain rfl := List.mem_singleton.mp hc
      rfl
  · exact isBlank_eq_false_of_isWordChar (hbody c hc)

/-- Lower case makes no character a part of a word that is none. -/
theorem isWordChar_of_toLower {c : Char} (h : isWordChar c.toLower = true) : isWordChar c = true := by
  unfold Char.toLower at h
  split at h
  next hrange =>
    have hupper : c.isUpper = true := decide_eq_true hrange
    have halpha : c.isAlpha = true := by
      show (c.isUpper || c.isLower) = true
      rw [hupper, Bool.true_or]
    simp [isWordChar, Char.isAlphanum, halpha]
  · exact h

theorem forall_isWordChar_of_fold {cs name : List Char} (h : fold cs = name)
    (hname : name.all isWordChar = true) : ∀ c ∈ cs, isWordChar c = true := by
  intro c hc
  refine isWordChar_of_toLower (List.all_eq_true.mp hname _ ?_)
  rw [← h]
  exact List.mem_map_of_mem hc

instance (cs : List Char) : Decidable (IsWord cs) :=
  decidable_of_iff (word? cs = some (cs, [])) (by simp [word?_eq_some_iff])

/-! ## Keywords -/

theorem fold_append (cs ds : List Char) : fold (cs ++ ds) = fold cs ++ fold ds :=
  List.map_append

/-- Only one keyword can stand at the start of a text. -/
theorem keyword_unique {name name' rest rest' : List Char} {k k' : Keyword}
    (h : name ++ rest = name' ++ rest') (hk : fold name = k.name.toList)
    (hk' : fold name' = k'.name.toList) : k = k' ∧ name = name' ∧ rest = rest' := by
  have hp : k.name.toList <+: fold (name ++ rest) := by
    rw [fold_append, hk]
    exact List.prefix_append _ _
  have hp' : k'.name.toList <+: fold (name ++ rest) := by
    rw [h, fold_append, hk']
    exact List.prefix_append _ _
  have hkk : k = k' := by
    rcases Nat.le_total k.name.toList.length k'.name.toList.length with hle | hle
    · exact Keyword.eq_of_prefix (List.prefix_of_prefix_length_le hp hp' hle)
    · exact (Keyword.eq_of_prefix (List.prefix_of_prefix_length_le hp' hp hle)).symm
  subst hkk
  have hlen : name.length = name'.length := by
    have := congrArg List.length (hk.trans hk'.symm)
    simpa [fold] using this
  obtain ⟨hname, hrest⟩ := List.append_inj h hlen
  exact ⟨rfl, hname, hrest⟩

theorem keyword?_append {cs name rest : List Char} {k : Keyword}
    (h : keyword? cs = some (k, name, rest)) : cs = name ++ rest ∧ fold name = k.name.toList := by
  obtain ⟨k', -, hk'⟩ := List.exists_of_findSome?_eq_some h
  dsimp only at hk'
  split at hk'
  next hfold =>
    simp only [Option.some.injEq, Prod.mk.injEq] at hk'
    obtain ⟨rfl, rfl, rfl⟩ := hk'
    exact ⟨(List.take_append_drop _ _).symm, hfold⟩
  · cases hk'

theorem keyword?_eq_some_iff {cs name rest : List Char} {k : Keyword} :
    keyword? cs = some (k, name, rest) ↔ cs = name ++ rest ∧ fold name = k.name.toList := by
  refine ⟨keyword?_append, ?_⟩
  rintro ⟨rfl, hk⟩
  have hlen : k.name.toList.length = name.length := by
    rw [← hk, fold, List.length_map]
  cases hfind : keyword? (name ++ rest) with
  | none =>
    have := List.findSome?_eq_none_iff.mp hfind k k.mem_all
    simp [hlen, hk] at this
  | some found =>
    obtain ⟨k', name', rest'⟩ := found
    obtain ⟨h, hk'⟩ := keyword?_append hfind
    obtain ⟨rfl, rfl, rfl⟩ := keyword_unique h hk hk'
    rfl

theorem keyword?_eq_none_iff {cs : List Char} :
    keyword? cs = none ↔ ∀ (k : Keyword) (name rest : List Char), cs = name ++ rest →
      fold name ≠ k.name.toList := by
  rw [Option.eq_none_iff_forall_ne_some]
  constructor
  · intro h k name rest hcs hk
    exact h (k, name, rest) (keyword?_eq_some_iff.mpr ⟨hcs, hk⟩)
  · rintro h ⟨k, name, rest⟩ hsome
    obtain ⟨hcs, hk⟩ := keyword?_eq_some_iff.mp hsome
    exact h k name rest hcs hk

/-! ## Groups -/

section Groups

variable {cs gap rest word rest' : List Char}

@[simp] theorem groupsAt_nil (pos : Nat) : groupsAt pos [] = .ok [] := by
  rw [groupsAt, if_pos rfl]

/-- A text is taken apart by its first gap and the word behind it. -/
theorem groupsAt_eq (hne : cs ≠ []) (pos : Nat) :
    groupsAt pos cs =
      match gap? cs with
      | none => .error pos
      | some (gap, rest) =>
        match word? rest with
        | none => .error (pos + byteLength gap)
        | some (word, rest') =>
          (groupsAt (pos + byteLength gap + byteLength word) rest').map
            (⟨pos + byteLength gap, pos + byteLength gap + byteLength word⟩ :: ·) := by
  rw [groupsAt, if_neg hne]
  split
  next hgap => rw [hgap]
  next hgap =>
    rw [hgap]
    dsimp only
    split
    next hword => rw [hword]
    next hword => rw [hword]

theorem ne_nil_of_gap?_eq_some (hgap : gap? cs = some (gap, rest)) : cs ≠ [] := by
  rintro rfl
  exact absurd hgap (by simp [gap?])

theorem groupsAt_of_gap?_eq_none (hne : cs ≠ []) (hgap : gap? cs = none) (pos : Nat) :
    groupsAt pos cs = .error pos := by
  rw [groupsAt_eq hne, hgap]

theorem groupsAt_of_word?_eq_none (hgap : gap? cs = some (gap, rest)) (hword : word? rest = none)
    (pos : Nat) : groupsAt pos cs = .error (pos + byteLength gap) := by
  rw [groupsAt_eq (ne_nil_of_gap?_eq_some hgap), hgap]
  simp only [hword]

theorem groupsAt_of_word?_eq_some (hgap : gap? cs = some (gap, rest))
    (hword : word? rest = some (word, rest')) (pos : Nat) :
    groupsAt pos cs = (groupsAt (pos + byteLength gap + byteLength word) rest').map
      (⟨pos + byteLength gap, pos + byteLength gap + byteLength word⟩ :: ·) := by
  rw [groupsAt_eq (ne_nil_of_gap?_eq_some hgap), hgap]
  simp only [hword]

end Groups

/-! ## Lines -/

section Lines

variable {text : String} {name rest : List Char} {k : Keyword}

theorem parse_line_of_keyword?_eq_none (h : keyword? text.toList = none) :
    Rule.line.parse text = .error 0 := by
  simp only [Rule.parse, h]

theorem parse_line_of_groupsAt_error (h : keyword? text.toList = some (k, name, rest)) {p : Nat}
    (hrest : groupsAt (byteLength name) rest = .error p) : Rule.line.parse text = .error p := by
  simp only [Rule.parse, h, hrest]
  rfl

theorem parse_line_of_groupsAt_ok (h : keyword? text.toList = some (k, name, rest))
    {words : List Span} (hrest : groupsAt (byteLength name) rest = .ok words) :
    Rule.line.parse text =
      .ok (⟨.line, .whole text⟩ :: ⟨.keyword, ⟨0, byteLength name⟩⟩ :: words.map (⟨.word, ·⟩)
        ++ [⟨.finish, ⟨text.utf8ByteSize, text.utf8ByteSize⟩⟩]) := by
  simp only [Rule.parse, h, hrest]
  rfl

end Lines

end PenPlot.LineShape
