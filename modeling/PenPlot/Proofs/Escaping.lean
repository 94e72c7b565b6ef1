import PenPlot.Html

/-!
# Escaping

Although `Html.escape` goes over the text once for each character that it replaces, it works on every character
by itself (`escape_eq`): the ampersands that come with the later replacements are not replaced again. So what it
writes has no character that could begin or end a tag or a quoted value, and no ampersand but those of
entities (`harmless_escape`), and one pass from left to right reads the text back (`unescape_escape`). There are no
other texts of that kind: whatever is harmless is an escaped text (`Harmless.exists_escape`).
-/

namespace PenPlot.Html

/-! ## One character at a time -/

/-- The entities, behind the characters that they stand for. -/
def entities : List (Char × String) :=
  [('&', "&amp;"), ('<', "&lt;"), ('>', "&gt;"), ('"', "&quot;")]

/-- What is written for a character. -/
def written (c : Char) : List Char :=
  if c = '&' then "&amp;".toList
  else if c = '<' then "&lt;".toList
  else if c = '>' then "&gt;".toList
  else if c = '"' then "&quot;".toList
  else [c]

/-- The character needs no entity. -/
def IsSafe (c : Char) : Prop :=
  c ≠ '&' ∧ c ≠ '<' ∧ c ≠ '>' ∧ c ≠ '"'

instance (c : Char) : Decidable (IsSafe c) :=
  inferInstanceAs (Decidable (_ ∧ _))

theorem written_of_isSafe {c : Char} (h : IsSafe c) : written c = [c] := by
  obtain ⟨hand, hless, hgreater, hquote⟩ := h
  rw [written, if_neg hand, if_neg hless, if_neg hgreater, if_neg hquote]

theorem eq_of_not_isSafe {c : Char} (h : ¬IsSafe c) : c = '&' ∨ c = '<' ∨ c = '>' ∨ c = '"' := by
  unfold IsSafe at h
  grind

theorem no_mark_in_entity : ∀ entity ∈ entities, ∀ mark ∈ ['<', '>', '"'], mark ∉ entity.2.toList := by
  simp [entities]

/-- An entity has an ampersand in front only. -/
theorem no_ampersand_in_entity : ∀ entity ∈ entities, '&' ∉ entity.2.toList.tail := by
  decide

theorem written_mem_entities {c : Char} (h : ¬IsSafe c) : (c, String.ofList (written c)) ∈ entities := by
  rcases eq_of_not_isSafe h with rfl | rfl | rfl | rfl <;> decide

theorem substitute_append (c : Char) (replacement cs ds : List Char) :
    substitute c replacement (cs ++ ds) = substitute c replacement cs ++ substitute c replacement ds :=
  List.flatMap_append

theorem substitute_of_ne {c d : Char} (h : d ≠ c) (replacement : List Char) :
    substitute c replacement [d] = [d] := by
  rw [substitute, List.flatMap_singleton, if_neg h]

theorem escape_eq (s : String) : escape s = String.ofList (s.toList.flatMap written) := by
  have hchar : ∀ c : Char,
      substitute '"' "&quot;".toList (substitute '>' "&gt;".toList
        (substitute '<' "&lt;".toList (substitute '&' "&amp;".toList [c]))) = written c := by
    intro c
    by_cases hsafe : IsSafe c
    · obtain ⟨hand, hless, hgreater, hquote⟩ := id hsafe
      rw [written_of_isSafe hsafe, substitute_of_ne hand, substitute_of_ne hless,
        substitute_of_ne hgreater, substitute_of_ne hquote]
    · rcases eq_of_not_isSafe hsafe with rfl | rfl | rfl | rfl <;> decide
  unfold escape
  refine congrArg String.ofList ?_
  induction s.toList with
  | nil => rfl
  | cons c cs ih =>
    rw [← List.singleton_append, List.flatMap_append, List.flatMap_singleton, ← ih, ← hchar c]
    simp only [substitute_append]

/-! ## What cannot stand in an escaped text -/

/-- No tag, no quoted value and no entity but ours can begin or end in the text. -/
structure Harmless (s : String) : Prop where
  less : '<' ∉ s.toList
  greater : '>' ∉ s.toList
  quote : '"' ∉ s.toList
  ampersand : ∀ before behind, s.toList = before ++ '&' :: behind →
    ∃ entity ∈ entities, entity.2.toList <+: '&' :: behind

theorem ampersand_flatMap_written {cs before behind : List Char}
    (h : cs.flatMap written = before ++ '&' :: behind) :
    ∃ entity ∈ entities, entity.2.toList <+: '&' :: behind := by
  induction cs generalizing before with
  | nil => simp at h
  | cons c cs ih =>
    rw [List.flatMap_cons] at h
    obtain ⟨rest, -, hrest⟩ | ⟨last, hwritten, hbehind⟩ := List.append_eq_append_iff.mp h
    · exact ih hrest
    · cases last with
      | nil => exact @ih [] hbehind.symm
      | cons d last =>
        obtain ⟨rfl, hlast⟩ := List.cons.inj hbehind
        have hsafe : ¬IsSafe c := by
          intro hsafe
          have hmem : '&' ∈ written c := by simp [hwritten]
          rw [written_of_isSafe hsafe, List.mem_singleton] at hmem
          exact hsafe.1 hmem.symm
        have hentity := written_mem_entities hsafe
        cases before with
        | nil =>
          refine ⟨_, hentity, ?_⟩
          rw [String.toList_ofList, hwritten, hlast]
          exact ⟨cs.flatMap written, rfl⟩
        | cons e before =>
          have hno := no_ampersand_in_entity _ hentity
          simp [hwritten] at hno

theorem harmless_escape (s : String) : Harmless (escape s) := by
  have hmarks : ∀ mark ∈ ['<', '>', '"'], mark ∉ (escape s).toList := by
    intro mark hmark hmem
    rw [escape_eq, String.toList_ofList, List.mem_flatMap] at hmem
    obtain ⟨c, -, hc⟩ := hmem
    by_cases hsafe : IsSafe c
    · rw [written_of_isSafe hsafe, List.mem_singleton] at hc
      obtain ⟨-, hless, hgreater, hquote⟩ := hsafe
      simp [hc, hless, hgreater, hquote] at hmark
    · have hno := no_mark_in_entity _ (written_mem_entities hsafe) mark hmark
      rw [String.toList_ofList] at hno
      exact hno hc
  refine ⟨hmarks _ (by decide), hmarks _ (by decide), hmarks _ (by decide), fun before behind h => ?_⟩
  rw [escape_eq, String.toList_ofList] at h
  exact ampersand_flatMap_written h

/-! ## Reading back -/

/-- Reads entities as the characters they stand for, in one pass from left to right. The first `skip` characters
have been read already. -/
def decode : (skip : Nat) → List Char → List Char
  | _, [] => []
  | skip + 1, _ :: cs => decode skip cs
  | 0, c :: cs =>
    match entities.find? fun entity => entity.2.toList.isPrefixOf (c :: cs) with
    | some entity => entity.1 :: decode (entity.2.length - 1) cs
    | none => c :: decode 0 cs

def unescape (s : String) : String :=
  String.ofList (decode 0 s.toList)

theorem decode_written (c : Char) (cs : List Char) : decode 0 (written c ++ cs) = c :: decode 0 cs := by
  by_cases hsafe : IsSafe c
  · have hnone : (entities.find? fun entity => entity.2.toList.isPrefixOf (c :: cs)) = none := by
      simp [entities, hsafe.1.symm]
    rw [written_of_isSafe hsafe, List.singleton_append, decode, hnone]
  · rcases eq_of_not_isSafe hsafe with rfl | rfl | rfl | rfl <;> rfl

theorem unescape_escape (s : String) : unescape (escape s) = s := by
  rw [unescape, escape_eq, String.toList_ofList, ← String.toList_inj, String.toList_ofList]
  induction s.toList with
  | nil => rfl
  | cons c cs ih => rw [List.flatMap_cons, decode_written, ih]

theorem escape_injective {s t : String} (h : escape s = escape t) : s = t := by
  rw [← unescape_escape s, h, unescape_escape]

/-! ## Piece by piece -/

theorem escape_append (s t : String) : escape (s ++ t) = escape s ++ escape t := by
  rw [escape_eq, escape_eq, escape_eq, String.toList_append, List.flatMap_append, String.ofList_append]

theorem escape_singleton (c : Char) : escape (String.singleton c) = String.ofList (written c) := by
  rw [escape_eq, String.toList_singleton, List.flatMap_singleton]

theorem written_ne_nil (c : Char) : written c ≠ [] := by
  by_cases hsafe : IsSafe c
  · simp [written_of_isSafe hsafe]
  · rcases eq_of_not_isSafe hsafe with rfl | rfl | rfl | rfl <;> decide

theorem toList_of_mem_entities {entity : Char × String} (h : entity ∈ entities) :
    entity.2.toList = written entity.1 := by
  revert entity
  decide

/-! ## Which texts are escaped -/

namespace Harmless

variable {s t : String}

theorem of_append (h : Harmless (s ++ t)) : Harmless t where
  less hmem := h.less (by simp [hmem])
  greater hmem := h.greater (by simp [hmem])
  quote hmem := h.quote (by simp [hmem])
  ampersand before behind ht :=
    h.ampersand (s.toList ++ before) behind (by rw [String.toList_append, ht, List.append_assoc])

/-- A harmless text begins with what is written for some character. -/
theorem exists_written (h : Harmless t) (hne : t ≠ "") :
    ∃ c rest, t = String.ofList (written c) ++ rest := by
  obtain ⟨c, cs, hcs⟩ : ∃ c cs, t.toList = c :: cs :=
    List.exists_cons_of_ne_nil (mt String.toList_eq_nil_iff.mp hne)
  by_cases hand : c = '&'
  · subst hand
    obtain ⟨entity, hentity, rest, hrest⟩ := h.ampersand [] cs hcs
    refine ⟨entity.1, String.ofList rest, ?_⟩
    rw [← toList_of_mem_entities hentity, ← String.ofList_append, hrest, ← hcs, String.ofList_toList]
  · have hsafe : IsSafe c := by
      refine ⟨hand, ?_, ?_, ?_⟩ <;> rintro rfl
      · exact h.less (by simp [hcs])
      · exact h.greater (by simp [hcs])
      · exact h.quote (by simp [hcs])
    refine ⟨c, String.ofList cs, ?_⟩
    rw [written_of_isSafe hsafe, ← String.ofList_append, List.singleton_append, ← hcs,
      String.ofList_toList]

theorem exists_escape (h : Harmless t) : ∃ s, escape s = t := by
  -- by the length of the text: what is left behind a written character is shorter
  induction hn : t.length using Nat.strongRecOn generalizing t with
  | ind n ih =>
  by_cases hne : t = ""
  · exact ⟨"", hne.symm ▸ rfl⟩
  · obtain ⟨c, rest, rfl⟩ := h.exists_written hne
    have hlt : rest.length < n := by
      have hpos := List.length_pos_iff.mpr (written_ne_nil c)
      rw [← hn, String.length_append, String.length_ofList]
      omega
    obtain ⟨s, rfl⟩ := ih _ hlt h.of_append rfl
    exact ⟨String.singleton c ++ s, by rw [escape_append, escape_singleton]⟩

end Harmless

/-- **Escaping.** Going over a text four times writes every character by itself, once. What it gives is harmless,
and one pass from left to right reads the text back from it; the harmless texts are just those that are given.
Two texts one behind the other are escaped one behind the other. -/
theorem escape_reversible (s t : String) :
    escape s = String.ofList (s.toList.flatMap written) ∧
    Harmless (escape s) ∧
    unescape (escape s) = s ∧
    (Harmless t ↔ escape (unescape t) = t) ∧
    escape (s ++ t) = escape s ++ escape t := by
  refine ⟨escape_eq s, harmless_escape s, unescape_escape s, ?_, escape_append s t⟩
  constructor
  · intro h
    obtain ⟨original, rfl⟩ := h.exists_escape
    rw [unescape_escape]
  · intro h
    rw [← h]
    exact harmless_escape _

/-- Entities in the text are text like any other. -/
example : escape "<a href=\"x\">&amp;" = "&lt;a href=&quot;x&quot;&gt;&amp;amp;" := by
  decide

end PenPlot.Html
