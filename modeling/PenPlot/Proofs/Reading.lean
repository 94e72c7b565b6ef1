import Mathlib.Data.List.Forall2
import PenPlot.Command.Parse
import PenPlot.Proofs.Results

/-!
# What reading a line yields

Names of keywords are compared by their letters alone (`Keyword.ofName?_eq_some_iff`). Of the faults of a
line, an unknown command is the first: behind a keyword it is never reported (`parse_ne_invalidCommand`).
A line that is read has a word for each slot, and each of them fits (`words_of_parse_ok`).
-/

namespace PenPlot

open Text

/-! ## Keywords -/

namespace Keyword

theorem sameLetters_name_iff {s : String} {k : Keyword} :
    sameLetters s k.name = true ↔ fold s.toList = k.name.toList := by
  rw [sameLetters, beq_iff_eq, fold_name]

theorem ofName?_eq_some_iff {s : String} {k : Keyword} :
    ofName? s = some k ↔ fold s.toList = k.name.toList := by
  constructor
  · intro h
    have hsame : sameLetters s k.name = true := by
      unfold ofName? at h
      simpa using List.find?_some h
    exact sameLetters_name_iff.mp hsame
  · intro h
    have hsame : ofName? s = ofName? k.name := by
      simp only [ofName?, sameLetters, h, fold_name]
    rw [hsame, ofName?_name]

end Keyword

/-! ## Arguments -/

section Args

variable {slot : Slot} {slots : List Slot} {word : Token} {words : List Token}

theorem readArgs_of_read?_eq_none (keyword : Keyword) (position : Nat)
    (hread : slot.read? word.text = none)
    (h : (slot :: slots).length ≤ (word :: words).length) :
    readArgs keyword (slot :: slots) position (word :: words) h =
      .error ⟨slot.mismatch keyword position word.text, word.span⟩ := by
  simp only [readArgs, hread]

theorem readArgs_of_read?_eq_some (keyword : Keyword) (position : Nat) {value : slot.Value}
    (hread : slot.read? word.text = some value)
    (h : (slot :: slots).length ≤ (word :: words).length) :
    readArgs keyword (slot :: slots) position (word :: words) h =
      (readArgs keyword slots (position + 1) words (Nat.le_of_succ_le_succ h)).map fun values =>
        (value, values) := by
  simp only [readArgs, hread]
  rfl

/-- A word that some value of the slot reads from. -/
def Slot.Fits (slot : Slot) (word : Token) : Prop :=
  ∃ value, slot.read? word.text = some value

/-- Either every slot has a word that fits, or a mismatch is reported. -/
theorem readArgs_cases (keyword : Keyword) (position : Nat) (h : slots.length ≤ words.length) :
    (∃ values, readArgs keyword slots position words h = .ok values ∧
      List.Forall₂ Slot.Fits slots (words.take slots.length)) ∨
    ∃ slot ∈ slots, ∃ word ∈ words, ∃ i,
      readArgs keyword slots position words h =
        .error ⟨slot.mismatch keyword i word.text, word.span⟩ := by
  induction slots generalizing position words with
  | nil => exact .inl ⟨(), rfl, .nil⟩
  | cons slot slots ih =>
    cases words with
    | nil => cases h
    | cons word words =>
      cases hread : slot.read? word.text with
      | none =>
        refine .inr ⟨slot, by simp, word, by simp, position, ?_⟩
        exact readArgs_of_read?_eq_none keyword position hread h
      | some value =>
        rw [readArgs_of_read?_eq_some keyword position hread h]
        rcases ih (position + 1) (Nat.le_of_succ_le_succ h) with
          ⟨values, hok, hfits⟩ | ⟨slot', hslot, word', hword, i, herror⟩
        · rw [hok]
          exact .inl ⟨_, rfl, .cons ⟨value, hread⟩ hfits⟩
        · rw [herror]
          exact .inr ⟨slot', by simp [hslot], word', by simp [hword], i, rfl⟩

end Args

/-! ## Words too many -/

section Unexpected

variable {keyword : Keyword} {words : List Token}

theorem unexpected?_eq_none_iff :
    unexpected? keyword words = none ↔ (keyword.slots = [] → words = []) := by
  unfold unexpected? Keyword.isStrict
  by_cases hslots : keyword.slots = []
  · simp [hslots]
  · simp [hslots]

theorem unexpected?_eq_some_iff {extra : Token} :
    unexpected? keyword words = some extra ↔
      keyword.slots = [] ∧ ∃ words', words = extra :: words' := by
  unfold unexpected? Keyword.isStrict
  by_cases hslots : keyword.slots = []
  · rw [if_pos (List.isEmpty_iff.mpr hslots), List.head?_eq_some_iff]
    exact ⟨fun h => ⟨hslots, h⟩, fun h => h.2⟩
  · rw [if_neg fun h => hslots (List.isEmpty_iff.mp h)]
    exact ⟨nofun, fun h => absurd h.1 hslots⟩

end Unexpected

/-! ## Lines -/

namespace Command

section Lines

variable {line : String} {head : Token} {words : List Token} {k : Keyword}

theorem parse_of_tokens_eq_nil (h : tokens line = []) :
    parse line = .error ⟨.invalidCommand "", .whole line⟩ := by
  rw [parse, h]

theorem parse_of_tokens (h : tokens line = head :: words) : parse line = ofWords head words := by
  rw [parse, h]

theorem ofWords_of_lt (hhead : Keyword.ofName? head.text = some k) (h : words.length < k.arity) :
    ofWords head words =
      .error ⟨.missingArguments k words.length, (words.getLast?.getD head).span⟩ := by
  simp only [ofWords, hhead, dif_neg (Nat.not_le_of_lt h)]

theorem ofWords_of_unexpected (hhead : Keyword.ofName? head.text = some k)
    (h : k.arity ≤ words.length) {extra : Token} (hextra : unexpected? k words = some extra) :
    ofWords head words = .error ⟨.unexpectedArgument k extra.text, extra.span⟩ := by
  simp only [ofWords, hhead, dif_pos h, hextra]

/-- Behind a keyword with enough words, and none too many, the arguments are read. -/
theorem ofWords_eq_map (hhead : Keyword.ofName? head.text = some k) (h : k.arity ≤ words.length)
    (hextra : unexpected? k words = none) :
    ofWords head words = (readArgs k k.slots 1 words h).map (ofArgs k) := by
  simp only [ofWords, hhead, dif_pos h, hextra]

/-- The results of reading words, in the order in which the faults are looked for. -/
theorem ofWords_cases (head : Token) (words : List Token) :
    (Keyword.ofName? head.text = none ∧
      ofWords head words = .error ⟨.invalidCommand head.text, head.span⟩) ∨
    ∃ k, Keyword.ofName? head.text = some k ∧
      (words.length < k.arity ∧
        ofWords head words =
          .error ⟨.missingArguments k words.length, (words.getLast?.getD head).span⟩ ∨
      (∃ extra, unexpected? k words = some extra ∧
        ofWords head words = .error ⟨.unexpectedArgument k extra.text, extra.span⟩) ∨
      ∃ h : k.arity ≤ words.length, unexpected? k words = none ∧
        ofWords head words = (readArgs k k.slots 1 words h).map (ofArgs k)) := by
  cases hname : Keyword.ofName? head.text with
  | none => exact .inl ⟨rfl, by simp only [ofWords, hname]⟩
  | some k =>
    refine .inr ⟨k, rfl, ?_⟩
    by_cases hle : k.arity ≤ words.length
    · cases hextra : unexpected? k words with
      | some extra => exact .inr (.inl ⟨extra, rfl, ofWords_of_unexpected hname hle hextra⟩)
      | none => exact .inr (.inr ⟨hle, rfl, ofWords_eq_map hname hle hextra⟩)
    · have hlt : words.length < k.arity := Nat.lt_of_not_le hle
      exact .inl ⟨hlt, ofWords_of_lt hname hlt⟩

/-- Behind a keyword, no fault is an unknown command. -/
theorem parse_ne_invalidCommand (h : tokens line = head :: words)
    (hhead : Keyword.ofName? head.text = some k) (name : String) (span : Span) :
    parse line ≠ .error ⟨.invalidCommand name, span⟩ := by
  rw [parse_of_tokens h]
  rcases ofWords_cases head words with ⟨hno, -⟩ | ⟨k', -, ⟨-, hw⟩ | ⟨extra, -, hw⟩ | ⟨hle, -, hw⟩⟩
  · exact absurd hno (by simp [hhead])
  · rw [hw]
    nofun
  · rw [hw]
    nofun
  · rw [hw]
    rcases readArgs_cases k' 1 hle with
      ⟨values, hargs, -⟩ | ⟨slot, -, word, -, i, hargs⟩
    · rw [hargs]
      nofun
    · rw [hargs]
      cases slot <;> nofun

/-- The words of a line that is read: a keyword, and a fitting word for each of its slots; if it has no slots,
nothing more. -/
theorem words_of_parse_ok {command : Command} (h : parse line = .ok command) :
    ∃ head words, tokens line = head :: words ∧
      Keyword.ofName? head.text = some command.keyword ∧
      List.Forall₂ Slot.Fits command.keyword.slots (words.take command.keyword.arity) ∧
      (command.keyword.slots = [] → words = []) := by
  cases hline : tokens line with
  | nil => exact absurd h (by simp [parse_of_tokens_eq_nil hline])
  | cons head words =>
    rw [parse_of_tokens hline] at h
    rcases ofWords_cases head words with ⟨-, hw⟩ | ⟨k, hk, ⟨-, hw⟩ | ⟨extra, -, hw⟩ | ⟨hle, hnone, hw⟩⟩
    · exact absurd h (by simp [hw])
    · exact absurd h (by simp [hw])
    · exact absurd h (by simp [hw])
    · rw [hw] at h
      obtain ⟨values, hargs, rfl⟩ := map_eq_ok_iff.mp h
      rcases readArgs_cases k 1 hle with ⟨-, -, hfits⟩ | ⟨slot, -, word, -, i, hno⟩
      · rw [keyword_ofArgs]
        exact ⟨head, words, rfl, hk, hfits, unexpected?_eq_none_iff.mp hnone⟩
      · exact absurd hargs (by simp [hno])

end Lines

end Command

end PenPlot
