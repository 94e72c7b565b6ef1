import PenPlot.Proofs.Faults
import PenPlot.Proofs.Strictness

/-!
# Spacing and case

A line is read by its words, and a word by its letters without their case: names are compared in that way
(`Spells`), and integers have no letters. So two lines with the same words up to case are read alike, however
they are spaced: as one command, or with reasons that differ in nothing but the case of the word they name
(`Reason.Alike`). If both are well shaped, they are checked alike as well (`parse_alike`).

The proof goes the way of the reading, from one word (`Slot.read?_congr`) to all arguments
(`readArgs_alike`) and to the line.
-/

namespace PenPlot

open Text LineShape

/-! ## Results that agree -/

/-- Both give one value, or errors that `r` relates. -/
inductive Agree {ε ε' α : Type} (r : ε → ε' → Prop) : Except ε α → Except ε' α → Prop
  | ok (a : α) : Agree r (.ok a) (.ok a)
  | error {e : ε} {e' : ε'} : r e e' → Agree r (.error e) (.error e')

section Results

variable {ε ε' δ δ' α β : Type} {r : ε → ε' → Prop} {x : Except ε α} {x' : Except ε' α}

theorem Agree.map (h : Agree r x x') (f : α → β) : Agree r (x.map f) (x'.map f) := by
  cases h with
  | ok a => exact .ok (f a)
  | error he => exact .error he

theorem Agree.mapError {s : δ → δ' → Prop} (h : Agree r x x') {f : ε → δ} {f' : ε' → δ'}
    (hf : ∀ e e', r e e' → s (f e) (f' e')) : Agree s (x.mapError f) (x'.mapError f') := by
  cases h with
  | ok a => exact .ok a
  | error he => exact .error (hf _ _ he)

end Results

/-! ## Texts without letters -/

theorem isLower_toLower {c : Char} (h : c.isUpper = true) : c.toLower.isLower = true := by
  have hrange : 'A'.val ≤ c.val ∧ c.val ≤ 'Z'.val := of_decide_eq_true h
  have hlow : 65 ≤ c.val.toNat := UInt32.le_iff_toNat_le.mp hrange.1
  have hhigh : c.val.toNat ≤ 90 := UInt32.le_iff_toNat_le.mp hrange.2
  have hsum : (c.val + 32).toNat = c.val.toNat + 32 := by
    rw [UInt32.toNat_add]
    refine Nat.mod_eq_of_lt ?_
    show c.val.toNat + 32 < 2 ^ 32
    omega
  unfold Char.toLower
  rw [dif_pos hrange]
  refine Bool.and_eq_true_iff.mpr ⟨decide_eq_true ?_, decide_eq_true ?_⟩
  · refine UInt32.le_iff_toNat_le.mpr ?_
    show 97 ≤ (c.val + 32).toNat
    omega
  · refine UInt32.le_iff_toNat_le.mpr ?_
    show (c.val + 32).toNat ≤ 122
    omega

/-- A character that is no letter has no other case. -/
theorem eq_of_toLower_eq {c d : Char} (h : c.toLower = d.toLower) (hc : c.isAlpha = false) : c = d := by
  have hkept : ∀ {a : Char}, a.isUpper = false → a.toLower = a := fun ha =>
    dif_neg (of_decide_eq_false ha)
  obtain ⟨hupper, hlower⟩ := Bool.or_eq_false_iff.mp hc
  rw [hkept hupper] at h
  cases hd : d.isUpper with
  | false => rw [h, hkept hd]
  | true =>
    -- the lower case of a letter is a letter, and `c` is none
    rw [h, isLower_toLower hd] at hlower
    cases hlower

theorem eq_of_fold_eq {cs ds : List Char} (h : fold cs = fold ds) (hcs : ∀ c ∈ cs, c.isAlpha = false) :
    cs = ds := by
  induction cs generalizing ds with
  | nil => exact (List.map_eq_nil_iff.mp h.symm).symm
  | cons c cs ih =>
    cases ds with
    | nil => cases h
    | cons d ds =>
      obtain ⟨hhead, htail⟩ := List.cons_eq_cons.mp h
      rw [eq_of_toLower_eq hhead (hcs c (by simp)), ih htail fun b hb => hcs b (by simp [hb])]

theorem isAlpha_of_isDigit {c : Char} (h : c.isDigit = true) : c.isAlpha = false := by
  have hhigh : c.val.toNat ≤ 57 :=
    UInt32.le_iff_toNat_le.mp (of_decide_eq_true (Bool.and_eq_true_iff.mp h).2)
  refine Bool.or_eq_false_iff.mpr ⟨decide_eq_false ?_, Bool.and_eq_false_iff.mpr (.inl ?_)⟩
  · intro hupper
    have : 65 ≤ c.val.toNat := UInt32.le_iff_toNat_le.mp hupper.1
    omega
  · refine decide_eq_false fun hlower => ?_
    have : 97 ≤ c.val.toNat := UInt32.le_iff_toNat_le.mp hlower
    omega

theorem Numeral.isAlpha_eq_false {cs : List Char} {n : Int} (h : Numeral cs n) :
    ∀ c ∈ cs, c.isAlpha = false := by
  have hdigits : ∀ {digits : List Char}, IsDigits digits → ∀ c ∈ digits, c.isAlpha = false :=
    fun h c hc => isAlpha_of_isDigit (h.2 c hc)
  cases h with
  | plain h => exact hdigits h
  | plus h => exact List.forall_mem_cons.mpr ⟨by decide, hdigits h⟩
  | minus h => exact List.forall_mem_cons.mpr ⟨by decide, hdigits h⟩

/-! ## Words up to case -/

section Words

variable {word word' : String}

instance (word name : String) : Decidable (Spells word name) :=
  inferInstanceAs (Decidable (fold word.toList = fold name.toList))

theorem Spells.symm (h : Spells word word') : Spells word' word :=
  Eq.symm h

theorem Spells.trans {name : String} (h : Spells word word') (h' : Spells word' name) : Spells word name :=
  Eq.trans h h'

theorem IsInteger.congr {i : Int32} (h : IsInteger word i) (hword : Spells word word') :
    IsInteger word' i := by
  obtain ⟨n, hn, hrange⟩ := h
  have hsame : word.toList = word'.toList := eq_of_fold_eq hword hn.isAlpha_eq_false
  exact ⟨n, hsame ▸ hn, hrange⟩

theorem Slot.Denotes.congr {slot : Slot} {value : slot.Value} (h : slot.Denotes word value)
    (hword : Spells word word') : slot.Denotes word' value := by
  cases slot with
  | int => exact IsInteger.congr h hword
  | color => exact hword.symm.trans h
  | toggle => exact hword.symm.trans h

theorem Slot.read?_congr (slot : Slot) (h : Spells word word') : slot.read? word = slot.read? word' := by
  refine Option.ext fun value => ?_
  rw [Slot.read?_eq_some_iff, Slot.read?_eq_some_iff]
  exact ⟨fun hvalue => hvalue.congr h, fun hvalue => hvalue.congr h.symm⟩

theorem Keyword.ofName?_congr (h : Spells word word') : ofName? word = ofName? word' := by
  refine Option.ext fun k => ?_
  rw [ofName?_iff, ofName?_iff]
  exact ⟨fun hk => h.symm.trans hk, fun hk => h.trans hk⟩

end Words

/-! ## Reasons up to case -/

/-- Reasons of one kind, about the same command, position and number of words, which name the same word up
to case. -/
inductive Reason.Alike : Reason → Reason → Prop
  | invalidCommand {name name' : String} : Spells name name' →
      Alike (.invalidCommand name) (.invalidCommand name')
  | malformedLine : Alike .malformedLine .malformedLine
  | missingArguments (keyword : Keyword) (found : Nat) :
      Alike (.missingArguments keyword found) (.missingArguments keyword found)
  | unexpectedArgument (keyword : Keyword) {token token' : String} : Spells token token' →
      Alike (.unexpectedArgument keyword token) (.unexpectedArgument keyword token')
  | notAnInteger (keyword : Keyword) (position : Nat) {token token' : String} : Spells token token' →
      Alike (.notAnInteger keyword position token) (.notAnInteger keyword position token')
  | invalidColor {token token' : String} : Spells token token' →
      Alike (.invalidColor token) (.invalidColor token')
  | invalidFillMode {token token' : String} : Spells token token' →
      Alike (.invalidFillMode token) (.invalidFillMode token')

/-- Faults with such reasons; they may lie in different places. -/
def Fault.Alike (fault fault' : Fault) : Prop :=
  fault.reason.Alike fault'.reason

theorem Slot.mismatch_alike (slot : Slot) (keyword : Keyword) (position : Nat) {word word' : String}
    (h : Spells word word') :
    (slot.mismatch keyword position word).Alike (slot.mismatch keyword position word') := by
  cases slot with
  | int => exact .notAnInteger keyword position h
  | color => exact .invalidColor h
  | toggle => exact .invalidFillMode h

/-! ## Lines up to spacing and case -/

/-- The tokens have the same texts up to case. -/
def SameWords (ts ts' : List Token) : Prop :=
  List.Forall₂ (fun t t' => Spells t.text t'.text) ts ts'

section Lines

variable {words words' : List Token} {head head' : Token}

theorem readArgs_alike (keyword : Keyword) {slots : List Slot} (position : Nat)
    (hwords : SameWords words words') (h : slots.length ≤ words.length)
    (h' : slots.length ≤ words'.length) :
    Agree Fault.Alike (readArgs keyword slots position words h)
      (readArgs keyword slots position words' h') := by
  induction slots generalizing position words words' with
  | nil => exact .ok ()
  | cons slot slots ih =>
    cases hwords with
    | nil => cases h
    | @cons word word' words words' hword hrest =>
      have hread := slot.read?_congr hword
      cases hvalue : slot.read? word.text with
      | none =>
        rw [readArgs_of_read?_eq_none keyword position hvalue,
          readArgs_of_read?_eq_none keyword position (hread.symm.trans hvalue)]
        exact .error (slot.mismatch_alike keyword position hword)
      | some value =>
        rw [readArgs_of_read?_eq_some keyword position hvalue,
          readArgs_of_read?_eq_some keyword position (hread.symm.trans hvalue)]
        exact (ih (position + 1) hrest _ _).map _

theorem unexpected?_eq_none_congr {keyword : Keyword} (hwords : SameWords words words') :
    unexpected? keyword words = none ↔ unexpected? keyword words' = none := by
  rw [unexpected?_eq_none_iff, unexpected?_eq_none_iff]
  cases hwords with
  | nil => rfl
  | cons => simp

theorem Command.ofWords_alike (hhead : Spells head.text head'.text) (hwords : SameWords words words') :
    Agree Fault.Alike (ofWords head words) (ofWords head' words') := by
  have hname := Keyword.ofName?_congr hhead
  have hlength : words.length = words'.length := hwords.length_eq
  obtain ⟨hno, hw⟩ | ⟨k, hk, ⟨hlt, hw⟩ | ⟨extra, hextra, hw⟩ | ⟨hle, hnone, hw⟩⟩ :=
    ofWords_cases head words
  · obtain ⟨-, hw'⟩ | ⟨k', hk', -⟩ := ofWords_cases head' words'
    · rw [hw, hw']
      exact .error (.invalidCommand hhead)
    · rw [hname, hk'] at hno
      cases hno
  · rw [hname] at hk
    rw [hw, ofWords_of_lt hk (hlength ▸ hlt), hlength]
    exact .error (.missingArguments k _)
  · rw [hname] at hk
    obtain ⟨hslots, more, rfl⟩ := unexpected?_eq_some_iff.mp hextra
    cases hwords with
    | @cons _ extra' _ more' htoken _ =>
      have hextra' : unexpected? k (extra' :: more') = some extra' :=
        unexpected?_eq_some_iff.mpr ⟨hslots, more', rfl⟩
      have hle : k.arity ≤ (extra' :: more').length := by
        rw [Keyword.arity, hslots]
        exact Nat.zero_le _
      rw [hw, ofWords_of_unexpected hk hle hextra']
      exact .error (.unexpectedArgument k htoken)
  · rw [hname] at hk
    have hle' : k.arity ≤ words'.length := hlength ▸ hle
    rw [hw, ofWords_eq_map hk hle' ((unexpected?_eq_none_congr hwords).mp hnone)]
    exact (readArgs_alike k 1 hwords hle hle').map _

variable {line line' : String}

theorem Command.agree_parse (h : SameWords (tokens line) (tokens line')) :
    Agree Fault.Alike (parse line) (parse line') := by
  generalize htokens : tokens line = ts at h
  generalize htokens' : tokens line' = ts' at h
  cases h with
  | nil =>
    rw [parse_of_tokens_eq_nil htokens, parse_of_tokens_eq_nil htokens']
    exact .error (.invalidCommand rfl)
  | cons hhead hwords =>
    rw [parse_of_tokens htokens, parse_of_tokens htokens']
    exact ofWords_alike hhead hwords

/-- **Spacing and case make no difference.** Lines whose words are the same up to case, whatever blanks are
around them, read as one command, or both fail with one kind of reason, the same command, position and number
of words, and the same word up to case. If both lines are well shaped, the check gives such results too. -/
theorem parse_alike (h : SameWords (tokens line) (tokens line')) :
    Agree Fault.Alike (Command.parse line) (Command.parse line') ∧
    ∀ pieces pieces', Rule.line.parse line = .ok pieces → Rule.line.parse line' = .ok pieces' →
      ∀ number number', Agree (fun e e' => e.fault.Alike e'.fault) (checkLine number line)
        (checkLine number' line') := by
  have hparse := Command.agree_parse h
  refine ⟨hparse, ?_⟩
  intro pieces pieces' hshape hshape' number number'
  rw [checkLine, checkLine, checkedCommand, hshape, checkedCommand, hshape']
  exact hparse.mapError fun _ _ halike => halike

/-- A pen that is not known, in two spellings of one line. -/
theorem parse_alike_pen :
    let line := "PEN\tPurple 1"
    let line' := "pen  purPLE 1"
    SameWords (tokens line) (tokens line') ∧
      Command.parse line = .error ⟨.invalidColor "Purple", ⟨4, 10⟩⟩ ∧
      Command.parse line' = .error ⟨.invalidColor "purPLE", ⟨5, 11⟩⟩ ∧
      Agree Fault.Alike (Command.parse line) (Command.parse line') ∧
      Agree (fun e e' => e.fault.Alike e'.fault) (checkLine 1 line) (checkLine 2 line') := by
  intro line line'
  have hwords : tokens line = [⟨"PEN", 0⟩, ⟨"Purple", 4⟩, ⟨"1", 11⟩] := by decide
  have hwords' : tokens line' = [⟨"pen", 0⟩, ⟨"purPLE", 5⟩, ⟨"1", 12⟩] := by decide
  have hsame : SameWords (tokens line) (tokens line') := by
    rw [hwords, hwords']
    exact .cons (by decide) (.cons (by decide) (.cons (by decide) .nil))
  have hshape : Rule.line.parse line = .ok [⟨.line, ⟨0, 12⟩⟩, ⟨.keyword, ⟨0, 3⟩⟩, ⟨.word, ⟨4, 10⟩⟩,
      ⟨.word, ⟨11, 12⟩⟩, ⟨.finish, ⟨12, 12⟩⟩] := by
    decide +kernel
  have hshape' : Rule.line.parse line' = .ok [⟨.line, ⟨0, 13⟩⟩, ⟨.keyword, ⟨0, 3⟩⟩, ⟨.word, ⟨5, 11⟩⟩,
      ⟨.word, ⟨12, 13⟩⟩, ⟨.finish, ⟨13, 13⟩⟩] := by
    decide +kernel
  refine ⟨hsame, by decide, by decide, (parse_alike hsame).1, ?_⟩
  exact (parse_alike hsame).2 _ _ hshape hshape' 1 2

end Lines

end PenPlot
