import PenPlot.Proofs.CommandLanguage
import PenPlot.Proofs.PlainReading
import PenPlot.Proofs.Slices

/-!
# The fault of a line

`Faulty` lists the faults that a line can have, by its tokens, each under the condition that no fault named
before it applies: no token, a first token that is no keyword, too few words, a word behind a keyword that
takes none, and last a word that does not fit its slot, where the leftmost counts (`Misfit`). This list is
just what reading reports (`parse_eq_error_iff`). The span of a fault is that of a token, or the whole of a
blank line, and can therefore be cut out (`Faulty.exists_slice?`).
-/

namespace PenPlot

open Text

/-! ## Words that do not fit -/

/-- Slot and word `i` do not go together, but all those before them do. -/
structure Misfit (slots : List Slot) (words : List Token) (i : Nat) (slot : Slot) (word : Token) :
    Prop where
  slot_at : slots[i]? = some slot
  word_at : words[i]? = some word
  refused : ∀ value, ¬ slot.Denotes word.text value
  before : ∀ j < i, ∀ slot' word', slots[j]? = some slot' → words[j]? = some word' →
    ∃ value, slot'.Denotes word'.text value

section Misfits

variable {slots : List Slot} {words : List Token} {slot slot' : Slot} {word word' : Token} {i : Nat}

theorem misfit_zero_iff : Misfit (slot :: slots) (word :: words) 0 slot' word' ↔
    slot = slot' ∧ word = word' ∧ ∀ value, ¬ slot'.Denotes word'.text value := by
  constructor
  · intro h
    exact ⟨Option.some.inj h.slot_at, Option.some.inj h.word_at, h.refused⟩
  · rintro ⟨rfl, rfl, hrefused⟩
    exact ⟨rfl, rfl, hrefused, nofun⟩

theorem misfit_succ_iff : Misfit (slot :: slots) (word :: words) (i + 1) slot' word' ↔
    (∃ value, slot.Denotes word.text value) ∧ Misfit slots words i slot' word' := by
  constructor
  · intro h
    refine ⟨h.before 0 (Nat.succ_pos i) slot word rfl rfl, h.slot_at, h.word_at, h.refused, ?_⟩
    intro j hj s w hs hw
    exact h.before (j + 1) (Nat.succ_lt_succ hj) s w hs hw
  · rintro ⟨hfits, h⟩
    refine ⟨h.slot_at, h.word_at, h.refused, ?_⟩
    intro j hj s w hs hw
    cases j with
    | zero =>
      obtain rfl := Option.some.inj hs
      obtain rfl := Option.some.inj hw
      exact hfits
    | succ j => exact h.before j (Nat.lt_of_succ_lt_succ hj) s w hs hw

theorem Misfit.word_mem (h : Misfit slots words i slot word) : word ∈ words :=
  List.mem_of_getElem? h.word_at

theorem readArgs_eq_error_iff {keyword : Keyword} {position : Nat} {h : slots.length ≤ words.length}
    {fault : Fault} :
    readArgs keyword slots position words h = .error fault ↔
      ∃ i slot word, Misfit slots words i slot word ∧
        fault = ⟨slot.mismatch keyword (position + i) word.text, word.span⟩ := by
  induction slots generalizing position words with
  | nil =>
    constructor
    · nofun
    · rintro ⟨i, slot, word, hno, -⟩
      exact absurd hno.slot_at nofun
  | cons slot slots ih =>
    cases words with
    | nil => cases h
    | cons word words =>
      cases hread : slot.read? word.text with
      | none =>
        have hrefused : ∀ value, ¬ slot.Denotes word.text value := by
          intro value hvalue
          rw [Slot.read?_eq_some_iff.mpr hvalue] at hread
          cases hread
        rw [readArgs_of_read?_eq_none keyword position hread, Except.error.injEq]
        constructor
        · rintro rfl
          exact ⟨0, slot, word, misfit_zero_iff.mpr ⟨rfl, rfl, hrefused⟩, rfl⟩
        · rintro ⟨i, slot', word', hmisfit, rfl⟩
          cases i with
          | zero =>
            obtain ⟨rfl, rfl, -⟩ := misfit_zero_iff.mp hmisfit
            rfl
          | succ i =>
            obtain ⟨⟨value, hvalue⟩, -⟩ := misfit_succ_iff.mp hmisfit
            exact absurd hvalue (hrefused value)
      | some value =>
        have hvalue : slot.Denotes word.text value := Slot.read?_eq_some_iff.mp hread
        rw [readArgs_of_read?_eq_some keyword position hread]
        constructor
        · intro hargs
          obtain ⟨i, slot', word', hmisfit, rfl⟩ := ih.mp (map_eq_error_iff.mp hargs)
          refine ⟨i + 1, slot', word', misfit_succ_iff.mpr ⟨⟨value, hvalue⟩, hmisfit⟩, ?_⟩
          rw [Nat.add_assoc, Nat.add_comm 1 i]
        · rintro ⟨i, slot', word', hmisfit, rfl⟩
          cases i with
          | zero =>
            obtain ⟨rfl, rfl, hrefused⟩ := misfit_zero_iff.mp hmisfit
            exact absurd hvalue (hrefused value)
          | succ i =>
            obtain ⟨-, hrest⟩ := misfit_succ_iff.mp hmisfit
            refine map_eq_error_iff.mpr (ih.mpr ⟨i, slot', word', hrest, ?_⟩)
            rw [Nat.add_assoc, Nat.add_comm 1 i]

end Misfits

/-! ## All faults -/

/-- The fault of a line with these tokens. -/
inductive Faulty (line : String) : List Token → Fault → Prop
  | blank : Faulty line [] ⟨.invalidCommand "", .whole line⟩
  | unknown {head : Token} {words : List Token} :
      (∀ k : Keyword, ¬ Spells head.text k.name) →
      Faulty line (head :: words) ⟨.invalidCommand head.text, head.span⟩
  | missing {head last : Token} {words : List Token} {k : Keyword} :
      Spells head.text k.name → words.length < k.arity → (head :: words).getLast? = some last →
      Faulty line (head :: words) ⟨.missingArguments k words.length, last.span⟩
  | unexpected {head extra : Token} {words : List Token} {k : Keyword} :
      Spells head.text k.name → k.arity = 0 →
      Faulty line (head :: extra :: words) ⟨.unexpectedArgument k extra.text, extra.span⟩
  | notAnInteger {head word : Token} {words : List Token} {k : Keyword} {i : Nat} :
      Spells head.text k.name → k.arity ≤ words.length → Misfit k.slots words i .int word →
      Faulty line (head :: words) ⟨.notAnInteger k (i + 1) word.text, word.span⟩
  | invalidColor {head word : Token} {words : List Token} {k : Keyword} {i : Nat} :
      Spells head.text k.name → k.arity ≤ words.length → Misfit k.slots words i .color word →
      Faulty line (head :: words) ⟨.invalidColor word.text, word.span⟩
  | invalidFillMode {head word : Token} {words : List Token} {k : Keyword} {i : Nat} :
      Spells head.text k.name → k.arity ≤ words.length → Misfit k.slots words i .toggle word →
      Faulty line (head :: words) ⟨.invalidFillMode word.text, word.span⟩

/-- The first token of the line is a keyword. -/
def NamesCommand (line : String) : Prop :=
  ∃ (head : Token) (words : List Token) (k : Keyword),
    tokens line = head :: words ∧ Spells head.text k.name

/-- The token that a reason names. -/
def Reason.token? : Reason → Option String
  | .invalidCommand name => some name
  | .unexpectedArgument _ token => some token
  | .notAnInteger _ _ token => some token
  | .invalidColor token => some token
  | .invalidFillMode token => some token
  | .malformedLine => none
  | .missingArguments .. => none

section Faults

variable {line : String} {ts words : List Token} {head : Token} {k : Keyword} {fault : Fault}

theorem faulty_mismatch {i : Nat} {slot : Slot} {word : Token} (hhead : Spells head.text k.name)
    (hle : k.arity ≤ words.length) (h : Misfit k.slots words i slot word) :
    Faulty line (head :: words) ⟨slot.mismatch k (1 + i) word.text, word.span⟩ := by
  rw [Nat.add_comm]
  cases slot with
  | int => exact .notAnInteger hhead hle h
  | color => exact .invalidColor hhead hle h
  | toggle => exact .invalidFillMode hhead hle h

/-- A fault is found in a token, unless there is none. -/
theorem Faulty.span_cases (h : Faulty line ts fault) :
    (ts = [] ∧ fault.span = .whole line) ∨
      ∃ t ∈ ts, fault.span = t.span ∧ ∀ name, fault.reason.token? = some name → name = t.text := by
  cases h with
  | blank => exact .inl ⟨rfl, rfl⟩
  | unknown => exact .inr ⟨_, by simp, rfl, fun _ h => (Option.some.inj h).symm⟩
  | missing _ _ hlast => exact .inr ⟨_, List.mem_of_getLast? hlast, rfl, nofun⟩
  | unexpected => exact .inr ⟨_, by simp, rfl, fun _ h => (Option.some.inj h).symm⟩
  | notAnInteger _ _ h | invalidColor _ _ h | invalidFillMode _ _ h =>
    exact .inr ⟨_, List.mem_cons_of_mem _ h.word_mem, rfl, fun _ h => (Option.some.inj h).symm⟩

theorem Faulty.slice?_eq (h : Faulty line (tokens line) fault) (hne : tokens line ≠ []) {name : String}
    (hname : fault.reason.token? = some name) : fault.span.slice? line = some name := by
  rcases h.span_cases with ⟨hno, -⟩ | ⟨t, ht, hspan, htoken⟩
  · exact absurd hno hne
  · rw [hspan, htoken name hname, slice?_span_of_mem_tokens ht]

/-- The shape of the line is no concern of reading. -/
theorem Faulty.reason_ne_malformedLine (h : Faulty line ts fault) : fault.reason ≠ .malformedLine := by
  cases h <;> nofun

theorem Faulty.found_lt (h : Faulty line ts fault) {found : Nat}
    (hreason : fault.reason = .missingArguments k found) : found < k.arity := by
  cases h with
  | missing _ hlt _ =>
    obtain ⟨rfl, rfl⟩ := Reason.missingArguments.inj hreason
    exact hlt
  | _ => cases hreason

theorem Faulty.exists_slice? (h : Faulty line (tokens line) fault) :
    ∃ piece, fault.span.slice? line = some piece := by
  rcases h.span_cases with ⟨-, hspan⟩ | ⟨t, ht, hspan, -⟩
  · exact ⟨line, by rw [hspan, slice?_whole]⟩
  · exact ⟨t.text, by rw [hspan, slice?_span_of_mem_tokens ht]⟩

end Faults

namespace Command

section Lines

variable {line : String} {fault : Fault}

theorem faulty_of_parse_eq_error (h : parse line = .error fault) :
    Faulty line (tokens line) fault := by
  cases htokens : tokens line with
  | nil =>
    rw [parse_of_tokens_eq_nil htokens, Except.error.injEq] at h
    subst h
    exact .blank
  | cons head words =>
    rw [parse_of_tokens htokens] at h
    obtain ⟨hno, hw⟩ | ⟨k, hk, ⟨hlt, hw⟩ | ⟨extra, hextra, hw⟩ | ⟨hle, -, hw⟩⟩ :=
      ofWords_cases head words
    · rw [hw, Except.error.injEq] at h
      subst h
      refine .unknown fun k hk => ?_
      rw [Keyword.ofName?_iff.mpr hk] at hno
      cases hno
    · rw [hw, Except.error.injEq] at h
      subst h
      exact .missing (Keyword.ofName?_iff.mp hk) hlt List.getLast?_cons
    · rw [hw, Except.error.injEq] at h
      subst h
      obtain ⟨hslots, words', rfl⟩ := unexpected?_eq_some_iff.mp hextra
      exact .unexpected (Keyword.ofName?_iff.mp hk) (List.length_eq_zero_iff.mpr hslots)
    · rw [hw] at h
      obtain ⟨i, slot, word, hmisfit, rfl⟩ := readArgs_eq_error_iff.mp (map_eq_error_iff.mp h)
      exact faulty_mismatch (Keyword.ofName?_iff.mp hk) hle hmisfit

/-- A word that does not fit its slot is reported if nothing is wrong with the number of words. -/
theorem parse_of_misfit {head word : Token} {words : List Token} {k : Keyword} {i : Nat} {slot : Slot}
    (htokens : tokens line = head :: words) (hhead : Spells head.text k.name)
    (hle : k.arity ≤ words.length) (h : Misfit k.slots words i slot word) :
    parse line = .error ⟨slot.mismatch k (i + 1) word.text, word.span⟩ := by
  have hextra : unexpected? k words = none := by
    refine unexpected?_eq_none_iff.mpr fun hslots => ?_
    have hslot := h.slot_at
    rw [hslots] at hslot
    cases hslot
  rw [parse_of_tokens htokens, ofWords_eq_map (Keyword.ofName?_iff.mpr hhead) hle hextra]
  refine map_eq_error_iff.mpr (readArgs_eq_error_iff.mpr ⟨i, slot, word, h, ?_⟩)
  rw [Nat.add_comm]

theorem parse_of_faulty (h : Faulty line (tokens line) fault) : parse line = .error fault := by
  generalize htokens : tokens line = ts at h
  cases h with
  | blank => exact parse_of_tokens_eq_nil htokens
  | @unknown head words hno =>
    rw [parse_of_tokens htokens]
    obtain ⟨-, hw⟩ | ⟨k, hk, -⟩ := ofWords_cases head words
    · exact hw
    · exact absurd (Keyword.ofName?_iff.mp hk) (hno k)
  | @missing head last words k hhead hlt hlast =>
    rw [List.getLast?_cons, Option.some.injEq] at hlast
    rw [parse_of_tokens htokens, ofWords_of_lt (Keyword.ofName?_iff.mpr hhead) hlt, hlast]
  | @unexpected head extra words k hhead harity =>
    have hle : k.arity ≤ (extra :: words).length := by omega
    have hextra : unexpected? k (extra :: words) = some extra :=
      unexpected?_eq_some_iff.mpr ⟨List.length_eq_zero_iff.mp harity, words, rfl⟩
    rw [parse_of_tokens htokens, ofWords_of_unexpected (Keyword.ofName?_iff.mpr hhead) hle hextra]
  | notAnInteger hhead hle hmisfit => exact parse_of_misfit htokens hhead hle hmisfit
  | invalidColor hhead hle hmisfit => exact parse_of_misfit htokens hhead hle hmisfit
  | invalidFillMode hhead hle hmisfit => exact parse_of_misfit htokens hhead hle hmisfit

/-- What reading reports is the fault of the line. -/
theorem parse_eq_error_iff : parse line = .error fault ↔ Faulty line (tokens line) fault :=
  ⟨faulty_of_parse_eq_error, parse_of_faulty⟩

theorem parse_invalidCommand_iff :
    (∃ name span, parse line = .error ⟨.invalidCommand name, span⟩) ↔ ¬ NamesCommand line := by
  constructor
  · rintro ⟨name, span, h⟩ ⟨head, words, k, htokens, hk⟩
    have hfault := parse_eq_error_iff.mp h
    rw [htokens] at hfault
    cases hfault with
    | unknown hno => exact hno k hk
  · intro hno
    cases htokens : tokens line with
    | nil => exact ⟨"", .whole line, parse_of_tokens_eq_nil htokens⟩
    | cons head words =>
      refine ⟨head.text, head.span, parse_eq_error_iff.mpr ?_⟩
      rw [htokens]
      exact .unknown fun k hk => hno ⟨head, words, k, htokens, hk⟩

/-- **Every refusal.** The fault that reading reports is the one fault of the line. Its span lies in the line
between two boundaries, and gives the token that the reason names; words are only missing where there are
fewer than slots. Behind a keyword with as many words as it needs, values that are read without their types
always build a command, so there is no other fault. -/
theorem parse_faults (line : String) :
    (∀ fault, parse line = .error fault ↔ Faulty line (tokens line) fault) ∧
    (∀ fault, parse line = .error fault →
      (fault.span.start ≤ fault.span.stop ∧ fault.span.stop ≤ line.utf8ByteSize ∧
        IsBoundary line fault.span.start ∧ IsBoundary line fault.span.stop) ∧
      (∀ name, fault.reason.token? = some name → tokens line ≠ [] →
        fault.span.slice? line = some name) ∧
      ∀ k found, fault.reason = .missingArguments k found → found < k.arity) ∧
    ∀ head words k, tokens line = head :: words → Spells head.text k.name →
      k.arity ≤ words.length → (k.slots = [] → words = []) →
      parse line = (readPlain k k.slots 1 words).bind (build k · head) ∧
      ∀ values, readPlain k k.slots 1 words = .ok values →
        ∃ command, build k values head = .ok command := by
  refine ⟨fun fault => parse_eq_error_iff, ?_, ?_⟩
  · intro fault h
    have hfault := parse_eq_error_iff.mp h
    obtain ⟨hle, hstart, hstop⟩ := exists_slice?_iff.mp hfault.exists_slice?
    refine ⟨⟨hle, hstop.le_utf8ByteSize, hstart, hstop⟩, ?_, ?_⟩
    · intro name hname hne
      exact hfault.slice?_eq hne hname
    · intro k found hreason
      exact hfault.found_lt hreason
  · intro head words k htokens hhead hle hnone
    refine ⟨?_, fun values hvalues => exists_build hle hvalues head⟩
    have hextra := unexpected?_eq_none_iff.mpr hnone
    rw [parse_of_tokens htokens, ofWords_eq_map (Keyword.ofName?_iff.mpr hhead) hle hextra,
      readPlain_bind_build k hle head]

end Lines

end Command

end PenPlot
