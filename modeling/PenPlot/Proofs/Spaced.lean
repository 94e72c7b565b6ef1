import Mathlib.Data.List.TakeWhile
import PenPlot.Text.Token

/-!
# Lines as words and blanks

`Spaced pos cs ts` says how the text `cs`, which starts at byte `pos`, is made up: blanks, a word, blanks,
a word and so on, where the words are the tokens `ts`. Every text is made up in this way of just its
tokens (`spaced_iff`), so that a statement about tokens can follow the text from word to word.
-/

namespace PenPlot.Text

/-! ## Longest stretches -/

section Stretches

variable {p : Char → Bool} {front rest : List Char}

theorem takeWhile_append_stop (h : ∀ c ∈ front, p c = true) (hstop : ∀ c ∈ rest.head?, p c = false) :
    (front ++ rest).takeWhile p = front := by
  rw [List.takeWhile_append_of_pos h]
  cases rest with
  | nil => simp
  | cons c cs => simp [hstop c rfl]

theorem dropWhile_append_stop (h : ∀ c ∈ front, p c = true) (hstop : ∀ c ∈ rest.head?, p c = false) :
    (front ++ rest).dropWhile p = rest := by
  rw [List.dropWhile_append_of_pos h]
  cases rest with
  | nil => rfl
  | cons c cs => simp [hstop c rfl]

/-- A text begins with a longest stretch of any class of characters. -/
theorem exists_stretch (p : Char → Bool) (cs : List Char) :
    ∃ front rest, cs = front ++ rest ∧ (∀ c ∈ front, p c = true) ∧
      ∀ c ∈ rest.head?, p c = false := by
  refine ⟨cs.takeWhile p, cs.dropWhile p, List.takeWhile_append_dropWhile.symm, ?_, ?_⟩
  · intro c hc
    exact List.mem_takeWhile_imp hc
  · intro c hc
    have h := List.head?_dropWhile_not p cs
    rw [Option.mem_def.mp hc] at h
    exact h

theorem mem_of_mem_head?_append (hne : front ≠ []) {c : Char} (hc : c ∈ (front ++ rest).head?) :
    c ∈ front := by
  obtain ⟨d, front, rfl⟩ := List.exists_cons_of_ne_nil hne
  obtain rfl : d = c := by simpa using hc
  simp

end Stretches

/-! ## Tokens between blanks -/

theorem tokensAt_blanks {blanks : List Char} (h : ∀ c ∈ blanks, isBlank c = true) (pos : Nat)
    (cs : List Char) : tokensAt pos (blanks ++ cs) = tokensAt (pos + byteLength blanks) cs := by
  induction blanks generalizing pos with
  | nil => rfl
  | cons c blanks ih =>
    rw [List.cons_append, tokensAt_blank pos _ (h c (by simp)), ih fun d hd => h d (by simp [hd]),
      byteLength_cons, Nat.add_assoc]

/-- `cs` from byte `pos` on is blanks and words, and the words are `ts`. -/
inductive Spaced : Nat → List Char → List Token → Prop
  | blanks {pos : Nat} {blanks : List Char} :
      (∀ c ∈ blanks, isBlank c = true) → Spaced pos blanks []
  | word {pos : Nat} {blanks word rest : List Char} {ts : List Token} :
      (∀ c ∈ blanks, isBlank c = true) → word ≠ [] → (∀ c ∈ word, isBlank c = false) →
      (∀ c ∈ rest.head?, isBlank c = true) →
      Spaced (pos + byteLength blanks + byteLength word) rest ts →
      Spaced pos (blanks ++ (word ++ rest)) (⟨String.ofList word, pos + byteLength blanks⟩ :: ts)

theorem Spaced.eq_tokensAt {pos : Nat} {cs : List Char} {ts : List Token} (h : Spaced pos cs ts) :
    ts = tokensAt pos cs := by
  induction h with
  | @blanks pos blanks hb =>
    have := tokensAt_blanks hb pos []
    rw [List.append_nil] at this
    rw [this, tokensAt_nil]
  | word hb hne hw hstop _ ih => rw [tokensAt_blanks hb, tokensAt_word hne hw hstop, ih]

theorem spaced_tokensAt (pos : Nat) (cs : List Char) : Spaced pos cs (tokensAt pos cs) := by
  -- by the length of the text: what is left behind a word is shorter
  induction hn : cs.length using Nat.strong_induction_on generalizing pos cs with
  | _ n ih =>
  obtain ⟨blanks, cs', rfl, hb, hstart⟩ := exists_stretch isBlank cs
  obtain ⟨word, rest, rfl, hw, hstop⟩ := exists_stretch (fun c => !isBlank c) cs'
  simp only [Bool.not_eq_true', Bool.not_eq_false'] at hw hstop
  rw [tokensAt_blanks hb]
  by_cases hne : word = []
  · subst hne
    cases rest with
    | nil => simpa using Spaced.blanks hb
    | cons c rest =>
      have hno : isBlank c = false := hstart c rfl
      exact absurd hno (by simp [hstop c rfl])
  · rw [tokensAt_word hne hw hstop]
    have hlt : rest.length < n := by
      have := List.length_pos_iff.mpr hne
      simp only [← hn, List.length_append]
      omega
    exact .word hb hne hw hstop (ih _ hlt _ rest rfl)

/-- At a blank, a text can be cut in two without cutting a word. -/
theorem Spaced.tokensAt_append {pos : Nat} {cs ds : List Char} {ts : List Token} (h : Spaced pos cs ts)
    (hds : ∀ c ∈ ds.head?, isBlank c = true) :
    tokensAt pos (cs ++ ds) = ts ++ tokensAt (pos + byteLength cs) ds := by
  induction h with
  | blanks hb => rw [tokensAt_blanks hb, List.nil_append]
  | @word pos blanks word rest ts hb hne hw hstop _ ih =>
    have hstop' : ∀ c ∈ (rest ++ ds).head?, isBlank c = true := by
      cases rest with
      | nil => exact hds
      | cons d rest => exact hstop
    rw [List.append_assoc, List.append_assoc, tokensAt_blanks hb, tokensAt_word hne hw hstop', ih,
      byteLength_append, byteLength_append, ← Nat.add_assoc, ← Nat.add_assoc, List.cons_append]

theorem spaced_iff {pos : Nat} {cs : List Char} {ts : List Token} :
    Spaced pos cs ts ↔ ts = tokensAt pos cs :=
  ⟨Spaced.eq_tokensAt, fun h => h ▸ spaced_tokensAt pos cs⟩

theorem tokensAt_append {ds : List Char} (hds : ∀ c ∈ ds.head?, isBlank c = true) (pos : Nat)
    (cs : List Char) : tokensAt pos (cs ++ ds) = tokensAt pos cs ++ tokensAt (pos + byteLength cs) ds :=
  (spaced_tokensAt pos cs).tokensAt_append hds

theorem tokensAt_append_blanks {blanks : List Char} (h : ∀ c ∈ blanks, isBlank c = true) (pos : Nat)
    (cs : List Char) : tokensAt pos (cs ++ blanks) = tokensAt pos cs := by
  have hnone := tokensAt_blanks h (pos + byteLength cs) []
  rw [List.append_nil, tokensAt_nil] at hnone
  rw [tokensAt_append (fun c hc => h c (List.mem_of_mem_head? hc)), hnone, List.append_nil]

end PenPlot.Text
