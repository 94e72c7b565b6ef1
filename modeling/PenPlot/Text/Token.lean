import PenPlot.Text.Ascii
import PenPlot.Text.Span

/-!
# The words of a line

A `Token` is a longest run of unblank characters together with the byte it starts at, and `tokens` lists
the tokens of a line from left to right.

`tokensAt pos cs` does it for a text that starts at byte `pos`. Two equations determine it: a blank in front
is skipped (`tokensAt_blank`), and an unblank word that a blank or the end follows is the next token
(`tokensAt_word`).
-/

namespace PenPlot.Text

/-- A word as it stands in its line. -/
structure Token where
  text : String
  start : Nat
deriving DecidableEq, Repr

def Token.span (t : Token) : Span :=
  ⟨t.start, t.start + t.text.utf8ByteSize⟩

/-- Puts the word that begins at byte `pos` in front of the tokens behind it; an empty one is no token. -/
def closeWord (pos : Nat) (word : List Char) (tokens : List Token) : List Token :=
  if word.isEmpty then tokens else ⟨String.ofList word, pos⟩ :: tokens

/-- The unblank characters that a text begins with, and the tokens behind them. -/
def cutWord : Nat → List Char → List Char × List Token
  | _, [] => ([], [])
  | pos, c :: cs =>
    let cut := cutWord (pos + c.utf8Size) cs
    if isBlank c then ([], closeWord (pos + c.utf8Size) cut.1 cut.2) else (c :: cut.1, cut.2)

/-- The tokens of a text that starts at byte `pos` of its line. -/
def tokensAt (pos : Nat) (cs : List Char) : List Token :=
  closeWord pos (cutWord pos cs).1 (cutWord pos cs).2

def tokens (line : String) : List Token :=
  tokensAt 0 line.toList

/-! ## Equations -/

@[simp] theorem tokensAt_nil (pos : Nat) : tokensAt pos [] = [] := rfl

theorem tokensAt_blank (pos : Nat) {c : Char} (cs : List Char) (h : isBlank c = true) :
    tokensAt pos (c :: cs) = tokensAt (pos + c.utf8Size) cs := by
  simp [tokensAt, cutWord, closeWord, h]

theorem cutWord_append {word : List Char} (h : ∀ c ∈ word, isBlank c = false) (pos : Nat)
    (rest : List Char) :
    cutWord pos (word ++ rest) =
      (word ++ (cutWord (pos + byteLength word) rest).1,
        (cutWord (pos + byteLength word) rest).2) := by
  induction word generalizing pos with
  | nil => simp
  | cons c word ih =>
    simp only [List.mem_cons, forall_eq_or_imp] at h
    simp [cutWord, h.1, ih h.2, Nat.add_assoc]

theorem tokensAt_word {word rest : List Char} (hne : word ≠ [])
    (hword : ∀ c ∈ word, isBlank c = false) (hrest : ∀ c ∈ rest.head?, isBlank c = true)
    (pos : Nat) :
    tokensAt pos (word ++ rest) =
      ⟨String.ofList word, pos⟩ :: tokensAt (pos + byteLength word) rest := by
  have hopen : (cutWord (pos + byteLength word) rest).1 = [] := by
    cases rest with
    | nil => rfl
    | cons c cs => simp [cutWord, hrest c rfl]
  simp [tokensAt, cutWord_append hword, closeWord, hopen, hne]

end PenPlot.Text
