/-!
# Character classes and letter case

A program is read by ASCII rules alone: a character outside ASCII is neither blank nor part of a word,
and it has no other case.

* `isBlank` separates the words of a line that is read as a command;
* `isGap` is the narrower separator of a well-shaped line;
* `sameLetters` compares two texts up to the case of the letters `A` to `Z`.
-/

namespace PenPlot.Text

/-- Space, tab, line feed, carriage return and form feed. -/
def isBlank (c : Char) : Bool :=
  c == ' ' || c == '\t' || c == '\n' || c == '\r' || c == '\x0c'

/-- Space and tab. -/
def isGap (c : Char) : Bool :=
  c == ' ' || c == '\t'

def isSign (c : Char) : Bool :=
  c == '+' || c == '-'

/-- Letters, digits and the underscore. -/
def isWordChar (c : Char) : Bool :=
  c.isAlphanum || c == '_'

theorem isBlank_of_isGap {c : Char} (h : isGap c = true) : isBlank c = true := by
  unfold isBlank isGap at *
  rcases Bool.or_eq_true_iff.mp h with h | h <;> simp [h]

/-- A text with the letters `A` to `Z` in lower case. -/
def fold (cs : List Char) : List Char :=
  cs.map Char.toLower

def sameLetters (s t : String) : Bool :=
  fold s.toList == fold t.toList

end PenPlot.Text
