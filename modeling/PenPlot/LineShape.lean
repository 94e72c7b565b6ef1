import PenPlot.Command.Keyword
import PenPlot.Text.Span

/-!
# The shape of a line

A well-shaped line is a keyword in any case and then any number of groups, each a gap of spaces and tabs and
a word. A word is one or more letters, digits and underscores behind at most one sign. Nothing may stand
before the keyword or behind the last word.

`Rule.parse` matches one rule at the start of a text and lists the pieces it is made of. Where it fails it
names the byte up to which the text could still have become a match.
-/

namespace PenPlot.LineShape

open Text

/-! ## What stands at the start of a text

Each of these cuts a text into what it matches and the rest. -/

/-- A keyword; no keyword begins with another, so at most one fits. -/
def keyword? (cs : List Char) : Option (Keyword × List Char × List Char) :=
  Keyword.all.findSome? fun keyword =>
    let name := keyword.name.toList
    if fold (cs.take name.length) = name then
      some (keyword, cs.take name.length, cs.drop name.length)
    else none

/-- As many gap characters as there are, but at least one. -/
def gap? (cs : List Char) : Option (List Char × List Char) :=
  if cs.takeWhile isGap = [] then none else some (cs.takeWhile isGap, cs.dropWhile isGap)

/-- The sign that a text begins with, if any. -/
def sign (cs : List Char) : List Char :=
  (cs.take 1).filter isSign

/-- As many word characters as there are, but at least one, behind an optional sign. -/
def word? (cs : List Char) : Option (List Char × List Char) :=
  let body := cs.drop (sign cs).length
  if body.takeWhile isWordChar = [] then none
  else some (sign cs ++ body.takeWhile isWordChar, body.dropWhile isWordChar)

theorem gap?_append {cs gap rest : List Char} (h : gap? cs = some (gap, rest)) :
    cs = gap ++ rest ∧ gap ≠ [] := by
  unfold gap? at h
  split at h
  · contradiction
  next hne =>
    simp only [Option.some.injEq, Prod.mk.injEq] at h
    obtain ⟨rfl, rfl⟩ := h
    exact ⟨List.takeWhile_append_dropWhile.symm, hne⟩

theorem sign_append_drop (cs : List Char) : sign cs ++ cs.drop (sign cs).length = cs := by
  cases cs with
  | nil => rfl
  | cons c cs => by_cases h : isSign c <;> simp [sign, h]

theorem word?_append {cs word rest : List Char} (h : word? cs = some (word, rest)) :
    cs = word ++ rest ∧ word ≠ [] := by
  unfold word? at h
  simp only at h
  split at h
  · contradiction
  next hne =>
    simp only [Option.some.injEq, Prod.mk.injEq] at h
    obtain ⟨rfl, rfl⟩ := h
    refine ⟨?_, by simp [hne]⟩
    rw [List.append_assoc, List.takeWhile_append_dropWhile, sign_append_drop]

/-! ## The groups behind a keyword -/

/-- The spans of the words of a text that is nothing but groups and starts at byte `pos`; otherwise the byte
behind the longest stretch of groups and one more gap. -/
def groupsAt (pos : Nat) (cs : List Char) : Except Nat (List Span) :=
  if cs = [] then .ok [] else
    match _ : gap? cs with
    | none => .error pos
    | some (gap, rest) =>
      match _ : word? rest with
      | none => .error (pos + byteLength gap)
      | some (word, rest') =>
        let start := pos + byteLength gap
        (groupsAt (start + byteLength word) rest').map (⟨start, start + byteLength word⟩ :: ·)
termination_by cs.length
decreasing_by
  obtain ⟨rfl, hne⟩ := gap?_append ‹gap? cs = some (gap, rest)›
  obtain ⟨rfl, -⟩ := word?_append ‹word? rest = some (word, rest')›
  have := List.length_pos_iff.mpr hne
  simp only [List.length_append]
  omega

/-! ## Rules -/

/-- What a line is made of. -/
inductive Part
  | line
  | keyword
  | word
  /-- The end of the text, which has no width. -/
  | finish
deriving DecidableEq, Repr

structure Piece where
  part : Part
  span : Span
deriving DecidableEq, Repr

inductive Rule
  | line
  | keyword
  | word
  | gap
deriving DecidableEq, Repr

namespace Rule

/-- Matches a rule at the start of a text. Only `line` has to reach the end, and a gap is no piece. -/
def parse (rule : Rule) (text : String) : Except Nat (List Piece) :=
  let cs := text.toList
  match rule with
  | .line =>
    match keyword? cs with
    | none => .error 0
    | some (_, name, rest) =>
      (groupsAt (byteLength name) rest).map fun words =>
        ⟨.line, .whole text⟩ :: ⟨.keyword, ⟨0, byteLength name⟩⟩ :: words.map (⟨.word, ·⟩)
          ++ [⟨.finish, ⟨text.utf8ByteSize, text.utf8ByteSize⟩⟩]
  | .keyword =>
    match keyword? cs with
    | none => .error 0
    | some (_, name, _) => .ok [⟨.keyword, ⟨0, byteLength name⟩⟩]
  | .word =>
    match word? cs with
    | none => .error 0
    | some (matched, _) => .ok [⟨.word, ⟨0, byteLength matched⟩⟩]
  | .gap =>
    match gap? cs with
    | none => .error 0
    | some _ => .ok []

end Rule

end PenPlot.LineShape
