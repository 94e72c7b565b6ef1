import PenPlot.Command.Basic
import PenPlot.Fault
import PenPlot.Text.Token

/-!
# Reading a command

`Command.parse` reads one line: the first word has to be a keyword, as many words as it has slots have to
follow, and each of those has to fit its slot. The first of these rules that fails gives the fault.

The values are read into a list that is typed by the slots, so whatever was read makes a command.
-/

namespace PenPlot

open Text (Token tokens Span)

/-- The reason for refusing `token` in this slot. -/
def Slot.mismatch (keyword : Keyword) (position : Nat) (token : String) : Slot → Reason
  | .int => .notAnInteger keyword position token
  | .color => .invalidColor token
  | .toggle => .invalidFillMode token

/-- Reads a word for each slot, from left to right; `position` is the number of the first. -/
def readArgs (keyword : Keyword) : (slots : List Slot) → (position : Nat) → (words : List Token) →
    slots.length ≤ words.length → Except Fault (Args slots)
  | [], _, _, _ => .ok ()
  | slot :: slots, position, word :: words, h =>
    match slot.read? word.text with
    | none => .error ⟨slot.mismatch keyword position word.text, word.span⟩
    | some value =>
      (readArgs keyword slots (position + 1) words (Nat.le_of_succ_le_succ h)).map fun values =>
        (value, values)

/-- The word behind a keyword that takes none. -/
def unexpected? (keyword : Keyword) (words : List Token) : Option Token :=
  if keyword.isStrict then words.head? else none

namespace Command

/-- Reads the command that the words `head` and `words` make. -/
def ofWords (head : Token) (words : List Token) : Except Fault Command :=
  match Keyword.ofName? head.text with
  | none => .error ⟨.invalidCommand head.text, head.span⟩
  | some keyword =>
    if h : keyword.arity ≤ words.length then
      match unexpected? keyword words with
      | some extra => .error ⟨.unexpectedArgument keyword extra.text, extra.span⟩
      | none => (readArgs keyword keyword.slots 1 words h).map (ofArgs keyword)
    else
      .error ⟨.missingArguments keyword words.length, (words.getLast?.getD head).span⟩

def parse (line : String) : Except Fault Command :=
  match tokens line with
  | [] => .error ⟨.invalidCommand "", .whole line⟩
  | head :: words => ofWords head words

end Command

end PenPlot
