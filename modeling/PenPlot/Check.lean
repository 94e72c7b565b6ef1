import PenPlot.Command.Parse
import PenPlot.LineError
import PenPlot.LineShape

/-!
# Checking without running

The checker is stricter than a run: a line has to be well shaped before it is read as a command. An unknown
command is reported as such even where the shape is wrong too.
-/

namespace PenPlot

/-- The byte where a line stops being well shaped; at the end of the line it is empty. -/
def malformedSpan (line : String) (pos : Nat) : Text.Span :=
  ⟨pos, max pos (min (pos + 1) line.utf8ByteSize)⟩

def checkedCommand (line : String) : Except Fault Command :=
  match LineShape.Rule.line.parse line with
  | .ok _ => Command.parse line
  | .error pos =>
    match Command.parse line with
    | .error ⟨.invalidCommand name, span⟩ => .error ⟨.invalidCommand name, span⟩
    | _ => .error ⟨.malformedLine, malformedSpan line pos⟩

/-- Checks the line `number` of a program. -/
def checkLine (number : Nat) (line : String) : Except CheckError Command :=
  (checkedCommand line).mapError (⟨number, line, ·⟩)

/-- One result for each line, numbered from `number` on. -/
def checkFrom (number : Nat) : List String → List (Except CheckError Command)
  | [] => []
  | line :: lines => checkLine number line :: checkFrom (number + 1) lines

def checkLines (lines : List String) : List (Except CheckError Command) :=
  checkFrom 1 lines

/-- The first error, with the lines numbered from `number` on. -/
def firstErrorFrom? (number : Nat) : List String → Option CheckError
  | [] => none
  | line :: lines =>
    match checkLine number line with
    | .error e => some e
    | .ok _ => firstErrorFrom? (number + 1) lines

def firstError? (lines : List String) : Option CheckError :=
  firstErrorFrom? 1 lines

end PenPlot
