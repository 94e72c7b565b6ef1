import PenPlot.Fault

/-!
# Errors of a program

A `LineError` is a fault together with the line it was found on. The `Phase` tells whether the line was
being checked or run, and with it how the error introduces itself.
-/

namespace PenPlot

inductive Phase
  | check
  | run
deriving DecidableEq, Repr

namespace Phase

def headline : Phase → String
  | .check => "syntax error"
  | .run => "error"

def code : Phase → String
  | .check => "penscript::syntax_error"
  | .run => "penscript::runtime_error"

end Phase

/-- A fault of the line `number`, counted from one, which reads `text`. -/
structure LineError (phase : Phase) where
  number : Nat
  text : String
  fault : Fault
deriving DecidableEq, Repr

abbrev CheckError := LineError .check

abbrev RunError := LineError .run

namespace LineError

variable {phase : Phase}

def reason (e : LineError phase) : Reason :=
  e.fault.reason

def message (e : LineError phase) : String :=
  phase.headline ++ " on line " ++ e.number.repr ++ ": " ++ e.reason.message

/-- The name that stands for the line as a source text. -/
def sourceName (e : LineError phase) : String :=
  "line " ++ e.number.repr

end LineError

end PenPlot
