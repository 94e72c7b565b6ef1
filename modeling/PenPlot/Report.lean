import PenPlot.LineError

/-!
# Reports

A `Report` is all that is known of an error when it is shown to a reader. On a terminal, `miette` lays it out
over several lines, with the source and marks below it. The text of a report here is a plain format of its own that
stands for that picture: on one line the message, and behind it in brackets the code, the help, each label with its
offset and its length, and the causes.
-/

namespace PenPlot

/-- A remark on a stretch of the source. -/
structure Label where
  span : Text.Span
  text : String
deriving DecidableEq, Repr

structure Report where
  message : String
  code : Option String := none
  help : Option String := none
  labels : List Label := []
  causes : List String := []
deriving DecidableEq, Repr

namespace Report

def bracket (word text : String) : String :=
  " [" ++ word ++ " " ++ text ++ "]"

def text (report : Report) : String :=
  report.message
    ++ String.join (report.code.toList.map (bracket "code"))
    ++ String.join (report.help.toList.map (bracket "help"))
    ++ String.join (report.labels.map fun label =>
      bracket "at" (label.span.start.repr ++ "+" ++ label.span.length.repr ++ ": " ++ label.text))
    ++ String.join (report.causes.map (bracket "cause"))

end Report

namespace LineError

variable {phase : Phase}

def label (e : LineError phase) : Label :=
  ⟨e.fault.span, e.reason.message⟩

def report (e : LineError phase) : Report where
  message := e.message
  code := some phase.code
  labels := [e.label]

end LineError

end PenPlot
