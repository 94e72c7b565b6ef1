import PenPlot.Command.Keyword
import PenPlot.Text.Quoted
import PenPlot.Text.Span

/-!
# Faults

A line that is no command has a `Fault`: the reason, and the stretch of the line that is to blame. Each
reason has a message, a code and, where the remedy is short, a help text.
-/

namespace PenPlot

/-- Why a line was refused. -/
inductive Reason
  /-- The first word is no keyword; the name is empty where the line has no word at all. -/
  | invalidCommand (name : String)
  /-- The line is not a keyword followed by words. -/
  | malformedLine
  | missingArguments (keyword : Keyword) (found : Nat)
  | unexpectedArgument (keyword : Keyword) (token : String)
  /-- Arguments are counted from one. -/
  | notAnInteger (keyword : Keyword) (position : Nat) (token : String)
  | invalidColor (token : String)
  | invalidFillMode (token : String)
deriving DecidableEq, Repr

structure Fault where
  reason : Reason
  span : Text.Span
deriving DecidableEq, Repr

namespace Reason

def message : Reason → String
  | .invalidCommand name => "invalid command: " ++ Text.quote name
  | .malformedLine => "malformed line"
  | .missingArguments keyword found =>
    "`" ++ keyword.name ++ "` expects " ++ keyword.arity.repr ++ " argument(s), found " ++ found.repr
  | .unexpectedArgument keyword token =>
    "`" ++ keyword.name ++ "` takes no arguments, found `" ++ token ++ "`"
  | .notAnInteger keyword position token =>
    "argument " ++ position.repr ++ " of `" ++ keyword.name ++ "` must be an integer, found `" ++ token ++
      "`"
  | .invalidColor token => "invalid pen color `" ++ token ++ "`"
  | .invalidFillMode token => "invalid fill mode `" ++ token ++ "`"

def code : Reason → String
  | .invalidCommand _ => "penscript::invalid_command"
  | .malformedLine => "penscript::malformed_line"
  | .missingArguments .. => "penscript::missing_arguments"
  | .unexpectedArgument .. => "penscript::unexpected_argument"
  | .notAnInteger .. => "penscript::not_an_integer"
  | .invalidColor _ => "penscript::invalid_color"
  | .invalidFillMode _ => "penscript::invalid_fill_mode"

def help? : Reason → Option String
  | .invalidCommand _ => some ("known commands: " ++ ", ".intercalate (Keyword.all.map Keyword.name))
  | .malformedLine => some "separate words with spaces and drop leading or trailing whitespace"
  | .invalidColor _ => some "pen colors are red, green, blue and black"
  | .invalidFillMode _ => some "use `fill on` or `fill off`"
  | .missingArguments .. | .unexpectedArgument .. | .notAnInteger .. => none

end Reason

end PenPlot
