import PenPlot.Check
import PenPlot.Drawing.Session
import PenPlot.Svg.Document
import PenPlot.Text.Lines

/-!
# Programs

A `Program` is a list of lines, whatever they hold. It is read from a source text and written as one, checked
line by line, and run from a fresh state.
-/

namespace PenPlot

structure Program where
  lines : List String
deriving DecidableEq, Repr

namespace Program

def empty : Program := ⟨[]⟩

def ofSource (source : String) : Program :=
  ⟨(Text.cutLines source.toList).map String.ofList⟩

/-- The lines, each with a line feed behind it. -/
def source (program : Program) : String :=
  String.ofList (Text.joinLines (program.lines.map String.toList))

def push (program : Program) (line : String) : Program :=
  ⟨program.lines ++ [line]⟩

/-- The errors of all lines, in order. -/
def errors (program : Program) : List CheckError :=
  (checkLines program.lines).filterMap fun
    | .error e => some e
    | .ok _ => none

/-- Runs the program on a surface; the surface keeps what was drawn before an error. -/
def run {σ : Type} [Surface σ] (program : Program) (surface : σ) : Except RunError State × σ :=
  match (Session.new surface).run program.lines with
  | (none, session) => (.ok session.state, session.surface)
  | (some e, session) => (.error e, session.surface)

/-- The document that the program draws on a canvas of its own. -/
def render (program : Program) (options : Svg.Options) : Except RunError String :=
  match program.run (Svg.Canvas.new options) with
  | (.ok _, canvas) => .ok canvas.document
  | (.error e, _) => .error e

end Program

end PenPlot
