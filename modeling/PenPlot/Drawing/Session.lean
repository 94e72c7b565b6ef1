import PenPlot.Command.Parse
import PenPlot.Drawing.State
import PenPlot.Drawing.Surface
import PenPlot.LineError

/-!
# Sessions

A `Session` is a state and the surface that is drawn on. Lines are run one after the other up to the first
one that is no command. That line has no effect, and what was drawn before it stays.
-/

namespace PenPlot

structure Session (σ : Type) where
  state : State
  surface : σ
deriving DecidableEq, Repr

namespace Session

variable {σ : Type} [Surface σ]

/-- A surface to be drawn on by a program of its own. -/
def new (surface : σ) : Session σ :=
  ⟨.fresh, surface⟩

def apply (session : Session σ) (command : Command) : Session σ :=
  ⟨command.next session.state, Surface.drawAll session.surface (command.calls session.state)⟩

/-- Runs the line `number` of a program. -/
def runLine (session : Session σ) (number : Nat) (line : String) :
    Except RunError Command × Session σ :=
  match Command.parse line with
  | .ok command => (.ok command, session.apply command)
  | .error fault => (.error ⟨number, line, fault⟩, session)

/-- Runs lines that are numbered from `number` on; `none` if all of them are commands. -/
def runFrom (session : Session σ) (number : Nat) : List String → Option RunError × Session σ
  | [] => (none, session)
  | line :: lines =>
    match session.runLine number line with
    | (.ok _, after) => after.runFrom (number + 1) lines
    | (.error e, after) => (some e, after)

def run (session : Session σ) (lines : List String) : Option RunError × Session σ :=
  session.runFrom 1 lines

end Session

end PenPlot
