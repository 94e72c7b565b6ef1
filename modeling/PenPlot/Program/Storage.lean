import PenPlot.Files.Basic
import PenPlot.Program.Basic
import PenPlot.Report

/-!
# Programs in files

A program is loaded from and saved to a file as its source text.
-/

namespace PenPlot

inductive Access
  | read
  | write
deriving DecidableEq, Repr

/-- A program file that could not be read or written. -/
structure StorageError where
  access : Access
  path : String
  cause : FileError
deriving DecidableEq, Repr

namespace StorageError

def message (e : StorageError) : String :=
  match e.access with
  | .read => "failed to read program from " ++ e.path
  | .write => "failed to write program to " ++ e.path

def code (e : StorageError) : String :=
  match e.access with
  | .read => "penscript::program::read"
  | .write => "penscript::program::write"

def report (e : StorageError) : Report where
  message := e.message
  code := some e.code
  causes := [e.cause.text]

end StorageError

namespace Program

variable {m : Type → Type} [Monad m] [MonadFiles m]

def load (path : String) : m (Except StorageError Program) := do
  match ← readText path with
  | .ok source => return .ok (.ofSource source)
  | .error cause => return .error ⟨.read, path, cause⟩

def save (program : Program) (path : String) : m (Except StorageError Unit) := do
  return (← writeText path program.source).mapError fun cause => ⟨.write, path, cause⟩

end Program

end PenPlot
