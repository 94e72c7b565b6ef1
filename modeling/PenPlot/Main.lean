import PenPlot.CommandLine

/-!
# The program

The command line on the real file system.
-/

namespace PenPlot

def fileErrorOf : IO.Error → FileError
  | .noFileOrDirectory .. => .notFound
  | .inappropriateType _ 20 _ => .notDirectory
  | .inappropriateType _ 21 _ => .isDirectory
  | .permissionDenied _ code details => .other (details ++ " (os error " ++ code.toNat.repr ++ ")")
  | e => .other e.toString

/-- Runs an action on the file system and turns its failure into a value. -/
def attempt {α : Type} (action : IO α) : IO (Except FileError α) := do
  return (← action.toBaseIO).mapError fileErrorOf

instance : MonadFiles IO where
  read path := attempt (IO.FS.readBinFile path)
  write path content := attempt (IO.FS.writeBinFile path content)
  list path := attempt do
    let entries ← ((← IO.currentDir) / path).readDir
    return entries.toList.map fun entry => entry.fileName

end PenPlot

def main (args : List String) : IO UInt32 := do
  let outcome ← PenPlot.commandLine args
  IO.print outcome.stdout
  IO.eprint outcome.stderr
  return outcome.status.toUInt32
