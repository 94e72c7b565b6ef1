/-!
# Files

`MonadFiles` is what the command line asks of a file system. Contents are bytes; `readText` also asks that
they are UTF-8.
-/

namespace PenPlot

/-- Why a file cannot be had. -/
inductive FileError
  | notFound
  | notDirectory
  | isDirectory
  | notText
  /-- Any other reason, in the words of the file system. -/
  | other (text : String)
deriving DecidableEq, Repr

namespace FileError

def text : FileError → String
  | .notFound => "No such file or directory (os error 2)"
  | .notDirectory => "Not a directory (os error 20)"
  | .isDirectory => "Is a directory (os error 21)"
  | .notText => "stream did not contain valid UTF-8"
  | .other text => text

end FileError

class MonadFiles (m : Type → Type) where
  read : String → m (Except FileError ByteArray)
  write : String → ByteArray → m (Except FileError Unit)
  /-- The names in a directory, in any order. -/
  list : String → m (Except FileError (List String))

/-- The text that bytes encode. -/
def decodeText (bytes : ByteArray) : Except FileError String :=
  match String.fromUTF8? bytes with
  | some s => .ok s
  | none => .error .notText

def readText {m : Type → Type} [Monad m] [MonadFiles m] (path : String) :
    m (Except FileError String) := do
  return (← MonadFiles.read path).bind decodeText

def writeText {m : Type → Type} [MonadFiles m] (path text : String) : m (Except FileError Unit) :=
  MonadFiles.write path text.toUTF8

end PenPlot
