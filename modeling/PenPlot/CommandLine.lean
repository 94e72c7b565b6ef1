import PenPlot.Files.Path
import PenPlot.Gallery
import PenPlot.Program.Storage

/-!
# The command line

Three requests work on program files: `check` reports invalid lines, `render` draws one file, and `gallery`
draws all demos onto one page. Each ends in an `Outcome`. Files are gathered first and decided on afterwards;
at most one file is written, and only when there is something to put into it.

The demos and the page of the gallery are at fixed places in the directory of the project, wherever the request
is made. That directory is taken to be the one where paths start, so that `demos` and `gallery.html` are the
paths to them, in files as in what is printed.
-/

namespace PenPlot

/-- The exit status and what was printed. -/
structure Outcome where
  status : Nat := 0
  stdout : String := ""
  stderr : String := ""
deriving DecidableEq, Repr

namespace Outcome

/-- Prints `stderr` and gives up with a report. -/
def failed (report : Report) (stderr : String) : Outcome where
  status := 1
  stderr := stderr ++ "Error: " ++ report.text ++ "\n"

end Outcome

/-! ## Requests -/

inductive Request
  | help
  | unknown (word : String)
  | check (files : List String)
  | render (input output : String)
  /-- A `render` with no file or with too many. -/
  | renderHelp
  | gallery
deriving DecidableEq, Repr

/-- Without a name of its own, a drawing goes next to its program. -/
def Request.ofArgs : List String → Request
  | [] => .help
  | "check" :: files => .check files
  | ["render", input] => .render input (Path.withExtension input "svg")
  | ["render", input, output] => .render input output
  | "render" :: _ => .renderHelp
  | "gallery" :: _ => .gallery
  | word :: _ => .unknown word

def usage : String :=
  "Usage: cargo xtask <command>\nCommands:\n"
    ++ "  check <file>...          Syntax-check programs\n"
    ++ "  render <file> [out.svg]  Run a program and write SVG\n"
    ++ "  gallery                  Render demos/*.txt into gallery.html\n"

def renderUsage : String :=
  "Usage: cargo xtask render <file> [out.svg]\n"

section Requests

variable {m : Type → Type} [Monad m] [MonadFiles m]

/-! ## Checking -/

/-- Loads files up to the first that cannot be loaded. -/
def loadAll : List String → m (List (String × Program) × Option StorageError)
  | [] => return ([], none)
  | file :: files => do
    match ← Program.load file with
    | .error e => return ([], some e)
    | .ok program =>
      let rest ← loadAll files
      return ((file, program) :: rest.1, rest.2)

/-- One line for each invalid line of a file. -/
def checkReports (file : String) (program : Program) : List String :=
  program.errors.map fun e => file ++ ": " ++ e.report.text ++ "\n"

def checkOutcome (loaded : List (String × Program)) (failure : Option StorageError) : Outcome :=
  let reports := loaded.flatMap fun file => checkReports file.1 file.2
  match failure with
  | some e => .failed e.report (String.join reports)
  | none =>
    if reports.isEmpty then { stdout := loaded.length.repr ++ " file(s) ok\n" }
    else .failed { message := reports.length.repr ++ " invalid line(s)" } (String.join reports)

def checkFiles (files : List String) : m Outcome := do
  let loaded ← loadAll files
  return checkOutcome loaded.1 loaded.2

/-! ## Rendering -/

/-- The drawing of a program file with the usual options, or why there is none. -/
def renderFile (path : String) : m (Except Report String) := do
  match ← Program.load path with
  | .error e => return .error e.report
  | .ok program => return (program.render {}).mapError LineError.report

/-- Writes a finished file and says so. -/
def writeOutput (path text done : String) : m Outcome := do
  match ← writeText path text with
  | .error e => return .failed { message := "writing " ++ path, causes := [e.text] } ""
  | .ok () => return { stdout := done ++ path ++ "\n" }

def renderTo (input output : String) : m Outcome := do
  match ← renderFile input with
  | .error report => return .failed report ""
  | .ok svg => writeOutput output svg "Wrote "

/-! ## The gallery -/

def demos : String := "demos"

def galleryPath : String := "gallery.html"

/-- The names of text files in the order of their bytes. -/
def demoNames (names : List String) : List String :=
  (names.filter fun name => (Path.splitName name).2 = some "txt").mergeSort fun a b => a ≤ b

/-- A demo that cannot be read has no source. -/
def demoCard (name : String) : m Card := do
  let path := demos ++ "/" ++ name
  let source ← readText path
  let output ← renderFile path
  return ⟨(Path.splitName name).1, source.toOption.getD "", output.mapError Report.text⟩

def makeGallery : m Outcome := do
  match ← MonadFiles.list demos with
  | .error e => return .failed { message := "reading " ++ demos, causes := [e.text] } ""
  | .ok names =>
    let cards ← (demoNames names).mapM demoCard
    writeOutput galleryPath (Gallery.page cards) "Generated gallery at: "

/-! ## The whole -/

def Request.run : Request → m Outcome
  | .help => return { status := 1, stderr := usage }
  | .unknown word => return { status := 1, stderr := "Unknown command: " ++ word ++ "\n" }
  | .check files => checkFiles files
  | .render input output => renderTo input output
  | .renderHelp => return { status := 1, stderr := renderUsage }
  | .gallery => makeGallery

/-- What the program does with its arguments. -/
def commandLine (args : List String) : m Outcome :=
  (Request.ofArgs args).run

end Requests

end PenPlot
