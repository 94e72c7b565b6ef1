import PenPlot.Proofs.Checker
import PenPlot.Proofs.TreeRequests

/-!
# Checking files

A check goes through its files in order, up to the first that cannot be loaded. It reports each line that fails
the check, and nothing else (`FileTree.reports`); what it ends in depends on whether all files could be loaded
and on how many reports there are (`FileTree.run_check`).

A status of zero is a promise: every line of every file is good, so that rendering one of these files can only
fail where the drawing is written.
-/

namespace PenPlot

/-! ## Reports -/

/-- The report of a line of a file, if it fails the check: its number, what is wrong with it, and where. -/
def lineReport? (file : String) (number : Nat) (line : String) : Option String :=
  match checkLine number line with
  | .ok _ => none
  | .error e =>
    some (file ++ ": syntax error on line " ++ number.repr ++ ": " ++ e.reason.message
      ++ " [code penscript::syntax_error] [at " ++ e.fault.span.start.repr ++ "+" ++ e.fault.span.length.repr
      ++ ": " ++ e.reason.message ++ "]\n")

namespace FileTree

variable (tree : FileTree)

/-- The reports of a file, in the order of its lines. -/
def reports (tree : FileTree) (file : String) : List String :=
  match tree.text file with
  | .error _ => []
  | .ok source =>
    ((Program.ofSource source).lines.zipIdx 1).filterMap fun line => lineReport? file line.2 line.1

section Held

variable {tree} {file source : String} (h : tree.Holds file source)

include h

end Held

/-! ## Loading -/

/-- The files that can be loaded, each with its program. -/
def loaded (tree : FileTree) (files : List String) : List (String × Program) :=
  files.filterMap fun file => (tree.load file).toOption.map (file, ·)

section Loaded

variable {tree} {files : List String} (h : ∀ file ∈ files, ∃ source, tree.Holds file source)

include h

end Loaded

end FileTree

end PenPlot
