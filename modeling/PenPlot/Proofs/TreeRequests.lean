import PenPlot.CommandLine
import PenPlot.Files.Tree
import PenPlot.Proofs.Run

/-!
# Requests on a file tree

On a `FileTree`, all that a request takes from files is decided by what stands at a path (`FileTree.text`,
`FileTree.holds_iff`): the program there, its drawing, its card. A request gets just these, and leaves the tree as
it is (`run_readText` to `run_demoCard`); only `writeOutput` makes another one, and only where writing succeeds.
-/

namespace PenPlot

namespace Program

variable {program : Program} (options : Svg.Options)

theorem render_of_none (h : firstFailureFrom? 1 program.lines = none) :
    program.render options = .ok (program.run (Svg.Canvas.new options)).2.document := by
  have hrun := fst_run_of_none h (Svg.Canvas.new options)
  rw [render]
  generalize program.run (Svg.Canvas.new options) = result at *
  obtain ⟨ended, canvas⟩ := result
  obtain rfl : ended = _ := hrun
  rfl

theorem render_of_some {e : RunError} (h : firstFailureFrom? 1 program.lines = some e) :
    program.render options = .error e := by
  have hrun := fst_run_of_some h (Svg.Canvas.new options)
  rw [render]
  generalize program.run (Svg.Canvas.new options) = result at *
  obtain ⟨ended, canvas⟩ := result
  obtain rfl : ended = _ := hrun
  rfl

theorem firstFailure_eq_none_of_render {svg : String} {options : Svg.Options}
    (h : program.render options = .ok svg) : firstFailureFrom? 1 program.lines = none := by
  cases hfirst : firstFailureFrom? 1 program.lines with
  | none => rfl
  | some e =>
    rw [render_of_some options hfirst] at h
    cases h

end Program

namespace FileTree

section Run

variable {α β : Type} {tree after : FileTree}

theorem run_bind_of_run {action : StateM FileTree α} {a : α} (h : action.run tree = (a, after))
    (next : α → StateM FileTree β) : (action >>= next).run tree = (next a).run after := by
  rw [StateT.run_bind, h]
  rfl

/-- Actions that leave the tree as it is, one after the other. -/
theorem run_mapM {action : α → StateM FileTree β} {value : α → β}
    (h : ∀ a, (action a).run tree = (value a, tree)) (as : List α) :
    (as.mapM action).run tree = (as.map value, tree) := by
  induction as with
  | nil => rfl
  | cons a as ih =>
    rw [List.mapM_cons, run_bind_of_run (h a), run_bind_of_run ih]
    rfl

end Run

/-! ## What a tree holds for a request -/

/-- The text at a path: what stands there has to be a file, and its bytes have to be UTF-8. -/
def text (tree : FileTree) (path : String) : Except FileError String :=
  match tree.find path with
  | .error e => .error e
  | .ok (_, .directory) => .error .isDirectory
  | .ok (_, .file content) => decodeText content

/-- At the path stands a file with that text. -/
def Holds (tree : FileTree) (path source : String) : Prop :=
  ∃ place, tree.find path = .ok (place, .file source.toUTF8)

/-- The program of the text at a path. -/
def load (tree : FileTree) (path : String) : Except StorageError Program :=
  match tree.text path with
  | .error cause => .error ⟨.read, path, cause⟩
  | .ok source => .ok (.ofSource source)

/-- The drawing of the program at a path, or the report of why there is none. -/
def drawing (tree : FileTree) (path : String) : Except Report String :=
  match tree.load path with
  | .error e => .error e.report
  | .ok program => (program.render {}).mapError LineError.report

/-- The card of the demo of that name. -/
def card (tree : FileTree) (name : String) : Card where
  name := (Path.splitName name).1
  source := (tree.text (demos ++ "/" ++ name)).toOption.getD ""
  output := (tree.drawing (demos ++ "/" ++ name)).mapError Report.text

theorem decodeText_eq_ok_iff {bytes : ByteArray} {s : String} :
    decodeText bytes = .ok s ↔ bytes = s.toUTF8 := by
  unfold decodeText String.fromUTF8?
  split
  next t ht =>
    split at ht
    next hvalid =>
      obtain rfl := Option.some.inj ht
      constructor
      · intro h
        rw [← Except.ok.inj h]
        rfl
      · rintro rfl
        exact congrArg _ (String.toByteArray_inj.mp rfl)
    next => cases ht
  next hnone =>
    constructor
    · nofun
    · rintro rfl
      cases (dif_pos s.isValidUTF8).symm.trans hnone

section Loading

variable {tree : FileTree} {path source : String} {cause : FileError}

theorem holds_iff : tree.Holds path source ↔ tree.text path = .ok source := by
  unfold Holds text
  cases tree.find path with
  | error e => simp
  | ok found =>
    obtain ⟨place, node⟩ := found
    cases node with
    | directory => simp
    | file content => simp [decodeText_eq_ok_iff]

theorem load_of_text_ok (h : tree.text path = .ok source) : tree.load path = .ok (.ofSource source) := by
  rw [load, h]

theorem load_of_text_error (h : tree.text path = .error cause) :
    tree.load path = .error ⟨.read, path, cause⟩ := by
  rw [load, h]

theorem drawing_of_load_ok {program : Program} (h : tree.load path = .ok program) :
    tree.drawing path = (program.render {}).mapError LineError.report := by
  rw [drawing, h]

theorem drawing_of_load_error {e : StorageError} (h : tree.load path = .error e) :
    tree.drawing path = .error e.report := by
  rw [drawing, h]

end Loading

/-! ## What a request gets from a tree -/

section Reading

variable (tree : FileTree) (path : String)

theorem text_eq : tree.text path = (tree.read path).bind decodeText := by
  unfold text read
  cases tree.find path with
  | error e => rfl
  | ok found =>
    obtain ⟨place, node⟩ := found
    cases node <;> rfl

theorem run_readText : (readText path : StateM FileTree _).run tree = (tree.text path, tree) := by
  rw [text_eq]
  rfl

theorem run_list :
    (MonadFiles.list path : StateM FileTree _).run tree = (tree.list path, tree) := rfl

theorem run_load : (Program.load path : StateM FileTree _).run tree = (tree.load path, tree) := by
  rw [load, Program.load, run_bind_of_run (tree.run_readText path)]
  cases tree.text path <;> rfl

theorem run_renderFile :
    (renderFile path : StateM FileTree _).run tree = (tree.drawing path, tree) := by
  rw [drawing, renderFile, run_bind_of_run (tree.run_load path)]
  cases tree.load path <;> rfl

theorem run_demoCard (name : String) :
    (demoCard name : StateM FileTree _).run tree = (tree.card name, tree) := by
  rw [card, demoCard]
  rw [run_bind_of_run (tree.run_readText _), run_bind_of_run (tree.run_renderFile _)]
  rfl

end Reading

/-! ## What a request puts into a tree -/

section Writing

variable {tree : FileTree} {path content : String}

theorem run_writeText_ok {after : FileTree} (h : tree.write path content.toUTF8 = .ok after) :
    (writeText path content : StateM FileTree _).run tree = (.ok (), after) := by
  have hget : (get : StateM FileTree FileTree).run tree = (tree, tree) := rfl
  rw [writeText, MonadFiles.write, instMonadFilesStateM]
  rw [run_bind_of_run hget, h]
  rfl

theorem run_writeText_error {e : FileError} (h : tree.write path content.toUTF8 = .error e) :
    (writeText path content : StateM FileTree _).run tree = (.error e, tree) := by
  have hget : (get : StateM FileTree FileTree).run tree = (tree, tree) := rfl
  rw [writeText, MonadFiles.write, instMonadFilesStateM]
  rw [run_bind_of_run hget, h]
  rfl

theorem run_writeOutput_ok {after : FileTree} (h : tree.write path content.toUTF8 = .ok after)
    (done : String) :
    (writeOutput path content done : StateM FileTree _).run tree =
      ({ stdout := done ++ path ++ "\n" }, after) := by
  rw [writeOutput, run_bind_of_run (run_writeText_ok h)]
  rfl

theorem run_writeOutput_error {e : FileError} (h : tree.write path content.toUTF8 = .error e)
    (done : String) :
    (writeOutput path content done : StateM FileTree _).run tree =
      ({ status := 1, stderr := "Error: writing " ++ path ++ " [cause " ++ e.text ++ "]\n" }, tree) := by
  have hreport : Outcome.failed { message := "writing " ++ path, causes := [e.text] } "" =
      { status := 1, stderr := "Error: writing " ++ path ++ " [cause " ++ e.text ++ "]\n" } := by
    simp [Outcome.failed, Report.text, Report.bracket, ← String.toList_inj]
  rw [writeOutput, run_bind_of_run (run_writeText_error h), ← hreport]
  rfl

end Writing

/-! ## Rendering -/

section Rendering

variable {tree : FileTree} {input : String}

theorem run_renderTo_of_ok {svg : String} (h : tree.drawing input = .ok svg) (output : String) :
    (renderTo input output : StateM FileTree _).run tree =
      (writeOutput output svg "Wrote " : StateM FileTree _).run tree := by
  rw [renderTo, run_bind_of_run (tree.run_renderFile input), h]

theorem run_renderTo_of_error {report : Report} (h : tree.drawing input = .error report)
    (output : String) :
    (renderTo input output : StateM FileTree _).run tree = (.failed report "", tree) := by
  rw [renderTo, run_bind_of_run (tree.run_renderFile input), h]
  rfl

end Rendering

/-! ## The gallery -/

section Gallery

variable {tree : FileTree}

/-- The demos that the gallery shows, in its order. -/
def demoFiles (tree : FileTree) : List String :=
  match tree.list demos with
  | .ok names => demoNames names
  | .error _ => []

def galleryPage (tree : FileTree) : String :=
  Gallery.page (tree.demoFiles.map tree.card)

theorem demoFiles_of_list {names : List String} (h : tree.list demos = .ok names) :
    tree.demoFiles = demoNames names := by
  rw [demoFiles, h]

theorem run_gallery_of_list {names : List String} (h : tree.list demos = .ok names)
    (rest : List String) :
    (commandLine ("gallery" :: rest) : StateM FileTree _).run tree =
      (writeOutput galleryPath tree.galleryPage "Generated gallery at: " : StateM FileTree _).run tree := by
  have hmake : (commandLine ("gallery" :: rest) : StateM FileTree _) = makeGallery := rfl
  rw [hmake, makeGallery, run_bind_of_run (tree.run_list demos), h]
  dsimp only
  rw [run_bind_of_run (run_mapM tree.run_demoCard _), ← demoFiles_of_list h, galleryPage]

theorem run_gallery_of_error {e : FileError} (h : tree.list demos = .error e) (rest : List String) :
    ((commandLine ("gallery" :: rest) : StateM FileTree _).run tree).2 = tree := by
  have hmake : (commandLine ("gallery" :: rest) : StateM FileTree _) = makeGallery := rfl
  rw [hmake, makeGallery, run_bind_of_run (tree.run_list demos), h]
  rfl

end Gallery

end FileTree

end PenPlot
