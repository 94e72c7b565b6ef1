import PenPlot.Proofs.Places
import PenPlot.Proofs.Reading
import PenPlot.Proofs.Spaced
import PenPlot.Proofs.TreeRequests

/-!
# Rendering a file

A request to render ends in one of four ways, and only in one of them a file changes: the output, which then
holds the drawing of what was in the input before (`FileTree.run_render`). A document is no program
(`Program.ne_of_render`), so where the output is the input itself, its content does change.

Without an output of its own, a drawing goes next to its program. That is the program itself exactly if its
extension is `svg` already, but for the name `..svg`: with its extension taken off, only the dots that lead
upwards are left, and the drawing goes nowhere.
-/

namespace PenPlot

open Text

/-! ## A document is no program -/

theorem Command.parse_lt (cs : List Char) :
    ∃ fault, Command.parse (String.ofList ('<' :: cs)) = .error fault := by
  cases hparse : Command.parse (String.ofList ('<' :: cs)) with
  | error fault => exact ⟨fault, rfl⟩
  | ok command =>
    obtain ⟨head, words, htokens, hhead, -, -⟩ := words_of_parse_ok hparse
    obtain ⟨word, rest, hcs, hword, hstop⟩ := exists_stretch (fun c => !isBlank c) cs
    have hunblank : ∀ c ∈ '<' :: word, isBlank c = false := by
      refine List.forall_mem_cons.mpr ⟨by decide, fun c hc => by simpa using hword c hc⟩
    -- the first word begins with the first character, which is in no keyword
    have hfirst : tokens (String.ofList ('<' :: cs)) =
        ⟨String.ofList ('<' :: word), 0⟩ :: tokensAt (0 + byteLength ('<' :: word)) rest := by
      rw [tokens, String.toList_ofList, hcs, ← List.cons_append]
      exact tokensAt_word (List.cons_ne_nil _ _) hunblank (fun c hc => by simpa using hstop c hc) 0
    rw [hfirst, List.cons.injEq] at htokens
    obtain ⟨rfl, -⟩ := htokens
    have hname := Keyword.ofName?_eq_some_iff.mp hhead
    have hlt : '<' ∈ command.keyword.name.toList := by
      rw [← hname, String.toList_ofList]
      exact List.mem_cons_self
    have hno : ∀ keyword : Keyword, '<' ∉ keyword.name.toList := by
      intro keyword
      cases keyword <;> decide
    exact absurd hlt (hno _)

namespace Program

theorem exists_firstFailure_lt (cs : List Char) :
    ∃ e, firstFailureFrom? 1 (ofSource (String.ofList ('<' :: cs))).lines = some e := by
  have hlines : ∃ line others, cutLines ('<' :: cs) = ('<' :: line) :: others := by
    rw [cutLines.eq_4 '<' cs nofun nofun]
    cases cutLines cs with
    | nil => exact ⟨[], [], rfl⟩
    | cons line others => exact ⟨line, others, rfl⟩
  obtain ⟨line, others, hcut⟩ := hlines
  obtain ⟨fault, hfault⟩ := Command.parse_lt line
  have hfails := firstFailureFrom?_error hfault 1 (others.map String.ofList)
  rw [ofSource, String.toList_ofList, hcut, List.map_cons]
  exact ⟨_, hfails⟩

/-- No program draws its own source. -/
theorem ne_of_render {source svg : String} {options : Svg.Options}
    (h : (ofSource source).render options = .ok svg) : source ≠ svg := by
  have hrun := firstFailure_eq_none_of_render h
  rw [render_of_none options hrun] at h
  obtain rfl := Except.ok.inj h
  generalize ((ofSource source).run (Svg.Canvas.new options)).2 = canvas
  obtain ⟨cs, hcs⟩ : ∃ cs, canvas.document = String.ofList ('<' :: cs) := by
    refine ⟨canvas.document.toList.tail, ?_⟩
    rw [← String.toList_inj, String.toList_ofList]
    simp [Svg.Canvas.document, Svg.Canvas.openingTag]
  rintro rfl
  obtain ⟨e, he⟩ := exists_firstFailure_lt cs
  rw [hcs, he] at hrun
  cases hrun

end Program

namespace FileTree

variable {tree : FileTree}

/-! ## What becomes of a drawing -/

/-- The file at a path holds a program that runs. -/
def Runs (tree : FileTree) (path : String) : Prop :=
  ∃ source, tree.Holds path source ∧ firstFailureFrom? 1 (Program.ofSource source).lines = none

section Drawing

variable {path source : String} (h : tree.text path = .ok source)

include h

theorem drawing_of_none (hrun : firstFailureFrom? 1 (Program.ofSource source).lines = none) :
    ∃ svg, (Program.ofSource source).render {} = .ok svg ∧ tree.drawing path = .ok svg := by
  have hsvg := Program.render_of_none {} hrun
  have hdrawing := drawing_of_load_ok (load_of_text_ok h)
  rw [hsvg] at hdrawing
  exact ⟨_, hsvg, hdrawing⟩

theorem drawing_of_some {e : RunError}
    (hrun : firstFailureFrom? 1 (Program.ofSource source).lines = some e) :
    tree.drawing path = .error e.report := by
  have hdrawing := drawing_of_load_ok (load_of_text_ok h)
  rw [Program.render_of_some {} hrun] at hdrawing
  exact hdrawing

end Drawing

theorem runs_iff {path : String} : tree.Runs path ↔ ∃ svg, tree.drawing path = .ok svg := by
  constructor
  · rintro ⟨source, hholds, hrun⟩
    obtain ⟨svg, -, hdrawing⟩ := drawing_of_none (holds_iff.mp hholds) hrun
    exact ⟨svg, hdrawing⟩
  · rintro ⟨svg, hdrawing⟩
    cases htext : tree.text path with
    | error cause =>
      rw [drawing_of_load_error (load_of_text_error htext)] at hdrawing
      cases hdrawing
    | ok source =>
      cases hrun : firstFailureFrom? 1 (Program.ofSource source).lines with
      | none => exact ⟨source, holds_iff.mpr htext, hrun⟩
      | some e =>
        rw [drawing_of_some htext hrun] at hdrawing
        cases hdrawing

theorem run_failed {report : Report} {input : String} (h : tree.drawing input = .error report)
    (output : String) :
    (commandLine ["render", input, output] : StateM FileTree _).run tree =
      ({ status := 1, stderr := "Error: " ++ report.text ++ "\n" }, tree) := by
  refine (run_renderTo_of_error h output).trans (congrArg (·, tree) ?_)
  simp [Outcome.failed]

/-- How a request to render ends, with the tree there is then. -/
inductive RenderEnd (tree : FileTree) (input output : String) : Outcome × FileTree → Prop
  | notLoaded {e : StorageError} (load : tree.load input = .error e) :
    RenderEnd tree input output
      ({ status := 1, stderr := "Error: " ++ e.report.text ++ "\n" }, tree)
  | notRun {source : String} {e : RunError} (text : tree.text input = .ok source)
    (fails : firstFailureFrom? 1 (Program.ofSource source).lines = some e) :
    RenderEnd tree input output
      ({ status := 1, stderr := "Error: " ++ e.report.text ++ "\n" }, tree)
  | written {source svg : String} {place : Place} {after : FileTree}
    (text : tree.text input = .ok source) (svg_eq : (Program.ofSource source).render {} = .ok svg)
    (place_eq : tree.filePlace output = .ok place) (free : tree.node? place ≠ some .directory)
    (there : after.node? place = some (.file svg.toUTF8))
    (elsewhere : ∀ other, other ≠ place → after.node? other = tree.node? other) :
    RenderEnd tree input output ({ stdout := "Wrote " ++ output ++ "\n" }, after)
  | notWritten {source svg : String} {cause : FileError} (text : tree.text input = .ok source)
    (svg_eq : (Program.ofSource source).render {} = .ok svg)
    (write : tree.write output svg.toUTF8 = .error cause) :
    RenderEnd tree input output
      ({ status := 1, stderr := "Error: writing " ++ output ++ " [cause " ++ cause.text ++ "]\n" }, tree)

theorem renderEnd_run (tree : FileTree) (input output : String) :
    RenderEnd tree input output
      ((commandLine ["render", input, output] : StateM FileTree _).run tree) := by
  cases htext : tree.text input with
  | error cause =>
    have hload := load_of_text_error htext
    rw [run_failed (drawing_of_load_error hload)]
    exact .notLoaded hload
  | ok source =>
    cases hrun : firstFailureFrom? 1 (Program.ofSource source).lines with
    | some e =>
      rw [run_failed (drawing_of_some htext hrun)]
      exact .notRun htext hrun
    | none =>
      obtain ⟨svg, hsvg, hdrawing⟩ := drawing_of_none htext hrun
      have hresult : (commandLine ["render", input, output] : StateM FileTree _).run tree =
          (writeOutput output svg "Wrote " : StateM FileTree _).run tree :=
        run_renderTo_of_ok hdrawing output
      rw [hresult]
      cases hwrite : tree.write output svg.toUTF8 with
      | error cause =>
        rw [run_writeOutput_error hwrite]
        exact .notWritten htext hsvg hwrite
      | ok after =>
        obtain ⟨place, hplace, hfree, -⟩ := write_eq_ok_iff.mp hwrite
        obtain ⟨written, hwritten, hthere, helsewhere⟩ := node?_of_write hwrite
        obtain rfl := Except.ok.inj (hplace.symm.trans hwritten)
        rw [run_writeOutput_ok hwrite]
        exact .written htext hsvg hplace hfree hthere helsewhere

/-! ## Drawing over a program -/

/-- The program itself changes exactly if it runs and the drawing goes where it is. -/
theorem node?_render_ne_iff {input : String} {place : Place} {content : ByteArray}
    (hfind : tree.find input = .ok (place, .file content)) (output : String) :
    ((commandLine ["render", input, output] : StateM FileTree _).run tree).2.node? place ≠
        tree.node? place ↔
      tree.Runs input ∧ tree.filePlace output = .ok place := by
  have hnode : tree.node? place = some (.file content) := (find_eq_ok_iff.mp hfind).2.2
  have hend := renderEnd_run tree input output
  generalize (commandLine ["render", input, output] : StateM FileTree _).run tree = result at *
  cases hend with
  | notLoaded hload =>
    rw [runs_iff, drawing_of_load_error hload]
    simp
  | notRun htext hrun =>
    rw [runs_iff, drawing_of_some htext hrun]
    simp
  | written htext hsvg hwritten _ hthere helsewhere =>
    have hruns : tree.Runs input := ⟨_, holds_iff.mpr htext, Program.firstFailure_eq_none_of_render hsvg⟩
    rw [and_iff_right hruns, hwritten, Except.ok.injEq]
    constructor
    · intro hne
      by_contra hplace
      exact hne (helsewhere place (Ne.symm hplace))
    · rintro rfl hsame
      obtain ⟨there, hfound⟩ := holds_iff.mpr htext
      obtain ⟨-, hcontent⟩ := Prod.mk.inj (Except.ok.inj (hfind.symm.trans hfound))
      rw [hthere, hnode, hcontent] at hsame
      have hsource := String.toByteArray_inj.mp (Node.file.inj (Option.some.inj hsame))
      exact Program.ne_of_render hsvg hsource.symm
  | notWritten _ _ hwrite =>
    refine iff_of_false (fun hne => hne rfl) fun ⟨_, hplace⟩ => ?_
    have hfree : tree.node? place ≠ some .directory := by
      rw [hnode]
      exact nofun
    rw [write_eq_ok_iff.mpr ⟨place, hplace, hfree, rfl⟩] at hwrite
    cases hwrite

/-- Where a drawing goes without an output of its own. -/
theorem filePlace_withExtension {input name : String} {names : List String} {here place : Place}
    (hparts : Path.parts input = names ++ [name]) (hname : Path.IsName name)
    (hwalk : tree.walk .start names = .ok here) (hhere : tree.node? here = some .directory) :
    tree.filePlace (Path.withExtension input "svg") = .ok place ↔
      (Path.splitName name).1 ≠ "." ∧ place = here.child ((Path.splitName name).1 ++ "." ++ "svg") := by
  have hnames : ∀ part ∈ names ++ [name], '/' ∉ part.toList := by
    rw [← hparts]
    exact fun part hpart => Path.slash_notMem_of_mem_parts hpart
  obtain ⟨habove, hslash⟩ := List.forall_mem_append.mp hnames
  have hstem := Path.slash_notMem_stem (hslash name List.mem_cons_self)
  rw [Path.withExtension_eq hparts hname]
  split
  next hdot =>
    have hup : Path.parts (Path.above names ++ "..") = names ++ [".."] :=
      Path.parts_above habove (by decide)
    exact iff_of_false (filePlace_up hup place) fun h => h.1 hdot
  next hdot =>
    generalize (Path.splitName name).1 = stem at *
    have hsvg : Path.parts (Path.above names ++ (stem ++ "." ++ "svg")) =
        names ++ [stem ++ "." ++ "svg"] :=
      Path.parts_above habove (by simpa using hstem)
    have hsvgName : Path.IsName (stem ++ "." ++ "svg") :=
      Path.isName_of_mem (c := 'g') (by simp) (by decide)
    rw [filePlace_name hsvg hwalk hhere hsvgName, Except.ok.injEq, and_iff_right hdot]
    exact eq_comm

/-- A request to render changes no file but its output, and that only if the input runs.

A request without an output is one with the input's extension replaced by `svg`. So the input itself changes
exactly if it runs and has that extension already, unless `.` is all that stands before it. -/
theorem run_render (tree : FileTree) (input : String) :
    (∀ output, RenderEnd tree input output
      ((commandLine ["render", input, output] : StateM FileTree _).run tree)) ∧
    ∀ place content, tree.find input = .ok (place, .file content) →
      ∃ directory stem extension,
        input = directory ++ Path.nameOf stem extension ∧
        (directory = "" ∨ ∃ before, directory = before ++ "/") ∧
        '/' ∉ (Path.nameOf stem extension).toList ∧
        Path.SplitsInto (Path.nameOf stem extension) stem extension ∧
        (commandLine ["render", input] : StateM FileTree _) =
          commandLine ["render", input, directory ++ if stem = "." then ".." else stem ++ ".svg"] ∧
        (((commandLine ["render", input] : StateM FileTree _).run tree).2.node? place ≠
            tree.node? place ↔
          tree.Runs input ∧ extension = some "svg" ∧ stem ≠ ".") := by
  refine ⟨renderEnd_run tree input, fun place content hfind => ?_⟩
  obtain ⟨names, name, here, hparts, hname, hwalk, hhere, rfl⟩ := exists_name_of_find hfind
  have hslash : '/' ∉ name.toList := Path.slash_notMem_of_mem_parts (by rw [hparts]; simp)
  have hsplit := Path.splitsInto_splitName name
  have houtput := Path.withExtension_eq hparts hname "svg"
  have hover := node?_render_ne_iff hfind (Path.withExtension input "svg")
  rw [filePlace_withExtension hparts hname hwalk hhere] at hover
  generalize (Path.splitName name).1 = stem, (Path.splitName name).2 = extension at *
  obtain rfl := hsplit.eq
  refine ⟨Path.above names, stem, extension, Path.eq_above hparts, Path.above_eq_or names, hslash, hsplit,
    ?_, hover.trans ?_⟩
  · have hsvg : stem ++ ".svg" = stem ++ "." ++ "svg" := by simp [String.append_assoc]
    rw [hsvg, ← houtput]
    rfl
  · -- another name in the same directory is another place
    have hsame : here.child (Path.nameOf stem extension) = here.child (stem ++ "." ++ "svg") ↔
        extension = some "svg" := by
      simp [Place.child, Path.nameOf_eq_iff]
    rw [hsame, and_comm (a := stem ≠ ".")]

/-- The file `..svg` runs and has the extension `svg`, but its drawing is to replace the directory above. -/
theorem run_render_dots :
    let tree := FileTree.empty.makeFile ⟨0, ["..svg"]⟩ "clear\n".toUTF8
    Path.splitName "..svg" = (".", some "svg") ∧ tree.Runs "..svg" ∧
      (commandLine ["render", "..svg"] : StateM FileTree _).run tree =
        ({ status := 1, stderr := "Error: writing .. [cause Is a directory (os error 21)]\n" }, tree) := by
  refine ⟨by decide, ⟨"clear\n", ⟨_, rfl⟩, by decide +kernel⟩, ?_⟩
  rfl

end FileTree

end PenPlot
