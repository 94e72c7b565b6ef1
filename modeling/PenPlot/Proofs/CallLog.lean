import PenPlot.Drawing.Surface
import PenPlot.Proofs.Numerals

/-!
# What a log tells

A call is written as its name and its operands with single spaces between them (`Call.text_eq`). None of these
words has a blank of its own (`IsSolid`), so the text tells the words, the name tells the kind of call, and the
operands tell all its numbers and colors (`Call.text_injective`). The only blanks in the text of a call are
spaces, so that each call has a line of its own, and two logs are the same only for the same calls
(`Recording.log_eq_iff`).
-/

namespace PenPlot

open Text Text.Decimal

/-! ## Words with single spaces between them -/

section Words

variable {words : List String}

theorem intercalate_space_cons (word : String) (words : List String) :
    " ".intercalate (word :: words) = word ++ String.join (words.map (" " ++ ·)) := by
  induction words generalizing word with
  | nil => simp
  | cons next words ih =>
    rw [String.intercalate_cons_of_ne_nil (by simp), ih, List.map_cons, String.join_cons,
      String.append_assoc, String.append_assoc]

/-- The blanks of a text of words are the spaces between them. -/
theorem eq_space_of_mem_intercalate (h : ∀ word ∈ words, IsSolid word) {c : Char}
    (hc : c ∈ (" ".intercalate words).toList) (hblank : isBlank c = true) : c = ' ' := by
  have hno : ∀ word ∈ words, c ∉ word.toList := fun word hword hmem =>
    absurd ((h word hword).2 c hmem) (by simp [hblank])
  cases words with
  | nil => simp at hc
  | cons word words =>
    obtain ⟨hword, hwords⟩ := List.forall_mem_cons.mp hno
    rw [intercalate_space_cons, String.toList_append, String.toList_join, List.mem_append] at hc
    rcases hc with hc | hc
    · exact absurd hc hword
    · obtain ⟨_, hmem, hc⟩ := List.mem_flatMap.mp hc
      obtain ⟨next, hnext, rfl⟩ := List.mem_map.mp hmem
      simpa [hwords next hnext] using hc

end Words

/-! ## Points and sizes -/

namespace Point

/-- A point is written like the pixel it is on a canvas that has not been moved. -/
theorem text_eq (p : Point) : p.text = (Svg.Pixel.ofPoint p).text := rfl

theorem isSolid_text (p : Point) : IsSolid p.text :=
  (Svg.Pixel.ofPoint p).isSolid_text

theorem text_injective {p q : Point} (h : p.text = q.text) : p = q := by
  rw [text_eq, text_eq] at h
  exact Svg.Pixel.ofPoint_inj.mp (Svg.Pixel.text_injective h)

end Point

namespace Size

theorem isSolid_text (size : Size) : IsSolid size.text :=
  have htimes : IsSolid "x" := by decide
  ((isSolid_ofInt _).append htimes).append (isSolid_ofInt _)

theorem text_injective {a b : Size} (h : a.text = b.text) : a = b := by
  have htext : ∀ size : Size, size.text.toList =
      (ofInt size.width.toInt).toList ++ 'x' :: (ofInt size.height.toInt).toList := by
    simp [text]
  have hlists := congrArg String.toList h
  rw [htext, htext] at hlists
  obtain ⟨hwidth, hheight⟩ := ofInt_append_injective (by decide) hlists
  obtain ⟨width, height⟩ := a
  obtain ⟨width', height'⟩ := b
  obtain rfl : width = width' := Int32.toInt_inj.mp hwidth
  obtain rfl : height = height' := Int32.toInt_inj.mp hheight
  rfl

end Size

/-! ## Calls -/

theorem Paint.eq_of_verb {p q : Paint} (hverb : p.verb = q.verb) (hcolor : p.color = q.color) :
    p = q := by
  cases p <;> cases q <;> simp_all [verb, color]

namespace Call

/-- What a call draws, or does. -/
def shape : Call → String
  | .resetTransform => "reset_transform"
  | .translate _ => "translate"
  | .clear _ => "clear"
  | .line .. => "line"
  | .rect .. => "rect"
  | .ellipse .. => "ellipse"
  | .polygon .. => "polygon"

/-- Whether that is filled or outlined, in front of the shape. -/
def manner : Call → String
  | .resetTransform | .translate _ | .clear _ => ""
  | .line .. => "stroke_"
  | .rect paint .. | .ellipse paint .. | .polygon paint _ => paint.verb ++ "_"

def name (call : Call) : String :=
  call.manner ++ call.shape

def boxOperands (paint : Paint) (origin : Point) (size : Size) : List String :=
  [paint.color.text, "at", origin.text, "size", size.text]

/-- The words behind the name. -/
def operands : Call → List String
  | .resetTransform => []
  | .translate offset => [ofInt offset.x.toInt, ofInt offset.y.toInt]
  | .clear color => [color.text]
  | .line color start finish => [color.text, start.text, "->", finish.text]
  | .rect paint origin size | .ellipse paint origin size => boxOperands paint origin size
  | .polygon paint points => paint.color.text :: points.map Point.text

theorem text_eq (call : Call) : call.text = " ".intercalate (call.name :: call.operands) := by
  rw [intercalate_space_cons, ← String.toList_inj]
  unfold text
  cases call with
  | rect paint origin size | ellipse paint origin size =>
    simp [boxText, name, manner, shape, operands, boxOperands]
  | polygon paint points => simp [name, manner, shape, operands, List.flatMap_map]
  | _ => simp [name, manner, shape, operands]

/-! ### The name -/

def shapes : List String :=
  ["reset_transform", "translate", "clear", "line", "rect", "ellipse", "polygon"]

def manners : List String :=
  ["", "fill_", "stroke_"]

theorem shape_mem (call : Call) : call.shape ∈ shapes := by
  cases call <;> simp [shape, shapes]

theorem manner_mem (call : Call) : call.manner ∈ manners := by
  have hverb : ∀ paint : Paint, paint.verb ++ "_" ∈ manners := by
    intro paint
    cases paint <;> rw [Paint.verb] <;> decide
  cases call with
  | resetTransform | translate | clear | line => simp [manner, manners]
  | rect paint | ellipse paint | polygon paint => exact hverb paint

theorem isSolid_name (call : Call) : IsSolid call.name := by
  have hall : ∀ manner ∈ manners, ∀ shape ∈ shapes, IsSolid (manner ++ shape) := by decide
  exact hall _ call.manner_mem _ call.shape_mem

theorem name_injective {a b : Call} (h : a.name = b.name) : a.manner = b.manner ∧ a.shape = b.shape := by
  have hall : ∀ m ∈ manners, ∀ m' ∈ manners, ∀ s ∈ shapes, ∀ s' ∈ shapes,
      m ++ s = m' ++ s' → m = m' ∧ s = s' := by decide
  exact hall _ a.manner_mem _ b.manner_mem _ a.shape_mem _ b.shape_mem h

/-! ### The operands -/

theorem isSolid_of_mem_operands {call : Call} {word : String} (h : word ∈ call.operands) :
    IsSolid word := by
  revert h word
  cases call with
  | resetTransform => simp [operands]
  | translate offset => simp [operands, isSolid_ofInt]
  | clear color => simp [operands, Color.isSolid_text]
  | line color start finish => simp +decide [operands, Color.isSolid_text, Point.isSolid_text]
  | rect paint origin size | ellipse paint origin size =>
    simp +decide [operands, boxOperands, Color.isSolid_text, Point.isSolid_text, Size.isSolid_text]
  | polygon paint points => simp [operands, Color.isSolid_text, Point.isSolid_text]

theorem boxOperands_injective {paint paint' : Paint} {origin origin' : Point} {size size' : Size}
    (hverb : paint.verb ++ "_" = paint'.verb ++ "_")
    (h : boxOperands paint origin size = boxOperands paint' origin' size') :
    paint = paint' ∧ origin = origin' ∧ size = size' := by
  simp only [boxOperands, List.cons.injEq, true_and, and_true] at h
  obtain ⟨hcolor, horigin, hsize⟩ := h
  exact ⟨Paint.eq_of_verb ((String.append_left_inj _).mp hverb) (Color.text_injective hcolor),
    Point.text_injective horigin, Size.text_injective hsize⟩

/-- Calls of one kind are told by their operands. -/
theorem operands_injective {a b : Call} (hmanner : a.manner = b.manner) (hshape : a.shape = b.shape)
    (h : a.operands = b.operands) : a = b := by
  cases a with
  | resetTransform =>
    cases b with
    | resetTransform => rfl
    | translate | clear | line | rect | ellipse | polygon => simp [shape] at hshape
  | translate offset =>
    cases b with
    | translate offset' =>
      simp only [operands, List.cons.injEq, and_true] at h
      have hpoint : offset.text = offset'.text := by rw [Point.text, h.1, h.2, Point.text]
      rw [Point.text_injective hpoint]
    | resetTransform | clear | line | rect | ellipse | polygon => simp [shape] at hshape
  | clear color =>
    cases b with
    | clear color' =>
      simp only [operands, List.cons.injEq, and_true] at h
      rw [Color.text_injective h]
    | resetTransform | translate | line | rect | ellipse | polygon => simp [shape] at hshape
  | line color start finish =>
    cases b with
    | line color' start' finish' =>
      simp only [operands, List.cons.injEq, true_and, and_true] at h
      obtain ⟨hcolor, hstart, hfinish⟩ := h
      rw [Color.text_injective hcolor, Point.text_injective hstart, Point.text_injective hfinish]
    | resetTransform | translate | clear | rect | ellipse | polygon => simp [shape] at hshape
  | rect paint origin size =>
    cases b with
    | rect paint' origin' size' =>
      obtain ⟨rfl, rfl, rfl⟩ := boxOperands_injective hmanner h
      rfl
    | resetTransform | translate | clear | line | ellipse | polygon => simp [shape] at hshape
  | ellipse paint origin size =>
    cases b with
    | ellipse paint' origin' size' =>
      obtain ⟨rfl, rfl, rfl⟩ := boxOperands_injective hmanner h
      rfl
    | resetTransform | translate | clear | line | rect | polygon => simp [shape] at hshape
  | polygon paint points =>
    cases b with
    | polygon paint' points' =>
      obtain ⟨hcolor, hpoints⟩ := List.cons.inj h
      have hverb : paint.verb = paint'.verb := (String.append_left_inj _).mp hmanner
      rw [Paint.eq_of_verb hverb (Color.text_injective hcolor),
        (List.map_inj_right fun _ _ => Point.text_injective).mp hpoints]
    | resetTransform | translate | clear | line | rect | ellipse => simp [shape] at hshape

/-! ### The text -/

theorem isSolid_of_mem_words {call : Call} {word : String} (h : word ∈ call.name :: call.operands) :
    IsSolid word := by
  rcases List.mem_cons.mp h with rfl | h
  · exact call.isSolid_name
  · exact isSolid_of_mem_operands h

theorem text_injective {a b : Call} (h : a.text = b.text) : a = b := by
  have hwords : ∀ call : Call, ∀ word ∈ call.name :: call.operands, IsSolid word :=
    fun call word hword => isSolid_of_mem_words hword
  rw [text_eq, text_eq] at h
  obtain ⟨hname, hoperands⟩ := List.cons.inj (intercalate_space_injective (hwords a) (hwords b) h)
  obtain ⟨hmanner, hshape⟩ := name_injective hname
  exact operands_injective hmanner hshape hoperands

/-- The text of a call has spaces and no other blanks. -/
theorem notMem_text {c : Char} (hblank : isBlank c = true) (hspace : c ≠ ' ') (call : Call) :
    c ∉ call.text.toList := by
  intro hc
  rw [text_eq] at hc
  exact hspace (eq_space_of_mem_intercalate (fun word hword => isSolid_of_mem_words hword) hc hblank)

end Call

/-! ## Logs -/

namespace Recording

/-- The lines of a log, without their line feeds. -/
def lines (recording : Recording) : List (List Char) :=
  recording.calls.toList.map fun call => call.text.toList

section

variable (recording : Recording)

theorem toList_log : recording.log.toList = joinLines recording.lines := by
  simp [log, joinLines, lines, List.flatMap_map]

theorem notMem_lines {c : Char} (hblank : isBlank c = true) (hspace : c ≠ ' ') :
    ∀ line ∈ recording.lines, c ∉ line :=
  List.forall_mem_map.mpr fun call _ => call.notMem_text hblank hspace

theorem newline_notMem_lines : ∀ line ∈ recording.lines, '\n' ∉ line :=
  recording.notMem_lines (by decide) (by decide)

/-- No line loses a carriage return when the log is cut into lines again. -/
theorem cutLines_log : cutLines recording.log.toList = recording.lines := by
  have hreturn : ∀ line ∈ recording.lines, '\r' ∉ line :=
    recording.notMem_lines (by decide) (by decide)
  rw [toList_log, cutLines_joinLines_iff]
  intro line hline
  exact ⟨recording.newline_notMem_lines line hline, fun hlast =>
    hreturn line hline (List.mem_of_getLast? hlast)⟩

end

theorem lines_drawAll_empty (calls : List Call) :
    (Surface.drawAll empty calls).lines = calls.map fun call => call.text.toList := by
  rw [lines, toList_drawAll]
  rfl

/-- **A log tells the calls.** Two lists of calls that have been recorded give one log only if they are the same
list, with the same kinds of calls, colors, coordinates, sizes and points. The log has the texts of the calls in
order, each with a line feed behind it, and these are its lines: as many as there are calls. -/
theorem log_eq_iff (calls calls' : List Call) :
    let recording := Surface.drawAll empty calls
    let recording' := Surface.drawAll empty calls'
    (recording.log = recording'.log ↔ calls = calls') ∧
    recording.log.toList = joinLines (calls.map fun call => call.text.toList) ∧
    cutLines recording.log.toList = (calls.map fun call => call.text.toList) ∧
    recording.log.toList.count '\n' = calls.length := by
  intro recording recording'
  have hlines : recording.lines = calls.map fun call => call.text.toList := lines_drawAll_empty calls
  have hlines' : recording'.lines = calls'.map fun call => call.text.toList := lines_drawAll_empty calls'
  have hlog := recording.toList_log
  refine ⟨⟨fun h => ?_, ?_⟩, ?_, ?_, ?_⟩
  · have htexts : recording.lines = recording'.lines := by
      rw [← cutLines_log, h, cutLines_log]
    rw [hlines, hlines'] at htexts
    exact (List.map_inj_right fun _ _ htext => Call.text_injective (String.toList_inj.mp htext)).mp htexts
  · rintro rfl
    rfl
  · rw [hlog, hlines]
  · rw [cutLines_log, hlines]
  · rw [hlog, count_joinLines recording.newline_notMem_lines, hlines, List.length_map]

end Recording

end PenPlot
