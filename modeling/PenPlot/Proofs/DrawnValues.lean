import PenPlot.Proofs.DocumentText
import PenPlot.Proofs.Escaping

/-!
# What a document is made of

Tags of four kinds with attributes from a fixed list, whose values are numbers, colors and two fixed words
(`Svg.IsDrawing`): whatever is on the canvas, nothing else is in its document (`Canvas.isDrawing_document`). No
such value has a character that needs an entity (`IsValue.isSafe`), so the document can stand in a page as it
is.
-/

namespace PenPlot.Svg

open Text Text.Decimal

/-! ## Values -/

/-- Digits, possibly behind a minus sign and in front of a half. -/
def IsNumber (s : String) : Prop :=
  ∃ sign whole fraction, s = sign ++ whole ++ fraction ∧ sign ∈ ["", "-"] ∧
    whole ≠ "" ∧ (∀ c ∈ whole.toList, c.isDigit = true) ∧ fraction ∈ ["", ".5"]

inductive IsValue : String → Prop
  | number {s : String} (h : IsNumber s) : IsValue s
  | numbers {ss : List String} (h : ∀ s ∈ ss, IsNumber s) : IsValue (" ".intercalate ss)
  | points {ps : List (String × String)} (h : ∀ p ∈ ps, IsNumber p.1 ∧ IsNumber p.2) :
    IsValue (" ".intercalate (ps.map fun p => p.1 ++ "," ++ p.2))
  | color {red green blue : String} (hred : IsNumber red) (hgreen : IsNumber green)
    (hblue : IsNumber blue) : IsValue ("rgb(" ++ red ++ "," ++ green ++ "," ++ blue ++ ")")
  | noPaint : IsValue "none"
  | namespaceName : IsValue "http://www.w3.org/2000/svg"

section Safe

/-- No character of the text needs an entity. -/
def IsSafe (s : String) : Prop :=
  ∀ c ∈ s.toList, Html.IsSafe c

instance (s : String) : Decidable (IsSafe s) :=
  List.decidableBAll Html.IsSafe s.toList

@[simp] theorem isSafe_append {s t : String} : IsSafe (s ++ t) ↔ IsSafe s ∧ IsSafe t := by
  rw [IsSafe, String.toList_append]
  exact List.forall_mem_append

theorem isSafe_intercalate {s : String} {ts : List String} (hs : IsSafe s) (h : ∀ t ∈ ts, IsSafe t) :
    IsSafe (s.intercalate ts) := by
  induction ts with
  | nil => exact fun c hc => absurd hc (by simp)
  | cons t ts ih =>
    obtain ⟨ht, hts⟩ := List.forall_mem_cons.mp h
    by_cases hnil : ts = []
    · rwa [hnil, String.intercalate_singleton]
    · rw [String.intercalate_cons_of_ne_nil hnil, isSafe_append, isSafe_append]
      exact ⟨⟨ht, hs⟩, ih hts⟩

theorem IsNumber.isSafe {s : String} (h : IsNumber s) : IsSafe s := by
  obtain ⟨sign, whole, fraction, rfl, hsign, -, hwhole, hfraction⟩ := h
  have hsigns : ∀ sign ∈ ["", "-"], IsSafe sign := by decide
  have hfractions : ∀ fraction ∈ ["", ".5"], IsSafe fraction := by decide
  rw [isSafe_append, isSafe_append]
  refine ⟨⟨hsigns sign hsign, fun c hc => ?_⟩, hfractions fraction hfraction⟩
  have hdigit := hwhole c hc
  refine ⟨?_, ?_, ?_, ?_⟩ <;>
  · rintro rfl
    exact absurd hdigit (by decide)

theorem IsValue.isSafe {value : String} (h : IsValue value) : IsSafe value := by
  have hspace : IsSafe " " := by decide
  have hcomma : IsSafe "," := by decide
  cases h with
  | number h => exact h.isSafe
  | numbers h => exact isSafe_intercalate hspace fun s hs => (h s hs).isSafe
  | points h =>
    refine isSafe_intercalate hspace (List.forall_mem_map.mpr fun p hp => ?_)
    rw [isSafe_append, isSafe_append]
    exact ⟨⟨(h p hp).1.isSafe, hcomma⟩, (h p hp).2.isSafe⟩
  | color hred hgreen hblue =>
    simp only [isSafe_append]
    exact ⟨⟨⟨⟨⟨⟨by decide, hred.isSafe⟩, hcomma⟩, hgreen.isSafe⟩, hcomma⟩, hblue.isSafe⟩, by decide⟩
  | noPaint => decide
  | namespaceName => decide

end Safe

/-! ## What is written -/

theorem isNumber_append {sign fraction : String} (hsign : sign ∈ ["", "-"])
    (hfraction : fraction ∈ ["", ".5"]) (n : Nat) : IsNumber (sign ++ n.repr ++ fraction) := by
  refine ⟨sign, n.repr, fraction, rfl, hsign, ?_, fun c hc => isDigit_of_mem_repr hc, hfraction⟩
  rw [← String.toList_inj.ne, Nat.toList_repr]
  exact Nat.toDigits_ne_nil

theorem isNumber_repr (n : Nat) : IsNumber n.repr := by
  simpa using @isNumber_append "" "" (by decide) (by decide) n

theorem isNumber_ofInt (i : Int) : IsNumber (ofInt i) := by
  unfold ofInt
  split
  · have hminus : "-" ++ i.natAbs.repr = "-" ++ i.natAbs.repr ++ "" := by simp
    rw [hminus]
    exact isNumber_append (by decide) (by decide) _
  · exact isNumber_repr _

theorem Half.isNumber_text (h : Half) : IsNumber h.text := by
  have hdigits : ∀ sign ∈ ["", "-"], IsNumber (sign ++ digits h.twice.natAbs) := by
    intro sign hsign
    unfold digits
    split
    · rw [← String.append_empty (s := sign ++ _)]
      exact isNumber_append hsign (by decide) _
    · rw [← String.append_assoc]
      exact isNumber_append hsign (by decide) _
  rw [text_eq]
  split
  · exact hdigits "-" (by decide)
  · simpa using hdigits "" (by decide)

@[simp] theorem isValue_repr (n : Nat) : IsValue n.repr :=
  .number (isNumber_repr n)

@[simp] theorem isValue_ofInt (i : Int) : IsValue (ofInt i) :=
  .number (isNumber_ofInt i)

@[simp] theorem Half.isValue_text (h : Half) : IsValue h.text :=
  .number h.isNumber_text

@[simp] theorem isValue_color (color : Color) : IsValue color.text :=
  .color (isNumber_repr _) (isNumber_repr _) (isNumber_repr _)

@[simp] theorem Pixel.isValue_intercalate_text (ps : List Pixel) :
    IsValue (" ".intercalate (ps.map Pixel.text)) := by
  have hpoints : ∀ q ∈ ps.map fun p => (ofInt p.x, ofInt p.y), IsNumber q.1 ∧ IsNumber q.2 :=
    List.forall_mem_map.mpr fun p _ => ⟨isNumber_ofInt _, isNumber_ofInt _⟩
  have hvalue := IsValue.points hpoints
  rw [List.map_map] at hvalue
  exact hvalue

/-! ## Tags -/

def tagNames : List String :=
  ["rect", "line", "ellipse", "polygon"]

def attributeNames : List String :=
  ["cx", "cy", "fill", "height", "points", "rx", "ry", "stroke", "stroke-width", "viewBox", "width", "x", "x1",
    "x2", "xmlns", "y", "y1", "y2"]

/-- An attribute of a drawing. -/
@[mk_iff]
structure Attribute.IsDrawn (a : Attribute) : Prop where
  name : a.name ∈ attributeNames
  value : IsValue a.value

/-- Empty tags, each on its line, between an opening and a closing one. -/
def drawing (root : List Attribute) (shapes : List (String × List Attribute)) : String :=
  "<svg" ++ Attribute.texts root ++ ">\n" ++
    String.join (shapes.map fun shape => tagLine shape.1 shape.2) ++ "</svg>\n"

def IsDrawing (svg : String) : Prop :=
  ∃ root shapes, svg = drawing root shapes ∧ (∀ shape ∈ shapes, shape.1 ∈ tagNames) ∧
    ∀ a ∈ root ++ shapes.flatMap Prod.snd, a.name ∈ attributeNames ∧ IsValue a.value ∧ IsSafe a.value

theorem isDrawn_paintAttributes (paint : Paint) : ∀ a ∈ paintAttributes paint, a.IsDrawn := by
  have hwidth : IsValue "1" := isValue_repr 1
  cases paint with
  | fill color => simp [paintAttributes, Attribute.isDrawn_iff, attributeNames]
  | stroke color => simp [paintAttributes, Attribute.isDrawn_iff, attributeNames, IsValue.noPaint, hwidth]

namespace Element

theorem tagName_mem (element : Element) : element.tagName ∈ tagNames := by
  cases element <;> simp [tagName, tagNames]

theorem isDrawn_shapeAttributes (element : Element) : ∀ a ∈ element.shapeAttributes, a.IsDrawn := by
  cases element <;> simp [shapeAttributes, Attribute.isDrawn_iff, attributeNames, Attribute.ofInt]

theorem isDrawn_attributes (element : Element) : ∀ a ∈ element.attributes, a.IsDrawn :=
  List.forall_mem_append.mpr ⟨element.isDrawn_shapeAttributes, isDrawn_paintAttributes _⟩

end Element

namespace Canvas

theorem isDrawn_openingAttributes (options : Options) : ∀ a ∈ openingAttributes options, a.IsDrawn := by
  have hviewBox (width height : Nat) : IsValue ("0 0 " ++ width.repr ++ " " ++ height.repr) := by
    have hnumbers : ∀ n ∈ [0, 0, width, height].map Nat.repr, IsNumber n :=
      List.forall_mem_map.mpr fun n _ => isNumber_repr n
    have hvalue := IsValue.numbers hnumbers
    have hfront : "0 0 " = Nat.repr 0 ++ " " ++ Nat.repr 0 ++ " " := by decide
    rw [hfront]
    simpa [String.intercalate_cons_of_ne_nil, String.append_assoc] using hvalue
  simp [openingAttributes, Attribute.isDrawn_iff, attributeNames, IsValue.namespaceName, hviewBox]

theorem isDrawn_backgroundAttributes (canvas : Canvas) : ∀ a ∈ canvas.backgroundAttributes, a.IsDrawn := by
  simp [backgroundAttributes, Attribute.isDrawn_iff, attributeNames, Attribute.ofInt]

/-- The background and the elements. -/
def shapes (canvas : Canvas) : List (String × List Attribute) :=
  ("rect", canvas.backgroundAttributes) ::
    canvas.elements.toList.map fun element => (element.tagName, element.attributes)

theorem document_eq (canvas : Canvas) :
    canvas.document = drawing (openingAttributes canvas.options) canvas.shapes := by
  have helements : canvas.elements.toList.map Element.text =
      (canvas.elements.toList.map fun element => (element.tagName, element.attributes)).map
        fun shape => tagLine shape.1 shape.2 := by
    rw [List.map_map]
    rfl
  rw [document, helements, drawing, shapes, List.map_cons, String.join_cons, ← String.append_assoc]
  rfl

theorem isDrawn_shapes (canvas : Canvas) :
    ∀ shape ∈ canvas.shapes, shape.1 ∈ tagNames ∧ ∀ a ∈ shape.2, a.IsDrawn := by
  refine List.forall_mem_cons.mpr ⟨⟨by simp [tagNames], canvas.isDrawn_backgroundAttributes⟩, ?_⟩
  exact List.forall_mem_map.mpr fun element _ => ⟨element.tagName_mem, element.isDrawn_attributes⟩

theorem isDrawing_document (canvas : Canvas) : IsDrawing canvas.document := by
  have hshapes := canvas.isDrawn_shapes
  refine ⟨_, _, canvas.document_eq, fun shape hshape => (hshapes shape hshape).1, fun a ha => ?_⟩
  have hdrawn : a.IsDrawn := by
    rcases List.mem_append.mp ha with ha | ha
    · exact isDrawn_openingAttributes _ a ha
    · obtain ⟨shape, hshape, ha⟩ := List.mem_flatMap.mp ha
      exact (hshapes shape hshape).2 a ha
  exact ⟨hdrawn.name, hdrawn.value, hdrawn.value.isSafe⟩

end Canvas

end PenPlot.Svg
