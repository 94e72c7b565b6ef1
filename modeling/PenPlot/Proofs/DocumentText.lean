import PenPlot.Proofs.Markup
import PenPlot.Proofs.Numerals

/-!
# What a document tells

The lines of a document are the opening tag, the background, the elements and the closing tag
(`Canvas.toList_document`). The background tells the size and its own color (`Canvas.background_injective`),
and the tag of an element tells its kind, its numbers and its paint (`Element.markup_injective`). For the
numbers of ellipses this takes that they have at most 53 bits, an invariant of drawing (`Canvas.Fits`). So two
documents are the same only if everything that they show is (`Canvas.document_eq_iff`).
-/

namespace PenPlot.Svg

open Text Text.Decimal

/-! ## Values without quotes and line feeds -/

@[simp] theorem isPlain_repr (n : Nat) : IsPlain n.repr :=
  ⟨notMem_repr (by decide) n, notMem_repr (by decide) n⟩

@[simp] theorem isPlain_ofInt (i : Int) : IsPlain (ofInt i) :=
  ⟨notMem_ofInt (by decide) i, notMem_ofInt (by decide) i⟩

@[simp] theorem isPlain_color (color : Color) : IsPlain color.text := by
  simp +decide [Color.text]

@[simp] theorem Half.isPlain_text (h : Half) : IsPlain h.text := by
  have hdigits : IsPlain (digits h.twice.natAbs) :=
    ⟨notMem_digits (by decide) (by decide) _, notMem_digits (by decide) (by decide) _⟩
  rw [text_eq]
  split
  · exact isPlain_append.mpr ⟨by decide, hdigits⟩
  · exact hdigits

@[simp] theorem Pixel.isPlain_text (p : Pixel) : IsPlain p.text := by
  simp +decide [Pixel.text]

@[simp] theorem Pixel.isPlain_intercalate_text (ps : List Pixel) :
    IsPlain (" ".intercalate (ps.map Pixel.text)) := by
  refine isPlain_intercalate (by decide) fun word hword => ?_
  obtain ⟨p, -, rfl⟩ := List.mem_map.mp hword
  exact p.isPlain_text

/-! ## Paints -/

/-- A fill and an outline have different numbers of attributes. -/
theorem paintNames_eq {p q : Paint}
    (h : (paintAttributes p).length = (paintAttributes q).length) :
    (paintAttributes p).map Attribute.name = (paintAttributes q).map Attribute.name := by
  cases p <;> cases q <;> first | rfl | simp [paintAttributes] at h

theorem paintAttributes_injective {p q : Paint} (h : paintAttributes p = paintAttributes q) :
    p = q := by
  cases p with
  | fill color =>
    cases q with
    | fill color' =>
      have hcolor : color.text = color'.text := by simpa [paintAttributes] using h
      rw [Color.text_injective hcolor]
    | stroke => simp [paintAttributes] at h
  | stroke color =>
    cases q with
    | fill => simp [paintAttributes] at h
    | stroke color' =>
      have hcolor : color.text = color'.text := by simpa [paintAttributes] using h
      rw [Color.text_injective hcolor]

/-! ## Elements -/

namespace Element

/-- The attributes of an element, in the order in which they are made. -/
def attributes (element : Element) : List Attribute :=
  element.shapeAttributes ++ paintAttributes element.paint

/-- The tag of an element, without its line feed. -/
def markup (element : Element) : String :=
  tag element.tagName element.attributes

theorem text_eq (element : Element) : element.text = element.markup ++ "\n" :=
  tagLine_eq _ _

theorem isAlpha_tagName (element : Element) : element.tagName.toList.all Char.isAlpha = true := by
  cases element
  all_goals
    rw [tagName]
    decide

theorem legible_attributes (element : Element) : ∀ a ∈ element.attributes, a.Legible := by
  obtain ⟨color, -, -⟩ | ⟨⟨color⟩ | ⟨color⟩, -, -, -⟩ | ⟨⟨color⟩ | ⟨color⟩, -, -, -, -⟩ |
    ⟨⟨color⟩ | ⟨color⟩, -⟩ := element
  all_goals
    simp +decide [attributes, shapeAttributes, paint, paintAttributes, Attribute.ofInt,
      Attribute.legible_iff]

theorem nodup_attributes (element : Element) : (element.attributes.map Attribute.name).Nodup := by
  obtain ⟨color, -, -⟩ | ⟨⟨color⟩ | ⟨color⟩, -, -, -⟩ | ⟨⟨color⟩ | ⟨color⟩, -, -, -, -⟩ |
    ⟨⟨color⟩ | ⟨color⟩, -⟩ := element
  all_goals simp [attributes, shapeAttributes, paint, paintAttributes, Attribute.ofInt]

theorem newline_notMem_markup (element : Element) : '\n' ∉ element.markup.toList :=
  newline_notMem_tag element.isAlpha_tagName element.legible_attributes

theorem shapeNames_eq {a b : Element} (h : a.tagName = b.tagName) :
    a.shapeAttributes.map Attribute.name = b.shapeAttributes.map Attribute.name := by
  cases a <;> cases b <;> first | rfl | simp [tagName] at h

theorem length_shapeAttributes_eq {a b : Element} (h : a.tagName = b.tagName) :
    a.shapeAttributes.length = b.shapeAttributes.length := by
  simpa using congrArg List.length (shapeNames_eq h)

/-- What has the same kind and equally many attributes has the same names of attributes. -/
theorem names_eq {a b : Element} (hkind : a.tagName = b.tagName)
    (hlen : a.attributes.length = b.attributes.length) :
    a.attributes.map Attribute.name = b.attributes.map Attribute.name := by
  rw [attributes, attributes, List.length_append, List.length_append,
    length_shapeAttributes_eq hkind] at hlen
  rw [attributes, attributes, List.map_append, List.map_append, shapeNames_eq hkind,
    paintNames_eq (Nat.add_left_cancel hlen)]

/-- The numbers of an ellipse have at most 53 significant bits. -/
def Fits : Element → Prop
  | .ellipse _ centerX centerY radiusX radiusY =>
    centerX.Fits ∧ centerY.Fits ∧ radiusX.Fits ∧ radiusY.Fits
  | .line .. | .rect .. | .polygon .. => True

/-- Elements of one kind are told by their attributes. -/
theorem attributes_injective {a b : Element} (ha : a.Fits) (hb : b.Fits)
    (hkind : a.tagName = b.tagName) (h : a.attributes = b.attributes) : a = b := by
  -- the attributes of the paint begin at the same place
  obtain ⟨hshape, hpaints⟩ := List.append_inj h (length_shapeAttributes_eq hkind)
  have hpaint : a.paint = b.paint := paintAttributes_injective hpaints
  cases a with
  | line color start finish =>
    cases b with
    | line color' start' finish' =>
      simp only [shapeAttributes, Attribute.ofInt, List.cons.injEq, Attribute.mk.injEq, true_and,
        and_true] at hshape
      obtain ⟨hx1, hy1, hx2, hy2⟩ := hshape
      obtain rfl : color = color' := Paint.stroke.inj hpaint
      obtain rfl : start = start' := Pixel.ext (ofInt_injective hx1) (ofInt_injective hy1)
      obtain rfl : finish = finish' := Pixel.ext (ofInt_injective hx2) (ofInt_injective hy2)
      rfl
    | rect | ellipse | polygon => simp [tagName] at hkind
  | rect p origin width height =>
    cases b with
    | rect p' origin' width' height' =>
      simp only [shapeAttributes, Attribute.ofInt, List.cons.injEq, Attribute.mk.injEq, true_and,
        and_true] at hshape
      obtain ⟨hx, hy, hwidth, hheight⟩ := hshape
      obtain rfl : p = p' := hpaint
      obtain rfl : origin = origin' := Pixel.ext (ofInt_injective hx) (ofInt_injective hy)
      obtain rfl : width = width' := ofInt_injective hwidth
      obtain rfl : height = height' := ofInt_injective hheight
      rfl
    | line | ellipse | polygon => simp [tagName] at hkind
  | ellipse p centerX centerY radiusX radiusY =>
    cases b with
    | ellipse p' centerX' centerY' radiusX' radiusY' =>
      simp only [shapeAttributes, List.cons.injEq, Attribute.mk.injEq, true_and, and_true] at hshape
      obtain ⟨hcx, hcy, hrx, hry⟩ := hshape
      obtain rfl : p = p' := hpaint
      obtain rfl : centerX = centerX' := Half.text_injective ha.1 hb.1 hcx
      obtain rfl : centerY = centerY' := Half.text_injective ha.2.1 hb.2.1 hcy
      obtain rfl : radiusX = radiusX' := Half.text_injective ha.2.2.1 hb.2.2.1 hrx
      obtain rfl : radiusY = radiusY' := Half.text_injective ha.2.2.2 hb.2.2.2 hry
      rfl
    | line | rect | polygon => simp [tagName] at hkind
  | polygon p points =>
    cases b with
    | polygon p' points' =>
      simp only [shapeAttributes, List.cons.injEq, Attribute.mk.injEq, true_and, and_true] at hshape
      obtain rfl : p = p' := hpaint
      obtain rfl : points = points' := Pixel.intercalate_text_injective hshape
      rfl
    | line | rect | ellipse => simp [tagName] at hkind

/-- The tag of an element tells everything about it. -/
theorem markup_injective {a b : Element} (ha : a.Fits) (hb : b.Fits) (h : a.markup = b.markup) :
    a = b := by
  obtain ⟨hkind, hperm⟩ := tag_injective a.isAlpha_tagName b.isAlpha_tagName a.legible_attributes
    b.legible_attributes h
  have hattributes := Attribute.eq_of_perm hperm (names_eq hkind hperm.length_eq) b.nodup_attributes
  exact attributes_injective ha hb hkind hattributes

theorem map_markup_injective {as bs : List Element} (ha : ∀ e ∈ as, e.Fits) (hb : ∀ e ∈ bs, e.Fits)
    (h : as.map markup = bs.map markup) : as = bs := by
  have hlen : as.length = bs.length := by simpa using congrArg List.length h
  refine List.ext_getElem hlen fun i hi hi' => ?_
  have hmarkup := List.getElem_of_eq h ((List.length_map _).symm ▸ hi)
  rw [List.getElem_map, List.getElem_map] at hmarkup
  exact markup_injective (ha _ (List.getElem_mem hi)) (hb _ (List.getElem_mem hi')) hmarkup

theorem fits_inscribed (paint : Paint) (origin : Pixel) {width height : Int}
    (hwidth : width.natAbs < 2 ^ 53) (hheight : height.natAbs < 2 ^ 53) :
    (inscribed paint origin width height).Fits :=
  ⟨Half.fits_add _ _, Half.fits_add _ _, Half.fits_of_lt hwidth, Half.fits_of_lt hheight⟩

end Element

namespace Canvas

/-! ## Drawing -/

/-- The numbers of all ellipses have at most 53 significant bits. -/
def Fits (canvas : Canvas) : Prop :=
  ∀ element ∈ canvas.elements.toList, element.Fits

section Drawing

variable {canvas : Canvas}

theorem fits_new (options : Options) : (new options).Fits := by
  simp [Fits, new]

theorem Fits.add {element : Element} (h : canvas.Fits) (helement : element.Fits) :
    (canvas.add element).Fits := by
  intro e he
  rw [elements_add, List.mem_append, List.mem_singleton] at he
  rcases he with he | rfl
  · exact h e he
  · exact helement

theorem Fits.addBox {size : Size} {shape : (width height : Int) → Element} (h : canvas.Fits)
    (hshape : (shape size.width.toInt size.height.toInt).Fits) : (canvas.addBox size shape).Fits := by
  unfold Canvas.addBox
  split
  · exact h
  · exact h.add hshape

theorem Fits.draw (h : canvas.Fits) (call : Call) : (Surface.draw canvas call).Fits := by
  cases call with
  | resetTransform => exact h
  | translate offset => exact h
  | clear color => simp [Fits, Surface.draw, Canvas.draw]
  | line color start finish => exact h.add trivial
  | rect paint origin size => exact h.addBox trivial
  | ellipse paint origin size =>
    -- radii are half of a size of 32 bits, and centers are rounded
    have hsmall : ∀ i : Int32, i.toInt.natAbs < 2 ^ 53 := by
      intro i
      have hle := i.le_toInt
      have hlt := i.toInt_lt
      omega
    exact h.addBox (Element.fits_inscribed _ _ (hsmall _) (hsmall _))
  | polygon paint points => exact h.add trivial

theorem Fits.drawAll (h : canvas.Fits) (calls : List Call) : (Surface.drawAll canvas calls).Fits := by
  induction calls generalizing canvas with
  | nil => exact h
  | cons call calls ih => exact ih (h.draw call)

end Drawing

/-! ## Lines -/

/-- The attributes of the opening tag. -/
def openingAttributes (options : Options) : List Attribute :=
  [⟨"xmlns", "http://www.w3.org/2000/svg"⟩, ⟨"width", options.width.toNat.repr⟩,
    ⟨"height", options.height.toNat.repr⟩,
    ⟨"viewBox", "0 0 " ++ options.width.toNat.repr ++ " " ++ options.height.toNat.repr⟩]

def backgroundAttributes (canvas : Canvas) : List Attribute :=
  [.ofInt "x" 0, .ofInt "y" 0, ⟨"width", canvas.options.width.toNat.repr⟩,
    ⟨"height", canvas.options.height.toNat.repr⟩, ⟨"fill", canvas.background.text⟩]

/-- The lines of the document, without their line feeds. -/
def lines (canvas : Canvas) : List String :=
  ("<svg" ++ Attribute.texts (openingAttributes canvas.options) ++ ">") ::
    tag "rect" canvas.backgroundAttributes ::
      (canvas.elements.toList.map Element.markup ++ ["</svg>"])

theorem toList_document (canvas : Canvas) :
    canvas.document.toList = joinLines (canvas.lines.map String.toList) := by
  have hopening : openingTag canvas.options =
      "<svg" ++ Attribute.texts (openingAttributes canvas.options) ++ ">" ++ "\n" := by
    have hend : ">\n" = ">" ++ "\n" := by decide
    rw [openingTag, openingAttributes, hend, ← String.append_assoc]
  have hbackground : canvas.backgroundText = tag "rect" canvas.backgroundAttributes ++ "\n" :=
    tagLine_eq _ _
  have helements : (String.join (canvas.elements.toList.map Element.text)).toList =
      joinLines ((canvas.elements.toList.map Element.markup).map String.toList) := by
    simp [joinLines, List.flatMap_map, Element.text_eq]
  rw [document, hopening, hbackground, String.toList_append, String.toList_append, helements]
  simp [lines, joinLines]

theorem legible_openingAttributes (options : Options) :
    ∀ a ∈ openingAttributes options, a.Legible := by
  simp +decide [openingAttributes, Attribute.legible_iff]

theorem legible_backgroundAttributes (canvas : Canvas) :
    ∀ a ∈ canvas.backgroundAttributes, a.Legible := by
  simp +decide [backgroundAttributes, Attribute.ofInt, Attribute.legible_iff]

theorem newline_notMem_lines (canvas : Canvas) : ∀ line ∈ canvas.lines, '\n' ∉ line.toList := by
  have hopening := Attribute.newline_notMem_texts (legible_openingAttributes canvas.options)
  intro line hline
  simp only [lines, List.mem_cons, List.mem_append, List.mem_map, List.not_mem_nil, or_false] at hline
  rcases hline with rfl | rfl | ⟨element, -, rfl⟩ | rfl
  · simp [hopening]
  · exact newline_notMem_tag (by decide) canvas.legible_backgroundAttributes
  · exact element.newline_notMem_markup
  · decide

/-- The background tells the size and its color. -/
theorem background_injective {a b : Canvas}
    (h : tag "rect" a.backgroundAttributes = tag "rect" b.backgroundAttributes) :
    a.options.width = b.options.width ∧ a.options.height = b.options.height ∧
      a.background = b.background := by
  obtain ⟨-, hperm⟩ := tag_injective (by decide) (by decide) a.legible_backgroundAttributes
    b.legible_backgroundAttributes h
  have hnodup : (b.backgroundAttributes.map Attribute.name).Nodup := by
    simp [backgroundAttributes, Attribute.ofInt]
  have heq := Attribute.eq_of_perm hperm rfl hnodup
  simp only [backgroundAttributes, List.cons.injEq, Attribute.mk.injEq, true_and, and_true] at heq
  obtain ⟨hwidth, hheight, hcolor⟩ := heq
  exact ⟨UInt32.toNat_inj.mp (repr_injective hwidth), UInt32.toNat_inj.mp (repr_injective hheight),
    Color.text_injective hcolor⟩

theorem lines_injective {a b : Canvas} (ha : a.Fits) (hb : b.Fits) (h : a.lines = b.lines) :
    a.options.width = b.options.width ∧ a.options.height = b.options.height ∧
      a.background = b.background ∧ a.elements = b.elements := by
  rw [lines, lines, List.cons.injEq, List.cons.injEq] at h
  obtain ⟨-, hbackground, hrest⟩ := h
  obtain ⟨hwidth, hheight, hcolor⟩ := background_injective hbackground
  have helements := Element.map_markup_injective ha hb (List.append_cancel_right hrest)
  exact ⟨hwidth, hheight, hcolor, Array.toList_inj.mp helements⟩

/-- **A document loses nothing.** Whatever was drawn on two canvases, their documents are the same exactly if
size, background and elements are, in the same order and with all of their numbers and colors. -/
theorem document_eq_iff (options options' : Options) (calls calls' : List Call) :
    let canvas := Surface.drawAll (new options) calls
    let canvas' := Surface.drawAll (new options') calls'
    canvas.document = canvas'.document ↔
      canvas.options.width = canvas'.options.width ∧
        canvas.options.height = canvas'.options.height ∧
        canvas.background = canvas'.background ∧ canvas.elements = canvas'.elements := by
  intro canvas canvas'
  constructor
  · intro h
    have hjoined := congrArg String.toList h
    rw [toList_document, toList_document] at hjoined
    have hlines := joinLines_injective (List.forall_mem_map.mpr canvas.newline_notMem_lines)
      (List.forall_mem_map.mpr canvas'.newline_notMem_lines) hjoined
    have hinj := (List.map_inj_right fun _ _ => String.toList_inj.mp).mp hlines
    exact lines_injective ((fits_new options).drawAll calls) ((fits_new options').drawAll calls') hinj
  · rintro ⟨hwidth, hheight, hbackground, helements⟩
    simp only [document, openingTag, backgroundText, hwidth, hheight, hbackground, helements]

end Canvas

end PenPlot.Svg
