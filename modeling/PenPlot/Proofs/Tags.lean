import PenPlot.Proofs.DrawnValues

/-!
# Reading tags

A reader of a page is in text, in a tag or between the quotes of a value, and only certain characters lead from
one mode to another (`Html.scan`). Texts without them are read over in their mode (`scans_text`,
`scans_quoted`), so of a tag all is seen but the values of its attributes, provided that there are no quotes in
these. That holds for the tags of a document: it shows the names of its elements and attributes, whatever the
numbers and colors are (`Svg.scans_document`).
-/

namespace PenPlot

namespace Html

/-! ## Modes -/

inductive Mode
  | text
  | tag
  | quoted (quote : Char)
deriving DecidableEq

namespace Mode

def next : Mode → Char → Mode
  | .text, c => if c = '<' then .tag else .text
  | .tag, c => if c = '>' then .text else if c = '"' ∨ c = '\'' then .quoted c else .tag
  | .quoted quote, c => if c = quote then .tag else .quoted quote

/-- The character belongs to a tag, and is not between quotes. -/
def shows : Mode → Char → Bool
  | .text, c => c == '<'
  | .tag, _ => true
  | .quoted quote, c => c == quote

end Mode

/-- The tags that are read from a mode on, with nothing between their quotes, and the mode in the end. -/
def scan : Mode → List Char → List Char × Mode
  | mode, [] => ([], mode)
  | mode, c :: cs =>
    let rest := scan (mode.next c) cs
    (if mode.shows c then c :: rest.1 else rest.1, rest.2)

/-- The tags of a page, one behind the other. -/
def tags (page : String) : String :=
  String.ofList (scan .text page.toList).1

/-- Reading `s` shows `out` and leads from one mode to another. -/
def Scans (mode : Mode) (s out : String) (mode' : Mode) : Prop :=
  scan mode s.toList = (out.toList, mode')

instance (mode mode' : Mode) (s out : String) : Decidable (Scans mode s out mode') :=
  inferInstanceAs (Decidable (_ = _))

theorem scan_append (mode : Mode) (cs ds : List Char) :
    scan mode (cs ++ ds) =
      ((scan mode cs).1 ++ (scan (scan mode cs).2 ds).1, (scan (scan mode cs).2 ds).2) := by
  induction cs generalizing mode with
  | nil => rfl
  | cons c cs ih =>
    rw [List.cons_append, scan, ih, scan]
    dsimp only
    split <;> rfl

theorem scans_ofList {mode mode' : Mode} {cs out : List Char} (h : scan mode cs = (out, mode')) :
    Scans mode (String.ofList cs) (String.ofList out) mode' := by
  rwa [Scans, String.toList_ofList, String.toList_ofList]

theorem notMem_ofList {c : Char} {cs : List Char} (h : c ∉ cs) : c ∉ (String.ofList cs).toList := by
  rwa [String.toList_ofList]

section Scans

variable {mode mode' mode'' : Mode} {s t out out' : String}

theorem Scans.append (hs : Scans mode s out mode') (ht : Scans mode' t out' mode'') :
    Scans mode (s ++ t) (out ++ out') mode'' := by
  unfold Scans at *
  rw [String.toList_append, scan_append, hs, ht, String.toList_append]

theorem Scans.join {α : Type} {f g : α → String} {as : List α}
    (h : ∀ a ∈ as, Scans mode (f a) (g a) mode) :
    Scans mode (String.join (as.map f)) (String.join (as.map g)) mode := by
  induction as with
  | nil => rfl
  | cons a as ih =>
    obtain ⟨ha, has⟩ := List.forall_mem_cons.mp h
    rw [List.map_cons, List.map_cons, String.join_cons, String.join_cons]
    exact ha.append (ih has)

theorem scan_of_next {cs : List Char} (h : ∀ c ∈ cs, mode.next c = mode) :
    scan mode cs = (cs.filter mode.shows, mode) := by
  induction cs with
  | nil => rfl
  | cons c cs ih =>
    obtain ⟨hc, hcs⟩ := List.forall_mem_cons.mp h
    rw [scan, hc, ih hcs, List.filter_cons]

theorem scans_text (h : '<' ∉ s.toList) : Scans .text s "" .text := by
  have hne : ∀ c ∈ s.toList, c ≠ '<' := fun c hc heq => h (heq ▸ hc)
  have hscan : scan .text s.toList = _ := scan_of_next fun c hc => if_neg (hne c hc)
  rwa [List.filter_eq_nil_iff.mpr fun c hc => by simp [Mode.shows, hne c hc]] at hscan

/-- Text without tags is read over. -/
theorem Scans.skip (hs : Scans mode s out .text) (ht : '<' ∉ t.toList) : Scans mode (s ++ t) out .text := by
  simpa using hs.append (scans_text ht)

theorem scans_quoted {quote : Char} (h : quote ∉ s.toList) :
    Scans (.quoted quote) s "" (.quoted quote) := by
  have hne : ∀ c ∈ s.toList, c ≠ quote := fun c hc heq => h (heq ▸ hc)
  have hscan : scan (.quoted quote) s.toList = _ := scan_of_next fun c hc => if_neg (hne c hc)
  rwa [List.filter_eq_nil_iff.mpr fun c hc => by simp [Mode.shows, hne c hc]] at hscan

theorem scans_tag (h : ∀ mark ∈ ['>', '"', '\''], mark ∉ s.toList) : Scans .tag s s .tag := by
  have hnext : ∀ c ∈ s.toList, Mode.tag.next c = .tag := by
    intro c hc
    have hne : ∀ mark ∈ ['>', '"', '\''], c ≠ mark := fun mark hmark heq => h mark hmark (heq ▸ hc)
    rw [Mode.next, if_neg (hne _ (by decide)), if_neg]
    exact not_or.mpr ⟨hne _ (by decide), hne _ (by decide)⟩
  have hall : s.toList.filter Mode.tag.shows = s.toList := List.filter_eq_self.mpr fun _ _ => rfl
  have hscan := scan_of_next hnext
  rwa [hall] at hscan

end Scans

end Html

/-! ## Drawings -/

namespace Svg

open Html

/-- An attribute without its value. -/
def Attribute.hollow (a : Attribute) : Attribute :=
  ⟨a.name, ""⟩

theorem Attribute.sort_map_hollow (as : List Attribute) :
    sort (as.map hollow) = (sort as).map hollow := by
  have hinsert : ∀ (a : Attribute) (as : List Attribute),
      insert a.hollow (as.map hollow) = (insert a as).map hollow := by
    intro a as
    induction as with
    | nil => rfl
    | cons b as ih =>
      rw [List.map_cons, insert, insert, ih, apply_ite (List.map hollow)]
      rfl
  induction as with
  | nil => rfl
  | cons a as ih =>
    have hsort : ∀ (a : Attribute) (as : List Attribute), sort (a :: as) = insert a (sort as) :=
      fun _ _ => rfl
    rw [List.map_cons, hsort, hsort, ih, hinsert]

theorem Attribute.IsDrawn.scans {a : Attribute} (h : a.IsDrawn) : Scans .tag a.text a.hollow.text .tag := by
  have hnames : ∀ name ∈ attributeNames, ∀ mark ∈ ['>', '"', '\''], mark ∉ name.toList := by
    simp [attributeNames]
  have hvalue : '"' ∉ a.value.toList := fun hmem => (h.value.isSafe '"' hmem).2.2.2 rfl
  have hfront : Scans .tag " " " " .tag := scans_ofList rfl
  have hopen : Scans .tag "=\"" "=\"" (.quoted '"') := scans_ofList rfl
  have hclose : Scans (.quoted '"') "\"" "\"" .tag := scans_ofList rfl
  have hname := hfront.append (scans_tag (hnames _ h.name))
  exact ((hname.append hopen).append (scans_quoted hvalue)).append hclose

theorem Attribute.scans_texts {as : List Attribute} (h : ∀ a ∈ as, a.IsDrawn) :
    Scans .tag (texts as) (texts (as.map hollow)) .tag := by
  rw [texts, texts, sort_map_hollow, List.map_map]
  exact Scans.join fun a ha => (h a ((sort_perm as).mem_iff.mp ha)).scans

theorem scans_tagLine {name : String} {as : List Attribute} (hname : name ∈ tagNames)
    (h : ∀ a ∈ as, a.IsDrawn) :
    Scans .text (tagLine name as) (tag name (as.map Attribute.hollow)) .text := by
  have hnames : ∀ name ∈ tagNames, ∀ mark ∈ ['>', '"', '\''], mark ∉ name.toList := by simp [tagNames]
  have hopen : Scans .text "<" "<" .tag := scans_ofList rfl
  have hclose : Scans .tag "/>\n" "/>" .text := scans_ofList rfl
  exact ((hopen.append (scans_tag (hnames _ hname))).append (Attribute.scans_texts h)).append hclose

def Element.outline (element : Element) : String :=
  tag element.tagName (element.attributes.map Attribute.hollow)

/-- The tags of a document with these elements. -/
def outline (elements : List Element) : String :=
  "<svg height=\"\" viewBox=\"\" width=\"\" xmlns=\"\">" ++
    "<rect fill=\"\" height=\"\" width=\"\" x=\"\" y=\"\"/>" ++
    String.join (elements.map Element.outline) ++ "</svg>"

theorem scans_openingTag (options : Options) :
    Scans .text (Canvas.openingTag options) "<svg height=\"\" viewBox=\"\" width=\"\" xmlns=\"\">" .text := by
  have hopen : Scans .text "<svg" "<svg" .tag := scans_ofList rfl
  have hclose : Scans .tag ">\n" ">" .text := scans_ofList rfl
  have hroot := Attribute.scans_texts (Canvas.isDrawn_openingAttributes options)
  have hhollow : (Canvas.openingAttributes options).map Attribute.hollow =
      [⟨"xmlns", ""⟩, ⟨"width", ""⟩, ⟨"height", ""⟩, ⟨"viewBox", ""⟩] := rfl
  have hout : "<svg height=\"\" viewBox=\"\" width=\"\" xmlns=\"\">" =
      "<svg" ++ Attribute.texts ((Canvas.openingAttributes options).map Attribute.hollow) ++ ">" := by
    rw [hhollow]
    decide
  rw [hout]
  exact (hopen.append hroot).append hclose

theorem scans_backgroundText (canvas : Canvas) :
    Scans .text canvas.backgroundText "<rect fill=\"\" height=\"\" width=\"\" x=\"\" y=\"\"/>" .text := by
  have hhollow : canvas.backgroundAttributes.map Attribute.hollow =
      [⟨"x", ""⟩, ⟨"y", ""⟩, ⟨"width", ""⟩, ⟨"height", ""⟩, ⟨"fill", ""⟩] := rfl
  have hout : "<rect fill=\"\" height=\"\" width=\"\" x=\"\" y=\"\"/>" =
      tag "rect" (canvas.backgroundAttributes.map Attribute.hollow) := by
    rw [hhollow]
    decide
  rw [hout]
  exact scans_tagLine (by simp [tagNames]) canvas.isDrawn_backgroundAttributes

theorem scans_document (canvas : Canvas) :
    Scans .text canvas.document (outline canvas.elements.toList) .text := by
  have hclose : Scans .text "</svg>\n" "</svg>" .text := scans_ofList rfl
  have helements : Scans .text (String.join (canvas.elements.toList.map Element.text))
      (String.join (canvas.elements.toList.map Element.outline)) .text :=
    Scans.join fun element _ => scans_tagLine element.tagName_mem element.isDrawn_attributes
  exact (((scans_openingTag _).append (scans_backgroundText canvas)).append helements).append hclose

end Svg

end PenPlot
