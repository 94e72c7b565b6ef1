import PenPlot.Proofs.Places
import PenPlot.Proofs.Tags
import PenPlot.Proofs.TreeRequests

/-!
# The markup of the gallery

The page is made of its own markup, escaped texts and drawings (`Gallery.page_eq`). Its own markup only depends
on how many cards there are and which of them failed (`Gallery.markup_pieces`), and a reader of tags goes over
names, sources and reports as over any other text. So the tags of the page are those of its own markup and of
the elements drawn (`FileTree.scans_page`).
-/

namespace PenPlot

/-! ## Pieces of the page -/

namespace Gallery

open Html

/-- A piece of the page: its own, a text from elsewhere, or a drawing. -/
inductive Piece
  | markup (html : String)
  | text (original : String)
  | drawing (svg : String)

def Piece.html : Piece → String
  | .markup html => html
  | .text original => escape original
  | .drawing svg => svg

def Piece.markup? : Piece → Option String
  | .markup html => some html
  | .text _ | .drawing _ => none

def bodyPieces : Except String String → List Piece
  | .ok svg => [.markup "<div class=\"svg-container\">", .drawing svg, .markup "</div>"]
  | .error report => [.markup "<div class=\"error\">", .text report, .markup "</div>"]

def cardPieces (card : Card) : List Piece :=
  [.markup "\n<div class=\"card\" id=\"", .text card.name, .markup "\">\n",
    .markup "    <div class=\"card-header\">", .text card.name, .markup "</div>\n",
    .markup "    <div class=\"card-body\">\n",
    .markup "        <div class=\"source\">", .text card.source, .markup "</div>\n", .markup "        "] ++
    bodyPieces card.output ++ [.markup "\n", .markup "    </div>\n", .markup "</div>\n"]

def pieces (cards : List Card) : List Piece :=
  [.markup head, .markup (heading cards)] ++ cards.flatMap cardPieces ++
    [.markup "</div>\n</body></html>\n"]

theorem body_eq (card : Card) : card.body = String.join ((bodyPieces card.output).map Piece.html) := by
  obtain ⟨name, source, svg | report⟩ := card <;>
    simp [Card.body, bodyPieces, Piece.html, String.append_assoc]

theorem text_eq (card : Card) : card.text = String.join ((cardPieces card).map Piece.html) := by
  unfold Card.text cardPieces
  rw [body_eq card]
  simp only [List.map_append, List.map_cons, List.map_nil, String.join_append, String.join_cons,
    String.join_nil, Piece.html, String.append_empty, String.append_assoc]

theorem page_eq (cards : List Card) : page cards = String.join ((pieces cards).map Piece.html) := by
  have hcards : String.join (cards.map Card.text) =
      String.join ((cards.flatMap cardPieces).map Piece.html) := by
    induction cards with
    | nil => rfl
    | cons card cards ih =>
      rw [List.map_cons, String.join_cons, List.flatMap_cons, List.map_append, String.join_append, ih,
        text_eq]
  unfold page pieces
  rw [hcards]
  simp only [List.map_append, List.map_cons, List.map_nil, String.join_append, String.join_cons,
    String.join_nil, Piece.html, String.append_empty, String.append_assoc]

theorem drawing_mem_pieces {cards : List Card} {svg : String} (h : .drawing svg ∈ pieces cards) :
    ∃ card ∈ cards, card.output = .ok svg := by
  have hflat : .drawing svg ∈ cards.flatMap cardPieces := by simpa [pieces] using h
  obtain ⟨card, hcard, hpiece⟩ := List.mem_flatMap.mp hflat
  have hbody : .drawing svg ∈ bodyPieces card.output := by simpa [cardPieces] using hpiece
  cases houtput : card.output with
  | ok drawn =>
    rw [houtput] at hbody
    obtain rfl : svg = drawn := by simpa [bodyPieces] using hbody
    exact ⟨card, hcard, houtput⟩
  | error report =>
    rw [houtput] at hbody
    simp [bodyPieces] at hbody

/-- The markup of a card only depends on whether it failed. -/
theorem markup_cardPieces {card card' : Card} (h : card.failed = card'.failed) :
    (cardPieces card).filterMap Piece.markup? = (cardPieces card').filterMap Piece.markup? := by
  obtain ⟨name, source, output⟩ := card
  obtain ⟨name', source', output'⟩ := card'
  cases output <;> cases output' <;> first | rfl | simp [Card.failed] at h

theorem markup_flatMap_cardPieces {cards cards' : List Card}
    (h : cards.map Card.failed = cards'.map Card.failed) :
    (cards.flatMap cardPieces).filterMap Piece.markup? =
      (cards'.flatMap cardPieces).filterMap Piece.markup? := by
  induction cards generalizing cards' with
  | nil => rw [List.map_eq_nil_iff.mp h.symm]
  | cons card cards ih =>
    obtain ⟨card', cards', rfl, hcard, hcards⟩ := List.map_eq_cons_iff.mp h.symm
    rw [List.flatMap_cons, List.flatMap_cons, List.filterMap_append, List.filterMap_append,
      markup_cardPieces hcard, ih hcards.symm]

theorem markup_pieces {cards cards' : List Card} (h : cards.map Card.failed = cards'.map Card.failed) :
    (pieces cards).filterMap Piece.markup? = (pieces cards').filterMap Piece.markup? := by
  have hheading : heading cards = heading cards' := by
    have hlength : cards.length = cards'.length := by simpa using congrArg List.length h
    have hfailed : cards.countP Card.failed = cards'.countP Card.failed := by
      simpa [List.countP_map, Function.comp_def] using congrArg (List.countP id) h
    rw [heading, heading, hlength, hfailed]
  rw [pieces, pieces, hheading]
  simp only [List.filterMap_append, markup_flatMap_cardPieces h]

theorem scans_style : Scans .text style ("<style>" ++ "</style>") .text := by
  have hopen : Scans .text "    <style>\n" "<style>" .text := scans_ofList rfl
  have hclose : Scans .text "    </style>\n" "</style>" .text := scans_ofList rfl
  refine (hopen.skip ?_ |>.skip ?_ |>.skip ?_ |>.skip ?_ |>.skip ?_ |>.skip ?_ |>.skip ?_ |>.skip ?_
    |>.skip ?_).append hclose
  all_goals
    simp only [rule, String.toList_append, List.mem_append, not_or]
    repeat' apply And.intro
    all_goals exact notMem_ofList (by decide)

theorem scans_head : Scans .text head
    ("<!DOCTYPE html><html><head>" ++ "<meta charset=\"\">" ++ "<title></title>" ++
      ("<style>" ++ "</style>") ++ "</head><body><div class=\"\">") .text := by
  have hopen : Scans .text "<!DOCTYPE html>\n<html>\n<head>\n" "<!DOCTYPE html><html><head>" .text :=
    scans_ofList rfl
  have hmeta : Scans .text "    <meta charset=\"UTF-8\">\n" "<meta charset=\"\">" .text := scans_ofList rfl
  have htitle : Scans .text "    <title>penscript gallery</title>\n" "<title></title>" .text :=
    scans_ofList rfl
  have hclose : Scans .text "</head>\n<body>\n<div class=\"page\">\n" "</head><body><div class=\"\">" .text :=
    scans_ofList rfl
  exact (((hopen.append hmeta).append htitle).append scans_style).append hclose

/-- Digits are no tags. -/
theorem scans_heading (cards : List Card) : Scans .text (heading cards) ("<h1>" ++ "</h1>") .text := by
  have hopen : Scans .text "<h1>" "<h1>" .text := scans_ofList rfl
  have hclose : Scans .text " failed</h1>\n" "</h1>" .text := scans_ofList rfl
  have hdigits : ∀ n : Nat, '<' ∉ n.repr.toList := Text.Decimal.notMem_repr (by decide)
  exact (hopen.skip (hdigits _) |>.skip (notMem_ofList (by decide)) |>.skip (hdigits _)).append hclose

/-- The tags of a card, with the elements of its drawing or without one. -/
def cardOutline (drawn : Option (List Svg.Element)) : String :=
  "<div class=\"\" id=\"" ++ "\">" ++ "<div class=\"\">" ++ "</div>" ++ "<div class=\"\">" ++
    "<div class=\"\">" ++ "</div>" ++ ("<div class=\"\">" ++ drawn.elim "" Svg.outline ++ "</div>") ++
    "</div>" ++ "</div>"

/-- The tags of the page, by the elements of its drawings. -/
def outline (drawn : List (Option (List Svg.Element))) : String :=
  "<!DOCTYPE html><html><head>" ++ "<meta charset=\"\">" ++ "<title></title>" ++ ("<style>" ++ "</style>") ++
    "</head><body><div class=\"\">" ++ ("<h1>" ++ "</h1>") ++ String.join (drawn.map cardOutline) ++
    "</div></body></html>"

theorem scans_text {card : Card} {drawn : Option (List Svg.Element)}
    (hbody : Scans .text card.body ("<div class=\"\">" ++ drawn.elim "" Svg.outline ++ "</div>") .text) :
    Scans .text card.text (cardOutline drawn) .text := by
  have hescaped (s : String) := harmless_escape s
  have hid : Scans .text "\n<div class=\"card\" id=\"" "<div class=\"\" id=\"" (.quoted '"') :=
    scans_ofList rfl
  have hidEnd : Scans (.quoted '"') "\">\n" "\">" .text := scans_ofList rfl
  have hheader : Scans .text "    <div class=\"card-header\">" "<div class=\"\">" .text := scans_ofList rfl
  have hend : Scans .text "</div>\n" "</div>" .text := scans_ofList rfl
  have hcardBody : Scans .text "    <div class=\"card-body\">\n" "<div class=\"\">" .text := scans_ofList rfl
  have hsource : Scans .text "        <div class=\"source\">" "<div class=\"\">" .text := scans_ofList rfl
  have hbodyEnd : Scans .text "    </div>\n" "</div>" .text := scans_ofList rfl
  have hname := (hid.append (scans_quoted (hescaped card.name).quote)).append hidEnd
  rw [String.append_empty] at hname
  exact hname.append hheader |>.skip (hescaped card.name).less |>.append hend
    |>.append hcardBody
    |>.append hsource |>.skip (hescaped card.source).less |>.append hend
    |>.skip (notMem_ofList (by decide)) |>.append hbody |>.skip (notMem_ofList (by decide))
    |>.append hbodyEnd |>.append hend

end Gallery

/-! ## The page of a tree -/

namespace FileTree

open Html

variable (tree : FileTree)

/-- What the program at a path draws, if it can be loaded and runs. -/
def drawn? (path : String) : Option (List Svg.Element) :=
  match tree.load path with
  | .error _ => none
  | .ok program =>
    match program.run (Svg.Canvas.new {}) with
    | (.ok _, canvas) => some canvas.elements.toList
    | (.error _, _) => none

theorem drawing_cases (path : String) :
    (∃ canvas : Svg.Canvas, tree.drawing path = .ok canvas.document ∧
      tree.drawn? path = some canvas.elements.toList) ∨
    ∃ report, tree.drawing path = .error report ∧ tree.drawn? path = none := by
  rw [drawn?]
  cases hload : tree.load path with
  | error e =>
    rw [drawing_of_load_error hload]
    exact .inr ⟨_, rfl, rfl⟩
  | ok program =>
    rw [drawing_of_load_ok hload, Program.render]
    dsimp only
    obtain ⟨_ | _, canvas⟩ := program.run (Svg.Canvas.new {})
    · exact .inr ⟨_, rfl, rfl⟩
    · exact .inl ⟨canvas, rfl, rfl⟩

/-- The elements of the drawing on a card, if it has one. -/
def cardElements? (name : String) : Option (List Svg.Element) :=
  tree.drawn? (demos ++ "/" ++ name)

theorem output_cases (name : String) :
    (∃ canvas : Svg.Canvas, (tree.card name).output = .ok canvas.document ∧
      tree.cardElements? name = some canvas.elements.toList) ∨
    ∃ report, (tree.card name).output = .error report ∧ tree.cardElements? name = none := by
  unfold cardElements?
  dsimp only [card]
  obtain ⟨canvas, hdrawing, hdrawn⟩ | ⟨report, hdrawing, hdrawn⟩ :=
    tree.drawing_cases (demos ++ "/" ++ name)
  · exact .inl ⟨canvas, by rw [hdrawing]; rfl, hdrawn⟩
  · exact .inr ⟨report.text, by rw [hdrawing]; rfl, hdrawn⟩

theorem scans_body (name : String) :
    Scans .text (tree.card name).body
      ("<div class=\"\">" ++ (tree.cardElements? name).elim "" Svg.outline ++ "</div>") .text := by
  have hclose : Scans .text "</div>" "</div>" .text := scans_ofList rfl
  unfold Card.body
  obtain ⟨canvas, houtput, hdrawn⟩ | ⟨report, houtput, hdrawn⟩ := tree.output_cases name
  · have hopen : Scans .text "<div class=\"svg-container\">" "<div class=\"\">" .text := scans_ofList rfl
    rw [houtput, hdrawn, Option.elim_some]
    exact (hopen.append (Svg.scans_document canvas)).append hclose
  · have hopen : Scans .text "<div class=\"error\">" "<div class=\"\">" .text := scans_ofList rfl
    rw [houtput, hdrawn, Option.elim_none]
    exact (hopen.append (scans_text (harmless_escape report).less)).append hclose

theorem scans_page :
    Scans .text tree.galleryPage (Gallery.outline (tree.demoFiles.map tree.cardElements?)) .text := by
  have hclose : Scans .text "</div>\n</body></html>\n" "</div></body></html>" .text := scans_ofList rfl
  have hcards : Scans .text (String.join ((tree.demoFiles.map tree.card).map Card.text))
      (String.join ((tree.demoFiles.map tree.cardElements?).map Gallery.cardOutline)) .text := by
    rw [List.map_map, List.map_map]
    exact Scans.join fun name _ => Gallery.scans_text (tree.scans_body name)
  exact ((Gallery.scans_head.append (Gallery.scans_heading _)).append hcards).append hclose

theorem node?_gallery (rest : List String) (place : Place) :
    let after := ((commandLine ("gallery" :: rest) : StateM FileTree _).run tree).2
    after.node? place = tree.node? place ∨
      after.node? place = some (.file tree.galleryPage.toUTF8) := by
  intro after
  cases hlist : tree.list demos with
  | error e =>
    have hafter : after = tree := run_gallery_of_error hlist rest
    exact .inl (by rw [hafter])
  | ok names =>
    have hafter := congrArg Prod.snd (run_gallery_of_list hlist rest)
    cases hwrite : tree.write galleryPath tree.galleryPage.toUTF8 with
    | error e =>
      rw [run_writeOutput_error hwrite] at hafter
      exact .inl (congrArg (node? · place) hafter)
    | ok written =>
      rw [run_writeOutput_ok hwrite] at hafter
      obtain ⟨there, -, hthere, helsewhere⟩ := node?_of_write hwrite
      have hnode : after.node? place = written.node? place := congrArg (node? · place) hafter
      rw [hnode]
      by_cases hplace : place = there
      · rw [hplace]
        exact .inr hthere
      · exact .inl (helsewhere place hplace)

/-- Nothing that demos hold becomes markup of the gallery. -/
theorem gallery_markup (tree : FileTree) :
    let cards := tree.demoFiles.map tree.card
    (∀ (rest : List String) (place : Place),
      let after := ((commandLine ("gallery" :: rest) : StateM FileTree _).run tree).2
      after.node? place = tree.node? place ∨
        after.node? place = some (.file tree.galleryPage.toUTF8)) ∧
    tree.galleryPage = String.join ((Gallery.pieces cards).map Gallery.Piece.html) ∧
    (∀ original, .text original ∈ Gallery.pieces cards →
      Harmless (escape original) ∧ unescape (escape original) = original) ∧
    (∀ svg, .drawing svg ∈ Gallery.pieces cards → Svg.IsDrawing svg) ∧
    (∀ others : List Card, others.map Card.failed = cards.map Card.failed →
      (Gallery.pieces others).filterMap Gallery.Piece.markup? =
        (Gallery.pieces cards).filterMap Gallery.Piece.markup?) ∧
    tags tree.galleryPage = Gallery.outline (tree.demoFiles.map tree.cardElements?) := by
  intro cards
  refine ⟨tree.node?_gallery, Gallery.page_eq _, fun original _ => ⟨harmless_escape _, unescape_escape _⟩,
    fun svg hsvg => ?_, fun others h => Gallery.markup_pieces h, ?_⟩
  · obtain ⟨card, hcard, houtput⟩ := Gallery.drawing_mem_pieces hsvg
    obtain ⟨name, -, rfl⟩ := List.mem_map.mp hcard
    obtain ⟨canvas, hdocument, -⟩ | ⟨report, hreport, -⟩ := tree.output_cases name
    · rw [houtput] at hdocument
      rw [Except.ok.inj hdocument]
      exact canvas.isDrawing_document
    · rw [houtput] at hreport
      cases hreport
  · have hscan : scan .text tree.galleryPage.toList = _ := tree.scans_page
    rw [tags, hscan, String.ofList_toList]

end FileTree

end PenPlot
