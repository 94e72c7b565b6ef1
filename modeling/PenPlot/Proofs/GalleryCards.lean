import Mathlib.Data.List.Sort
import PenPlot.Proofs.Demos
import PenPlot.Proofs.Escaping
import PenPlot.Proofs.RenderedFile

/-!
# The cards of the gallery

Every demo has one card, in the order of the bytes of its name, and the card shows what a request to render the
demo would write or report (`FileTree.IsCardOf`). It is made of nothing but what is found at the path of the
demo (`FileTree.card_congr`), so whatever happens to one demo, the cards of the others stay as they are
(`FileTree.cards_around`).
-/

namespace PenPlot

open Html

/-! ## Sorted lists -/

section Sorted

variable {names : List String}

/-- A name stands between those before and those behind it. -/
theorem eq_filter_append (h : names.Pairwise (· < ·)) (name : String) :
    names = names.filter (· < name) ++ (names.filter (· = name) ++ names.filter (name < ·)) := by
  have hbefore : ∀ a ∈ names.filter (· < name), a < name := fun a ha => by
    simpa using (List.mem_filter.mp ha).2
  have hmiddle : ∀ a ∈ names.filter (· = name), a = name := fun a ha => by
    simpa using (List.mem_filter.mp ha).2
  have hbehind : ∀ a ∈ names.filter (name < ·), name < a := fun a ha => by
    simpa using (List.mem_filter.mp ha).2
  refine h.eq_of_mem_iff ?_ fun other => ?_
  · refine List.pairwise_append.mpr ⟨h.filter _, List.pairwise_append.mpr ⟨h.filter _, h.filter _, ?_⟩, ?_⟩
    · intro a ha b hb
      rw [hmiddle a ha]
      exact hbehind b hb
    · intro a ha b hb
      rcases List.mem_append.mp hb with hb | hb
      · rw [hmiddle b hb]
        exact hbefore a ha
      · exact String.lt_trans (hbefore a ha) (hbehind b hb)
  · have hcases : other < name ∨ other = name ∨ name < other := by
      by_cases hlt : other < name
      · exact .inl hlt
      · by_cases hgt : name < other
        · exact .inr (.inr hgt)
        · exact .inr (.inl (String.le_antisymm (String.not_lt.mp hgt) (String.not_lt.mp hlt)))
    simp only [List.mem_append, List.mem_filter, decide_eq_true_eq]
    tauto

theorem map_filter_eq {α : Type} (h : names.Pairwise (· < ·)) (name : String) (f : String → α) :
    (names.filter (· = name)).map f = if name ∈ names then [f name] else [] := by
  rw [List.filter_eq, List.Nodup.count (h.imp String.ne_of_lt), List.map_replicate]
  split <;> rfl

end Sorted

/-- Lists that differ in one entry only, and do so at their heads, have the same tail. -/
theorem tail_eq_of_head_ne {α : Type} {a b : α} {as bs before behind : List α}
    (ha : a :: as = before ++ a :: behind) (hb : b :: bs = before ++ b :: behind) (hne : a ≠ b) : as = bs := by
  cases before with
  | nil => exact (List.cons.inj ha).2.trans (List.cons.inj hb).2.symm
  | cons c before => exact absurd ((List.cons.inj ha).1.trans (List.cons.inj hb).1.symm) hne

namespace FileTree

/-! ## A card and a request to render -/

/-- The HTML of a card, by what is filled in. -/
def cardHtml (name source body : String) : String :=
  "\n<div class=\"card\" id=\"" ++ name ++ "\">\n"
    ++ "    <div class=\"card-header\">" ++ name ++ "</div>\n"
    ++ "    <div class=\"card-body\">\n"
    ++ "        <div class=\"source\">" ++ source ++ "</div>\n"
    ++ "        " ++ body ++ "\n"
    ++ "    </div>\n"
    ++ "</div>\n"

/-- The card of a demo shows its source, and the drawing or the report of a request to render it. -/
def IsCardOf (tree : FileTree) (name html : String) : Prop :=
  let path := demos ++ "/" ++ name
  ∃ stem source body, name = stem ++ ".txt" ∧ html = cardHtml (escape stem) (escape source) body ∧
    (tree.Holds path source ∨ (∀ text, ¬tree.Holds path text) ∧ source = "") ∧
    ((tree.Runs path ∧ ∃ svg, body = "<div class=\"svg-container\">" ++ svg ++ "</div>" ∧
        ∀ output after, tree.write output svg.toUTF8 = .ok after →
          (commandLine ["render", path, output] : StateM FileTree _).run tree =
            ({ stdout := "Wrote " ++ output ++ "\n" }, after)) ∨
      ¬tree.Runs path ∧ ∃ report, body = "<div class=\"error\">" ++ escape report ++ "</div>" ∧
        ∀ output, (commandLine ["render", path, output] : StateM FileTree _).run tree =
          ({ status := 1, stderr := "Error: " ++ report ++ "\n" }, tree))

theorem output_of_drawing {tree : FileTree} {name : String} {drawn : Except Report String}
    (h : tree.drawing (demos ++ "/" ++ name) = drawn) :
    (tree.card name).output = drawn.mapError Report.text := by
  rw [card, h]

theorem isCardOf_card (tree : FileTree) {name stem : String} (hstem : stem ≠ "")
    (hname : name = stem ++ ".txt") : tree.IsCardOf name (tree.card name).text := by
  have hsplit : (Path.splitName name).1 = stem := by
    rw [hname, Path.splitName_txt hstem]
  refine ⟨stem, (tree.card name).source, (tree.card name).body, hname, ?_, ?_, ?_⟩
  · rw [← hsplit]
    rfl
  · dsimp only [card]
    simp only [holds_iff]
    cases htext : tree.text (demos ++ "/" ++ name) with
    | ok source => exact .inl rfl
    | error e => exact .inr ⟨nofun, rfl⟩
  · cases hdrawing : tree.drawing (demos ++ "/" ++ name) with
    | ok svg =>
      refine .inl ⟨runs_iff.mpr ⟨svg, hdrawing⟩, svg, ?_, fun output after hwrite => ?_⟩
      · rw [Card.body, output_of_drawing hdrawing]
        rfl
      · exact (run_renderTo_of_ok hdrawing output).trans (run_writeOutput_ok hwrite _)
    | error report =>
      refine .inr ⟨fun hruns => ?_, report.text, ?_, run_failed hdrawing⟩
      · obtain ⟨svg, hsvg⟩ := runs_iff.mp hruns
        rw [hdrawing] at hsvg
        cases hsvg
      · rw [Card.body, output_of_drawing hdrawing]
        rfl

/-! ## Other demos -/

end FileTree

/-- At a place or below it. -/
def Place.Within (top place : Place) : Prop :=
  place.above = top.above ∧ top.names <+: place.names

namespace FileTree

variable {tree other : FileTree}

theorem card_congr {name : String}
    (h : tree.find (demos ++ "/" ++ name) = other.find (demos ++ "/" ++ name)) :
    tree.card name = other.card name := by
  have htext : tree.text (demos ++ "/" ++ name) = other.text (demos ++ "/" ++ name) := by
    rw [text, text, h]
  have hdrawing : tree.drawing (demos ++ "/" ++ name) = other.drawing (demos ++ "/" ++ name) := by
    cases hother : other.text (demos ++ "/" ++ name) with
    | error e =>
      rw [drawing_of_load_error (load_of_text_error hother),
        drawing_of_load_error (load_of_text_error (htext.trans hother))]
    | ok source =>
      rw [drawing_of_load_ok (load_of_text_ok hother),
        drawing_of_load_ok (load_of_text_ok (htext.trans hother))]
  rw [card, card, htext, hdrawing]

theorem not_within_child {demo name : String} (h : name ≠ demo) :
    ¬(demosPlace.child demo).Within (demosPlace.child name) := by
  rintro ⟨-, hbelow⟩
  have heq := hbelow.eq_of_length rfl
  exact h (by simpa [Place.child] using heq.symm)

theorem not_within_demosPlace (demo : String) : ¬(demosPlace.child demo).Within demosPlace := by
  rintro ⟨-, hbelow⟩
  exact absurd hbelow.length_le (by simp [Place.child, demosPlace])

section Others

variable {names names' : List String} {demo : String} (hlist : tree.list demos = .ok names)
  (hlist' : other.list demos = .ok names')
  (hsame : ∀ place, ¬(demosPlace.child demo).Within place → other.node? place = tree.node? place)

include hlist hlist' hsame

theorem mem_demoFiles_congr {name : String} (h : name ≠ demo) :
    name ∈ tree.demoFiles ↔ name ∈ other.demoFiles := by
  rw [mem_demoFiles_iff hlist, mem_demoFiles_iff hlist', hsame _ (not_within_child h)]

theorem filter_demoFiles_congr {p : String → Bool} (h : p demo = false) :
    tree.demoFiles.filter p = other.demoFiles.filter p := by
  refine ((pairwise_demoFiles hlist).filter p).eq_of_mem_iff ((pairwise_demoFiles hlist').filter p)
    fun name => ?_
  rw [List.mem_filter, List.mem_filter]
  by_cases hname : name = demo
  · simp [hname, h]
  · rw [mem_demoFiles_congr hlist hlist' hsame hname]

theorem card_of_ne {name : String} (hname : name ∈ tree.demoFiles) (h : name ≠ demo) :
    tree.card name = other.card name := by
  obtain ⟨hthere, stem, -, htxt⟩ := (mem_demoFiles_iff hlist).mp hname
  have hslash := slash_notMem_demo hthere
  have hisName : Path.IsName name := Path.isName_of_mem (c := 't') (by simp [htxt]) (by decide)
  refine card_congr ?_
  rw [find_demo (list_demos hlist).1 hslash hisName, find_demo (list_demos hlist').1 hslash hisName,
    hsame _ (not_within_child h)]

/-- The cards in front of and behind that of a demo do not change with it. -/
theorem cards_around :
    ∃ before behind,
      tree.demoFiles.map tree.card =
        before ++ ((if demo ∈ tree.demoFiles then [tree.card demo] else []) ++ behind) ∧
      other.demoFiles.map other.card =
        before ++ ((if demo ∈ other.demoFiles then [other.card demo] else []) ++ behind) := by
  have hcards : ∀ {p : String → Bool}, p demo = false →
      (tree.demoFiles.filter p).map tree.card = (other.demoFiles.filter p).map other.card := by
    intro p hp
    rw [← filter_demoFiles_congr hlist hlist' hsame hp]
    refine List.map_congr_left fun name hname => ?_
    obtain ⟨hmem, hpname⟩ := List.mem_filter.mp hname
    refine card_of_ne hlist hlist' hsame hmem ?_
    rintro rfl
    rw [hp] at hpname
    cases hpname
  have hbefore := @hcards (· < demo) (decide_eq_false (String.lt_irrefl demo))
  have hbehind := @hcards (demo < ·) (decide_eq_false (String.lt_irrefl demo))
  refine ⟨(tree.demoFiles.filter (· < demo)).map tree.card,
    (tree.demoFiles.filter (demo < ·)).map tree.card, ?_, ?_⟩
  · rw [← map_filter_eq (pairwise_demoFiles hlist), ← List.map_append, ← List.map_append,
      ← eq_filter_append (pairwise_demoFiles hlist)]
  · rw [hbefore, hbehind, ← map_filter_eq (pairwise_demoFiles hlist'), ← List.map_append, ← List.map_append,
      ← eq_filter_append (pairwise_demoFiles hlist')]

end Others

/-! ## The page -/

theorem failed_card_iff {name : String} :
    (tree.card name).failed = true ↔ ¬tree.Runs (demos ++ "/" ++ name) := by
  rw [Card.failed, output_of_drawing rfl, runs_iff]
  cases tree.drawing (demos ++ "/" ++ name) <;> simp [Except.mapError]

/-- The gallery of a tree in which demos can be listed and the page can be written.

Its cards are those of the demos, each shown once and in the order of the bytes of their names, under different
identifiers. Each shows what a request to render that demo writes or reports, and in another tree that differs
in one demo only, all other cards are the same. -/
theorem run_gallery {after : FileTree} {names : List String} (hlist : tree.list demos = .ok names)
    (hwrite : tree.write galleryPath tree.galleryPage.toUTF8 = .ok after) :
    let shown := tree.demoFiles
    (∀ rest, (commandLine ("gallery" :: rest) : StateM FileTree _).run tree =
      ({ stdout := "Generated gallery at: gallery.html\n" }, after)) ∧
    after.node? ⟨0, ["gallery.html"]⟩ = some (.file tree.galleryPage.toUTF8) ∧
    (∀ place, place ≠ ⟨0, ["gallery.html"]⟩ → after.node? place = tree.node? place) ∧
    (∀ name, name ∈ shown ↔ name ∈ names ∧ ∃ stem, stem ≠ "" ∧ name = stem ++ ".txt") ∧
    shown.Pairwise (fun a b => Text.bytes a < Text.bytes b) ∧
    (shown.map fun name => escape (Path.splitName name).1).Nodup ∧
    (∃ failed : List String, failed.Sublist shown ∧
      (∀ name ∈ shown, name ∈ failed ↔ ¬tree.Runs (demos ++ "/" ++ name)) ∧
      tree.galleryPage = Gallery.head ++
        ("<h1>" ++ shown.length.repr ++ " program(s), " ++ failed.length.repr ++ " failed</h1>\n") ++
        String.join (shown.map fun name => (tree.card name).text) ++ "</div>\n</body></html>\n") ∧
    (∀ name ∈ shown, tree.IsCardOf name (tree.card name).text) ∧
    (∀ (other : FileTree) (demo : String),
      (∀ place, ¬(demosPlace.child demo).Within place → other.node? place = tree.node? place) →
      ∃ before behind,
        shown.map tree.card = before ++ ((if demo ∈ shown then [tree.card demo] else []) ++ behind) ∧
        other.demoFiles.map other.card =
          before ++ ((if demo ∈ other.demoFiles then [other.card demo] else []) ++ behind)) := by
  intro shown
  have hsorted := pairwise_demoFiles hlist
  obtain ⟨place, hplace, hthere, helsewhere⟩ := node?_of_write hwrite
  obtain rfl : ⟨0, ["gallery.html"]⟩ = place := Except.ok.inj hplace
  have hstem : ∀ name ∈ shown, ∃ stem, stem ≠ "" ∧ name = stem ++ ".txt" := fun name hname =>
    ((mem_demoFiles_iff hlist).mp hname).2
  refine ⟨fun rest => ?_, hthere, helsewhere, fun name => ?_, hsorted.imp Text.bytes_lt_bytes, ?_, ?_, ?_, ?_⟩
  · have hprinted : "Generated gallery at: " ++ galleryPath ++ "\n" =
        "Generated gallery at: gallery.html\n" := by
      decide
    rw [run_gallery_of_list hlist, run_writeOutput_ok hwrite, hprinted]
  · have hshown : shown = demoNames names := demoFiles_of_list hlist
    rw [hshown, mem_demoNames_iff]
  · refine List.Nodup.map_on (fun a ha b hb hsame => ?_) (hsorted.imp String.ne_of_lt)
    obtain ⟨stem, hne, rfl⟩ := hstem a ha
    obtain ⟨stem', hne', rfl⟩ := hstem b hb
    rw [Path.splitName_txt hne, Path.splitName_txt hne'] at hsame
    obtain rfl : stem = stem' := escape_injective hsame
    rfl
  · refine ⟨shown.filter fun name => (tree.card name).failed, List.filter_sublist, fun name hname => ?_, ?_⟩
    · rw [List.mem_filter, failed_card_iff, and_iff_right hname]
    · rw [galleryPage, Gallery.page, Gallery.heading, List.length_map, List.countP_map,
        List.countP_eq_length_filter, List.map_map]
      rfl
  · intro name hname
    obtain ⟨stem, hne, htxt⟩ := hstem name hname
    exact tree.isCardOf_card hne htxt
  · intro other demo hsame
    have hdirectory := (hsame demosPlace (not_within_demosPlace demo)).trans (list_demos hlist).1
    obtain ⟨others, hothers⟩ := exists_list_demos hdirectory
    exact cards_around hlist hothers hsame

/-! ## Three demos -/

/-- A first program of one's choice, one that draws a circle, and a directory that is named like a program. -/
def demosWith (first : String) : FileTree :=
  let others := (FileTree.empty.makeFile (demosPlace.child "b.txt") "circle 3\n".toUTF8).makeDirectory
    (demosPlace.child "c.txt")
  others.put (demosPlace.child "a.txt") (.file first.toUTF8) (by decide)

section DemosWith

variable (first : String)

theorem list_demosWith : (demosWith first).list demos = .ok ["a.txt", "c.txt", "b.txt"] := rfl

theorem holds_demosWith : (demosWith first).Holds "demos/a.txt" first := ⟨_, rfl⟩

theorem source_demosWith : ((demosWith first).card "a.txt").source = first := by
  have htext := holds_iff.mp (holds_demosWith first)
  show ((demosWith first).text "demos/a.txt").toOption.getD "" = first
  rw [htext]
  rfl

theorem demoFiles_demosWith : (demosWith first).demoFiles = ["a.txt", "b.txt", "c.txt"] := by
  rw [demoFiles_of_list (list_demosWith first)]
  simp [demoNames, Path.splitName, List.mergeSort]

theorem node?_demosWith (other : String) {place : Place} (h : ¬(demosPlace.child "a.txt").Within place) :
    (demosWith other).node? place = (demosWith first).node? place := by
  have hne : place ≠ demosPlace.child "a.txt" := by
    rintro rfl
    exact h ⟨rfl, List.prefix_refl _⟩
  have hnames : (demosPlace.child "a.txt").names ≠ [] := by simp [Place.child]
  unfold demosWith
  rw [node?_put _ _ hnames, node?_put _ _ hnames, if_neg hne, if_neg hne]

theorem runs_demosWith : (demosWith first).Runs "demos/b.txt" :=
  ⟨"circle 3\n", ⟨_, rfl⟩, by decide +kernel⟩

theorem runs_demosWith_first_iff :
    (demosWith first).Runs "demos/a.txt" ↔ firstFailureFrom? 1 (Program.ofSource first).lines = none := by
  have htext := holds_iff.mp (holds_demosWith first)
  constructor
  · rintro ⟨source, hholds, hrun⟩
    rw [holds_iff, htext, Except.ok.injEq] at hholds
    rwa [hholds]
  · intro hrun
    exact ⟨first, holds_demosWith first, hrun⟩

theorem not_runs_demosWith_directory : ¬(demosWith first).Runs "demos/c.txt" := by
  rintro ⟨source, ⟨place, hfind⟩, -⟩
  have hdirectory : (demosWith first).find "demos/c.txt" = .ok (demosPlace.child "c.txt", .directory) := rfl
  rw [hdirectory] at hfind
  cases hfind

variable {first}

theorem failed_demosWith {failed : List String}
    (hfails : firstFailureFrom? 1 (Program.ofSource first).lines ≠ none)
    (hsub : failed.Sublist ["a.txt", "b.txt", "c.txt"])
    (hfailed : ∀ name ∈ ["a.txt", "b.txt", "c.txt"],
      name ∈ failed ↔ ¬(demosWith first).Runs (demos ++ "/" ++ name)) : failed = ["a.txt", "c.txt"] := by
  have hfirst : "a.txt" ∈ failed := (hfailed _ (by decide)).mpr (mt (runs_demosWith_first_iff _).mp hfails)
  have hsecond : "b.txt" ∉ failed := fun h => (hfailed _ (by decide)).mp h (runs_demosWith _)
  have hthird : "c.txt" ∈ failed := (hfailed _ (by decide)).mpr (not_runs_demosWith_directory _)
  have hall : ["a.txt", "b.txt", "c.txt"].Pairwise (· < ·) := by decide
  refine (hall.sublist hsub).eq_of_mem_iff (by decide) fun name => ?_
  have hmem : name ∈ failed → name ∈ ["a.txt", "b.txt", "c.txt"] := fun h => hsub.subset h
  simp only [List.mem_cons, List.not_mem_nil, or_false] at hmem ⊢
  constructor
  · intro hname
    rcases hmem hname with rfl | rfl | rfl
    · exact .inl rfl
    · exact absurd hname hsecond
    · exact .inr rfl
  · rintro (rfl | rfl)
    · exact hfirst
    · exact hthird

end DemosWith

/-- The first program fails, and is mended then. Before, there are two failures with the directory, and afterwards
the cards behind that of the first program are what they were. -/
theorem run_gallery_mended :
    let tree := demosWith "draw 1\n"
    let mended := demosWith "draw 1 1\n"
    let after := tree.put ⟨0, ["gallery.html"]⟩ (.file tree.galleryPage.toUTF8) (by decide)
    let shown := ["a.txt", "b.txt", "c.txt"]
    tree.list demos = .ok ["a.txt", "c.txt", "b.txt"] ∧
    tree.write galleryPath tree.galleryPage.toUTF8 = .ok after ∧
    (∀ place, ¬(demosPlace.child "a.txt").Within place → mended.node? place = tree.node? place) ∧
    (∀ rest, (commandLine ("gallery" :: rest) : StateM FileTree _).run tree =
      ({ stdout := "Generated gallery at: gallery.html\n" }, after)) ∧
    after.node? ⟨0, ["gallery.html"]⟩ = some (.file tree.galleryPage.toUTF8) ∧
    tree.demoFiles = shown ∧
    shown.Pairwise (fun a b => Text.bytes a < Text.bytes b) ∧
    (shown.map fun name => escape (Path.splitName name).1).Nodup ∧
    tree.galleryPage = Gallery.head ++ "<h1>3 program(s), 2 failed</h1>\n" ++
      String.join (shown.map fun name => (tree.card name).text) ++ "</div>\n</body></html>\n" ∧
    (∀ name ∈ shown, tree.IsCardOf name (tree.card name).text) ∧
    tree.card "a.txt" ≠ mended.card "a.txt" ∧
    ["b.txt", "c.txt"].map tree.card = ["b.txt", "c.txt"].map mended.card := by
  intro tree mended after shown
  have hlist := list_demosWith "draw 1\n"
  have hwrite : tree.write galleryPath tree.galleryPage.toUTF8 = .ok after := rfl
  have hsame : ∀ place, ¬(demosPlace.child "a.txt").Within place → mended.node? place = tree.node? place :=
    fun place => node?_demosWith _ _
  have hshown : tree.demoFiles = shown := demoFiles_demosWith _
  have hmended : mended.demoFiles = shown := demoFiles_demosWith _
  obtain ⟨hrun, hpage, -, -, hsorted, hids, ⟨failed, hsub, hfailed, hhtml⟩, hcards, hothers⟩ :=
    run_gallery hlist hwrite
  rw [hshown] at hsorted hids hsub hfailed hhtml hcards
  have hcount : failed = ["a.txt", "c.txt"] := failed_demosWith (by decide +kernel) hsub hfailed
  have hdiffer : tree.card "a.txt" ≠ mended.card "a.txt" := by
    have hsource : (tree.card "a.txt").source = "draw 1\n" := source_demosWith _
    have hsource' : (mended.card "a.txt").source = "draw 1 1\n" := source_demosWith _
    intro hcard
    rw [hcard, hsource'] at hsource
    exact absurd hsource (by decide)
  refine ⟨hlist, hwrite, hsame, hrun, hpage, hshown, hsorted, hids, ?_, hcards, hdiffer, ?_⟩
  · have hheading : "<h1>" ++ (3 : Nat).repr ++ " program(s), " ++ (2 : Nat).repr ++ " failed</h1>\n" =
        "<h1>3 program(s), 2 failed</h1>\n" := by
      decide
    rw [hhtml, hcount, ← hheading]
    rfl
  · obtain ⟨before, behind, hbefore, hbehind⟩ := hothers mended "a.txt" hsame
    rw [hshown] at hbefore
    rw [hmended] at hbehind
    exact tail_eq_of_head_ne hbefore hbehind hdiffer

end FileTree

end PenPlot
