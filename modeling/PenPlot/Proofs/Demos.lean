import PenPlot.Proofs.ByteOrder
import PenPlot.Proofs.Places
import PenPlot.Proofs.TreeRequests

/-!
# The demos of a tree

The directory of the demos lists each of its entries once (`FileTree.nodup_names`), and the demos among them come
in the order of their bytes (`FileTree.pairwise_demoFiles`), so they are told by what stands in that directory
alone (`FileTree.mem_demoFiles_iff`). What is found at the path of a demo is what stands at its place
(`FileTree.find_demo`), since the name of an entry has no slash in it (`FileTree.slash_notMem_demo`).
-/

namespace PenPlot

open Text

/-! ## Names with the extension -/

namespace Path

theorem splitName_append {stem extension : String} (hstem : stem ≠ "") (hdot : '.' ∉ extension.toList) :
    splitName (stem ++ "." ++ extension) = (stem, some extension) := by
  have hno : ∀ c ∈ extension.toList.reverse, (c != '.') = true := by
    intro c hc
    simp only [bne_iff_ne]
    rintro rfl
    exact hdot (List.mem_reverse.mp hc)
  obtain ⟨c, cs, hcs⟩ : ∃ c cs, stem.toList.reverse = c :: cs := by
    refine List.exists_cons_of_ne_nil ?_
    rw [Ne, List.reverse_eq_nil_iff, String.toList_eq_nil_iff]
    exact hstem
  have hreverse : (stem ++ "." ++ extension).toList.reverse =
      extension.toList.reverse ++ '.' :: c :: cs := by
    simp [hcs]
  have hstem : stem = String.ofList (c :: cs).reverse := by simp [← hcs]
  rw [splitName, hreverse, List.dropWhile_append_of_pos hno, List.takeWhile_append_of_pos hno, hstem]
  simp

theorem splitName_txt {stem : String} (h : stem ≠ "") :
    splitName (stem ++ ".txt") = (stem, some "txt") := by
  have htxt : stem ++ ".txt" = stem ++ "." ++ "txt" := by
    rw [String.append_assoc]
    rfl
  rw [htxt, splitName_append h (by decide)]

theorem splitName_eq_txt_iff {name : String} :
    (splitName name).2 = some "txt" ↔ ∃ stem, stem ≠ "" ∧ name = stem ++ ".txt" := by
  constructor
  · intro h
    have hsplit := splitsInto_splitName name
    rw [h] at hsplit
    refine ⟨(splitName name).1, (hsplit.some _ rfl).2, hsplit.eq.trans ?_⟩
    rw [nameOf, String.append_assoc]
    rfl
  · rintro ⟨stem, hstem, rfl⟩
    rw [splitName_txt hstem]

end Path

namespace FileTree

variable {tree : FileTree}

/-! ## The directory of the demos -/

/-- Where the demos are. -/
def demosPlace : Place :=
  ⟨0, [demos]⟩

theorem list_demos {names : List String} (h : tree.list demos = .ok names) :
    tree.node? demosPlace = some .directory ∧
      names = tree.nodes.filterMap fun entry =>
        if entry.1.parent = demosPlace then entry.1.names.getLast? else none := by
  unfold list at h
  cases hfind : tree.find demos with
  | error e =>
    rw [hfind] at h
    cases h
  | ok found =>
    obtain ⟨place, node⟩ := found
    obtain ⟨-, hwalk, hnode⟩ := find_eq_ok_iff.mp hfind
    obtain rfl : demosPlace = place := Except.ok.inj hwalk
    rw [hfind] at h
    cases node with
    | file content => cases h
    | directory => exact ⟨hnode, (Except.ok.inj h).symm⟩

theorem exists_list_demos (h : tree.node? demosPlace = some .directory) :
    ∃ names, tree.list demos = .ok names := by
  have hfind : tree.find demos = .ok (demosPlace, .directory) := find_eq_ok_iff.mpr ⟨by decide, rfl, h⟩
  rw [list, hfind]
  exact ⟨_, rfl⟩

/-- The entries of the directory are at the places right below it. -/
theorem parent_eq_demosPlace_iff {place : Place} {name : String} :
    place.parent = demosPlace ∧ place.names.getLast? = some name ↔ place = demosPlace.child name := by
  obtain ⟨above, names⟩ := place
  rcases List.eq_nil_or_concat names with rfl | ⟨init, last, rfl⟩
  · simp [Place.parent, demosPlace, Place.child]
  · have hnames : init ++ [last] = [demos, name] ↔ init = [demos] ∧ last = name := by
      constructor
      · intro h
        have hconcat : init ++ [last] = [demos] ++ [name] := h
        obtain ⟨hinit, hlast⟩ := List.append_inj' hconcat rfl
        exact ⟨hinit, (List.cons.inj hlast).1⟩
      · rintro ⟨rfl, rfl⟩
        rfl
    simp [Place.parent, demosPlace, Place.child, hnames, and_assoc]

theorem mem_names_iff {names : List String} (h : tree.list demos = .ok names) {name : String} :
    name ∈ names ↔ (tree.node? (demosPlace.child name)).isSome := by
  obtain ⟨-, rfl⟩ := list_demos h
  have hnode : tree.node? (demosPlace.child name) = tree.nodes.lookup (demosPlace.child name) :=
    if_neg (List.cons_ne_nil _ _)
  rw [hnode, List.lookup_isSome_iff, List.mem_filterMap]
  refine exists_congr fun entry => and_congr_right fun _ => ?_
  rw [beq_iff_eq, eq_comm (a := demosPlace.child name), ← parent_eq_demosPlace_iff]
  split
  next hparent => simp [hparent]
  next hparent => simp [hparent]

/-- Each entry is listed once, as places are different. -/
theorem nodup_names {names : List String} (h : tree.list demos = .ok names) : names.Nodup := by
  obtain ⟨-, rfl⟩ := list_demos h
  refine tree.distinct.filterMap _ fun entry entry' hne name hname name' hname' hsame => hne ?_
  have hplace : ∀ {entry : Place × Node} {name : String},
      (if entry.1.parent = demosPlace then entry.1.names.getLast? else none) = some name →
        entry.1 = demosPlace.child name := by
    intro entry name h
    split at h
    next hparent => exact parent_eq_demosPlace_iff.mp ⟨hparent, h⟩
    next => cases h
  rw [hplace hname, hplace hname', hsame]

/-! ## The demos among the entries -/

theorem mem_demoNames_iff {names : List String} {name : String} :
    name ∈ demoNames names ↔ name ∈ names ∧ ∃ stem, stem ≠ "" ∧ name = stem ++ ".txt" := by
  rw [demoNames, (List.mergeSort_perm _ _).mem_iff, List.mem_filter, decide_eq_true_iff,
    Path.splitName_eq_txt_iff]

theorem pairwise_demoNames {names : List String} (h : names.Nodup) :
    (demoNames names).Pairwise (· < ·) := by
  have hsorted : (demoNames names).Pairwise fun a b => decide (a ≤ b) = true := by
    refine List.pairwise_mergeSort (fun a b c hab hbc => ?_) (fun a b => ?_) _
    · rw [decide_eq_true_iff] at *
      exact String.le_trans hab hbc
    · simpa using String.le_total a b
  have hnodup : (demoNames names).Nodup := (List.mergeSort_perm _ _).nodup_iff.mpr (h.filter _)
  refine hsorted.imp₂ (fun a b hle hne => ?_) hnodup
  by_contra hlt
  exact hne (String.le_antisymm (by simpa using hle) (String.not_lt.mp hlt))

section Listed

variable {names : List String} (h : tree.list demos = .ok names)

include h

theorem mem_demoFiles_iff {name : String} :
    name ∈ tree.demoFiles ↔
      (tree.node? (demosPlace.child name)).isSome ∧ ∃ stem, stem ≠ "" ∧ name = stem ++ ".txt" := by
  rw [demoFiles_of_list h, mem_demoNames_iff, mem_names_iff h]

theorem pairwise_demoFiles : tree.demoFiles.Pairwise (· < ·) := by
  rw [demoFiles_of_list h]
  exact pairwise_demoNames (nodup_names h)

end Listed

/-! ## What is at the path of a demo -/

theorem slash_notMem_demo {name : String} (h : (tree.node? (demosPlace.child name)).isSome) :
    '/' ∉ name.toList :=
  isProper_of_isSome h name (by simp [Place.child])

theorem find_demo {name : String} (hdemos : tree.node? demosPlace = some .directory)
    (hslash : '/' ∉ name.toList) (hname : Path.IsName name) :
    tree.find (demos ++ "/" ++ name) =
      match tree.node? (demosPlace.child name) with
      | none => .error .notFound
      | some node => .ok (demosPlace.child name, node) := by
  have hparts : Path.parts (demos ++ "/" ++ name) = [demos] ++ [name] := by
    rw [Path.parts_slash (by decide), Path.parts_of_notMem hslash]
    rfl
  have hwalk : tree.walk .start [demos] = .ok demosPlace := rfl
  have hthere := walk_name hparts hwalk hdemos hname
  cases hnode : tree.node? (demosPlace.child name) <;> simp [find, hthere, hnode]

end FileTree

end PenPlot
