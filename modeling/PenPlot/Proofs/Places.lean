import Mathlib.Data.List.TakeWhile
import PenPlot.Files.Tree

/-!
# Paths and the places they lead to

A path is the names in front of its slashes and the name behind the last one (`Path.eq_above`), and that name is
a stem and an extension (`Path.SplitsInto`); giving it another extension exchanges just that
(`Path.withExtension_eq`).

Whatever is reached by a path stands in directories all the way up (`FileTree.Reached`), so a path that leads to
a file ends in a name of its own (`FileTree.exists_name_of_find`). A path that ends in another name leads to
another place in the same directory (`FileTree.filePlace_name`).
-/

namespace PenPlot

namespace Path

/-! ## Parts -/

section Cut

variable {cs rest : List Char}

theorem cut_of_notMem (h : '/' ∉ cs) : cut cs = (cs, []) := by
  induction cs with
  | nil => rfl
  | cons c cs ih =>
    rw [List.mem_cons, not_or] at h
    rw [cut, if_neg (Ne.symm h.1), ih h.2]

theorem cut_append (h : '/' ∉ cs) : cut (cs ++ '/' :: rest) = (cs, (cut rest).1 :: (cut rest).2) := by
  induction cs with
  | nil => rfl
  | cons c cs ih =>
    rw [List.mem_cons, not_or] at h
    rw [List.cons_append, cut, if_neg (Ne.symm h.1), ih h.2]

/-- A text is its stretches between slashes, with the slashes put back. -/
theorem eq_cut (cs : List Char) : cs = (cut cs).1 ++ (cut cs).2.flatMap ('/' :: ·) := by
  induction cs with
  | nil => rfl
  | cons c cs ih =>
    rw [cut]
    split
    next h => rw [h, List.nil_append, List.flatMap_cons, List.cons_append, ← ih]
    next => rw [List.cons_append, ← ih]

end Cut

theorem parts_of_notMem {name : String} (h : '/' ∉ name.toList) : parts name = [name] := by
  rw [parts, cut_of_notMem h, String.ofList_toList, List.map_nil]

theorem parts_slash {name : String} (h : '/' ∉ name.toList) (rest : String) :
    parts (name ++ "/" ++ rest) = name :: parts rest := by
  have hlist : (name ++ "/" ++ rest).toList = name.toList ++ '/' :: rest.toList := by simp
  rw [parts, hlist, cut_append h, String.ofList_toList, List.map_cons]
  rfl

/-- Names of directories, each with a slash behind it. -/
def above (names : List String) : String :=
  String.join (names.map (· ++ "/"))

theorem above_cons (name : String) (names : List String) :
    above (name :: names) = name ++ "/" ++ above names := by
  simp [above]

theorem above_eq_or (names : List String) :
    above names = "" ∨ ∃ before, above names = before ++ "/" := by
  rcases List.eq_nil_or_concat names with rfl | ⟨init, last, rfl⟩
  · exact .inl rfl
  · exact .inr ⟨above init ++ last, by simp [above, String.append_assoc]⟩

theorem parts_above {names : List String} (h : ∀ name ∈ names, '/' ∉ name.toList) {last : String}
    (hlast : '/' ∉ last.toList) : parts (above names ++ last) = names ++ [last] := by
  induction names with
  | nil =>
    have hnil : above [] ++ last = last := by simp [above]
    rw [hnil, parts_of_notMem hlast, List.nil_append]
  | cons name names ih =>
    obtain ⟨hname, hnames⟩ := List.forall_mem_cons.mp h
    rw [above_cons, String.append_assoc, parts_slash hname, ih hnames, List.cons_append]

/-- A slash in front of each stretch but the first is one behind each but the last. -/
theorem flatMap_slash {first last : List Char} {others init : List (List Char)}
    (h : first :: others = init ++ [last]) :
    first ++ others.flatMap ('/' :: ·) = init.flatMap (· ++ ['/']) ++ last := by
  induction init generalizing first others with
  | nil =>
    obtain ⟨rfl, rfl⟩ := List.cons.inj h
    simp
  | cons part init ih =>
    rw [List.cons_append] at h
    obtain ⟨rfl, hothers⟩ := List.cons.inj h
    obtain ⟨second, rest, hrest⟩ := List.exists_cons_of_ne_nil (List.concat_ne_nil last init)
    rw [hothers, hrest, List.flatMap_cons, List.cons_append, ih hrest.symm, List.flatMap_cons]
    simp

theorem eq_above {path last : String} {names : List String} (h : parts path = names ++ [last]) :
    path = above names ++ last := by
  have hlists : (cut path.toList).1 :: (cut path.toList).2 =
      names.map String.toList ++ [last.toList] := by
    have := congrArg (List.map String.toList) h
    simpa [parts, Function.comp_def] using this
  rw [← String.toList_inj, eq_cut path.toList, flatMap_slash hlists, String.toList_append, above,
    String.toList_join, List.flatMap_map, List.flatMap_map]
  simp

/-! ## Stem and extension -/

/-- The name made of a stem and, behind a dot, an extension. -/
def nameOf (stem : String) : Option String → String
  | none => stem
  | some extension => stem ++ "." ++ extension

/-- A name is split at its last dot, unless that is its first character or there is none. -/
structure SplitsInto (name stem : String) (extension : Option String) : Prop where
  eq : name = nameOf stem extension
  none : extension = none → '.' ∉ stem.toList.tail
  some : ∀ e ∈ extension, '.' ∉ e.toList ∧ stem ≠ ""

theorem splitsInto_splitName (name : String) :
    SplitsInto name (splitName name).1 (splitName name).2 := by
  have hcut := @List.takeWhile_append_dropWhile _ (· != '.') name.toList.reverse
  have hno : '.' ∉ name.toList.reverse.takeWhile (· != '.') := by
    intro hmem
    simpa using List.mem_takeWhile_imp hmem
  have hhead := List.head?_dropWhile_not (· != '.') name.toList.reverse
  rw [splitName]
  generalize name.toList.reverse.takeWhile (· != '.') = front at *
  cases hdrop : name.toList.reverse.dropWhile (· != '.') with
  | nil =>
    rw [hdrop, List.append_nil] at hcut
    refine ⟨rfl, fun _ hmem => hno ?_, nofun⟩
    rw [hcut, List.mem_reverse]
    exact List.mem_of_mem_tail hmem
  | cons dot stem =>
    rw [hdrop] at hcut hhead
    obtain rfl : dot = '.' := by simpa using hhead
    cases stem with
    | nil =>
      refine ⟨rfl, fun _ => ?_, nofun⟩
      have hname : name.toList = '.' :: front.reverse := by
        simpa using (congrArg List.reverse hcut).symm
      simpa [hname] using hno
    | cons c stem =>
      have hname : name.toList = (c :: stem).reverse ++ '.' :: front.reverse := by
        simpa using (congrArg List.reverse hcut).symm
      refine ⟨?_, nofun, ?_⟩
      · rw [← String.toList_inj, hname]
        simp [nameOf]
      · rintro e he
        obtain rfl := Option.some.inj he
        refine ⟨by simpa using hno, ?_⟩
        rw [Ne, ← String.toList_inj]
        simp

theorem slash_notMem_stem {name : String} (h : '/' ∉ name.toList) : '/' ∉ (splitName name).1.toList := by
  have hname := (splitsInto_splitName name).eq
  generalize (splitName name).1 = stem at *
  rintro hmem
  apply h
  rw [hname]
  cases (splitName name).2 <;> simp [nameOf, hmem]

theorem nameOf_eq_iff {stem extension : String} {old : Option String} :
    nameOf stem old = stem ++ "." ++ extension ↔ old = some extension := by
  cases old with
  | none => simp [nameOf, ← String.toList_inj]
  | some e => simp [nameOf]

/-! ## The last name of a path -/

/-- The part leads to something that is in the directory before it. -/
def IsName (part : String) : Prop :=
  part ≠ "" ∧ part ≠ "." ∧ part ≠ ".."

theorem isName_of_mem {part : String} {c : Char} (h : c ∈ part.toList) (hc : c ≠ '.') : IsName part := by
  refine ⟨?_, ?_, ?_⟩ <;>
  · rintro rfl
    simp [hc] at h

theorem isStay_eq_false_iff {part : String} : isStay part = false ↔ part ≠ "" ∧ part ≠ "." := by
  simp [isStay]

section LastName

variable {path name : String} {names : List String} (h : parts path = names ++ [name])
  (hname : IsName name)

include h hname

theorem lastName?_eq : lastName? path = some (name, names.reverse) := by
  have hstay : isStay name = false := isStay_eq_false_iff.mpr ⟨hname.1, hname.2.1⟩
  rw [lastName?, h, List.reverse_append, List.reverse_singleton, List.singleton_append,
    List.dropWhile_cons_of_neg (by simp [hstay])]
  dsimp only
  rw [if_neg hname.2.2]

/-- Another extension changes nothing in front of the last name. -/
theorem withExtension_eq (extension : String) :
    withExtension path extension =
      above names ++
        if (splitName name).1 = "." then ".." else (splitName name).1 ++ "." ++ extension := by
  rw [withExtension, lastName?_eq h hname]
  dsimp only
  rw [List.reverse_reverse, above]
  split
  · rfl
  · simp only [String.append_assoc]

end LastName

end Path

/-! ## Walks -/

namespace FileTree

variable {tree : FileTree}

theorem walk_concat (tree : FileTree) (place : Place) (names : List String) (last : String) :
    tree.walk place (names ++ [last]) = (tree.walk place names).bind (tree.step · last) := by
  induction names generalizing place with
  | nil =>
    have hstep : tree.walk place [last] = tree.step place last := by
      rw [walk]
      cases tree.step place last <;> rfl
    exact hstep
  | cons name names ih =>
    rw [List.cons_append, walk, walk]
    cases tree.step place name with
    | error e => rfl
    | ok next => exact ih next

/-- Every directory on the way from the top to a place is there. -/
def Reached (tree : FileTree) (place : Place) : Prop :=
  ∀ names, names <+: place.names → names ≠ place.names → tree.node? ⟨place.above, names⟩ = some .directory

theorem reached_start (tree : FileTree) : tree.Reached .start := by
  intro names hbelow hne
  exact absurd (List.prefix_nil.mp hbelow) hne

theorem Reached.parent {place : Place} (h : tree.Reached place) :
    tree.node? place.parent = some .directory ∧ tree.Reached place.parent := by
  unfold Place.parent
  split
  next hnil => exact ⟨rfl, fun names hbelow hne => absurd (List.prefix_nil.mp hbelow) hne⟩
  next hnil =>
    have hshorter : place.names.dropLast.length < place.names.length := by
      rw [List.length_dropLast]
      exact Nat.sub_one_lt (mt List.length_eq_zero_iff.mp hnil)
    have hdirectory : ∀ names, names <+: place.names.dropLast →
        tree.node? ⟨place.above, names⟩ = some .directory := by
      intro names hbelow
      refine h names (hbelow.trans (List.dropLast_prefix _)) ?_
      rintro rfl
      exact Nat.not_lt.mpr hbelow.length_le hshorter
    exact ⟨hdirectory _ (List.prefix_refl _), fun names hbelow _ => hdirectory names hbelow⟩

theorem Reached.child {place : Place} (h : tree.Reached place)
    (hplace : tree.node? place = some .directory) (name : String) : tree.Reached (place.child name) := by
  intro names hbelow hne
  rcases List.prefix_concat_iff.mp hbelow with rfl | hbefore
  · exact absurd rfl hne
  · by_cases heq : names = place.names
    · rw [heq]
      exact hplace
    · exact h names hbefore heq

theorem Reached.step {place next : Place} {part : String} (h : tree.Reached place)
    (hstep : tree.step place part = .ok next) : tree.Reached next := by
  obtain ⟨hplace, rfl⟩ := step_eq_ok_iff.mp hstep
  split
  · exact h
  · split
    · exact h.parent.2
    · exact h.child hplace part

theorem Reached.walk {place next : Place} {parts : List String} (h : tree.Reached place)
    (hwalk : tree.walk place parts = .ok next) : tree.Reached next :=
  walk_invariant h (fun _ _ _ _ hhere => hhere.step) hwalk

/-! ## What a path leads to -/

theorem find_eq_ok_iff {path : String} {place : Place} {node : Node} :
    tree.find path = .ok (place, node) ↔
      path ≠ "" ∧ tree.walk .start (Path.parts path) = .ok place ∧ tree.node? place = some node := by
  unfold find
  by_cases hpath : path = ""
  · simp [hpath]
  · cases hwalk : tree.walk .start (Path.parts path) with
    | error e => simp [hpath]
    | ok there =>
      cases hnode : tree.node? there with
      | none => simp only [if_neg hpath]; grind
      | some node' => simp only [if_neg hpath]; grind

/-- A path that leads to a file ends in a name of its own, and what is before it leads to a directory. -/
theorem exists_name_of_find {path : String} {place : Place} {content : ByteArray}
    (h : tree.find path = .ok (place, .file content)) :
    ∃ names name here, Path.parts path = names ++ [name] ∧ Path.IsName name ∧
      tree.walk .start names = .ok here ∧ tree.node? here = some .directory ∧ place = here.child name := by
  obtain ⟨-, hwalk, hnode⟩ := find_eq_ok_iff.mp h
  obtain ⟨names, name, hparts⟩ :=
    (List.eq_nil_or_concat (Path.parts path)).resolve_left (List.cons_ne_nil _ _)
  rw [List.concat_eq_append] at hparts
  rw [hparts, walk_concat] at hwalk
  cases hhere : tree.walk .start names with
  | error e =>
    rw [hhere] at hwalk
    cases hwalk
  | ok here =>
    rw [hhere] at hwalk
    obtain ⟨hdirectory, hplace⟩ := step_eq_ok_iff.mp hwalk
    have hreached := tree.reached_start.walk hhere
    -- where one stays or goes up there is a directory
    have hstay : Path.isStay name = false := by
      by_contra hstay
      rw [Bool.not_eq_false] at hstay
      rw [if_pos hstay] at hplace
      rw [hplace, hdirectory] at hnode
      cases hnode
    rw [hstay, if_neg Bool.false_ne_true] at hplace
    have hup : name ≠ ".." := by
      intro hup
      rw [if_pos hup] at hplace
      rw [hplace, hreached.parent.1] at hnode
      cases hnode
    rw [if_neg hup] at hplace
    obtain ⟨hempty, hdot⟩ := Path.isStay_eq_false_iff.mp hstay
    exact ⟨names, name, here, hparts, ⟨hempty, hdot, hup⟩, hhere, hdirectory, hplace⟩

section Name

variable {path name : String} {names : List String} {here : Place}
  (hparts : Path.parts path = names ++ [name]) (hwalk : tree.walk .start names = .ok here)
  (hhere : tree.node? here = some .directory)

include hparts hwalk hhere

theorem walk_name (hname : Path.IsName name) :
    tree.walk .start (Path.parts path) = .ok (here.child name) := by
  have hstay : Path.isStay name = false := Path.isStay_eq_false_iff.mpr ⟨hname.1, hname.2.1⟩
  rw [hparts, walk_concat, hwalk]
  exact step_eq_ok_iff.mpr ⟨hhere, by rw [hstay, if_neg Bool.false_ne_true, if_neg hname.2.2]⟩

/-- A name in a directory can be given to a file. -/
theorem filePlace_name (hname : Path.IsName name) : tree.filePlace path = .ok (here.child name) := by
  have hpath : path ≠ "" := by
    rintro rfl
    have hnil : names ++ [name] = [] ++ [""] := hparts.symm.trans (Path.parts_of_notMem (by decide))
    obtain ⟨-, hlast⟩ := List.append_inj' hnil rfl
    exact hname.1 (List.cons.inj hlast).1
  have hlast : (Path.parts path).reverse.dropWhile (· == "") = name :: names.reverse := by
    rw [hparts, List.reverse_append, List.reverse_singleton, List.singleton_append,
      List.dropWhile_cons_of_neg (by simpa using hname.1)]
  refine filePlace_eq_ok_iff.mpr ⟨hpath, name, names.reverse, hlast, ?_, ?_⟩
  · rw [List.reverse_reverse, ← hparts]
    exact walk_name hparts hwalk hhere hname
  · rw [hparts, List.getLast?_concat]
    simp [hname.1, hname.2.1, hname.2.2]

end Name

/-- A path that ends in two dots names no file. -/
theorem filePlace_up {path : String} {names : List String}
    (hparts : Path.parts path = names ++ [".."]) (place : Place) : tree.filePlace path ≠ .ok place := by
  have hlast : (Path.parts path).reverse.dropWhile (· == "") = ".." :: names.reverse := by
    rw [hparts, List.reverse_append, List.reverse_singleton, List.singleton_append,
      List.dropWhile_cons_of_neg (by decide)]
  intro h
  obtain ⟨-, last, before, hlast', -, hname⟩ := filePlace_eq_ok_iff.mp h
  obtain ⟨rfl, -⟩ := List.cons.inj (hlast.symm.trans hlast')
  exact hname (.inr (.inr rfl))

/-! ## Writing -/

theorem names_ne_nil_of_ne_directory {place : Place} (h : tree.node? place ≠ some .directory) :
    place.names ≠ [] :=
  fun hnil => h (if_pos hnil)

theorem write_eq_ok_iff {path : String} {content : ByteArray} {after : FileTree} :
    tree.write path content = .ok after ↔
      ∃ (place : Place) (h : tree.filePlace path = .ok place), tree.node? place ≠ some .directory ∧
        after = tree.put place (.file content) (isProper_of_filePlace h) := by
  unfold write
  split
  next e he => simp [he]
  next place hplace =>
    split
    next hdirectory =>
      refine iff_of_false nofun ?_
      rintro ⟨other, hother, hfree, -⟩
      obtain rfl := Except.ok.inj (hplace.symm.trans hother)
      exact hfree hdirectory
    next hfree =>
      constructor
      · intro hok
        exact ⟨place, hplace, hfree, (Except.ok.inj hok).symm⟩
      · rintro ⟨other, hother, -, rfl⟩
        obtain rfl := Except.ok.inj (hplace.symm.trans hother)
        rfl

/-- A write puts the content at its place and leaves all other places as they are. -/
theorem node?_of_write {path : String} {content : ByteArray} {after : FileTree}
    (h : tree.write path content = .ok after) :
    ∃ place, tree.filePlace path = .ok place ∧ after.node? place = some (.file content) ∧
      ∀ other, other ≠ place → after.node? other = tree.node? other := by
  obtain ⟨place, hplace, hnode, rfl⟩ := write_eq_ok_iff.mp h
  have hnames := names_ne_nil_of_ne_directory hnode
  refine ⟨place, hplace, ?_, fun other hother => ?_⟩
  · rw [node?_put _ _ hnames, if_pos rfl]
  · rw [node?_put _ _ hnames, if_neg hother]

end FileTree

end PenPlot
