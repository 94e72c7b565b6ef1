import PenPlot.Files.Basic
import PenPlot.Files.Path

/-!
# File trees

A `FileTree` is a file system in memory, as seen from the directory where paths start. Every part of a path but
the last has to be a directory, with `..` for the one above. Writing makes a file but no directory.

The tree stands in further directories, of which nothing is known but that they are there: `..` leads up to
them, and no name leads down from them to the tree. It has no root that a path could start from instead, so a
slash in front of a path counts for nothing: `/a` leads to where `a` does.

A place is on the tree only if no name on the way to it has a slash (`Place.IsProper`). Whatever a path leads to
is such a place (`isProper_of_walk`), so that writing keeps it so. `node?_put` says that a node put at a place is
found there, and that nothing changes at other places.
-/

namespace PenPlot

/-- What stands at a place of a tree. -/
inductive Node
  | file (content : ByteArray)
  | directory

/-- Files are compared by their bytes. -/
instance : DecidableEq Node
  | .file content, .file content' =>
    match content.decEq content' with
    | .isTrue h => .isTrue (congrArg _ h)
    | .isFalse h => .isFalse fun hfile => h (Node.file.inj hfile)
  | .directory, .directory => .isTrue rfl
  | .file _, .directory => .isFalse nofun
  | .directory, .file _ => .isFalse nofun

/-- Steps up from where paths start, and names from there downwards. -/
structure Place where
  above : Nat
  names : List String
deriving DecidableEq, Repr

namespace Place

/-- Where paths start. -/
def start : Place := ⟨0, []⟩

/-- The directory that a place is in. -/
def parent (place : Place) : Place :=
  if place.names = [] then ⟨place.above + 1, []⟩ else ⟨place.above, place.names.dropLast⟩

def child (place : Place) (name : String) : Place :=
  ⟨place.above, place.names ++ [name]⟩

/-- The name of a file or a directory has no slash in it. -/
def IsProper (place : Place) : Prop :=
  ∀ name ∈ place.names, '/' ∉ name.toList

instance (place : Place) : Decidable place.IsProper :=
  List.decidableBAll (fun name : String => '/' ∉ name.toList) place.names

theorem IsProper.take {place : Place} (h : place.IsProper) (depth : Nat) :
    IsProper ⟨place.above, place.names.take depth⟩ :=
  fun name hname => h name (List.mem_of_mem_take hname)

theorem IsProper.parent {place : Place} (h : place.IsProper) : place.parent.IsProper := by
  unfold Place.parent
  split
  · exact nofun
  · exact fun name hname => h name ((List.dropLast_sublist _).subset hname)

theorem IsProper.child {place : Place} (h : place.IsProper) {name : String} (hname : '/' ∉ name.toList) :
    (place.child name).IsProper :=
  List.forall_mem_append.mpr ⟨h, List.forall_mem_singleton.mpr hname⟩

end Place

/-- The nodes by their places, one at each; where a place has no names, there always is a directory. -/
structure FileTree where
  nodes : List (Place × Node)
  distinct : nodes.Pairwise fun a b => a.1 ≠ b.1
  proper : ∀ entry ∈ nodes, entry.1.IsProper

namespace FileTree

def empty : FileTree := ⟨[], .nil, nofun⟩

def node? (tree : FileTree) (place : Place) : Option Node :=
  if place.names = [] then some .directory else tree.nodes.lookup place

/-- Where something stands, the names are proper. -/
theorem isProper_of_isSome {tree : FileTree} {place : Place} (h : (tree.node? place).isSome) :
    place.IsProper := by
  unfold node? at h
  split at h
  next hnil => simp [Place.IsProper, hnil]
  next =>
    obtain ⟨entry, hentry, hplace⟩ := List.lookup_isSome_iff.mp h
    rw [beq_iff_eq.mp hplace]
    exact tree.proper entry hentry

/-- Puts a node at a place, instead of the one that stands there. -/
def put (tree : FileTree) (place : Place) (node : Node) (h : place.IsProper) : FileTree where
  nodes := (place, node) :: tree.nodes.filter (·.1 ≠ place)
  distinct := by
    refine .cons (fun entry h => ?_) (tree.distinct.filter _)
    obtain ⟨-, hne⟩ := List.mem_filter.mp h
    exact (of_decide_eq_true hne).symm
  proper := List.forall_mem_cons.mpr ⟨h, fun entry hentry => tree.proper entry (List.mem_filter.mp hentry).1⟩

theorem lookup_filter_ne {place other : Place} (h : other ≠ place) (nodes : List (Place × Node)) :
    (nodes.filter (·.1 ≠ place)).lookup other = nodes.lookup other := by
  induction nodes with
  | nil => rfl
  | cons entry nodes ih =>
    obtain ⟨here, node⟩ := entry
    by_cases hp : here = place
    · subst hp
      rw [List.filter_cons_of_neg (by simp), ih, List.lookup_cons, beq_false_of_ne h]
    · rw [List.filter_cons_of_pos (by simpa using hp), List.lookup_cons, List.lookup_cons, ih]

theorem node?_put (tree : FileTree) {place : Place} (h : place.IsProper) (hplace : place.names ≠ [])
    (node : Node) (other : Place) :
    (tree.put place node h).node? other = if other = place then some node else tree.node? other := by
  unfold node? put
  by_cases hroot : other.names = []
  · have hne : other ≠ place := fun h => hplace (h ▸ hroot)
    rw [if_pos hroot, if_pos hroot, if_neg hne]
  · by_cases h : other = place
    · simp [h, hplace]
    · rw [if_neg hroot, if_neg hroot, if_neg h, List.lookup_cons, beq_false_of_ne h]
      exact lookup_filter_ne h tree.nodes

/-- Makes a directory and those above it where nothing stands yet. There is none whose name has a slash. -/
def makeDirectory (tree : FileTree) (place : Place) : FileTree :=
  if h : place.IsProper then
    (List.range (place.names.length + 1)).foldl (fun made depth =>
      let here : Place := ⟨place.above, place.names.take depth⟩
      match made.node? here with
      | some _ => made
      | none => made.put here .directory (h.take depth)) tree
  else tree

/-- Makes a file and the directories above it. There is none whose name has a slash. -/
def makeFile (tree : FileTree) (place : Place) (content : ByteArray) : FileTree :=
  if h : place.IsProper then (tree.makeDirectory place.parent).put place (.file content) h else tree

/-- The files at and below where paths start. -/
def files (tree : FileTree) : List (Place × ByteArray) :=
  tree.nodes.filterMap fun
    | (place, .file content) => if place.above = 0 then some (place, content) else none
    | (_, .directory) => none

/-- The files of `after` that are not in the tree or have another content there. -/
def changes (tree after : FileTree) : List (Place × ByteArray) :=
  after.files.filter fun file => tree.node? file.1 ≠ some (.file file.2)

/-! ## Following a path -/

/-- One step from a place, which has to be a directory. -/
def step (tree : FileTree) (place : Place) (part : String) : Except FileError Place :=
  match tree.node? place with
  | none => .error .notFound
  | some (.file _) => .error .notDirectory
  | some .directory =>
    if Path.isStay part then .ok place
    else if part = ".." then .ok place.parent
    else .ok (place.child part)

/-- The place that parts lead to from another one; nothing need stand there. -/
def walk (tree : FileTree) (place : Place) : List String → Except FileError Place
  | [] => .ok place
  | part :: parts =>
    match tree.step place part with
    | .error e => .error e
    | .ok next => tree.walk next parts

/-- A step starts in a directory, and stays there, goes up, or goes to something in it. -/
theorem step_eq_ok_iff {tree : FileTree} {place next : Place} {part : String} :
    tree.step place part = .ok next ↔
      tree.node? place = some .directory ∧
        next = if Path.isStay part then place else if part = ".." then place.parent else place.child part := by
  unfold step
  cases h : tree.node? place with
  | none => simp
  | some node =>
    cases node with
    | file content => simp
    | directory =>
      simp only [true_and]
      split
      · simp [eq_comm]
      · split <;> simp [eq_comm]

/-- What each step of a walk keeps still holds where the walk ends. -/
theorem walk_invariant {tree : FileTree} {P : Place → Prop} {place next : Place} {parts : List String}
    (h : P place)
    (hstep : ∀ part ∈ parts, ∀ {here there : Place}, P here → tree.step here part = .ok there → P there)
    (hwalk : tree.walk place parts = .ok next) : P next := by
  induction parts generalizing place with
  | nil =>
    obtain rfl := Except.ok.inj hwalk
    exact h
  | cons part parts ih =>
    obtain ⟨hfirst, hrest⟩ := List.forall_mem_cons.mp hstep
    rw [walk] at hwalk
    cases hmiddle : tree.step place part with
    | error e =>
      rw [hmiddle] at hwalk
      cases hwalk
    | ok middle =>
      rw [hmiddle] at hwalk
      exact ih (hfirst h hmiddle) hrest hwalk

theorem isProper_of_step {tree : FileTree} {place next : Place} {part : String} (h : place.IsProper)
    (hpart : '/' ∉ part.toList) (hstep : tree.step place part = .ok next) : next.IsProper := by
  obtain ⟨-, rfl⟩ := step_eq_ok_iff.mp hstep
  split
  · exact h
  · split
    · exact h.parent
    · exact h.child hpart

theorem isProper_of_walk {tree : FileTree} {place next : Place} {parts : List String} (h : place.IsProper)
    (hparts : ∀ part ∈ parts, '/' ∉ part.toList) (hwalk : tree.walk place parts = .ok next) :
    next.IsProper :=
  walk_invariant h (fun part hpart _ _ hhere => isProper_of_step hhere (hparts part hpart)) hwalk

/-- The node at a path. -/
def find (tree : FileTree) (path : String) : Except FileError (Place × Node) :=
  if path = "" then .error .notFound else
    match tree.walk .start (Path.parts path) with
    | .error e => .error e
    | .ok place =>
      match tree.node? place with
      | none => .error .notFound
      | some node => .ok (place, node)

/-! ## Operations -/

def read (tree : FileTree) (path : String) : Except FileError ByteArray :=
  match tree.find path with
  | .error e => .error e
  | .ok (_, .directory) => .error .isDirectory
  | .ok (_, .file content) => .ok content

def list (tree : FileTree) (path : String) : Except FileError (List String) :=
  match tree.find path with
  | .error e => .error e
  | .ok (_, .file _) => .error .notDirectory
  | .ok (place, .directory) =>
    .ok (tree.nodes.filterMap fun entry =>
      if entry.1.parent = place then entry.1.names.getLast? else none)

/-- The place at which a path names a file; one that ends like a directory names none. -/
def filePlace (tree : FileTree) (path : String) : Except FileError Place :=
  if path = "" then .error .notFound else
    let parts := Path.parts path
    match parts.reverse.dropWhile (· == "") with
    | [] => .error .isDirectory
    | last :: before =>
      match tree.walk .start (before.reverse ++ [last]) with
      | .error e => .error e
      | .ok place =>
        if parts.getLast? = some "" ∨ last = "." ∨ last = ".." then .error .isDirectory
        else .ok place

/-- The last part of a path names a file, unless it leads to a directory or a slash is behind it. -/
theorem filePlace_eq_ok_iff {tree : FileTree} {path : String} {place : Place} :
    tree.filePlace path = .ok place ↔
      path ≠ "" ∧ ∃ last before, (Path.parts path).reverse.dropWhile (· == "") = last :: before ∧
        tree.walk .start (before.reverse ++ [last]) = .ok place ∧
        ¬((Path.parts path).getLast? = some "" ∨ last = "." ∨ last = "..") := by
  unfold filePlace
  by_cases hpath : path = ""
  · simp [hpath]
  · rw [if_neg hpath]
    dsimp only
    cases (Path.parts path).reverse.dropWhile (· == "") with
    | nil => simp
    | cons last before =>
      cases hwalk : tree.walk .start (before.reverse ++ [last]) with
      | error e => grind
      | ok next => grind

theorem isProper_of_filePlace {tree : FileTree} {path : String} {place : Place}
    (h : tree.filePlace path = .ok place) : place.IsProper := by
  obtain ⟨-, last, before, hparts, hwalk, -⟩ := filePlace_eq_ok_iff.mp h
  have hstart : Place.start.IsProper := nofun
  refine isProper_of_walk hstart (fun part hpart => ?_) hwalk
  have hmem : part ∈ (Path.parts path).reverse.dropWhile (· == "") := by
    rw [hparts]
    simpa [or_comm] using hpart
  have hpath := List.mem_reverse.mp ((List.dropWhile_sublist _).subset hmem)
  exact Path.slash_notMem_of_mem_parts hpath

def write (tree : FileTree) (path : String) (content : ByteArray) : Except FileError FileTree :=
  match h : tree.filePlace path with
  | .error e => .error e
  | .ok place =>
    match tree.node? place with
    | some .directory => .error .isDirectory
    | _ => .ok (tree.put place (.file content) (isProper_of_filePlace h))

instance : MonadFiles (StateM FileTree) where
  read path := do return (← get).read path
  list path := do return (← get).list path
  write path content := do
    match (← get).write path content with
    | .error e => return .error e
    | .ok tree =>
      set tree
      return .ok ()

end FileTree

end PenPlot
