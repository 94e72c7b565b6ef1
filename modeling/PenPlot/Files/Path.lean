/-!
# Paths

A path is names between slashes. Its last name is found behind empty parts and dots, and is split into a stem
and an extension at its last dot, unless that is its first character.
-/

namespace PenPlot.Path

/-- The part up to the first slash, and the parts behind it. -/
def cut : List Char → List Char × List (List Char)
  | [] => ([], [])
  | c :: cs =>
    if c = '/' then ([], (cut cs).1 :: (cut cs).2) else (c :: (cut cs).1, (cut cs).2)

/-- The stretches between slashes, which may be empty. -/
def parts (path : String) : List String :=
  String.ofList (cut path.toList).1 :: (cut path.toList).2.map String.ofList

theorem slash_notMem_cut (cs : List Char) :
    '/' ∉ (cut cs).1 ∧ ∀ part ∈ (cut cs).2, '/' ∉ part := by
  induction cs with
  | nil => simp [cut]
  | cons c cs ih =>
    rw [cut]
    split
    next => exact ⟨by simp, List.forall_mem_cons.mpr ih⟩
    next h => exact ⟨by simpa [Ne.symm h] using ih.1, ih.2⟩

theorem slash_notMem_of_mem_parts {path part : String} (h : part ∈ parts path) :
    '/' ∉ part.toList := by
  obtain ⟨hfirst, hothers⟩ := slash_notMem_cut path.toList
  rcases List.mem_cons.mp h with rfl | h
  · rwa [String.toList_ofList]
  · obtain ⟨cs, hcs, rfl⟩ := List.mem_map.mp h
    rw [String.toList_ofList]
    exact hothers cs hcs

/-- A part that leads to where one already is. -/
def isStay (part : String) : Bool :=
  part == "" || part == "."

/-- The last name of a path and the parts before it, last first. -/
def lastName? (path : String) : Option (String × List String) :=
  match (parts path).reverse.dropWhile isStay with
  | [] => none
  | name :: before => if name = ".." then none else some (name, before)

/-- The stem and the extension of a name. -/
def splitName (name : String) : String × Option String :=
  let cs := name.toList.reverse
  match cs.dropWhile (· != '.') with
  | [] | [_] => (name, none)
  | _ :: stem => (String.ofList stem.reverse, some (String.ofList (cs.takeWhile (· != '.')).reverse))

/-- The path with another extension of its last name; a path without one stays as it is. The old extension
goes first, and where that leaves two dots, they are the directory above and take no extension. -/
def withExtension (path extension : String) : String :=
  match lastName? path with
  | none => path
  | some (name, before) =>
    let directory := String.join (before.reverse.map (· ++ "/"))
    let stem := (splitName name).1
    if stem = "." then directory ++ ".." else directory ++ stem ++ "." ++ extension

end PenPlot.Path
