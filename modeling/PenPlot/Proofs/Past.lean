import Mathlib.Data.List.Basic

/-!
# Entries and what came before them

What an entry of a history means may depend on those before it. `withPast` gives each entry together with
them, so that a history can be told entry by entry without running it.
-/

namespace PenPlot

variable {α : Type}

/-- Each entry behind the list of those before it. -/
def withPast (history : List α) : List (List α × α) :=
  history.zipIdx.map fun (entry, i) => (history.take i, entry)

theorem withPast_nil : withPast ([] : List α) = [] := rfl

theorem withPast_concat (history : List α) (entry : α) :
    withPast (history ++ [entry]) = withPast history ++ [(history, entry)] := by
  unfold withPast
  rw [List.zipIdx_append, List.map_append]
  congr 1
  · refine List.map_congr_left ?_
    rintro ⟨a, i⟩ hmem
    have hi : i < history.length := by simpa using (List.mem_zipIdx hmem).2.1
    dsimp only
    rw [List.take_append_of_le_length (Nat.le_of_lt hi)]
  · simp

end PenPlot
