import PenPlot.Drawing.Call

/-!
# Surfaces

A `Surface` is anything that can carry out a drawing call. The plainest one is a `Recording`, which only
keeps the calls; its `log` has one line for each.
-/

namespace PenPlot

class Surface (σ : Type) where
  draw : σ → Call → σ

namespace Surface

variable {σ : Type} [Surface σ]

/-- Carries out the calls in order. -/
def drawAll (surface : σ) (calls : List Call) : σ :=
  calls.foldl draw surface

@[simp] theorem drawAll_nil (surface : σ) : drawAll surface [] = surface := rfl

@[simp] theorem drawAll_cons (surface : σ) (call : Call) (calls : List Call) :
    drawAll surface (call :: calls) = drawAll (draw surface call) calls := rfl

@[simp] theorem drawAll_append (surface : σ) (calls more : List Call) :
    drawAll surface (calls ++ more) = drawAll (drawAll surface calls) more :=
  List.foldl_append

end Surface

/-- The calls that a surface was given, oldest first. -/
structure Recording where
  calls : Array Call
deriving DecidableEq, Repr

namespace Recording

def empty : Recording := ⟨#[]⟩

instance : Surface Recording where
  draw recording call := ⟨recording.calls.push call⟩

def log (recording : Recording) : String :=
  String.join (recording.calls.toList.map fun call => call.text ++ "\n")

theorem toList_drawAll (recording : Recording) (calls : List Call) :
    (Surface.drawAll recording calls).calls.toList = recording.calls.toList ++ calls := by
  induction calls generalizing recording with
  | nil => simp
  | cons call calls ih => simp [ih, Surface.draw]

end Recording

end PenPlot
