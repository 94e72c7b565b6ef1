import PenPlot.Command.Argument

/-!
# Keywords

Each command begins with a `Keyword`, and `Keyword.slots` lists the slots of its arguments in order.
-/

namespace PenPlot

inductive Keyword
  | position
  | pen
  | draw
  | clear
  | reset
  | rectangle
  | circle
  | triangle
  | fill
deriving DecidableEq, Repr

namespace Keyword

def all : List Keyword :=
  [.position, .pen, .draw, .clear, .reset, .rectangle, .circle, .triangle, .fill]

def name : Keyword → String
  | .position => "position"
  | .pen => "pen"
  | .draw => "draw"
  | .clear => "clear"
  | .reset => "reset"
  | .rectangle => "rectangle"
  | .circle => "circle"
  | .triangle => "triangle"
  | .fill => "fill"

/-- The keyword of that name in any case. -/
def ofName? (s : String) : Option Keyword :=
  all.find? fun keyword => Text.sameLetters s keyword.name

def slots : Keyword → List Slot
  | .position => [.int, .int]
  | .pen => [.color]
  | .draw => [.int, .int]
  | .clear => []
  | .reset => []
  | .rectangle => [.int, .int]
  | .circle => [.int]
  | .triangle => [.int, .int, .int, .int, .int, .int]
  | .fill => [.toggle]

def arity (keyword : Keyword) : Nat :=
  keyword.slots.length

/-- Only a keyword without arguments refuses further words; the others leave them unread. -/
def isStrict (keyword : Keyword) : Bool :=
  keyword.slots.isEmpty

theorem mem_all (keyword : Keyword) : keyword ∈ all := by
  cases keyword <;> decide

theorem ofName?_name (keyword : Keyword) : ofName? keyword.name = some keyword := by
  cases keyword <;> decide

/-- The names are in lower case. -/
theorem fold_name (keyword : Keyword) : Text.fold keyword.name.toList = keyword.name.toList := by
  cases keyword <;> decide

/-- No keyword begins with another. -/
theorem eq_of_prefix {k k' : Keyword} (h : k.name.toList <+: k'.name.toList) : k = k' := by
  have hall : ∀ k ∈ all, ∀ k' ∈ all, k.name.toList <+: k'.name.toList → k = k' := by decide
  exact hall k k.mem_all k' k'.mem_all h

end Keyword

end PenPlot
