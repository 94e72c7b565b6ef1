import PenPlot.Command.Parse
import PenPlot.Proofs.Results

/-!
# Reading into a plain list

The arguments of a command are read into a list that is typed by its slots. Here they are read into a plain
list instead (`readPlain`), and `Command.build` then matches the keyword and the list against the nine
commands, with a fault for what matches none of them. It is never needed: `readPlain` gives the values of
`readArgs` without their types (`readPlain_eq`), and for each keyword the values that its slots admit
match its own command (`Command.build_plain`).
-/

namespace PenPlot

open Text (Token)

/-- A value that does not belong to a slot. -/
inductive PlainValue
  | int (i : Int32)
  | color (pen : Pen)
  | toggle (on : Bool)
deriving DecidableEq, Repr

def Slot.plain : (slot : Slot) → slot.Value → PlainValue
  | .int, i => .int i
  | .color, pen => .color pen
  | .toggle, on => .toggle on

def Args.plain : {slots : List Slot} → Args slots → List PlainValue
  | [], () => []
  | slot :: _, (value, values) => slot.plain value :: Args.plain values

/-- Reads a word for each slot, as far as there are words. -/
def readPlain (keyword : Keyword) : List Slot → (position : Nat) → List Token →
    Except Fault (List PlainValue)
  | slot :: slots, position, word :: words =>
    match slot.read? word.text with
    | none => .error ⟨slot.mismatch keyword position word.text, word.span⟩
    | some value => (readPlain keyword slots (position + 1) words).map (slot.plain value :: ·)
  | _, _, _ => .ok []

theorem readPlain_eq (keyword : Keyword) {slots : List Slot} (position : Nat) {words : List Token}
    (h : slots.length ≤ words.length) :
    readPlain keyword slots position words =
      (readArgs keyword slots position words h).map Args.plain := by
  induction slots generalizing position words with
  | nil => rfl
  | cons slot slots ih =>
    cases words with
    | nil => cases h
    | cons word words =>
      unfold readPlain readArgs
      cases slot.read? word.text with
      | none => rfl
      | some value =>
        have hrest := ih (position + 1) (Nat.le_of_succ_le_succ h)
        dsimp only
        rw [hrest]
        cases readArgs keyword slots (position + 1) words (Nat.le_of_succ_le_succ h) <;> rfl

namespace Command

/-- The command that a keyword makes with these values; `head` is blamed where they make none. -/
def build (keyword : Keyword) (values : List PlainValue) (head : Token) : Except Fault Command :=
  match keyword, values with
  | .position, [.int x, .int y] => .ok (.position ⟨x, y⟩)
  | .pen, [.color color] => .ok (.pen color)
  | .draw, [.int x, .int y] => .ok (.draw ⟨x, y⟩)
  | .clear, [] => .ok .clear
  | .reset, [] => .ok .reset
  | .rectangle, [.int width, .int height] => .ok (.rectangle ⟨width, height⟩)
  | .circle, [.int radius] => .ok (.circle radius)
  | .triangle, [.int x₁, .int y₁, .int x₂, .int y₂, .int x₃, .int y₃] =>
    .ok (.triangle ⟨x₁, y₁⟩ ⟨x₂, y₂⟩ ⟨x₃, y₃⟩)
  | .fill, [.toggle on] => .ok (.fill on)
  | _, _ => .error ⟨.missingArguments keyword values.length, head.span⟩

theorem build_plain (keyword : Keyword) (values : Args keyword.slots) (head : Token) :
    build keyword values.plain head = .ok (ofArgs keyword values) := by
  cases keyword <;> rfl

/-- So a command is built from whatever was read, and it is the one that reading with types gives. -/
theorem readPlain_bind_build (keyword : Keyword) {words : List Token}
    (h : keyword.arity ≤ words.length) (head : Token) :
    (readPlain keyword keyword.slots 1 words).bind (build keyword · head) =
      (readArgs keyword keyword.slots 1 words h).map (ofArgs keyword) := by
  rw [readPlain_eq keyword 1 h]
  cases readArgs keyword keyword.slots 1 words h with
  | error fault => rfl
  | ok values => exact build_plain keyword values head

theorem exists_build {keyword : Keyword} {words : List Token} (h : keyword.arity ≤ words.length)
    {values : List PlainValue} (hvalues : readPlain keyword keyword.slots 1 words = .ok values)
    (head : Token) : ∃ command, build keyword values head = .ok command := by
  rw [readPlain_eq keyword 1 h] at hvalues
  obtain ⟨args, -, rfl⟩ := map_eq_ok_iff.mp hvalues
  exact ⟨_, build_plain keyword args head⟩

end Command

end PenPlot
