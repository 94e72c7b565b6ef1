import PenPlot.Color
import PenPlot.Text.Decimal

/-!
# Arguments of a command

A `Slot` is a place for one argument: an integer, a pen or a switch. `Args slots` holds one value for each
slot of a list, so whoever takes an argument list apart need not look at its length or types again.

`read?_write` says that a value reads back from the word that is written for it.
-/

namespace PenPlot

/-! ## Switches -/

namespace Toggle

def name (on : Bool) : String :=
  if on then "on" else "off"

/-- The switch position of that name in any case. -/
def ofName? (s : String) : Option Bool :=
  if Text.sameLetters s "on" then some true
  else if Text.sameLetters s "off" then some false
  else none

theorem ofName?_name (on : Bool) : ofName? (name on) = some on := by
  cases on <;> decide

end Toggle

/-! ## One argument -/

/-- What an argument has to be. -/
inductive Slot
  | int
  | color
  | toggle
deriving DecidableEq, Repr

namespace Slot

/-- The values that fit a slot. -/
def Value : Slot → Type
  | .int => Int32
  | .color => Pen
  | .toggle => Bool

def read? : (slot : Slot) → String → Option slot.Value
  | .int, s => Text.Decimal.readInt32? s
  | .color, s => Pen.ofName? s
  | .toggle, s => Toggle.ofName? s

def write : (slot : Slot) → slot.Value → String
  | .int, i => Text.Decimal.ofInt (Int32.toInt i)
  | .color, pen => Pen.name pen
  | .toggle, on => Toggle.name on

theorem read?_write (slot : Slot) (value : slot.Value) :
    slot.read? (slot.write value) = some value := by
  cases slot with
  | int => exact Text.Decimal.readInt32?_ofInt value
  | color => exact Pen.ofName?_name value
  | toggle => exact Toggle.ofName?_name value

end Slot

/-! ## Argument lists -/

/-- One value for each slot of a list. -/
def Args : List Slot → Type
  | [] => Unit
  | slot :: slots => slot.Value × Args slots

/-- The words of an argument list, each behind a space. -/
def Args.text : {slots : List Slot} → Args slots → String
  | [], () => ""
  | slot :: _, (value, values) => " " ++ slot.write value ++ Args.text values

end PenPlot
