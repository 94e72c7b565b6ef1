import PenPlot.Text.Decimal

/-!
# Half pixels

Centers and radii of ellipses are multiples of one half with at most 53 significant bits, the precision of
common floating-point numbers. Sums are rounded to it, and a `Half` is written with the fewest digits that
round back to it (`nearest53_shortest`), in plain positional notation.

Below `2 ^ 53` every whole number has 53 bits to itself, so rounding and shortening only show beyond.
-/

namespace PenPlot.Svg

/-! ## Rounding -/

/-- The closest number with at most 53 significant bits; of two, the one whose last bit is zero. -/
def nearest53 (n : Nat) : Nat :=
  let unit := Nat.pow 2 (n.log2 + 1 - 53)
  let below := n / unit
  if 2 * (n % unit) < unit ∨ 2 * (n % unit) = unit ∧ below % 2 = 0 then below * unit
  else (below + 1) * unit

/-! ## Fewest digits -/

/-- The multiple of `10 ^ p` next to `n` that rounds to `n`; of two, the nearer, and the larger on a tie. -/
def onGrid? (n p : Nat) : Option Nat :=
  let grid := Nat.pow 10 p
  let low := n / grid * grid
  let high := low + grid
  if nearest53 high = n ∧ (nearest53 low ≠ n ∨ high - n ≤ n - low) then some high
  else if nearest53 low = n then some low
  else none

/-- The number found on the coarsest grid from `10 ^ p` down that has one. -/
def shortestFrom (n : Nat) : Nat → Nat
  | 0 => n
  | p + 1 => (onGrid? n (p + 1)).getD (shortestFrom n p)

/-- The number with the fewest significant digits that rounds to `n`. -/
def shortest (n : Nat) : Nat :=
  shortestFrom n (Nat.toDigits 10 n).length

theorem nearest53_onGrid? {n p m : Nat} (h : onGrid? n p = some m) : nearest53 m = n := by
  unfold onGrid? at h
  dsimp only at h
  split at h
  next hhigh => exact Option.some.inj h ▸ hhigh.1
  · split at h
    next hlow => exact Option.some.inj h ▸ hlow
    · contradiction

theorem nearest53_shortest {n : Nat} (h : nearest53 n = n) : nearest53 (shortest n) = n := by
  unfold shortest
  generalize (Nat.toDigits 10 n).length = p
  induction p with
  | zero => rwa [shortestFrom]
  | succ p ih =>
    rw [shortestFrom]
    cases hm : onGrid? n (p + 1) with
    | none => exact ih
    | some m => exact nearest53_onGrid? hm

/-! ## Halves -/

/-- Half of `twice`. -/
structure Half where
  twice : Int
deriving DecidableEq, Repr

namespace Half

/-- The closest half with at most 53 significant bits. -/
def round (h : Half) : Half :=
  ⟨h.twice.sign * nearest53 h.twice.natAbs⟩

def ofInt (i : Int) : Half :=
  round ⟨2 * i⟩

def add (a b : Half) : Half :=
  round ⟨a.twice + b.twice⟩

def text (h : Half) : String :=
  let digits :=
    if h.twice.natAbs % 2 = 0 then (shortest (h.twice.natAbs / 2)).repr
    else (h.twice.natAbs / 2).repr ++ ".5"
  if h.twice < 0 then "-" ++ digits else digits

end Half

end PenPlot.Svg
