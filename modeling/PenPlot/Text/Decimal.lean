/-!
# Decimal integers

Integers are written in decimal with a minus sign only where they are negative, and read with an optional
sign and any number of leading zeros. `readInt?_ofInt` and `readInt32?_ofInt` say that what is written reads
back.
-/

namespace PenPlot.Text.Decimal

/-- The digits of `i`, behind a minus sign if it is negative. -/
def ofInt (i : Int) : String :=
  if i < 0 then "-" ++ i.natAbs.repr else i.natAbs.repr

/-- One or more digits. -/
def readNat? (cs : List Char) : Option Nat :=
  if cs ≠ [] ∧ cs.all Char.isDigit then some (Nat.ofDigitChars 10 cs 0) else none

/-- One or more digits behind at most one sign. -/
def readInt? : List Char → Option Int
  | '-' :: cs => (readNat? cs).map fun n : Nat => -(n : Int)
  | '+' :: cs => (readNat? cs).map fun n : Nat => (n : Int)
  | cs => (readNat? cs).map fun n : Nat => (n : Int)

/-- A decimal integer of 32 bits; one beyond them is refused. -/
def readInt32? (s : String) : Option Int32 :=
  match readInt? s.toList with
  | some i =>
    if Int32.minValue.toInt ≤ i ∧ i ≤ Int32.maxValue.toInt then some (Int32.ofInt i) else none
  | none => none

theorem readNat?_toDigits (n : Nat) : readNat? (Nat.toDigits 10 n) = some n := by
  have h : (Nat.toDigits 10 n).all Char.isDigit = true := by
    rw [List.all_eq_true]
    exact fun c hc => Nat.isDigit_of_mem_toDigits (by decide) (by decide) hc
  simp [readNat?, h]

theorem readInt?_ofInt (i : Int) : readInt? (ofInt i).toList = some i := by
  unfold ofInt
  split
  · have hlist : ("-" ++ i.natAbs.repr).toList = '-' :: Nat.toDigits 10 i.natAbs := by simp
    have hneg : -(i.natAbs : Int) = i := by omega
    rw [hlist, readInt?, readNat?_toDigits, Option.map_some, hneg]
  · have hne : Nat.toDigits 10 i.natAbs ≠ [] := Nat.toDigits_ne_nil
    have hdigit : ∀ c ∈ Nat.toDigits 10 i.natAbs, c.isDigit = true := fun c hc =>
      Nat.isDigit_of_mem_toDigits (by decide) (by decide) hc
    have hread := readNat?_toDigits i.natAbs
    simp only [Nat.toList_repr]
    generalize Nat.toDigits 10 i.natAbs = cs at *
    cases cs with
    | nil => contradiction
    | cons c cs =>
      have hc := hdigit c (by simp)
      have hminus : c ≠ '-' := by rintro rfl; contradiction
      have hplus : c ≠ '+' := by rintro rfl; contradiction
      unfold readInt?
      split
      · simp_all
      · simp_all
      · have hpos : (i.natAbs : Int) = i := by omega
        rw [hread, Option.map_some, hpos]

theorem readInt32?_ofInt (i : Int32) : readInt32? (ofInt i.toInt) = some i := by
  have hlo := i.minValue_le_toInt
  have hhi := i.toInt_le
  rw [readInt32?, readInt?_ofInt]
  simp only []
  rw [if_pos ⟨hlo, hhi⟩, Int32.ofInt_toInt]

end PenPlot.Text.Decimal
