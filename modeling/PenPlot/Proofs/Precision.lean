import PenPlot.Proofs.Exact

/-!
# What 53 bits hold

The numbers that `nearest53` gives are those of the form `m * 2 ^ e` with `m ≤ 2 ^ 53`, and it leaves them as
they are (`nearest53_eq_self_iff`); half of an even one is again one (`nearest53_half`). Halves of such numbers
fit (`Half.Fits`), and every half that was rounded fits (`Half.fits_round`).
-/

namespace PenPlot.Svg

/-! ## Fixed points of rounding -/

/-- A number on the grid of its own size stays. -/
theorem nearest53_of_dvd {n : Nat} (h : 2 ^ (n.log2 + 1 - 53) ∣ n) : nearest53 n = n := by
  have hmod : n % Nat.pow 2 (n.log2 + 1 - 53) = 0 := Nat.mod_eq_zero_of_dvd h
  have hpos : 0 < Nat.pow 2 (n.log2 + 1 - 53) := Nat.two_pow_pos _
  unfold nearest53
  dsimp only
  rw [hmod, if_pos (.inl hpos)]
  exact Nat.div_mul_cancel h

theorem nearest53_mul_pow {m e : Nat} (h : m ≤ 2 ^ 53) : nearest53 (m * 2 ^ e) = m * 2 ^ e := by
  have hfew : ∀ {m e : Nat}, m < 2 ^ 53 → nearest53 (m * 2 ^ e) = m * 2 ^ e := by
    intro m e hm
    have hlt : m * 2 ^ e < 2 ^ (53 + e) := by
      rw [Nat.pow_add]
      exact Nat.mul_lt_mul_of_pos_right hm (Nat.two_pow_pos e)
    refine nearest53_of_dvd (Nat.dvd_trans (Nat.pow_dvd_pow 2 ?_) (Nat.dvd_mul_left _ m))
    by_cases hzero : m * 2 ^ e = 0
    · rw [hzero, Nat.log2_zero]
      omega
    · have := (Nat.log2_lt hzero).mpr hlt
      omega
  rcases Nat.lt_or_eq_of_le h with hlt | rfl
  · exact hfew hlt
  · -- the one number of 54 bits that is allowed has a shorter factor
    have hshift : 2 ^ 53 * 2 ^ e = 2 ^ 52 * 2 ^ (e + 1) := by
      rw [← Nat.pow_add, ← Nat.pow_add]
      congr 1
      omega
    rw [hshift]
    exact hfew (by decide)

theorem exists_nearest53 (n : Nat) : ∃ m e, m ≤ 2 ^ 53 ∧ nearest53 n = m * 2 ^ e := by
  have hlt : n < 2 ^ 53 * 2 ^ (n.log2 + 1 - 53) := by
    have hsize : n < 2 ^ (n.log2 + 1) := Nat.lt_log2_self
    rw [← Nat.pow_add]
    exact Nat.lt_of_lt_of_le hsize (Nat.pow_le_pow_right (by decide) (by omega))
  have hbelow : n / 2 ^ (n.log2 + 1 - 53) < 2 ^ 53 :=
    (Nat.div_lt_iff_lt_mul (Nat.two_pow_pos _)).mpr hlt
  unfold nearest53
  dsimp only
  split
  · exact ⟨_, n.log2 + 1 - 53, Nat.le_of_lt hbelow, rfl⟩
  · exact ⟨_, n.log2 + 1 - 53, hbelow, rfl⟩

theorem nearest53_eq_self_iff {n : Nat} : nearest53 n = n ↔ ∃ m e, m ≤ 2 ^ 53 ∧ n = m * 2 ^ e := by
  constructor
  · intro h
    obtain ⟨m, e, hm, hn⟩ := exists_nearest53 n
    exact ⟨m, e, hm, h.symm.trans hn⟩
  · rintro ⟨m, e, hm, rfl⟩
    exact nearest53_mul_pow hm

theorem nearest53_nearest53 (n : Nat) : nearest53 (nearest53 n) = nearest53 n :=
  nearest53_eq_self_iff.mpr (exists_nearest53 n)

theorem nearest53_half {n : Nat} (heven : n % 2 = 0) (h : nearest53 n = n) :
    nearest53 (n / 2) = n / 2 := by
  obtain ⟨m, e, hm, rfl⟩ := nearest53_eq_self_iff.mp h
  cases e with
  | zero =>
    refine nearest53_of_lt ?_
    have : m * 2 ^ 0 = m := by simp
    omega
  | succ e =>
    have hhalf : m * 2 ^ (e + 1) / 2 = m * 2 ^ e := by
      rw [Nat.pow_succ, ← Nat.mul_assoc, Nat.mul_div_cancel _ (by decide)]
    rw [hhalf]
    exact nearest53_mul_pow hm

/-! ## Halves -/

namespace Half

/-- The half has at most 53 significant bits. -/
def Fits (h : Half) : Prop :=
  nearest53 h.twice.natAbs = h.twice.natAbs

theorem fits_round (h : Half) : h.round.Fits := by
  have habs : h.round.twice.natAbs = nearest53 h.twice.natAbs := by
    rw [round, Int.natAbs_mul, Int.natAbs_natCast]
    by_cases hzero : h.twice = 0
    · rw [hzero]
      decide
    · rw [Int.natAbs_sign_of_ne_zero hzero, Nat.one_mul]
  rw [Fits, habs, nearest53_nearest53]

theorem fits_add (a b : Half) : (add a b).Fits :=
  fits_round _

theorem fits_of_lt {h : Half} (hlt : h.twice.natAbs < 2 ^ 53) : h.Fits :=
  nearest53_of_lt hlt

end Half

end PenPlot.Svg
