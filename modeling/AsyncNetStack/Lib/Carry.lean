import Mathlib.Data.Nat.ModEq
import Mathlib.Tactic.Ring

-- End-around carry: a sum is reduced to a single digit of base `b` by adding its carries back in.
-- This preserves the sum modulo `b - 1`, and keeps the two representations of zero apart: a sum
-- that is not zero never becomes zero.
namespace Carry

-- The digit `r` is what is left of the sum `n`.
structure Folds (b n r : Nat) : Prop where
  lt    : r < b
  modEq : r ≡ n [MOD b - 1]
  zero  : r = 0 ↔ n = 0

theorem add_carry_modEq {b : Nat} (hb : 0 < b) (n : Nat) : n % b + n / b ≡ n [MOD b - 1] := by
  have hdigit : b ≡ 1 [MOD b - 1] := by
    have h : (b - 1) + 1 ≡ 1 [MOD b - 1] := Nat.add_modEq_left
    rwa [Nat.sub_add_cancel hb] at h
  calc n % b + n / b
    _ = n % b + 1 * (n / b)         := by rw [Nat.one_mul]
    _ ≡ n % b + b * (n / b) [MOD _] := (hdigit.symm.mul_right _).add_left _
    _ = n                           := Nat.mod_add_div n b

namespace Folds

variable {b n r : Nat}

theorem refl (h : n < b) : Folds b n n :=
  ⟨h, .rfl, .rfl⟩

theorem step (hb : 0 < b) (h : Folds b (n % b + n / b) r) : Folds b n r where
  lt    := h.lt
  modEq := h.modEq.trans (add_carry_modEq hb n)
  zero  := by
    have hn := Nat.mod_add_div n b
    rw [h.zero, Nat.add_eq_zero_iff]
    constructor
    case mp =>
      intro ⟨hmod, hdiv⟩
      rw [hmod, hdiv] at hn
      exact hn.symm
    case mpr =>
      intro hz
      rw [hz]
      exact ⟨Nat.zero_mod b, Nat.zero_div b⟩

-- The largest digit is the representation of zero that sums other than zero have.
theorem eq_top_iff (hb : 2 ≤ b) (h : Folds b n r) : r = b - 1 ↔ 0 < n ∧ b - 1 ∣ n := by
  have hlt := h.lt
  constructor
  case mp =>
    intro hr
    have hn : n ≠ 0 := h.zero.not.mp (by omega)
    have hd : r ≡ 0 [MOD b - 1] := by rw [hr]; exact Nat.modEq_zero_iff_dvd.mpr (Nat.dvd_refl _)
    exact ⟨Nat.pos_of_ne_zero hn, Nat.modEq_zero_iff_dvd.mp (h.modEq.symm.trans hd)⟩
  case mpr =>
    intro ⟨hn, hd⟩
    have hr : r ≠ 0 := h.zero.not.mpr (by omega)
    have hd' : b - 1 ∣ r :=
      Nat.modEq_zero_iff_dvd.mp (h.modEq.trans (Nat.modEq_zero_iff_dvd.mpr hd))
    have := Nat.le_of_dvd (Nat.pos_of_ne_zero hr) hd'
    omega

-- The complement of its digit makes a sum a multiple of `b - 1`.
theorem dvd_add_complement (h : Folds b n r) : b - 1 ∣ n + (b - 1 - r) := by
  have hlt := h.lt
  have hr : n + (b - 1 - r) ≡ r + (b - 1 - r) [MOD b - 1] := h.modEq.symm.add_right _
  rw [Nat.add_sub_cancel' (by omega)] at hr
  exact Nat.modEq_zero_iff_dvd.mp (hr.trans (Nat.modEq_zero_iff_dvd.mpr (Nat.dvd_refl _)))

theorem complement_pos (hb : 2 ≤ b) (h : Folds b n r) : 0 < n + (b - 1 - r) := by
  have := h.zero
  omega

end Folds

-- A change by less than `d` is visible modulo `d`.
theorem not_dvd_of_near {d m n k : Nat} (h : d ∣ m) (hk : 0 < k) (hd : k < d)
    (hmn : n = m + k ∨ m = n + k) : ¬d ∣ n := by
  intro hn
  have hdvd : d ∣ k := by
    cases hmn
    case inl hmn => exact (Nat.dvd_add_right h).mp (hmn ▸ hn)
    case inr hmn => exact (Nat.dvd_add_right hn).mp (hmn ▸ h)
  exact Nat.not_dvd_of_pos_of_lt hk hd hdvd

end Carry
