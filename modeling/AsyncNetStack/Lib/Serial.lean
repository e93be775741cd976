import Mathlib

open BitVec

-- Serial-number arithmetic: counters of `w` bits that wrap around, compared by the sign of their
-- difference. All facts are stated against unwrapped offsets (natural numbers) from a common base.
namespace Serial

variable {w : Nat}

def before (a b : BitVec w) : Bool :=
  (a - b).toInt < 0

-- The number of increments that lead from `a` to `b`.
def dist (a b : BitVec w) : Nat :=
  (b - a).toNat

theorem before_iff {a b : BitVec w} : before a b ↔ 2 ^ w ≤ 2 * dist b a := by
  rw [before, decide_eq_true_iff, toInt_neg_iff, dist]

theorem not_before_iff {a b : BitVec w} : before a b = false ↔ 2 * dist b a < 2 ^ w := by
  rw [← Bool.not_eq_true, before_iff, not_le]

@[simp]
theorem dist_self (a : BitVec w) : dist a a = 0 := by
  simp [dist]

@[simp]
theorem before_self (a : BitVec w) : before a a = false := by
  simp [before]

theorem dist_lt (a b : BitVec w) : dist a b < 2 ^ w :=
  (b - a).isLt

@[simp]
theorem add_dist (a b : BitVec w) : a + BitVec.ofNat w (dist a b) = b := by
  rw [dist, ofNat_toNat, setWidth_eq, add_comm, sub_add_cancel]

theorem dist_eq_zero {a b : BitVec w} : dist a b = 0 ↔ a = b := by
  constructor
  case mp  => intro h; simpa [h] using add_dist a b
  case mpr => rintro rfl; simp

theorem dist_add_ofNat (a : BitVec w) {n : Nat} (h : n < 2 ^ w) :
    dist a (a + BitVec.ofNat w n) = n := by
  rw [dist, add_comm, add_sub_cancel, toNat_ofNat, Nat.mod_eq_of_lt h]

-- Distances compose, unless the walk goes once around the whole counter.
theorem dist_add_dist {a b c : BitVec w} (h : dist a b + dist b c < 2 ^ w) :
    dist a b + dist b c = dist a c := by
  have hc : a + BitVec.ofNat w (dist a b + dist b c) = c := by
    rw [ofNat_add, ← add_assoc]; simp
  rw [← dist_add_ofNat a h, hc]

theorem dist_offsets (s : BitVec w) {x y : Nat} (h : x ≤ y) (hy : y - x < 2 ^ w) :
    dist (s + BitVec.ofNat w x) (s + BitVec.ofNat w y) = y - x := by
  have : s + BitVec.ofNat w y = s + BitVec.ofNat w x + BitVec.ofNat w (y - x) := by
    rw [add_assoc, ← ofNat_add, Nat.add_sub_cancel' h]
  rw [this, dist_add_ofNat _ hy]

theorem offset_inj (s : BitVec w) {x y : Nat} (hx : x < 2 ^ w) (hy : y < 2 ^ w)
    (h : s + BitVec.ofNat w x = s + BitVec.ofNat w y) : x = y := by
  rw [← dist_add_ofNat s hx, h, dist_add_ofNat s hy]

-- An offset that is reached by a short walk is reached without wrapping around.
theorem add_dist_offsets (s : BitVec w) {x y : Nat} (hy : y < 2 ^ w)
    (h : x + dist (s + BitVec.ofNat w x) (s + BitVec.ofNat w y) < 2 ^ w) :
    x + dist (s + BitVec.ofNat w x) (s + BitVec.ofNat w y) = y := by
  apply offset_inj s h hy
  rw [ofNat_add, ← add_assoc, add_dist]

theorem dist_symm {a b : BitVec w} (h : a ≠ b) : dist b a = 2 ^ w - dist a b := by
  have hp : 0 < dist a b := Nat.pos_of_ne_zero (dist_eq_zero.not.mpr h)
  have hl := dist_lt a b
  have hm : (b - a).toNat = dist a b := rfl
  have hn : a - b = -(b - a) := by simp
  rw [dist, hn, toNat_neg, hm, Nat.mod_eq_of_lt (by omega)]

-- Up to half of the counter space, `before` is the order of the unwrapped offsets.
theorem before_offsets (s : BitVec w) {x y : Nat}
    (hx : 2 * (x - y) < 2 ^ w) (hy : 2 * (y - x) ≤ 2 ^ w) :
    before (s + BitVec.ofNat w x) (s + BitVec.ofNat w y) ↔ x < y := by
  rw [before_iff]
  rcases Nat.lt_or_ge x y with h | h
  case inl =>
    have hd := dist_offsets s (Nat.le_of_lt h) (by omega)
    have hne : s + BitVec.ofNat w x ≠ s + BitVec.ofNat w y := by
      rw [ne_eq, ← dist_eq_zero, hd]; omega
    rw [dist_symm hne, hd]
    omega
  case inr =>
    rw [dist_offsets s h (by omega)]
    omega

theorem not_before_offsets (s : BitVec w) {x y : Nat}
    (hx : 2 * (x - y) < 2 ^ w) (hy : 2 * (y - x) ≤ 2 ^ w) :
    before (s + BitVec.ofNat w x) (s + BitVec.ofNat w y) = false ↔ y ≤ x := by
  rw [← Bool.not_eq_true, before_offsets s hx hy, not_lt]

-- A number that is neither after `hi` nor before `lo` lies on the walk from `lo` to `hi`.
theorem dist_le_of_not_before {lo hi a : BitVec w}
    (h₁ : before hi a = false) (h₂ : before a lo = false) : dist lo a ≤ dist lo hi := by
  rw [not_before_iff] at h₁ h₂
  have h := dist_add_dist (a := lo) (b := a) (c := hi) (by omega)
  omega

end Serial
