import Mathlib

-- `std::time::Duration`: whole seconds in 64 bits plus a fraction in nanoseconds. The value is kept
-- in nanoseconds, and its type bounds it by `Duration::MAX`.
@[ext]
structure Duration where
  nanos : Nat
  bound : nanos < 2 ^ 64 * 10 ^ 9
  deriving DecidableEq, Repr

namespace Duration

instance : LinearOrder Duration :=
  LinearOrder.lift' Duration.nanos (fun _ _ => Duration.ext)

theorem le_def {a b : Duration} : a ≤ b ↔ a.nanos ≤ b.nanos :=
  Iff.rfl

theorem lt_def {a b : Duration} : a < b ↔ a.nanos < b.nanos :=
  Iff.rfl

-- All saturating operations compute in unbounded arithmetic and stop at `Duration::MAX`.
def saturate (n : Nat) : Duration where
  nanos := min n (2 ^ 64 * 10 ^ 9 - 1)
  bound := by omega

def zero : Duration :=
  saturate 0

def fromSecs (n : Nat) : Duration :=
  saturate (n * 10 ^ 9)

def fromMillis (n : Nat) : Duration :=
  saturate (n * 10 ^ 6)

def isZero (d : Duration) : Bool :=
  d.nanos == 0

def saturatingAdd (a b : Duration) : Duration :=
  saturate (a.nanos + b.nanos)

def saturatingSub (a b : Duration) : Duration where
  nanos := a.nanos - b.nanos
  bound := by have := a.bound; omega

def saturatingMul (a : Duration) (k : Nat) : Duration :=
  saturate (a.nanos * k)

-- Division by a small constant rounds down to a nanosecond.
def div (a : Duration) (k : Nat) : Duration where
  nanos := a.nanos / k
  bound := Nat.lt_of_le_of_lt (Nat.div_le_self ..) a.bound

-- No sum of the two saturates.
def AddFits (a b : Duration) : Prop :=
  a.nanos + b.nanos < 2 ^ 64 * 10 ^ 9

instance (a b : Duration) : Decidable (a.AddFits b) :=
  inferInstanceAs (Decidable (_ < _))

theorem zero_addFits (d : Duration) : zero.AddFits d := by
  have := d.bound
  simp only [AddFits, zero, saturate]
  omega

theorem le_saturatingAdd (a b : Duration) : a ≤ a.saturatingAdd b := by
  have := a.bound
  simp only [le_def, saturatingAdd, saturate]
  omega

theorem nanos_min (a b : Duration) : (min a b).nanos = min a.nanos b.nanos := by
  rcases le_total a b with h | h
  · rw [min_eq_left h, min_eq_left (le_def.mp h)]
  · rw [min_eq_right h, min_eq_right (le_def.mp h)]

theorem fromSecs_le (n : Nat) : (fromSecs n).nanos ≤ n * 10 ^ 9 :=
  min_le_left ..

theorem saturatingAdd_le (a b : Duration) : (a.saturatingAdd b).nanos ≤ a.nanos + b.nanos :=
  min_le_left ..

-- A point in time is reached again from the time that is left until it, if it lies ahead.
theorem saturatingAdd_saturatingSub {now e limit : Duration}
    (he : e.nanos ≤ now.nanos + limit.nanos)
    (h : now < now.saturatingAdd (min (e.saturatingSub now) limit)) :
    now.saturatingAdd (min (e.saturatingSub now) limit) = e := by
  have := e.bound
  have := now.bound
  simp only [lt_def, saturatingAdd, saturate, nanos_min, saturatingSub] at h
  apply Duration.ext
  simp only [saturatingAdd, saturate, nanos_min, saturatingSub]
  omega

theorem saturatingAdd_nanos {a b : Duration} (h : a.AddFits b) :
    (a.saturatingAdd b).nanos = a.nanos + b.nanos := by
  simp only [AddFits] at h
  simp only [saturatingAdd, saturate]
  omega

theorem lt_saturatingAdd {a b : Duration} (h : a.AddFits b) (hb : b.isZero = false) :
    a < a.saturatingAdd b := by
  simp only [AddFits, isZero, beq_eq_false_iff_ne] at h hb
  simp only [lt_def, saturatingAdd, saturate]
  omega

theorem le_saturatingMul (a : Duration) {k : Nat} (h : 0 < k) : a ≤ a.saturatingMul k := by
  have := a.bound
  have := Nat.le_mul_of_pos_right a.nanos h
  simp only [le_def, saturatingMul, saturate]
  omega

-- The earliest one of several points in time.
theorem exists_min?_le {t : Duration} {ts : List Duration} (ht : t ∈ ts) :
    ∃ m, ts.min? = some m ∧ m ≤ t := by
  cases hm : ts.min?
  case none =>
    rw [List.min?_eq_none_iff.mp hm] at ht
    cases ht
  case some m => exact ⟨m, rfl, (List.min?_eq_some_iff.mp hm).right t ht⟩

end Duration
