import Mathlib

-- Resources that are held by at most one holder each. A table says what every holder holds, and
-- nothing else is taken.
namespace Tenure

variable {ι ρ : Type*} {held held' : ι → Option ρ} {taken taken' : ρ → Prop} {i : ι} {x : ρ}

structure Sound (held : ι → Option ρ) (taken : ρ → Prop) : Prop where
  exact  : ∀ x, taken x ↔ ∃ i, held i = some x
  unique : ∀ {i j x}, held i = some x → held j = some x → i = j

namespace Sound

theorem empty : Sound (fun _ : ι => none) (fun _ : ρ => False) where
  exact x      := by simp
  unique hi _  := nomatch hi

theorem congr (h : Sound held taken) (hh : ∀ j, held' j = held j) (ht : ∀ x, taken' x ↔ taken x) :
    Sound held' taken' := by
  obtain rfl : held' = held := funext hh
  obtain rfl : taken' = taken := funext fun x => propext (ht x)
  exact h

variable [DecidableEq ι]

-- A holder gives up what it has.
theorem release (h : Sound held taken) (i : ι) (hh : ∀ j, held' j = if j = i then none else held j)
    (ht : ∀ x, taken' x ↔ taken x ∧ held i ≠ some x) : Sound held' taken' where
  exact x := by
    rw [ht, h.exact]
    constructor
    · rintro ⟨⟨j, hj⟩, hi⟩
      have hne : j ≠ i := fun heq => hi (heq ▸ hj)
      exact ⟨j, by rw [hh, if_neg hne, hj]⟩
    · rintro ⟨j, hj⟩
      rw [hh] at hj
      split at hj
      case isTrue      => cases hj
      case isFalse hne => exact ⟨⟨j, hj⟩, fun hi => hne (h.unique hj hi)⟩
  unique {j k x} hj hk := by
    rw [hh] at hj hk
    split at hj
    case isTrue => cases hj
    split at hk
    case isTrue => cases hk
    exact h.unique hj hk

-- A holder without a resource takes a free one.
theorem acquire (h : Sound held taken) (hfree : ¬taken x) (hi : held i = none)
    (hh : ∀ j, held' j = if j = i then some x else held j) (ht : ∀ y, taken' y ↔ y = x ∨ taken y) :
    Sound held' taken' where
  exact y := by
    rw [ht, h.exact]
    constructor
    · rintro (rfl | ⟨j, hj⟩)
      · exact ⟨i, by rw [hh, if_pos rfl]⟩
      · have hne : j ≠ i := by
          rintro rfl
          rw [hi] at hj
          cases hj
        exact ⟨j, by rw [hh, if_neg hne, hj]⟩
    · rintro ⟨j, hj⟩
      rw [hh] at hj
      split at hj
      case isTrue  => exact .inl (Option.some.inj hj).symm
      case isFalse => exact .inr ⟨j, hj⟩
  unique {j k y} hj hk := by
    have hfree {l : ι} : held l ≠ some x := fun hl => hfree ((h.exact x).mpr ⟨l, hl⟩)
    rw [hh] at hj hk
    split at hj
    case isTrue heq =>
      cases hj
      split at hk
      case isTrue heq' => rw [heq, heq']
      case isFalse     => exact absurd hk hfree
    split at hk
    case isTrue =>
      cases hk
      exact absurd hj hfree
    case isFalse => exact h.unique hj hk

end Sound
end Tenure
