import Mathlib

-- Selections of a least element, and the circular order that makes a round robin of them.
namespace RoundRobin

section

open Std

variable {α : Type*} {cmp : α → α → Ordering} {as : List α} {a : α}

-- The better one of two elements, where the earlier one is kept if they are equal.
def better (cmp : α → α → Ordering) (best : Option α) (a : α) : Option α :=
  match best with
  | none   => some a
  | some b => some (if cmp a b == .lt then a else b)

theorem foldl_better_some (cmp : α → α → Ordering) [TransCmp cmp] (as : List α) (b : α) :
    ∃ a, as.foldl (better cmp) (some b) = some a ∧ a ∈ b :: as ∧ ∀ c ∈ b :: as, (cmp a c).isLE := by
  induction as generalizing b
  case nil => exact ⟨b, rfl, by simp, by simp [ReflCmp.compare_self]⟩
  case cons a as ih =>
    have ⟨d, hd, hmem, hle⟩ := ih (if cmp a b == .lt then a else b)
    simp only [List.mem_cons, forall_eq_or_imp] at hmem hle ⊢
    refine ⟨d, hd, ?_, ?_⟩
    all_goals split at hle
    case refine_1.isTrue h =>
      rw [if_pos h] at hmem
      exact hmem.elim (fun h => .inr (.inl h)) fun h => .inr (.inr h)
    case refine_1.isFalse h =>
      rw [if_neg h] at hmem
      exact hmem.elim .inl fun h => .inr (.inr h)
    case refine_2.isTrue h =>
      rw [beq_iff_eq] at h
      have hab : (cmp a b).isLE := by rw [h]; rfl
      exact ⟨TransCmp.isLE_trans hle.left hab, hle⟩
    case refine_2.isFalse h =>
      have hba : (cmp b a).isLE := by
        rw [← OrientedCmp.isGE_iff_isLE]
        revert h
        cases cmp a b <;> decide
      exact ⟨hle.left, TransCmp.isLE_trans hle.left hba, hle.right⟩

-- The selection finds an element if there is one, and none is before it.
theorem foldl_better [TransCmp cmp] (h : as.foldl (better cmp) none = some a) :
    a ∈ as ∧ ∀ b ∈ as, (cmp a b).isLE := by
  cases as
  case nil => cases h
  case cons b as =>
    have ⟨c, hc, hmem, hle⟩ := foldl_better_some cmp as b
    cases hc.symm.trans h
    exact ⟨hmem, hle⟩

theorem foldl_better_isSome [TransCmp cmp] (h : a ∈ as) : (as.foldl (better cmp) none).isSome := by
  cases as
  case nil => cases h
  case cons b as =>
    have ⟨c, hc, _⟩ := foldl_better_some cmp as b
    exact Option.isSome_of_eq_some hc

end

section

variable {α : Type*} [LinearOrder α] {a b c d last : α}

-- Going round from `a`, one comes across `b` before `c`.
def Between (a b c : α) : Prop :=
  (LinearOrder.toCircularOrder α).sbtw a b c

theorem Between.trans (h₁ : Between a b d) (h₂ : Between b c d) : Between a c d :=
  let := LinearOrder.toCircularOrder α
  sbtw_trans_left h₁ h₂

theorem Between.ne (h : Between a b c) : b ≠ a := by
  let := LinearOrder.toCircularOrder α
  rintro rfl
  exact sbtw_irrefl_left h

theorem Between.ne_right (h : Between a b c) : b ≠ c := by
  let := LinearOrder.toCircularOrder α
  rintro rfl
  exact sbtw_irrefl_right h

-- Elements after the last one come first. If `a` is selected although `c` could have been, then it
-- is the turn of `a` before that of `c`.
theorem between_of_first (hne : a ≠ c) (hlast : c ≠ last) (hpassed : a ≤ last → c ≤ last)
    (hle : (a ≤ last ↔ c ≤ last) → a ≤ c) : Between last a c := by
  change last < a ∧ a < c ∨ a < c ∧ c < last ∨ c < last ∧ last < a
  rcases le_or_gt a last with ha | ha
  case inl =>
    have hc := hpassed ha
    have hac := hle ⟨fun _ => hc, fun _ => ha⟩
    exact .inr (.inl ⟨lt_of_le_of_ne hac hne, lt_of_le_of_ne hc hlast⟩)
  rcases le_or_gt c last with hc | hc
  case inl => exact .inr (.inr ⟨lt_of_le_of_ne hc hlast, ha⟩)
  have hac := hle ⟨fun h => absurd h ha.not_ge, fun h => absurd h hc.not_ge⟩
  exact .inl ⟨ha, lt_of_le_of_ne hac hne⟩

end

end RoundRobin
