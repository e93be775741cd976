import Mathlib

open List

-- Numbered tokens that are each in one place. The state of a token says whether it is away, and all
-- tokens that are not away are listed.
namespace Custody

variable {σ : Type*} {away : σ → Bool} {here : List Nat} {state : List σ} {i : Nat} {s t : σ}

-- Whether the state of a token is one in which it is away, as a number.
def absent (away : σ → Bool) (state : List σ) (i : Nat) : Nat :=
  if state[i]?.any away then 1 else 0

structure Exact (away : σ → Bool) (here : List Nat) (state : List σ) : Prop where
  once : ∀ i, here.count i + absent away state i = if i < state.length then 1 else 0

theorem absent_set_self (h : i < state.length) :
    absent away (state.set i s) i = if away s then 1 else 0 := by
  simp [absent, h]

theorem absent_set_ne {j : Nat} (h : i ≠ j) :
    absent away (state.set i s) j = absent away state j := by
  simp [absent, h]

theorem absent_of_eq (h : state[i]? = some s) : absent away state i = if away s then 1 else 0 := by
  simp [absent, h]

namespace Exact

theorem range (n : Nat) (h : away s = false) : Exact away (List.range n) (List.replicate n s) where
  once i := by
    have habsent : absent away (List.replicate n s) i = 0 := by
      by_cases hi : i < n <;> simp [absent, hi, h]
    rw [habsent, length_replicate, nodup_range.count]
    simp

theorem perm (h : Exact away here state) {here' : List Nat} (hp : here.Perm here') :
    Exact away here' state where
  once i := by
    rw [← hp.count_eq]
    exact h.once i

theorem lt_of_mem (h : Exact away here state) (hi : i ∈ here) : i < state.length := by
  have hc := count_pos_iff.mpr hi
  have ho := h.once i
  by_contra hlt
  rw [if_neg hlt] at ho
  omega

theorem absent_of_mem (h : Exact away here state) (hi : i ∈ here) : absent away state i = 0 := by
  have hc := count_pos_iff.mpr hi
  have ho := h.once i
  rw [if_pos (h.lt_of_mem hi)] at ho
  omega

theorem not_away (h : Exact away here state) (hi : i ∈ here) (hs : state[i]? = some s) :
    away s = false := by
  have ha := h.absent_of_mem hi
  rw [absent_of_eq hs] at ha
  simpa using ha

theorem nodup (h : Exact away here state) : here.Nodup := by
  rw [nodup_iff_count_le_one]
  intro i
  have ho := h.once i
  split at ho <;> omega

theorem length_le (h : Exact away here state) : here.length ≤ state.length := by
  have hsub : here ⊆ List.range state.length := fun i hi => mem_range.mpr (h.lt_of_mem hi)
  have hle := (h.nodup.subperm hsub).length_le
  rwa [length_range] at hle

-- A token that is here goes away.
theorem give (h : Exact away (i :: here) state) (hs : away s = true) :
    Exact away here (state.set i s) where
  once j := by
    have hlt := h.lt_of_mem mem_cons_self
    have ho := h.once j
    rw [length_set]
    by_cases hij : i = j
    · subst hij
      have ha := h.absent_of_mem mem_cons_self
      rw [count_cons_self, ha] at ho
      rw [absent_set_self hlt, if_pos hs]
      omega
    · rw [count_cons_of_ne hij] at ho
      rw [absent_set_ne hij]
      exact ho

-- A token comes back.
theorem take (h : Exact away here state) (ht : state[i]? = some t) (ha : away t = true)
    (hs : away s = false) : Exact away (i :: here) (state.set i s) where
  once j := by
    have hlt := (List.getElem?_eq_some_iff.mp ht).1
    have ho := h.once j
    rw [length_set]
    by_cases hij : i = j
    · subst hij
      rw [absent_of_eq ht, if_pos ha] at ho
      rw [absent_set_self hlt, count_cons_self, hs, if_neg Bool.false_ne_true]
      omega
    · rw [count_cons_of_ne hij, absent_set_ne hij]
      exact ho

-- The state of a token changes while it is here.
theorem mark (h : Exact away here state) (hi : i ∈ here) (hs : away s = false) :
    Exact away here (state.set i s) where
  once j := by
    have hlt := h.lt_of_mem hi
    have ho := h.once j
    rw [length_set]
    by_cases hij : i = j
    · subst hij
      rw [h.absent_of_mem hi] at ho
      rw [absent_set_self hlt, hs, if_neg Bool.false_ne_true]
      exact ho
    · rw [absent_set_ne hij]
      exact ho

end Exact

variable [DecidableEq σ]

-- How many tokens are in a state, after that of one token changed.
theorem count_set {u : σ} (h : state[i]? = some s) :
    (state.set i t).count u + (if s = u then 1 else 0) =
      state.count u + (if t = u then 1 else 0) := by
  have ⟨hlt, hs⟩ := List.getElem?_eq_some_iff.mp h
  rw [List.count_set hlt, hs]
  simp only [beq_iff_eq]
  split
  case isTrue hsu =>
    have hpos : 0 < state.count u := List.count_pos_iff.mpr (hsu ▸ hs ▸ List.getElem_mem hlt)
    omega
  case isFalse => omega

end Custody
