import Mathlib

open List

-- Memory of `m` slots that is used in turns. Positions are natural numbers, and a position has the
-- slot that it is congruent to.
namespace Circular

variable {α : Type*} {m pos : Nat} {f : Nat → α} {l ds : List α}

-- The entries from a position on are those of a list.
def Holds (m : Nat) (f : Nat → α) (pos : Nat) (l : List α) : Prop :=
  ∀ i (h : i < l.length), f ((pos + i) % m) = l[i]

-- Entries are written one after the other.
def write (m : Nat) (f : Nat → α) (pos : Nat) : List α → Nat → α
  | []      => f
  | d :: ds => write m (Function.update f (pos % m) d) (pos + 1) ds

-- The slots of different positions are different, if they are close enough.
theorem slot_ne {a b : Nat} (h₁ : a < b) (h₂ : b < a + m) : a % m ≠ b % m := by
  intro h
  have hdvd : m ∣ b - a := (Nat.modEq_iff_dvd' h₁.le).mp h
  have hle := Nat.le_of_dvd (by omega) hdvd
  omega

namespace Holds

theorem nil : Holds m f pos [] :=
  fun _ h => nomatch h

theorem drop (h : Holds m f pos l) (n : Nat) : Holds m f (pos + n) (l.drop n) := by
  intro i hi
  rw [length_drop] at hi
  rw [getElem_drop, Nat.add_assoc]
  exact h (n + i) (by omega)

theorem append {l₁ l₂ : List α} (h₁ : Holds m f pos l₁) (h₂ : Holds m f (pos + l₁.length) l₂) :
    Holds m f pos (l₁ ++ l₂) := by
  intro i hi
  rw [length_append] at hi
  by_cases hlt : i < l₁.length
  · rw [getElem_append_left hlt]
    exact h₁ i hlt
  · have hpos : pos + i = pos + l₁.length + (i - l₁.length) := by omega
    rw [getElem_append_right (Nat.le_of_not_lt hlt), hpos]
    exact h₂ (i - l₁.length) (by omega)

theorem read (h : Holds m f pos l) {n : Nat} (hn : n ≤ l.length) :
    (List.range n).map (fun i => f ((pos + i) % m)) = l.take n := by
  apply ext_getElem
  · simp [hn]
  · intro i h₁ h₂
    rw [length_map, length_range] at h₁
    rw [getElem_map, getElem_range, getElem_take]
    exact h i (by omega)

-- A single entry behind the list does not touch it, unless the memory is full.
theorem concat (h : Holds m f pos l) (hl : l.length < m) (d : α) :
    Holds m (Function.update f ((pos + l.length) % m) d) pos (l ++ [d]) := by
  apply append
  · intro i hi
    rw [Function.update_of_ne (slot_ne (by omega) (by omega))]
    exact h i hi
  · intro i hi
    rw [length_singleton, Nat.lt_one_iff] at hi
    subst hi
    exact Function.update_self ..

theorem write (h : Holds m f pos l) (hl : l.length + ds.length ≤ m) :
    Holds m (write m f (pos + l.length) ds) pos (l ++ ds) := by
  induction ds generalizing f l
  case nil =>
    rw [append_nil]
    exact h
  case cons d ds ih =>
    rw [length_cons] at hl
    have hd := ih (h.concat (by omega) d) (by rw [length_append, length_singleton]; omega)
    rw [append_assoc, length_append, length_singleton, ← Nat.add_assoc] at hd
    exact hd

end Holds

-- The positions between two bounds have the entries which a function gives.
def Filled (m : Nat) (f g : Nat → α) (lo hi : Nat) : Prop :=
  ∀ pos, lo ≤ pos → pos < hi → f (pos % m) = g pos

namespace Filled

variable {g : Nat → α} {lo lo' hi : Nat}

theorem empty (h : hi ≤ lo) : Filled m f g lo hi :=
  fun _ h₁ h₂ => absurd (h₁.trans_lt h₂) h.not_gt

theorem mono (h : Filled m f g lo hi) (hle : lo ≤ lo') : Filled m f g lo' hi :=
  fun pos h₁ h₂ => h pos (hle.trans h₁) h₂

theorem push (h : Filled m f g lo hi) (hroom : hi < lo + m) :
    Filled m (Function.update f (hi % m) (g hi)) g lo (hi + 1) := by
  intro pos h₁ h₂
  obtain heq | hlt := Nat.eq_or_lt_of_le (Nat.le_of_lt_succ h₂)
  · subst heq
    exact Function.update_self ..
  · rw [Function.update_of_ne (slot_ne hlt (by omega))]
    exact h pos h₁ hlt

end Filled
end Circular
