import AsyncNetStack.Lib.Circular
import AsyncNetStack.Lib.Serial

open List BitVec

-- A queue in circular memory of `m` slots, between two counters that run freely over all words.
namespace Wheel

open Serial

variable {α : Type*} {w m : Nat} {f g : Nat → α} {head tail : BitVec w} {d : α}

def contents (m : Nat) (f : Nat → α) (head tail : BitVec w) : List α :=
  (List.range (dist head tail)).map fun i => f ((head.toNat + i) % m)

@[simp]
theorem length_contents : (contents m f head tail).length = dist head tail := by
  simp [contents]

@[simp]
theorem contents_self : contents m f head head = [] := by
  simp [contents]

-- The slot at a distance from the front, also across the wrap-around of the counter.
theorem slot_offset (hm : m ∣ 2 ^ w) (head : BitVec w) (i : Nat) :
    (head + .ofNat w i).toNat % m = (head.toNat + i) % m := by
  rw [toNat_add, toNat_ofNat, Nat.add_mod_mod, Nat.mod_mod_of_dvd _ hm]

theorem slot_succ (hm : m ∣ 2 ^ w) (head : BitVec w) (i : Nat) :
    ((head + 1).toNat + i) % m = (head.toNat + (i + 1)) % m := by
  rw [Nat.add_mod, show (head + 1).toNat % m = _ from slot_offset hm head 1, ← Nat.add_mod,
    Nat.add_right_comm, Nat.add_assoc]

theorem slot_tail (hm : m ∣ 2 ^ w) (head tail : BitVec w) :
    (head.toNat + dist head tail) % m = tail.toNat % m := by
  rw [← slot_offset hm, add_dist]

-- Masking is the remainder, if the number of slots is a power of two.
theorem slot_mask {k : Nat} (n i : BitVec w) (h : n.toNat = 2 ^ k) :
    (i &&& (n - 1)).toNat = i.toNat % n.toNat := by
  have hpos := Nat.two_pow_pos k
  have hlt := n.isLt
  have hone : (1 : BitVec w).toNat = 1 % 2 ^ w := toNat_ofNat ..
  have hmask : (n - 1).toNat = 2 ^ k - 1 := by
    rw [toNat_sub, hone]
    rcases Nat.lt_or_ge 1 (2 ^ w) with hw | hw
    · rw [Nat.mod_eq_of_lt hw, h, Nat.mod_eq_sub_mod (by omega), Nat.mod_eq_of_lt (by omega)]
      omega
    · omega
  rw [toNat_and, hmask, Nat.and_two_pow_sub_one_eq_mod, h]

-- The back moves on by one slot.
theorem dist_push (h : dist head tail + 1 < 2 ^ w) : dist head (tail + 1) = dist head tail + 1 := by
  have ht : tail + 1 = head + .ofNat w (dist head tail + 1) := by
    rw [ofNat_add, ← add_assoc, add_dist]
    rfl
  rw [ht, dist_add_ofNat head h]

-- The front moves on by one slot.
theorem dist_pop (h : head ≠ tail) : dist (head + 1) tail + 1 = dist head tail := by
  have hpos : 0 < dist head tail := Nat.pos_of_ne_zero (dist_eq_zero.not.mpr h)
  have hlt := dist_lt head tail
  have ht : tail = head + 1 + .ofNat w (dist head tail - 1) := by
    conv_lhs => rw [← add_dist head tail, ← Nat.sub_add_cancel hpos, Nat.add_comm]
    rw [ofNat_add, ← add_assoc]
    rfl
  rw [ht, dist_add_ofNat _ (by omega), ← ht]
  omega

-- An entry is written behind the back. All entries of the queue are as before.
theorem contents_push (hm : m ∣ 2 ^ w) (hw : dist head tail + 1 < 2 ^ w)
    (hd : g (tail.toNat % m) = d)
    (hk : ∀ i < dist head tail, g ((head.toNat + i) % m) = f ((head.toNat + i) % m)) :
    contents m g head (tail + 1) = contents m f head tail ++ [d] := by
  rw [contents, dist_push hw, range_succ, map_append, map_singleton,
    slot_tail hm, hd]
  congr 1
  exact map_congr_left fun i hi => hk i (mem_range.mp hi)

-- The slot behind the back is not in use, unless the memory is full.
theorem slot_ne_tail (hm : m ∣ 2 ^ w) (hl : dist head tail < m) {i : Nat}
    (hi : i < dist head tail) : (head.toNat + i) % m ≠ tail.toNat % m := by
  rw [← slot_tail hm head tail]
  exact Circular.slot_ne (by omega) (by omega)

theorem contents_pop (hm : m ∣ 2 ^ w) (h : head ≠ tail) :
    contents m f head tail = f (head.toNat % m) :: contents m f (head + 1) tail := by
  rw [contents, ← dist_pop h, range_succ_eq_map, map_cons, map_map, contents]
  simp only [Nat.add_zero, Function.comp_def, slot_succ hm]

end Wheel
