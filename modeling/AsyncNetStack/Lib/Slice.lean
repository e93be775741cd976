import Mathlib.Data.List.Basic

open List

-- Slices that are accessed by indices and ranges. An access that is out of range is a panic
-- (`none`).
namespace Slice

variable {α : Type*}

-- `&l[start..stop]`
def range (l : List α) (start stop : Nat) : Option (List α) :=
  if start ≤ stop ∧ stop ≤ l.length then some ((l.take stop).drop start) else none

-- `l[index] = a`
def set (l : List α) (index : Nat) (a : α) : Option (List α) :=
  if index < l.length then some (l.set index a) else none

-- `l[start..stop].copy_from_slice(src)`, which also panics if the lengths are different.
def copy (l : List α) (start stop : Nat) (src : List α) : Option (List α) :=
  if start ≤ stop ∧ stop ≤ l.length ∧ src.length = stop - start then
    some (l.take start ++ src ++ l.drop stop)
  else
    none

-- `l.swap(i, j)`
def swap (l : List α) (i j : Nat) : Option (List α) := do
  let a ← l[i]?
  let b ← l[j]?
  return (l.set i b).set j a

-- `l.chunks(n)`. Every chunk takes at least one element, so there are at most as many as elements.
def chunks (n : Nat) (l : List α) : List (List α) :=
  go l.length l
where
  go : Nat → List α → List (List α)
    | _, [] | 0, _ => []
    | fuel + 1, l  => l.take n :: go fuel (l.drop n)

theorem range_of_le {l : List α} {start stop : Nat} (h₁ : start ≤ stop) (h₂ : stop ≤ l.length) :
    range l start stop = some ((l.take stop).drop start) :=
  if_pos ⟨h₁, h₂⟩

theorem copy_of_le {l src : List α} {start stop : Nat} (h₁ : start ≤ stop) (h₂ : stop ≤ l.length)
    (hs : src.length = stop - start) :
    copy l start stop src = some (l.take start ++ src ++ l.drop stop) :=
  if_pos ⟨h₁, h₂, hs⟩

-- The part of a slice from an index on.
theorem range_from {l : List α} {start : Nat} (h : start ≤ l.length) :
    range l start l.length = some (l.drop start) := by
  rw [range_of_le h (Nat.le_refl _), take_length]

theorem copy_from (src : List α) {l : List α} {start : Nat} (h : start ≤ l.length)
    (hs : src.length = l.length - start) :
    copy l start l.length src = some (l.take start ++ src) := by
  rw [copy_of_le h (Nat.le_refl _) hs, drop_length, append_nil]

theorem exists_cons₄ {l : List α} (h : 4 ≤ l.length) :
    ∃ a b c d rest, l = a :: b :: c :: d :: rest := by
  match l, h with
  | a :: b :: c :: d :: rest, _ => exact ⟨a, b, c, d, rest, rfl⟩

-- A range starts with its first element.
theorem drop_take_eq_cons {l : List α} {i n : Nat} (hi : i < n) (hn : n ≤ l.length) :
    (l.take n).drop i = l[i] :: (l.take n).drop (i + 1) := by
  rw [drop_eq_getElem_cons (by rw [length_take]; omega), getElem_take]

section

variable {front back src : List α} {start : Nat} (h : front.length = start)
include h

-- The whole of a slice from an index on.
theorem range_tail : range (front ++ back) start (front ++ back).length = some back := by
  have : (front ++ back).length = front.length + back.length := length_append
  rw [range_of_le (by omega) (Nat.le_refl _), take_length, drop_left' h]

theorem copy_tail (hs : src.length = back.length) :
    copy (front ++ back) start (front ++ back).length src = some (front ++ src) := by
  have : (front ++ back).length = front.length + back.length := length_append
  rw [copy, if_pos ⟨by omega, Nat.le_refl _, by omega⟩, take_left' h, drop_length,
    append_nil]

end

section

variable {l l' src : List α} {start stop start' stop' : Nat}

theorem range_eq_some {part : List α} :
    range l start stop = some part ↔
      start ≤ stop ∧ stop ≤ l.length ∧ (l.drop start).take (stop - start) = part := by
  rw [range, drop_take, Option.ite_none_right_eq_some, Option.some.injEq, and_assoc]

theorem range_append {front back : List α} (h₁ : range l start stop = some front)
    (h₂ : range l stop stop' = some back) : range l start stop' = some (front ++ back) := by
  obtain ⟨hle₁, hl₁, rfl⟩ := range_eq_some.mp h₁
  obtain ⟨hle₂, hl₂, rfl⟩ := range_eq_some.mp h₂
  refine range_eq_some.mpr ⟨Nat.le_trans hle₁ hle₂, hl₂, ?_⟩
  have hdrop : l.drop stop = (l.drop start).drop (stop - start) := by
    rw [drop_drop, Nat.add_sub_cancel' hle₁]
  rw [hdrop, ← take_add]
  congr 1
  omega

theorem getElem?_of_range {a : α} (h : range l start (start + 1) = some [a]) :
    l[start]? = some a := by
  obtain ⟨_, hl, htake⟩ := range_eq_some.mp h
  have := congrArg List.head? htake
  rwa [Nat.add_sub_cancel_left, List.head?_take, List.head?_drop, List.head?_cons] at this

-- A range of the front of a slice.
theorem range_take_eq {n : Nat} (hn : stop ≤ n) :
    range (l.take n) start stop = range l start stop := by
  by_cases h : start ≤ stop ∧ stop ≤ l.length
  case neg => rw [range, range, if_neg h, if_neg (by rw [length_take]; omega)]
  case pos =>
    rw [range_of_le h.left h.right, range_of_le h.left (by rw [length_take]; omega), take_take,
      Nat.min_eq_left hn]

theorem copy_eq_some :
    copy l start stop src = some l' ↔
      (start ≤ stop ∧ stop ≤ l.length ∧ src.length = stop - start) ∧
      l.take start ++ src ++ l.drop stop = l' := by
  rw [copy, Option.ite_none_right_eq_some, Option.some.injEq]

theorem length_copy (h : copy l start stop src = some l') : l'.length = l.length := by
  obtain ⟨⟨h₁, h₂, hs⟩, rfl⟩ := copy_eq_some.mp h
  rw [length_append, length_append, length_take, length_drop]
  omega

-- The front of a range.
theorem range_take {part : List α} {n : Nat} (h : range l start stop = some part)
    (hn : start + n ≤ stop) : range l start (start + n) = some (part.take n) := by
  obtain ⟨h₁, h₂, rfl⟩ := range_eq_some.mp h
  refine range_eq_some.mpr ⟨Nat.le_add_right .., Nat.le_trans hn h₂, ?_⟩
  rw [take_take, Nat.add_sub_cancel_left, Nat.min_eq_left (by omega)]

-- A range is not affected by a write to a disjoint one.
theorem range_copy_disjoint (h : copy l start stop src = some l')
    (hd : stop' ≤ start ∨ stop ≤ start') : range l' start' stop' = range l start' stop' := by
  have hlen := length_copy h
  obtain ⟨⟨h₁, h₂, hs⟩, rfl⟩ := copy_eq_some.mp h
  by_cases hle : start' ≤ stop' ∧ stop' ≤ l.length
  case neg => rw [range, range, hlen, if_neg hle, if_neg hle]
  case pos =>
    have ⟨hss, hll⟩ := hle
    rw [range_of_le hss (hlen.symm ▸ hll), range_of_le hss hll]
    rcases hd with hbefore | hafter
    case inl =>
      have htake : (l.take start ++ src ++ l.drop stop).take stop' = l.take stop' := by
        rw [append_assoc, take_append_of_le_length (by rw [length_take]; omega),
          take_take, Nat.min_eq_left hbefore]
      rw [htake]
    have hfront : (l.take start ++ src).length = stop := by
      rw [length_append, length_take]
      omega
    have hdrop : (l.take start ++ src ++ l.drop stop).drop start' = l.drop start' := by
      rw [drop_append, hfront, drop_eq_nil_of_le (hfront ▸ hafter), nil_append,
        drop_drop, Nat.add_sub_cancel' hafter]
    rw [drop_take, drop_take, hdrop]

-- A write to the front of a range.
theorem range_copy {part : List α} (h : copy l start stop src = some l')
    (hr : range l start stop' = some part) (hle : stop ≤ stop') :
    range l' start stop' = some (src ++ part.drop src.length) := by
  have hlen := length_copy h
  obtain ⟨⟨h₁, h₂, hs⟩, rfl⟩ := copy_eq_some.mp h
  obtain ⟨h₃, h₄, rfl⟩ := range_eq_some.mp hr
  refine range_eq_some.mpr ⟨h₃, hlen.symm ▸ h₄, ?_⟩
  have hfront : (l.take start).length = start := by
    rw [length_take]
    omega
  have hstop : start + (stop - start) = stop := by omega
  rw [append_assoc, drop_left' hfront, take_append, drop_take, drop_drop, hs, hstop,
    take_of_length_le (by omega)]

end

theorem range_copy_self {l l' src : List α} {start stop : Nat}
    (h : copy l start stop src = some l') : range l' start stop = some src := by
  obtain ⟨⟨h₁, h₂, hs⟩, _⟩ := copy_eq_some.mp h
  have hpart : ((l.take stop).drop start).length ≤ src.length := by
    rw [length_drop, length_take]
    omega
  rw [range_copy h (range_of_le h₁ h₂) (Nat.le_refl _), drop_eq_nil_of_le hpart, append_nil]

theorem set_eq_copy (l : List α) (index : Nat) (a : α) :
    set l index a = copy l index (index + 1) [a] := by
  by_cases h : index < l.length
  case neg => rw [set, copy, if_neg h, if_neg fun hc => h hc.right.left]
  case pos =>
    rw [set, if_pos h, copy_of_le (Nat.le_succ _) h (Nat.add_sub_cancel_left ..).symm,
      set_eq_take_append_cons_drop, if_pos h, append_assoc, singleton_append]

theorem chunks_go {n fuel : Nat} (hn : 0 < n) {l : List α} (hl : l.length ≤ fuel) :
    (chunks.go n fuel l).flatten = l ∧ ∀ chunk ∈ chunks.go n fuel l, chunk ≠ [] ∧
    chunk.length ≤ n := by
  induction fuel generalizing l
  case zero =>
    obtain rfl := eq_nil_of_length_eq_zero (Nat.le_zero.mp hl)
    exact ⟨rfl, nofun⟩
  case succ fuel ih =>
    cases l
    case nil => exact ⟨rfl, nofun⟩
    case cons a l =>
      have hrest : ((a :: l).drop n).length ≤ fuel := by
        rw [length_drop]
        omega
      have ⟨hflat, hall⟩ := ih hrest
      have hgo : chunks.go n (fuel + 1) (a :: l) =
          (a :: l).take n :: chunks.go n fuel ((a :: l).drop n) := rfl
      rw [hgo, flatten_cons, hflat, take_append_drop]
      refine ⟨rfl, fun chunk hc => ?_⟩
      rcases mem_cons.mp hc with rfl | hc
      case inl =>
        refine ⟨?_, length_take_le ..⟩
        cases n
        case zero => cases hn
        case succ => exact nofun
      case inr => exact hall chunk hc

theorem flatten_chunks {n : Nat} (hn : 0 < n) (l : List α) : (chunks n l).flatten = l :=
  (chunks_go hn (Nat.le_refl _)).left

theorem length_chunk {n : Nat} (hn : 0 < n) {l chunk : List α} (h : chunk ∈ chunks n l) :
    chunk ≠ [] ∧ chunk.length ≤ n :=
  (chunks_go hn (Nat.le_refl _)).right chunk h

-- A disjunction without a panic.
theorem orM_some (a b : Bool) : (some a <||> some b) = some (a || b) := by
  cases a <;> rfl

theorem andM_some (a b : Bool) : (some a <&&> some b) = some (a && b) := by
  cases a <;> rfl

end Slice
