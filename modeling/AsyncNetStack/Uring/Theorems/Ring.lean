import AsyncNetStack.Lib.Wheel
import AsyncNetStack.Uring.Ring

open Serial

namespace Uring

namespace Ring

variable {r : Ring} {sqe : Sqe} {cqe : Cqe}

-- The entries that the kernel has not consumed, published or not.
def queued (r : Ring) : List Sqe :=
  Wheel.contents r.entries (fun slot => r.sqes (r.sq.array slot)) r.sq.head r.sqTail

-- The completions that have not been popped.
def posted (r : Ring) : List Cqe :=
  Wheel.contents r.cqEntries.toNat r.cq.cqes r.cqHead r.cq.tail

theorem length_queued (r : Ring) : r.queued.length = r.sqUsed :=
  Wheel.length_contents

-- The counters are in order, and their distances are at most the sizes of the rings.
structure Sound (r : Ring) : Prop where
  sqSize : ∃ k < 31, r.sqEntries.toNat = 2 ^ k
  cqSize : ∃ k < 32, r.cqEntries.toNat = 2 ^ k
  sq     : dist r.sq.head r.sq.tail + dist r.sq.tail r.sqTail ≤ r.entries
  cq     : dist r.cq.head r.cqHead + dist r.cqHead r.cq.tail ≤ r.cqEntries.toNat
  array  : ∀ i < r.sqUsed, r.sq.array ((r.sq.head.toNat + i) % r.entries) =
    (r.sq.head.toNat + i) % r.entries

theorem new_sound {k : Nat} (hk : k < 31) : Sound (.new (.ofNat 32 (2 ^ k))) := by
  have hlt : 2 ^ k < 2 ^ 31 := Nat.pow_lt_pow_right (by decide) hk
  have hsq : (BitVec.ofNat 32 (2 ^ k)).toNat = 2 ^ k := by
    rw [BitVec.toNat_ofNat, Nat.mod_eq_of_lt (by omega)]
  refine ⟨⟨k, hk, hsq⟩, ⟨k + 1, by omega, ?_⟩, by simp [new], by simp [new], by simp [new, sqUsed]⟩
  show (2 * BitVec.ofNat 32 (2 ^ k)).toNat = 2 ^ (k + 1)
  rw [BitVec.toNat_mul, hsq, show (2 : U32).toNat = 2 from rfl, Nat.mod_eq_of_lt (by omega),
    Nat.pow_succ, Nat.mul_comm]

namespace Sound

theorem entries_dvd (h : r.Sound) : r.entries ∣ 2 ^ 32 := by
  have ⟨k, hk, he⟩ := h.sqSize
  rw [entries, he]
  exact Nat.pow_dvd_pow 2 (by omega)

theorem entries_lt (h : r.Sound) : r.entries < 2 ^ 31 := by
  have ⟨k, hk, he⟩ := h.sqSize
  rw [entries, he]
  exact Nat.pow_lt_pow_right (by decide) hk

theorem cqEntries_dvd (h : r.Sound) : r.cqEntries.toNat ∣ 2 ^ 32 := by
  have ⟨k, hk, he⟩ := h.cqSize
  rw [he]
  exact Nat.pow_dvd_pow 2 (by omega)

theorem sqIndex_eq (h : r.Sound) (i : U32) : r.sqIndex i = i.toNat % r.entries := by
  have ⟨_, _, he⟩ := h.sqSize
  exact Wheel.slot_mask _ i he

theorem cqIndex_eq (h : r.Sound) (i : U32) : r.cqIndex i = i.toNat % r.cqEntries.toNat := by
  have ⟨_, _, he⟩ := h.cqSize
  exact Wheel.slot_mask _ i he

theorem sqUsed_eq (h : r.Sound) :
    r.sqUsed = dist r.sq.head r.sq.tail + dist r.sq.tail r.sqTail := by
  have := h.sq
  have := h.entries_lt
  exact (dist_add_dist (by omega)).symm

theorem sqUsed_le (h : r.Sound) : r.sqUsed ≤ r.entries :=
  h.sqUsed_eq ▸ h.sq

-- An entry is pushed behind the others, if there is a free slot.
theorem push (h : r.Sound) (hf : r.sqUsed < r.entries) (sqe : Sqe) :
    (r.push sqe).Sound ∧ (r.push sqe).queued = r.queued ++ [sqe] := by
  have hlt := h.entries_lt
  have hused := h.sqUsed_eq
  have hi := h.sqIndex_eq r.sqTail
  have hd : dist r.sq.head r.sqTail + 1 < 2 ^ 32 := by
    change r.sqUsed + 1 < _
    omega
  have hpush : (r.push sqe).sqUsed = r.sqUsed + 1 := Wheel.dist_push hd
  have hslot {i : Nat} (hlt : i < r.sqUsed) :
      (r.sq.head.toNat + i) % r.entries ≠ r.sqIndex r.sqTail :=
    hi ▸ Wheel.slot_ne_tail h.entries_dvd hf hlt
  refine ⟨{ h with sq := ?_, array := fun i hlt => ?_ }, ?_⟩
  · show dist r.sq.head r.sq.tail + dist r.sq.tail (r.sqTail + 1) ≤ r.entries
    rw [Wheel.dist_push (by omega)]
    omega
  · rw [hpush] at hlt
    show Function.update r.sq.array (r.sqIndex r.sqTail) (r.sqIndex r.sqTail)
      ((r.sq.head.toNat + i) % r.entries) = (r.sq.head.toNat + i) % r.entries
    by_cases hs : (r.sq.head.toNat + i) % r.entries = r.sqIndex r.sqTail
    case pos => rw [hs, Function.update_self]
    case neg =>
      rw [Function.update_of_ne hs]
      have hne : i ≠ r.sqUsed := by
        rintro rfl
        exact hs (hi ▸ Wheel.slot_tail h.entries_dvd ..)
      exact h.array i (by omega)
  · show Wheel.contents r.entries (fun slot => (r.push sqe).sqes ((r.push sqe).sq.array slot))
      r.sq.head (r.sqTail + 1) = _
    refine Wheel.contents_push h.entries_dvd hd ?_ fun i hlt => ?_
    · rw [← hi]
      simp [Ring.push]
    · -- The memory of the other entries is in other slots.
      have ha := h.array i hlt
      simp [Ring.push, hslot hlt, ha]

theorem publish (h : r.Sound) : r.publish.Sound ∧ r.publish.queued = r.queued := by
  refine ⟨{ h with sq := ?_ }, rfl⟩
  show Serial.dist r.sq.head r.sqTail + Serial.dist r.sqTail r.sqTail ≤ r.entries
  rw [dist_self]
  exact h.sqUsed_le

-- The kernel consumes the entries in order.
theorem consume (h : r.Sound) :
    (r.consume = (r, none)) ∨
    ∃ ring sqe, r.consume = (ring, some sqe) ∧ ring.Sound ∧ r.queued = sqe :: ring.queued ∧
      ring.posted = r.posted ∧ ring.entries = r.entries := by
  unfold Ring.consume
  split
  case isTrue => exact .inl rfl
  rename_i hne
  have hused := h.sqUsed_eq
  have hle := h.sq
  have hp := Wheel.dist_pop hne
  have hne' : r.sq.head ≠ r.sqTail := by
    intro he
    have hz : r.sqUsed = 0 := Serial.dist_eq_zero.mpr he
    omega
  have hp' : Serial.dist (r.sq.head + 1) r.sqTail + 1 = r.sqUsed := Wheel.dist_pop hne'
  refine .inr ⟨_, _, rfl, { h with sq := ?_, array := fun i hlt => ?_ }, ?_, rfl, rfl⟩
  · show Serial.dist (r.sq.head + 1) r.sq.tail + Serial.dist r.sq.tail r.sqTail ≤ r.entries
    omega
  · change i < Serial.dist (r.sq.head + 1) r.sqTail at hlt
    show r.sq.array (((r.sq.head + 1).toNat + i) % r.entries) =
      ((r.sq.head + 1).toNat + i) % r.entries
    rw [Wheel.slot_succ h.entries_dvd]
    exact h.array (i + 1) (by omega)
  · rw [queued, Wheel.contents_pop h.entries_dvd hne', h.sqIndex_eq]
    rfl

-- The kernel posts a completion behind the others.
theorem post (h : r.Sound) (hf : r.cqFull = false) (cqe : Cqe) :
    (r.post cqe).Sound ∧ (r.post cqe).posted = r.posted ++ [cqe] := by
  have ⟨k, hk, he⟩ := h.cqSize
  have hlt : 2 ^ k < 2 ^ 32 := Nat.pow_lt_pow_right (by decide) hk
  have hcq := h.cq
  have hd : dist r.cq.head r.cqHead + dist r.cqHead r.cq.tail = dist r.cq.head r.cq.tail :=
    dist_add_dist (by omega)
  have hroom : Serial.dist r.cq.head r.cq.tail < r.cqEntries.toNat := by
    rw [cqFull, decide_eq_false_iff_not] at hf
    exact Nat.not_le.mp hf
  have hp := Wheel.dist_push (show dist r.cqHead r.cq.tail + 1 < 2 ^ 32 by omega)
  have hi := h.cqIndex_eq r.cq.tail
  refine ⟨{ h with cq := ?_ }, ?_⟩
  · simp only [Ring.post, hp]
    omega
  · show Wheel.contents r.cqEntries.toNat (r.post cqe).cq.cqes r.cqHead (r.cq.tail + 1) = _
    refine Wheel.contents_push h.cqEntries_dvd (by omega) ?_ fun i hlt => ?_
    · rw [← hi]
      simp [Ring.post]
    · have hs : (r.cqHead.toNat + i) % r.cqEntries.toNat ≠ r.cqIndex r.cq.tail :=
        hi ▸ Wheel.slot_ne_tail h.cqEntries_dvd (by omega) hlt
      simp [Ring.post, hs]

-- Completions are popped in order.
theorem pop (h : r.Sound) :
    (r.pop = (r, none) ∧ r.posted = []) ∨
    ∃ ring cqe, r.pop = (ring, some cqe) ∧ ring.Sound ∧ r.posted = cqe :: ring.posted ∧
      ring.queued = r.queued ∧ ring.entries = r.entries := by
  unfold Ring.pop
  split
  case isTrue he => exact .inl ⟨rfl, by rw [posted, he, Wheel.contents_self]⟩
  rename_i hne
  have hp := Wheel.dist_pop hne
  have hcq := h.cq
  have ⟨k, hk, he⟩ := h.cqSize
  have hlt : 2 ^ k < 2 ^ 32 := Nat.pow_lt_pow_right (by decide) hk
  refine .inr ⟨_, _, rfl, { h with cq := ?_ }, ?_, rfl, rfl⟩
  · have hpush := Wheel.dist_push (show dist r.cq.head r.cqHead + 1 < 2 ^ 32 by omega)
    simp only [hpush]
    omega
  · rw [posted, Wheel.contents_pop h.cqEntries_dvd hne, h.cqIndex_eq]
    rfl

theorem releaseCompletions (h : r.Sound) : r.releaseCompletions.Sound := by
  have hcq := h.cq
  refine { h with cq := ?_ }
  simp only [Ring.releaseCompletions, dist_self]
  omega

end Sound
end Ring
end Uring
