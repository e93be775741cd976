import AsyncNetStack.Lib.Circular
import AsyncNetStack.Lib.Serial
import AsyncNetStack.Lib.Transition
import AsyncNetStack.Xdp.Ring

open List

namespace Xdp

open Circular (Holds)

variable {α : Type}

theorem validRingSize_iff {entries : Nat} :
    validRingSize entries = true ↔ ∃ k ≤ 30, entries = 2 ^ k := by
  rw [validRingSize, isPowerOfTwo, Bool.and_eq_true, beq_iff_eq, decide_eq_true_iff]
  constructor
  case mp =>
    intro ⟨h₁, h₂⟩
    use entries.log2
    rw [← h₁] at h₂
    exact ⟨(Nat.pow_le_pow_iff_right (by decide)).mp h₂, h₁.symm⟩
  case mpr =>
    intro ⟨k, hk, h⟩
    subst h
    rw [Nat.log2_two_pow]
    exact ⟨rfl, Nat.pow_le_pow_right (by decide) hk⟩

namespace Ring

theorem entries_le (r : Ring α) : r.entries.toNat ≤ 2 ^ 30 := by
  have ⟨k, hk, h⟩ := validRingSize_iff.mp r.valid
  rw [h]
  exact Nat.pow_le_pow_right (by decide) hk

theorem entries_pos (r : Ring α) : 0 < r.entries.toNat := by
  have ⟨k, _, h⟩ := validRingSize_iff.mp r.valid
  rw [h]
  exact Nat.two_pow_pos k

-- Masking is the remainder modulo the size of the ring, also across the wrap-around of the
-- counters.
theorem index_offset (r : Ring α) (start : U32) (i : Nat) :
    r.index (start + .ofNat 32 i) = (start.toNat + i) % r.entries.toNat := by
  have ⟨k, hk, h⟩ := validRingSize_iff.mp r.valid
  have hmask : r.mask.toNat = 2 ^ k - 1 := by
    have := r.entries_pos
    have := r.entries_le
    rw [mask, ← h]
    bv_omega
  have hdvd : 2 ^ k ∣ 2 ^ 32 := Nat.pow_dvd_pow 2 (by omega)
  rw [index, BitVec.toNat_and, hmask, Nat.and_two_pow_sub_one_eq_mod, BitVec.toNat_add,
    BitVec.toNat_ofNat, Nat.add_mod_mod, Nat.mod_mod_of_dvd _ hdvd, h]

theorem readDesc_offset (r : Ring α) (start : U32) (i j : Nat) :
    r.readDesc (start + .ofNat 32 i + .ofNat 32 j) =
      r.desc ((start.toNat + i + j) % r.entries.toNat) := by
  rw [readDesc, BitVec.add_assoc, ← BitVec.ofNat_add, index_offset, Nat.add_assoc]

theorem writeDescs_offset (r : Ring α) (start : U32) (i : Nat) (ds : List α) :
    r.writeDescs (start + .ofNat 32 i) ds =
      { r with desc := Circular.write r.entries.toNat r.desc (start.toNat + i) ds } := by
  induction ds generalizing r i
  case nil => rfl
  case cons d ds ih =>
    have hnext : start + .ofNat 32 i + 1 = start + .ofNat 32 (i + 1) := by
      rw [BitVec.ofNat_add, ← BitVec.add_assoc]
      rfl
    rw [writeDescs, hnext, ih, writeDesc, index_offset]
    rfl

-- The descriptors between two positions are those of the list that the memory holds.
theorem read_offset (r : Ring α) {start : U32} {i n : Nat} {l : List α}
    (h : Holds r.entries.toNat r.desc (start.toNat + i) l) (hn : n ≤ l.length) :
    ((List.range n).map fun j => r.readDesc (start + .ofNat 32 i + .ofNat 32 j)) = l.take n := by
  simp only [readDesc_offset]
  exact h.read hn

end Ring

-- The distance of two counters, in either spelling.
theorem sub_offsets (start : U32) {x y : Nat} (h : x ≤ y) (hy : y - x < 2 ^ 32) :
    ((start + .ofNat 32 y) - (start + .ofNat 32 x)).toNat = y - x :=
  Serial.dist_offsets start h hy

theorem add_offset (start : U32) (x y : Nat) :
    start + .ofNat 32 x + .ofNat 32 y = start + .ofNat 32 (x + y) := by
  rw [BitVec.add_assoc, ← BitVec.ofNat_add]

theorem entries_offset (start entries : U32) (x : Nat) :
    start + .ofNat 32 x + entries = start + .ofNat 32 (x + entries.toNat) := by
  rw [← add_offset, BitVec.ofNat_toNat, BitVec.setWidth_eq]

namespace Outbound

-- The counters without wrapping, as the numbers of descriptors since the start. The cached consumer
-- is behind the published one, that one behind the position of the kernel, and so on. All
-- descriptors which the kernel has not consumed are in their slots.
structure Tracks (start : U32) (cached consumer producer : Nat) (s : Outbound α) : Prop where
  cachedProducer_eq : s.user.cachedProducer = start + .ofNat 32 s.pushed.length
  cachedConsumer_eq : s.user.cachedConsumer = start + .ofNat 32 (cached + s.user.ring.entries.toNat)
  producer_eq       : s.user.ring.producer = start + .ofNat 32 producer
  consumer_eq       : s.user.ring.consumer = start + .ofNat 32 consumer
  kernel_eq         : s.kernel = start + .ofNat 32 s.consumed.length
  cached_le         : cached ≤ consumer
  consumer_le       : consumer ≤ s.consumed.length
  consumed_le       : s.consumed.length ≤ producer
  producer_le       : producer ≤ s.pushed.length
  pushed_le         : s.pushed.length ≤ cached + s.user.ring.entries.toNat
  order             : s.consumed = s.pushed.take s.consumed.length
  memory            : Holds s.user.ring.entries.toNat s.user.ring.desc
    (start.toNat + s.consumed.length) (s.pushed.drop s.consumed.length)

variable {start : U32} {cached consumer producer : Nat} {s : Outbound α}

theorem start_tracks {entries : U32} {desc : Nat → α} {h : validRingSize entries.toNat = true} :
    Tracks start 0 0 0 (Outbound.start start entries desc h) where
  cachedProducer_eq := (BitVec.add_zero start).symm
  cachedConsumer_eq := by simp [Outbound.start]
  producer_eq       := (BitVec.add_zero start).symm
  consumer_eq       := (BitVec.add_zero start).symm
  kernel_eq         := (BitVec.add_zero start).symm
  cached_le         := Nat.le_refl _
  consumer_le       := Nat.le_refl _
  consumed_le       := Nat.le_refl _
  producer_le       := Nat.le_refl _
  pushed_le         := Nat.zero_le _
  order             := rfl
  memory            := .nil

namespace Tracks

theorem consume (h : Tracks start cached consumer producer s) (n : Nat) :
    Tracks start cached consumer producer (s.kernelStep (.consume n)) := by
  have hring := s.user.ring.entries_le
  have := h.cached_le
  have := h.consumer_le
  have := h.consumed_le
  have := h.producer_le
  have := h.pushed_le
  have hn : (s.user.ring.producer - s.kernel).toNat = producer - s.consumed.length := by
    rw [h.producer_eq, h.kernel_eq]
    exact sub_offsets start h.consumed_le (by omega)
  rw [kernelStep, hn]
  generalize hm : min n (producer - s.consumed.length) = m
  have hread : ((List.range m).map fun i => s.user.ring.readDesc (s.kernel + .ofNat 32 i)) =
      (s.pushed.drop s.consumed.length).take m := by
    rw [h.kernel_eq]
    apply s.user.ring.read_offset h.memory
    rw [length_drop]
    omega
  have hlen : (s.consumed ++ (s.pushed.drop s.consumed.length).take m).length =
      s.consumed.length + m := by
    rw [length_append, length_take, length_drop]
    omega
  rw [hread]
  exact {
    h with
    kernel_eq   := by dsimp only; rw [hlen, h.kernel_eq, add_offset]
    consumer_le := by dsimp only; rw [hlen]; omega
    consumed_le := by dsimp only; rw [hlen]; omega
    order       := by
      dsimp only
      rw [hlen, take_add]
      exact congrArg (· ++ _) h.order
    memory      := by
      dsimp only
      rw [hlen, ← Nat.add_assoc, ← drop_drop]
      exact h.memory.drop m }

theorem publish (h : Tracks start cached consumer producer s) (n : Nat) :
    ∃ consumer, Tracks start cached consumer producer (s.kernelStep (.publish n)) := by
  have hring := s.user.ring.entries_le
  have := h.cached_le
  have := h.consumer_le
  have := h.consumed_le
  have := h.producer_le
  have := h.pushed_le
  have hn : (s.kernel - s.user.ring.consumer).toNat = s.consumed.length - consumer := by
    rw [h.kernel_eq, h.consumer_eq]
    exact sub_offsets start h.consumer_le (by omega)
  rw [kernelStep, hn]
  generalize hm : min n (s.consumed.length - consumer) = m
  use consumer + m
  exact {
    h with
    consumer_eq := by dsimp only; rw [h.consumer_eq, add_offset]
    cached_le   := by omega
    consumer_le := by dsimp only; omega }

theorem kernelStep (h : Tracks start cached consumer producer s) (k : Kernel) :
    ∃ consumer, Tracks start cached consumer producer (s.kernelStep k) := by
  cases k
  case consume n => exact ⟨consumer, h.consume n⟩
  case publish n => exact h.publish n

theorem kernelSteps (h : Tracks start cached consumer producer s) (ks : List Kernel) :
    ∃ consumer, Tracks start cached consumer producer (ks.foldl Outbound.kernelStep s) := by
  induction ks generalizing s consumer
  case nil => exact ⟨consumer, h⟩
  case cons k ks ih =>
    have ⟨_, h⟩ := h.kernelStep k
    exact ih h

theorem free (h : Tracks start cached consumer producer s) :
    s.user.free = cached + s.user.ring.entries.toNat - s.pushed.length := by
  have := s.user.ring.entries_le
  have := h.cached_le
  have := h.consumer_le
  have := h.consumed_le
  have := h.producer_le
  rw [Producer.free, h.cachedConsumer_eq, h.cachedProducer_eq]
  exact sub_offsets start h.pushed_le (by omega)

theorem refresh (h : Tracks start cached consumer producer s) :
    Tracks start consumer consumer producer { s with user := s.user.refresh } := by
  have := h.cached_le
  have := h.pushed_le
  exact {
    h with
    cachedConsumer_eq := by
      dsimp only [Producer.refresh]
      rw [h.consumer_eq, entries_offset]
    cached_le         := Nat.le_refl _
    pushed_le         := by dsimp only [Producer.refresh]; omega }

-- The cached consumer is up to date whenever it leaves too few slots.
theorem freeSlots (h : Tracks start cached consumer producer s) (needed : Nat) :
    ∃ cached,
      Tracks start cached consumer producer { s with user := (s.user.freeSlots needed).fst } ∧
      ((s.user.freeSlots needed).snd < needed → cached = consumer) := by
  rw [Producer.freeSlots]
  split
  case isTrue  => exact ⟨consumer, h.refresh, fun _ => rfl⟩
  case isFalse hf => exact ⟨cached, h, fun hlt => absurd hlt hf⟩

-- Descriptors go to slots behind all those which the kernel has not consumed.
theorem writeDescs (h : Tracks start cached consumer producer s) {ds : List α}
    (hd : ds.length ≤ s.user.free) :
    Tracks start cached consumer producer { s with
      user   := { s.user with
        ring           := s.user.ring.writeDescs s.user.cachedProducer ds
        cachedProducer := s.user.cachedProducer + .ofNat 32 ds.length }
      pushed := s.pushed ++ ds } := by
  have := h.cached_le
  have := h.consumer_le
  have := h.consumed_le
  have := h.producer_le
  have := h.pushed_le
  rw [h.free] at hd
  rw [h.cachedProducer_eq, Ring.writeDescs_offset]
  exact {
    h with
    cachedProducer_eq := by dsimp only; rw [add_offset, length_append]
    producer_le       := by dsimp only; rw [length_append]; omega
    pushed_le         := by dsimp only; rw [length_append]; omega
    order             := by
      dsimp only
      rw [take_append_of_le_length (by omega)]
      exact h.order
    memory            := by
      have hlen :
          (s.pushed.drop s.consumed.length).length + ds.length ≤ s.user.ring.entries.toNat := by
        rw [length_drop]
        omega
      have hpos : start.toNat + s.consumed.length + (s.pushed.drop s.consumed.length).length =
          start.toNat + s.pushed.length := by
        rw [length_drop]
        omega
      have hw := h.memory.write hlen
      rw [hpos] at hw
      dsimp only
      rw [drop_append_of_le_length (by omega)]
      exact hw }

theorem write (h : Tracks start cached consumer producer s) (descs : List α) :
    ∃ cached, Tracks start cached consumer producer { s with
      user   := (s.user.write descs).fst
      pushed := s.pushed ++ descs.take (s.user.write descs).snd } ∧
      ((s.user.write descs).snd < descs.length →
        s.pushed.length + (s.user.write descs).snd = consumer + s.user.ring.entries.toNat) := by
  have ⟨cached, hf, hc⟩ := h.freeSlots descs.length
  use cached
  have hfree : (s.user.freeSlots descs.length).snd = (s.user.freeSlots descs.length).fst.free := rfl
  have hentries : (s.user.freeSlots descs.length).fst.ring.entries = s.user.ring.entries := by
    rw [Producer.freeSlots]
    split <;> rfl
  have hn := hf.free
  have := hf.pushed_le
  dsimp only at hn this
  rw [hentries] at hn this
  have hwrite : (s.user.write descs).snd =
      min descs.length (s.user.freeSlots descs.length).snd := rfl
  have hlen : (descs.take (s.user.write descs).snd).length = (s.user.write descs).snd := by
    rw [length_take]
    omega
  constructor
  · have hw := hf.writeDescs (hlen.trans_le (by dsimp only; omega))
    rw [hlen] at hw
    exact hw
  · intro hlt
    have := hc (by omega)
    omega

-- Nothing has to be published if nothing was written.
theorem publishProducer (h : Tracks start cached consumer producer s) {n : Nat}
    (hn : n = 0 → producer = s.pushed.length) :
    Tracks start cached consumer s.pushed.length { s with user := s.user.publish n } := by
  rw [Producer.publish]
  split
  case isTrue =>
    have := h.consumed_le
    have := h.producer_le
    exact {
      h with
      producer_eq := h.cachedProducer_eq
      consumed_le := by dsimp only; omega
      producer_le := Nat.le_refl _ }
  case isFalse hz =>
    rw [← hn (by omega)]
    exact h

end Tracks

theorem kernelStep_pushed (s : Outbound α) (k : Kernel) : (s.kernelStep k).pushed = s.pushed := by
  cases k <;> rfl

theorem kernelSteps_pushed (s : Outbound α) (ks : List Kernel) :
    (ks.foldl kernelStep s).pushed = s.pushed := by
  induction ks generalizing s
  case nil          => rfl
  case cons k ks ih => exact (ih (s.kernelStep k)).trans (s.kernelStep_pushed k)

-- Between two pushes, everything is published.
def Tracked (start : U32) (s : Outbound α) : Prop :=
  ∃ cached consumer, Tracks start cached consumer s.pushed.length s

theorem push_tracked (h : s.Tracked start) (descs : List α) (meanwhile : List Kernel) :
    (s.step (.push descs meanwhile)).Tracked start := by
  have ⟨_, _, h⟩ := h
  have ⟨cached, hw, _⟩ := h.write descs
  have ⟨consumer, hk⟩ := hw.kernelSteps meanwhile
  use cached, consumer
  apply hk.publishProducer
  intro (hn : (s.user.write descs).snd = 0)
  rw [kernelSteps_pushed, hn, take_zero, append_nil]

theorem step_tracked (h : s.Tracked start) (e : Op α) : (s.step e).Tracked start := by
  cases e
  case push descs meanwhile => exact push_tracked h descs meanwhile
  case kernel k =>
    have ⟨cached, _, h⟩ := h
    have ⟨consumer, hk⟩ := h.kernelStep k
    use cached, consumer
    rw [step, kernelStep_pushed]
    exact hk

theorem exec_tracked (h : s.Tracked start) (ops : List (Op α)) :
    (Transition.exec step s ops).Tracked start :=
  Transition.exec_induction h fun _ e hs => step_tracked hs e

-- What holds of the ring at any time:
-- * The kernel consumed a prefix of what was pushed.
-- * No slot was overwritten that the kernel has yet to consume.
-- * There are at most as many unconsumed descriptors as slots.
-- * A push that is cut short leaves no slot, with respect to the consumer that the kernel
-- published.
structure Lossless (s : Outbound α) : Prop where
  order  : s.consumed <+: s.pushed
  intact : ∀ i (h : i < (s.pushed.drop s.consumed.length).length),
    s.user.ring.readDesc (s.kernel + .ofNat 32 i) = (s.pushed.drop s.consumed.length)[i]
  bound  : (s.user.ring.producer - s.user.ring.consumer).toNat ≤ s.user.ring.entries.toNat
  full   : ∀ descs, (s.user.push descs).snd < descs.length →
    (s.user.push descs).fst.ring.producer - s.user.ring.consumer = s.user.ring.entries

theorem Tracks.order_prefix (h : Tracks start cached consumer producer s) :
    s.consumed <+: s.pushed := by
  rw [h.order]
  exact take_prefix ..

theorem Tracks.bound (h : Tracks start cached consumer producer s) :
    (s.user.ring.producer - s.user.ring.consumer).toNat ≤ s.user.ring.entries.toNat := by
  have := s.user.ring.entries_le
  have := h.cached_le
  have := h.consumer_le
  have := h.consumed_le
  have := h.producer_le
  have := h.pushed_le
  rw [h.producer_eq, h.consumer_eq, sub_offsets start (by omega) (by omega)]
  omega

theorem Tracks.full (h : Tracks start cached consumer s.pushed.length s) {descs : List α}
    (hlt : (s.user.push descs).snd < descs.length) :
    (s.user.push descs).fst.ring.producer - s.user.ring.consumer = s.user.ring.entries := by
  have ⟨_, hw, hfull⟩ := h.write descs
  have hp := hw.publishProducer (n := (s.user.write descs).snd) fun hn => by
    rw [hn, take_zero, append_nil]
  have hlen : (s.pushed ++ descs.take (s.user.write descs).snd).length =
      consumer + s.user.ring.entries.toNat := by
    rw [← hfull hlt, length_append, length_take]
    exact congrArg _ (Nat.min_eq_left hlt.le)
  have hproducer : (s.user.push descs).fst.ring.producer = _ := hp.producer_eq
  rw [hproducer, hlen, ← entries_offset, ← h.consumer_eq, BitVec.add_comm, BitVec.add_sub_cancel]

theorem Tracked.lossless (h : s.Tracked start) : s.Lossless := by
  have ⟨_, _, h⟩ := h
  exact {
    order  := h.order_prefix
    intact := by
      intro i hi
      rw [h.kernel_eq, Ring.readDesc_offset]
      exact h.memory i hi
    bound  := h.bound
    full   := fun _ => h.full }

end Outbound

namespace Consumer

-- Both loops read the same descriptors.
theorem readCq_eq (c : Consumer α) (max : Nat) : c.readCq c.ring.producer max = c.readRx max := by
  induction max generalizing c
  case zero => simp [readCq, readRx]
  case succ max ih =>
    rw [readCq]
    split
    case isTrue heq => simp [readRx, ← heq]
    rename_i hne
    have hpred : (c.ring.producer - c.cachedConsumer).toNat =
        (c.ring.producer - (c.cachedConsumer + 1#32)).toNat + 1 := by
      bv_omega
    have hnext (i : Nat) :
        c.cachedConsumer + 1#32 + .ofNat 32 i = c.cachedConsumer + .ofNat 32 (i + 1) := by
      rw [BitVec.add_assoc, ← BitVec.ofNat_add, Nat.add_comm]
    have hrest := ih { c with cachedConsumer := c.cachedConsumer + 1#32 }
    simp only [readRx, hnext] at hrest
    simp only [BitVec.ofNat_eq_ofNat, hrest, readRx, hpred, Nat.add_min_add_right,
      range_succ_eq_map, map_cons, map_map, BitVec.add_zero, Function.comp_def,
      Nat.succ_eq_add_one]

theorem cqPop_eq (c : Consumer α) (max : Nat) : c.cqPop max = c.rxPop max := by
  rw [cqPop, rxPop, readCq_eq]

end Consumer

namespace Inbound

theorem read_eq (c : Consumer α) (max : Nat) (loop : Loop) : read c max loop = c.readRx max := by
  cases loop
  case rx => rfl
  case cq => exact c.readCq_eq max

-- The counters without wrapping. All descriptors which the user has not popped are in their slots,
-- those included which the kernel has not published.
structure Tracks (start : U32) (consumer : Nat) (s : Inbound α) : Prop where
  cachedConsumer_eq : s.user.cachedConsumer = start + .ofNat 32 s.popped.length
  consumer_eq       : s.user.ring.consumer = start + .ofNat 32 consumer
  producer_eq       : s.user.ring.producer = start + .ofNat 32 s.published.length
  kernel_eq         : s.kernel = start + .ofNat 32 (s.published.length + s.staged.length)
  consumer_le       : consumer ≤ s.popped.length
  popped_le         : s.popped.length ≤ s.published.length
  bound             : s.published.length + s.staged.length ≤ consumer + s.user.ring.entries.toNat
  order             : s.popped = s.published.take s.popped.length
  memory            : Holds s.user.ring.entries.toNat s.user.ring.desc
    (start.toNat + s.popped.length) (s.published.drop s.popped.length ++ s.staged)

variable {start : U32} {consumer : Nat} {s : Inbound α}

theorem start_tracks {entries : U32} {desc : Nat → α} {h : validRingSize entries.toNat = true} :
    Tracks start 0 (Inbound.start start entries desc h) where
  cachedConsumer_eq := (BitVec.add_zero start).symm
  consumer_eq       := (BitVec.add_zero start).symm
  producer_eq       := (BitVec.add_zero start).symm
  kernel_eq         := (BitVec.add_zero start).symm
  consumer_le       := Nat.le_refl _
  popped_le         := Nat.le_refl _
  bound             := Nat.zero_le _
  order             := rfl
  memory            := .nil

namespace Tracks

theorem write (h : Tracks start consumer s) (descs : List α) :
    Tracks start consumer (s.kernelStep (.write descs)) := by
  have := s.user.ring.entries_le
  have := h.consumer_le
  have := h.popped_le
  have := h.bound
  have hn : (s.kernel - s.user.ring.consumer).toNat =
      s.published.length + s.staged.length - consumer := by
    rw [h.kernel_eq, h.consumer_eq]
    exact sub_offsets start (by omega) (by omega)
  rw [kernelStep, hn]
  generalize hm : min descs.length
    (s.user.ring.entries.toNat - (s.published.length + s.staged.length - consumer)) = m
  have hlen : (descs.take m).length = m := by
    rw [length_take]
    omega
  have hheld : (s.published.drop s.popped.length ++ s.staged).length =
      s.published.length + s.staged.length - s.popped.length := by
    rw [length_append, length_drop]
    omega
  have hpos : start.toNat + s.popped.length +
      (s.published.length + s.staged.length - s.popped.length) =
      start.toNat + (s.published.length + s.staged.length) := by
    omega
  have hroom : (s.published.drop s.popped.length ++ s.staged).length + (descs.take m).length ≤
      s.user.ring.entries.toNat := by
    rw [hheld, hlen]
    omega
  have hw := h.memory.write hroom
  rw [hheld, hpos, append_assoc] at hw
  rw [h.kernel_eq, Ring.writeDescs_offset]
  exact {
    h with
    kernel_eq := by
      dsimp only
      rw [add_offset, length_append, hlen, Nat.add_assoc]
    bound     := by
      dsimp only
      rw [length_append, hlen]
      omega
    memory    := hw }

theorem publish (h : Tracks start consumer s) (n : Nat) :
    Tracks start consumer (s.kernelStep (.publish n)) := by
  have := s.user.ring.entries_le
  have := h.consumer_le
  have := h.popped_le
  have := h.bound
  have hn : (s.kernel - s.user.ring.producer).toNat = s.staged.length := by
    rw [h.kernel_eq, h.producer_eq, sub_offsets start (by omega) (by omega)]
    omega
  rw [kernelStep, hn]
  generalize hm : min n s.staged.length = m
  have hlen : (s.published ++ s.staged.take m).length = s.published.length + m := by
    rw [length_append, length_take]
    omega
  have hstaged : (s.staged.drop m).length = s.staged.length - m := length_drop
  exact {
    h with
    producer_eq := by
      dsimp only
      rw [h.producer_eq, add_offset, hlen]
    kernel_eq   := by
      dsimp only
      rw [h.kernel_eq, hlen, hstaged, Nat.add_assoc, Nat.add_sub_cancel' (by omega)]
    popped_le   := by
      dsimp only
      rw [hlen]
      omega
    bound       := by
      dsimp only
      rw [hlen, hstaged]
      omega
    order       := by
      dsimp only
      rw [take_append_of_le_length h.popped_le]
      exact h.order
    memory      := by
      dsimp only
      rw [drop_append_of_le_length h.popped_le, append_assoc, take_append_drop]
      exact h.memory }

theorem kernelStep (h : Tracks start consumer s) (k : Kernel α) :
    Tracks start consumer (s.kernelStep k) := by
  cases k
  case write descs => exact h.write descs
  case publish n   => exact h.publish n

theorem kernelSteps (h : Tracks start consumer s) (ks : List (Kernel α)) :
    Tracks start consumer (ks.foldl Inbound.kernelStep s) := by
  induction ks generalizing s
  case nil          => exact h
  case cons k ks ih => exact ih (h.kernelStep k)

-- The next descriptors are read, in the order in which the kernel published them.
theorem readRx (h : Tracks start consumer s) (max : Nat) :
    (s.user.readRx max).snd = (s.published.drop s.popped.length).take max := by
  have := s.user.ring.entries_le
  have := h.consumer_le
  have := h.popped_le
  have := h.bound
  have hn : (s.user.ring.producer - s.user.cachedConsumer).toNat =
      s.published.length - s.popped.length := by
    rw [h.producer_eq, h.cachedConsumer_eq]
    exact sub_offsets start h.popped_le (by omega)
  have hlen : (s.published.drop s.popped.length).length = s.published.length - s.popped.length :=
    length_drop
  rw [Consumer.readRx, hn]
  dsimp only
  rw [h.cachedConsumer_eq, Ring.read_offset _ h.memory (by rw [length_append]; omega),
    take_append_of_le_length (by omega), ← hlen, ← take_eq_take_min]

theorem popped (h : Tracks start consumer s) (max : Nat) :
    Tracks start consumer { s with
      user   := (s.user.readRx max).fst
      popped := s.popped ++ (s.user.readRx max).snd } := by
  have hlen : (s.user.readRx max).snd.length =
      min max (s.user.ring.producer - s.user.cachedConsumer).toNat := by
    rw [Consumer.readRx, length_map, length_range]
  have hcached : (s.user.readRx max).fst.cachedConsumer =
      s.user.cachedConsumer + .ofNat 32 (s.user.readRx max).snd.length := by
    rw [hlen]
    rfl
  rw [h.readRx max] at hcached ⊢
  have := h.consumer_le
  have := h.popped_le
  generalize hm : ((s.published.drop s.popped.length).take max).length = m at hcached
  have hm' : m = min max (s.published.length - s.popped.length) := by
    rw [← hm, length_take, length_drop]
  have htake :
      (s.published.drop s.popped.length).take max = (s.published.drop s.popped.length).take m := by
    rw [hm', ← length_drop, take_eq_take_min]
  rw [htake]
  have hpop :
      (s.popped ++ (s.published.drop s.popped.length).take m).length = s.popped.length + m := by
    rw [length_append, ← htake, hm]
  exact {
    h with
    cachedConsumer_eq := by
      dsimp only
      rw [hcached, h.cachedConsumer_eq, add_offset, hpop]
    consumer_le       := by
      dsimp only
      rw [hpop]
      omega
    popped_le         := by
      dsimp only
      rw [hpop]
      omega
    order             := by
      dsimp only
      rw [hpop, take_add]
      exact congrArg (· ++ _) h.order
    memory            := by
      have hd := h.memory.drop m
      rw [drop_append_of_le_length (by rw [length_drop]; omega), drop_drop] at hd
      dsimp only
      rw [hpop, ← Nat.add_assoc]
      exact hd }

theorem publishConsumer (h : Tracks start consumer s) (n : Nat) :
    ∃ consumer, Tracks start consumer { s with user := s.user.publish n } := by
  rw [Consumer.publish]
  split
  case isTrue =>
    have := h.consumer_le
    have := h.bound
    use s.popped.length
    exact {
      h with
      consumer_eq := h.cachedConsumer_eq
      consumer_le := Nat.le_refl _
      bound       := by dsimp only; omega }
  case isFalse => exact ⟨consumer, h⟩

end Tracks

def Tracked (start : U32) (s : Inbound α) : Prop :=
  ∃ consumer, Tracks start consumer s

theorem step_tracked (h : s.Tracked start) (e : Op α) : (s.step e).Tracked start := by
  have ⟨consumer, h⟩ := h
  cases e
  case pop loop max meanwhile =>
    rw [step, read_eq]
    exact ((h.popped max).kernelSteps meanwhile).publishConsumer (s.user.readRx max).snd.length
  case kernel k => exact ⟨consumer, h.kernelStep k⟩

theorem exec_tracked (h : s.Tracked start) (ops : List (Op α)) :
    (Transition.exec step s ops).Tracked start :=
  Transition.exec_induction h fun _ e hs => step_tracked hs e

-- What holds of the ring at any time: the user popped a prefix of what the kernel published, and
-- both ways to pop return exactly the next descriptors.
structure Lossless (s : Inbound α) : Prop where
  order : s.popped <+: s.published
  rxPop : ∀ max, (s.user.rxPop max).snd = (s.published.drop s.popped.length).take max
  cqPop : ∀ max, (s.user.cqPop max).snd = (s.published.drop s.popped.length).take max

theorem Tracked.lossless (h : s.Tracked start) : s.Lossless := by
  have ⟨_, h⟩ := h
  exact {
    order := by
      rw [h.order]
      exact take_prefix ..
    rxPop := h.readRx
    cqPop := by
      intro max
      rw [Consumer.cqPop_eq]
      exact h.readRx max }

end Inbound

-- Rings are lossless queues, whatever the value of the counters at the start is, and however the
-- user and the kernel take turns.
theorem rings_lossless (counter entries : U32) (desc : Nat → α)
    (h : validRingSize entries.toNat = true) :
    (∀ ops, (Transition.exec Outbound.step (.start counter entries desc h) ops).Lossless) ∧
    (∀ ops, (Transition.exec Inbound.step (.start counter entries desc h) ops).Lossless) := by
  constructor
  · intro ops
    have hstart : (Outbound.start counter entries desc h).Tracked counter :=
      ⟨0, 0, Outbound.start_tracks⟩
    exact (Outbound.exec_tracked hstart ops).lossless
  · intro ops
    have hstart : (Inbound.start counter entries desc h).Tracked counter :=
      ⟨0, Inbound.start_tracks⟩
    exact (Inbound.exec_tracked hstart ops).lossless

-- A ring of four entries whose counters are about to wrap around.
theorem rings_lossless_wrapping :
    (∀ ops,
      (Transition.exec Outbound.step (.start 0xFFFFFFFE#32 4#32 id (by decide)) ops).Lossless) ∧
    (∀ ops,
      (Transition.exec Inbound.step (.start 0xFFFFFFFE#32 4#32 id (by decide)) ops).Lossless) :=
  rings_lossless 0xFFFFFFFE#32 4#32 id (by decide)

end Xdp
