import AsyncNetStack.Device.Contract
import AsyncNetStack.Lib.Custody
import AsyncNetStack.Xdp.Device
import AsyncNetStack.Xdp.Theorems.Ring

open List

namespace Xdp

namespace XdpConfig

-- The parts of the validation that the ownership of frames rests on.
structure Valid (cfg : XdpConfig) : Prop where
  chunk    : 2048 ≤ cfg.chunkSize
  headroom : cfg.headroom ≤ cfg.chunkSize
  arena    : cfg.frames * cfg.chunkSize < 2 ^ 64
  reserve  : cfg.txReserve ≤ cfg.frames

theorem validate_valid {cfg : XdpConfig} {queue : U32} (h : cfg.validate queue = .ok ()) :
    cfg.Valid := by
  have hi := (validate_ok h).right
  simp only [invalid, Bool.or_eq_false_iff, decide_eq_false_iff_not] at hi
  constructor <;> omega

end XdpConfig

variable {α : Type}

theorem Producer.push_of_le {p : Producer α} {descs : List α} (h : descs.length ≤ p.free) :
    (p.push descs).snd = descs.length := by
  have hf : ¬ p.free < descs.length := by omega
  simp only [push, write, freeSlots, hf, if_false]
  omega

theorem Producer.push_le (p : Producer α) (descs : List α) : (p.push descs).snd ≤ descs.length :=
  Nat.min_le_left ..

theorem Producer.push_cachedProducer (p : Producer α) (descs : List α) :
    (p.push descs).fst.cachedProducer = p.cachedProducer + .ofNat 32 (p.push descs).snd := by
  have hfree : (p.freeSlots descs.length).fst.cachedProducer = p.cachedProducer := by
    rw [freeSlots]
    split <;> rfl
  have hpublish (p : Producer α) (n : Nat) : (p.publish n).cachedProducer = p.cachedProducer := by
    rw [publish]
    split <;> rfl
  rw [push, hpublish, write]
  dsimp only
  rw [hfree]

theorem Producer.push_nil (p : Producer α) : (p.push []).fst.ring.producer = p.ring.producer := by
  simp [push, write, freeSlots, publish, Ring.writeDescs]

theorem Consumer.rxPop_le (c : Consumer α) (max : Nat) : (c.rxPop max).snd.length ≤ max := by
  rw [rxPop, readRx, length_map, length_range]
  exact Nat.min_le_left ..

namespace XdpDevice

variable {id : PoolId} {cfg : XdpConfig} {hand : List Nat} {d : XdpDevice}
variable {buf : PacketBuf} {bufs : List PacketBuf} {kernel : Nat → Kernel}

theorem assert_of {cond : Bool} (h : cond = true) : d.assert cond = d := by
  rw [assert, h, Bool.not_true, Bool.or_false]

-- Each frame is in the free list, among those in hand, or with the kernel. Nothing has panicked.
structure Base (id : PoolId) (cfg : XdpConfig) (hand : List Nat) (d : XdpDevice) : Prop where
  cfg_eq       : d.cfg = cfg
  id_eq        : d.pool.id = id
  frameSize_eq : d.pool.frameSize = cfg.chunkSize
  numFrames_eq : d.pool.numFrames = cfg.frames
  states       : d.state.length = cfg.frames
  custody      : Custody.Exact FrameState.kernel (d.pool.free ++ hand) d.state
  fine         : d.panicked = false

namespace Base

theorem perm (h : Base id cfg hand d) {hand' : List Nat} (hp : hand.Perm hand') :
    Base id cfg hand' d :=
  { h with custody := h.custody.perm (hp.append_left _) }

theorem observe (h : Base id cfg hand d) : Base id cfg hand d.observe :=
  { h with }

variable {idx : Nat}

theorem mem_lt (h : Base id cfg hand d) (hm : idx ∈ hand) : idx < cfg.frames := by
  rw [← h.states]
  exact h.custody.lt_of_mem (mem_append_right _ hm)

theorem freeN {indices : List Nat} (h : Base id cfg (indices ++ hand) d) :
    Base id cfg hand { d with pool := d.pool.freeN indices } :=
  { h with
    custody := by
      apply h.custody.perm
      rw [FramePool.freeN, append_assoc, ← append_assoc]
      apply List.Perm.trans (perm_append_comm.append_right hand)
      rw [append_assoc]
      exact (reverse_perm indices).symm.append_right _ }

theorem freeN_eq {indices : List Nat} (h : Base id cfg (indices ++ hand) d) :
    d.freeN indices = { d with pool := d.pool.freeN indices } := by
  have hlen := h.custody.length_le
  rw [h.states, length_append, length_append] at hlen
  have hnodup := h.custody.nodup
  rw [← append_assoc] at hnodup
  have hfit : d.pool.available + indices.length ≤ d.pool.numFrames := by
    rw [h.numFrames_eq, FramePool.available]
    omega
  have hused : (indices.all (· < d.pool.numFrames) && (indices ++ d.pool.free).Nodup) = true := by
    rw [Bool.and_eq_true, all_eq_true, decide_eq_true_iff]
    constructor
    · intro idx hm
      rw [h.numFrames_eq, decide_eq_true_iff]
      exact h.mem_lt (mem_append_left _ hm)
    · exact nodup_append_comm.mp hnodup.of_append_left
  rw [XdpDevice.freeN, assert_of (decide_eq_true hfit), assert_of hused]

-- Frames from the free list come into the hand.
theorem allocN (h : Base id cfg hand d) (n : Nat) :
    Base id cfg ((d.pool.allocN n).snd ++ hand) { d with pool := (d.pool.allocN n).fst } :=
  { h with
    custody := by
      apply h.custody.perm
      rw [FramePool.allocN, ← append_assoc]
      apply List.Perm.append_right
      nth_rewrite 1 [← take_append_drop n d.pool.free]
      exact perm_append_comm.trans ((reverse_perm _).symm.append_left _) }

-- A frame in hand is given to the kernel.
theorem give {s : FrameState} (h : Base id cfg (idx :: hand) d) (hs : s.kernel = true) :
    Base id cfg hand { d with state := d.state.set idx s } :=
  { h with
    states  := length_set.trans h.states
    custody := (h.custody.perm perm_middle).give hs }

-- A frame of the kernel comes into the hand.
theorem take {s t : FrameState} (h : Base id cfg hand d) (ht : d.state[idx]? = some t)
    (hk : t.kernel = true) (hs : s.kernel = false) :
    Base id cfg (idx :: hand) { d with state := d.state.set idx s } :=
  { h with
    states  := length_set.trans h.states
    custody := (h.custody.take ht hk hs).perm perm_middle.symm }

theorem mark {s : FrameState} (h : Base id cfg hand d) (hm : idx ∈ hand)
    (hs : s.kernel = false) : Base id cfg hand { d with state := d.state.set idx s } :=
  { h with
    states  := length_set.trans h.states
    custody := h.custody.mark (mem_append_right _ hm) hs }

theorem setState_eq (h : Base id cfg hand d) (hi : idx < cfg.frames) (s : FrameState) :
    d.setState idx s = { d with state := d.state.set idx s } := by
  have hlt : idx < d.state.length := by
    rw [h.states]
    exact hi
  rw [setState, assert_of (decide_eq_true hlt)]

-- The kernel does not own a frame in hand.
theorem state_of_mem (h : Base id cfg hand d) (hm : idx ∈ hand) :
    ∃ s, d.state[idx]? = some s ∧ s.kernel = false := by
  have hm := mem_append_right d.pool.free hm
  have hs := List.getElem?_eq_getElem (h.custody.lt_of_mem hm)
  exact ⟨_, hs, h.custody.not_away hm hs⟩

-- The number of frames in another state of the kernel does not change if one is given to it.
theorem count_give {s t : FrameState} (h : Base id cfg (idx :: hand) d) (ht : t.kernel = true) :
    (d.state.set idx s).count t = d.state.count t + if s = t then 1 else 0 := by
  have ⟨u, hu, hk⟩ := h.state_of_mem mem_cons_self
  have hc := Custody.count_set (t := s) (u := t) hu
  have hne : u ≠ t := by
    intro heq
    rw [heq, ht] at hk
    cases hk
  rw [if_neg hne] at hc
  exact hc

end Base

-- Between two calls, the counters are those of the frames which the kernel owns.
structure Sound (id : PoolId) (cfg : XdpConfig) (hand : List Nat) (d : XdpDevice) : Prop
    extends Base id cfg hand d where
  rxOwned_eq   : d.rxOwned = d.state.count .rxKernel
  txPending_eq : d.txPending = d.state.count .txKernel
  rxOwned_le   : d.rxOwned ≤ d.rxTarget

namespace Sound

theorem perm (h : Sound id cfg hand d) {hand' : List Nat} (hp : hand.Perm hand') :
    Sound id cfg hand' d :=
  { h with toBase := h.toBase.perm hp }

theorem observe (h : Sound id cfg hand d) : Sound id cfg hand d.observe :=
  ⟨h.toBase.observe, h.rxOwned_eq, h.txPending_eq, h.rxOwned_le⟩

end Sound

-- A loop over frames leaves the counters, the socket and the free list alone.
structure Steady (d d' : XdpDevice) : Prop where
  rxOwned   : d'.rxOwned = d.rxOwned
  rxTarget  : d'.rxTarget = d.rxTarget
  txPending : d'.txPending = d.txPending
  xsk       : d'.xsk = d.xsk
  free      : d'.pool.free = d.pool.free

theorem Steady.refl (d : XdpDevice) : Steady d d :=
  ⟨rfl, rfl, rfl, rfl, rfl⟩

-- What happens to the frames of completed transmissions.
structure Reaps (id : PoolId) (cfg : XdpConfig) (hand : List Nat) (d : XdpDevice) (addrs : List U64)
    (r : XdpDevice × List Nat) : Prop where
  base   : Base id cfg (r.snd ++ hand) r.fst
  steady : Steady d r.fst
  tx     : r.fst.state.count .txKernel + r.snd.length = d.state.count .txKernel
  rx     : r.fst.state.count .rxKernel = d.state.count .rxKernel
  length : r.snd.length ≤ addrs.length

-- A completion is counted once only, since the state of its frame changes at once.
theorem reap_reaps (h : Base id cfg hand d) (addrs : List U64) :
    Reaps id cfg hand d addrs (d.reap addrs) := by
  induction addrs generalizing d hand
  case nil =>
    exact {
      base   := h
      steady := .refl d
      tx     := rfl
      rx     := rfl
      length := Nat.le_refl _ }
  case cons addr addrs ih =>
    rw [reap]
    dsimp only
    split
    case isTrue =>
      have hi : Base id cfg hand d.invalidDescriptor := { h with }
      have hr := ih hi
      exact {
        base   := hr.base
        steady := { hr.steady with }
        tx     := hr.tx
        rx     := hr.rx
        length := Nat.le_succ_of_le hr.length }
    case isFalse htx =>
      rw [ne_eq, not_not] at htx
      have hr := ih (h.take (s := .free) htx rfl rfl)
      have htxs := Custody.count_set (t := FrameState.free) (u := FrameState.txKernel) htx
      have hrxs := Custody.count_set (t := FrameState.free) (u := FrameState.rxKernel) htx
      exact {
        base   := hr.base.perm perm_middle
        steady := { hr.steady with }
        tx     := (congrArg (· + 1) hr.tx).trans htxs
        rx     := hr.rx.trans hrxs
        length := Nat.succ_le_succ hr.length }

theorem drainCq_sound (h : Sound id cfg hand d) : Sound id cfg hand d.drainCq.fst := by
  rw [drainCq]
  dsimp only
  have hpop := d.observe.umem.cq.rxPop_le d.observe.cfg.batchSize
  rw [← Consumer.cqPop_eq] at hpop
  generalize hcq : d.observe.umem.cqPop d.observe.cfg.batchSize = pop
  have haddrs : pop.snd.length ≤ d.cfg.batchSize := hcq ▸ hpop
  have hobs : Base id cfg hand { d.observe with umem := pop.fst } := { h.toBase.observe with }
  have hr := reap_reaps hobs pop.snd
  generalize XdpDevice.reap { d.observe with umem := pop.fst } pop.snd = r at hr ⊢
  have ⟨d', indices⟩ := r
  have hbase : Base id cfg (indices ++ hand) d' := hr.base
  have htx : d'.state.count .txKernel + indices.length = d.txPending :=
    hr.tx.trans h.txPending_eq.symm
  have howned : d'.rxOwned = d.rxOwned := hr.steady.rxOwned
  have htarget : d'.rxTarget = d.rxTarget := hr.steady.rxTarget
  have hpending : d'.txPending = d.txPending := hr.steady.txPending
  have hbatch : indices.length ≤ d'.cfg.batchSize := by
    rw [hbase.cfg_eq, ← h.cfg_eq]
    exact Nat.le_trans hr.length haddrs
  have hle : indices.length ≤ d'.txPending := by omega
  dsimp only
  rw [assert_of (decide_eq_true hbatch), hbase.freeN_eq, assert_of (decide_eq_true hle)]
  exact {
    toBase       := { hbase.freeN with }
    rxOwned_eq   := howned.trans (h.rxOwned_eq.trans hr.rx.symm)
    txPending_eq := by dsimp only; omega
    rxOwned_le   := by dsimp only; rw [howned, htarget]; exact h.rxOwned_le }

-- What happens to frames that are given to the kernel.
structure Gives (id : PoolId) (cfg : XdpConfig) (hand : List Nat) (s : FrameState) (n : Nat)
    (d d' : XdpDevice) : Prop where
  base   : Base id cfg hand d'
  steady : Steady d d'
  count  : ∀ t : FrameState, t.kernel = true →
    d'.state.count t = d.state.count t + if s = t then n else 0

theorem setStates_gives {s : FrameState} (hs : s.kernel = true) {indices : List Nat}
    (h : Base id cfg (indices ++ hand) d) :
    Gives id cfg hand s indices.length d (indices.foldl (·.setState · s) d) := by
  induction indices generalizing d
  case nil =>
    exact {
      base   := h
      steady := .refl d
      count  := by intro t _; simp }
  case cons idx indices ih =>
    rw [foldl_cons, h.setState_eq (h.mem_lt mem_cons_self)]
    have hg := ih (h.give hs)
    exact {
      base   := hg.base
      steady := { hg.steady with }
      count  := by
        intro t ht
        rw [hg.count t ht, h.count_give ht, length_cons]
        split <;> omega }

-- What a round of refilling does.
structure Fills (id : PoolId) (cfg : XdpConfig) (hand : List Nat) (limit : Nat) (d : XdpDevice)
    (r : XdpDevice × Nat) : Prop where
  sound     : Sound id cfg hand r.fst
  pushed_le : r.snd ≤ limit
  rxOwned   : r.fst.rxOwned = d.rxOwned + r.snd
  rxTarget  : r.fst.rxTarget = d.rxTarget
  available : r.fst.pool.available + r.snd = d.pool.available

theorem fill_fills (h : Sound id cfg hand d) {limit : Nat} (hlimit : limit ≤ d.pool.available)
    (hbudget : limit ≤ d.rxTarget - d.rxOwned) : Fills id cfg hand limit d (d.fill limit) := by
  have hle := h.rxOwned_le
  rw [FramePool.available] at hlimit
  rw [fill]
  dsimp only
  have halloc := (h.toBase.allocN limit).observe
  have hlen : (d.pool.allocN limit).snd.length = limit := by
    rw [FramePool.allocN, length_reverse, length_take]
    omega
  have hfree : (d.pool.allocN limit).fst.available + limit = d.pool.free.length := by
    rw [FramePool.allocN, FramePool.available, length_drop]
    omega
  generalize d.pool.allocN limit = a at halloc hlen hfree ⊢
  have ⟨pool, indices⟩ := a
  dsimp only at halloc hlen hfree ⊢
  generalize hpush : UMem.fillPush _ _ = push
  have hpushed : push.snd ≤ indices.length := by
    rw [← hpush, ← length_map]
    exact Producer.push_le ..
  rw [← take_append_drop push.snd indices, append_assoc] at halloc
  have hstart : Base id cfg (indices.take push.snd ++ (indices.drop push.snd ++ hand))
    { XdpDevice.observe { d with pool } with umem := push.fst } := { halloc with }
  have hg := setStates_gives (s := .rxKernel) rfl hstart
  generalize List.foldl _ _ _ = d' at hg ⊢
  have htake : (indices.take push.snd).length = push.snd := by
    rw [length_take]
    omega
  have howned : d'.rxOwned = d.rxOwned := hg.steady.rxOwned
  have htarget : d'.rxTarget = d.rxTarget := hg.steady.rxTarget
  have hpending : d'.txPending = d.txPending := hg.steady.txPending
  have hrx := hg.count .rxKernel rfl
  have htx := hg.count .txKernel rfl
  rw [htake, if_pos rfl] at hrx
  rw [hg.base.freeN_eq]
  exact {
    sound     := {
      toBase       := { hg.base.freeN with }
      rxOwned_eq   := by
        dsimp only
        rw [howned, hrx, h.rxOwned_eq]
        rfl
      txPending_eq := by
        dsimp only
        rw [hpending, htx, h.txPending_eq]
        rfl
      rxOwned_le   := by
        dsimp only
        omega }
    pushed_le := by
      dsimp only
      omega
    rxOwned   := by
      dsimp only
      rw [howned]
    rxTarget  := htarget
    available := by
      have hfree' : d'.pool.free = pool.free := hg.steady.free
      dsimp only [FramePool.available, FramePool.freeN] at hfree ⊢
      rw [length_append, length_reverse, length_drop, hfree']
      omega }

-- Refilling uses no more of the free list than its budget.
theorem fillRounds_sound (h : Sound id cfg hand d) {rounds budget : Nat}
    (hlimit : budget ≤ d.pool.available) (hbudget : budget ≤ d.rxTarget - d.rxOwned) :
    Sound id cfg hand (d.fillRounds rounds budget) ∧
    d.pool.available ≤ (d.fillRounds rounds budget).pool.available + budget := by
  induction rounds generalizing d budget
  case zero => exact ⟨h, Nat.le_add_right ..⟩
  case succ rounds ih =>
    rw [fillRounds]
    split
    case isFalse => exact ⟨h, Nat.le_add_right ..⟩
    dsimp only
    have hf : Fills id cfg hand _ d (d.fill (min budget d.cfg.batchSize)) :=
      fill_fills h (by omega) (by omega)
    have := hf.pushed_le
    have := hf.rxOwned
    have := hf.rxTarget
    have := hf.available
    split
    case isTrue => exact ⟨hf.sound, by omega⟩
    generalize hb : budget - (d.fill (min budget d.cfg.batchSize)).snd = rest
    have ⟨hs, hle⟩ := ih hf.sound (show rest ≤ _ by omega) (by omega)
    exact ⟨hs, by omega⟩

theorem refill_spec (h : Sound id cfg hand d) :
    Sound id cfg hand d.refill ∧ min d.pool.available cfg.txReserve ≤ d.refill.pool.available := by
  rw [refill, assert_of (decide_eq_true h.rxOwned_le)]
  generalize hn : min (d.rxTarget - d.rxOwned) (d.pool.available - d.cfg.txReserve) = n
  have ⟨(hs : Sound id cfg hand (d.fillRounds n n)), hle⟩ :=
    fillRounds_sound h (show n ≤ d.pool.available by omega) (by omega)
  refine ⟨hs, ?_⟩
  rw [← h.cfg_eq]
  omega

theorem progress_sound (h : Sound id cfg hand d) : Sound id cfg hand d.progress.fst :=
  (refill_spec (drainCq_sound h)).left

-- A buffer with a frame of the device.
structure IsHandle (id : PoolId) (cfg : XdpConfig) (buf : PacketBuf) : Prop where
  belongs : buf.belongsTo id = true
  size    : buf.memory.length = cfg.chunkSize

theorem IsHandle.bound (h : IsHandle id cfg buf) : buf.dataOffset + buf.len ≤ cfg.chunkSize := by
  rw [← h.size]
  exact buf.bound

theorem packetBuf_handle (h : Base id cfg hand d) {idx headroom len : Nat} (hi : idx < cfg.frames)
    (hfit : headroom + len ≤ cfg.chunkSize) :
    ∃ buf, d.packetBuf idx headroom len = some buf ∧ buf.idx = idx ∧ IsHandle id cfg buf := by
  have hsize : (d.pool.emptyBuf idx).memory.length = cfg.chunkSize := by
    rw [← h.frameSize_eq]
    exact Vector.length_toList
  have hroom : headroom ≤ (d.pool.emptyBuf idx).capacity - (d.pool.emptyBuf idx).len := by
    rw [PacketBuf.capacity, hsize]
    exact Nat.le_trans (Nat.le_add_right ..) hfit
  have htail : len ≤ (d.pool.emptyBuf idx).capacity - headroom := by
    rw [PacketBuf.capacity, hsize]
    omega
  rw [packetBuf, if_pos (h.numFrames_eq ▸ hi), PacketBuf.setHeadroom, dif_pos hroom]
  dsimp only [bind, Option.bind]
  rw [PacketBuf.setLen]
  split
  case isFalse hn => exact absurd htail hn
  refine ⟨_, rfl, rfl, ?_, hsize⟩
  rw [← h.id_eq, PacketBuf.belongsTo]
  exact beq_self_eq_true _

theorem handOut_handle (h : Base id cfg hand d) {idx headroom len : Nat} (hi : idx < cfg.frames)
    (hfit : headroom + len ≤ cfg.chunkSize) :
    ∃ buf, d.handOut idx headroom len = ({ d with state := d.state.set idx .app }, [buf]) ∧
      buf.idx = idx ∧ IsHandle id cfg buf := by
  have ⟨buf, hbuf, hidx, hh⟩ := packetBuf_handle h hi hfit
  have hbuf' : packetBuf { d with state := d.state.set idx .app } idx headroom len = some buf :=
    hbuf
  use buf
  rw [handOut, h.setState_eq hi, hbuf']
  exact ⟨rfl, hidx, hh⟩

-- What happens when the device hands out buffers.
structure HandsOut (id : PoolId) (cfg : XdpConfig) (hand : List Nat)
    (r : XdpDevice × List PacketBuf) : Prop where
  sound   : Sound id cfg (r.snd.map (·.idx) ++ hand) r.fst
  handles : ∀ buf ∈ r.snd, IsHandle id cfg buf

theorem HandsOut.cons {buf : PacketBuf} {bufs : List PacketBuf}
    (h : HandsOut id cfg (buf.idx :: hand) (d, bufs)) (hb : IsHandle id cfg buf) :
    HandsOut id cfg hand (d, buf :: bufs) where
  sound   := h.sound.perm perm_middle
  handles := forall_mem_cons.mpr ⟨hb, h.handles⟩

theorem decodeRx_some {addr : U64} {len : U32} {chunk frames idx offset : Nat}
    (h : decodeRx addr len chunk frames = some (idx, offset)) (hc : 0 < chunk) :
    idx < frames ∧ offset + len.toNat ≤ chunk := by
  rw [decodeRx] at h
  split at h
  case isFalse => cases h
  rename_i hv
  cases h
  simp only [Bool.and_eq_true, decide_eq_true_iff] at hv
  have := Nat.mod_lt addr.toNat hc
  exact ⟨hv.left.left, by omega⟩

-- A descriptor is only accepted if its frame is with the kernel for RX, and that ends at once.
theorem accept_handsOut (h : Sound id cfg hand d) (hc : 0 < cfg.chunkSize)
    (descs : List (U64 × U32)) : HandsOut id cfg hand (d.accept descs) := by
  induction descs generalizing d hand
  case nil => exact ⟨h, fun _ hm => nomatch hm⟩
  case cons desc descs ih =>
    have ⟨addr, len⟩ := desc
    have hinvalid : Sound id cfg hand d.invalidDescriptor := { h with }
    rw [accept]
    split
    case h_1 => exact ih hinvalid
    case h_2 idx offset hd =>
      rw [h.cfg_eq] at hd
      have ⟨hi, hfit⟩ := decodeRx_some hd hc
      rw [assert_of (decide_eq_true (h.states ▸ hi))]
      dsimp only
      split
      case isTrue => exact ih hinvalid
      rename_i hrx
      rw [ne_eq, not_not] at hrx
      have hcount := Custody.count_set (t := FrameState.app) (u := FrameState.rxKernel) hrx
      have htx := Custody.count_set (t := FrameState.app) (u := FrameState.txKernel) hrx
      rw [if_pos rfl, if_neg (by decide)] at hcount
      rw [if_neg (by decide), if_neg (by decide)] at htx
      have heq := h.rxOwned_eq
      have hle := h.rxOwned_le
      rw [assert_of (decide_eq_true (by omega))]
      have hbase : Base id cfg hand { d with rxOwned := d.rxOwned - 1 } := { h.toBase with }
      have ⟨buf, hbuf, hidx, hh⟩ := handOut_handle hbase hi hfit
      have hs : Sound id cfg (idx :: hand)
          { d with rxOwned := d.rxOwned - 1, state := d.state.set idx .app } := {
        toBase       := hbase.take (s := .app) hrx rfl rfl
        rxOwned_eq   := by dsimp only; omega
        txPending_eq := by dsimp only; rw [h.txPending_eq]; omega
        rxOwned_le   := by dsimp only; omega }
      have hr := ih hs
      rw [hbuf]
      exact HandsOut.cons (hidx ▸ hr) hh

theorem recv_handsOut (h : Sound id cfg hand d) (hc : 0 < cfg.chunkSize) (max : Nat) :
    ∃ bufs, (d.recv max).snd = .ok bufs ∧ HandsOut id cfg hand ((d.recv max).fst, bufs) := by
  rw [recv]
  dsimp only
  have hp := (progress_sound h).observe
  generalize XskSocket.rxPop _ _ = pop
  have hs : Sound id cfg hand { d.progress.fst.observe with xsk := pop.fst } := { hp with }
  have ha := accept_handsOut hs hc pop.snd
  exact ⟨_, rfl, { ha.sound with }, ha.handles⟩

-- A frame in hand is handed out.
theorem lend {idx : Nat} (h : Sound id cfg (idx :: hand) d) (hc : cfg.headroom ≤ cfg.chunkSize) :
    ∃ d' buf, d.handOut idx d.cfg.headroom 0 = (d', [buf]) ∧ Sound id cfg (idx :: hand) d' ∧
      buf.idx = idx ∧ IsHandle id cfg buf := by
  have ⟨s, hs, hk⟩ := h.state_of_mem mem_cons_self
  have hrx := Custody.count_set (t := FrameState.app) (u := FrameState.rxKernel) hs
  have htx := Custody.count_set (t := FrameState.app) (u := FrameState.txKernel) hs
  have hrx' : s ≠ .rxKernel := by rintro rfl; cases hk
  have htx' : s ≠ .txKernel := by rintro rfl; cases hk
  rw [if_neg hrx', if_neg (by decide)] at hrx
  rw [if_neg htx', if_neg (by decide)] at htx
  have hm : Sound id cfg (idx :: hand) { d with state := d.state.set idx .app } := {
    toBase       := h.toBase.mark mem_cons_self rfl
    rxOwned_eq   := h.rxOwned_eq.trans hrx.symm
    txPending_eq := h.txPending_eq.trans htx.symm
    rxOwned_le   := h.rxOwned_le }
  rw [← h.cfg_eq] at hc
  have ⟨buf, hbuf, hidx, hh⟩ := handOut_handle h.toBase (h.mem_lt mem_cons_self)
    (show d.cfg.headroom + 0 ≤ cfg.chunkSize from h.cfg_eq ▸ hc)
  exact ⟨_, buf, hbuf, hm, hidx, hh⟩

theorem handOutAll_handsOut {indices : List Nat} (h : Sound id cfg (indices ++ hand) d)
    (hc : cfg.headroom ≤ cfg.chunkSize) : HandsOut id cfg hand (d.handOutAll indices) := by
  induction indices generalizing d hand
  case nil => exact ⟨h, fun _ hm => nomatch hm⟩
  case cons idx indices ih =>
    have ⟨d', buf, hbuf, hs, hidx, hh⟩ := lend h hc
    have hr := ih (hs.perm perm_middle.symm)
    rw [handOutAll, hbuf]
    exact HandsOut.cons (hidx ▸ hr) hh

theorem allocBatch_handsOut (h : Sound id cfg hand d) (hc : cfg.headroom ≤ cfg.chunkSize)
    (max : Nat) : HandsOut id cfg hand (d.allocBatch max) := by
  have hd := drainCq_sound h
  rw [allocBatch]
  apply handOutAll_handsOut _ hc
  exact ⟨hd.toBase.allocN _, hd.rxOwned_eq, hd.txPending_eq, hd.rxOwned_le⟩

theorem alloc_handsOut (h : Sound id cfg hand d) (hc : cfg.headroom ≤ cfg.chunkSize) :
    HandsOut id cfg hand (d.alloc.fst, d.alloc.snd.toList) := by
  rw [alloc]
  have hp : Sound id cfg hand (if d.pool.available = 0 then d.progress.fst else d) := by
    split
    case isTrue  => exact progress_sound h
    case isFalse => exact h
  generalize (if d.pool.available = 0 then d.progress.fst else d) = d' at hp ⊢
  dsimp only
  generalize hf : d'.pool.free = free
  match free with
  | [] =>
    have heq : d'.pool.alloc = (d'.pool, none) := by
      rw [FramePool.alloc, hf, tail_nil, List.head?_nil, ← hf]
    rw [heq]
    exact ⟨hp, fun _ hm => nomatch hm⟩
  | idx :: free =>
    have heq : d'.pool.alloc = ((d'.pool.allocN 1).fst, some idx) := by
      rw [FramePool.alloc, FramePool.allocN, hf]
      rfl
    have hone : (d'.pool.allocN 1).snd = [idx] := by
      rw [FramePool.allocN, hf]
      rfl
    have ha : Sound id cfg ([idx] ++ hand) { d' with pool := (d'.pool.allocN 1).fst } :=
      ⟨hone ▸ hp.toBase.allocN 1, hp.rxOwned_eq, hp.txPending_eq, hp.rxOwned_le⟩
    have ⟨d'', buf, hbuf, hs, hidx, hh⟩ := lend ha hc
    subst hidx
    rw [heq]
    dsimp only
    rw [hbuf]
    exact ⟨hs, forall_mem_singleton.mpr hh⟩

-- Handles are given to the kernel, together with the memory of their frames.
theorem submits_gives (h : Base id cfg (bufs.map (·.idx) ++ hand) d) :
    Gives id cfg hand .txKernel bufs.length d (bufs.foldl submit d) := by
  induction bufs generalizing d
  case nil =>
    exact {
      base   := h
      steady := .refl d
      count  := by intro t _; simp }
  case cons buf bufs ih =>
    have hset := h.setState_eq (h.mem_lt mem_cons_self) .txKernel
    have hb : Base id cfg (bufs.map (·.idx) ++ hand) (d.setState buf.idx .txKernel) :=
      hset ▸ h.give rfl
    have hs : Base id cfg (bufs.map (·.idx) ++ hand) (d.submit buf) :=
      { hb with }
    have hg := ih hs
    exact {
      base   := hg.base
      steady := { hg.steady with }
      count  := by
        intro t ht
        have hc : (d.submit buf).state.count t = _ := h.count_give ht
        rw [foldl_cons, hg.count t ht, hc, length_cons]
        split <;> omega }

-- The indices of those frames of buffers that belong to the device.
def ours (id : PoolId) (bufs : List PacketBuf) : List Nat :=
  (bufs.filter (·.belongsTo id)).map (·.idx)

theorem ours_append (bufs bufs' : List PacketBuf) :
    ours id (bufs ++ bufs') = ours id bufs ++ ours id bufs' := by
  rw [ours, filter_append, map_append]
  rfl

theorem ours_handles (h : ∀ buf ∈ bufs, buf.belongsTo id = true) :
    ours id bufs = bufs.map (·.idx) := by
  rw [ours, filter_eq_self.mpr h]

theorem ours_consumed (bufs : List PacketBuf) : ours id (bufs.map fun _ => .default) = [] := by
  rw [ours, filter_eq_nil_iff.mpr, map_nil]
  intro buf hm
  have ⟨_, _, heq⟩ := mem_map.mp hm
  rw [← heq]
  exact Bool.false_ne_true

theorem ours_singleton {old : PacketBuf} (hidx : buf.idx = old.idx)
    (hb : buf.belongsTo id = old.belongsTo id) : ours id [buf] = ours id [old] := by
  cases ho : old.belongsTo id <;> simp [ours, hb, ho, hidx]

-- Another buffer with the same frame makes no difference.
theorem ours_set {i : Nat} {old : PacketBuf} (hi : bufs[i]? = some old)
    (hidx : buf.idx = old.idx) (hb : buf.belongsTo id = old.belongsTo id) :
    ours id (bufs.set i buf) = ours id bufs := by
  have ⟨hlt, heq⟩ := List.getElem?_eq_some_iff.mp hi
  have hsplit : bufs = bufs.take i ++ ([old] ++ bufs.drop (i + 1)) := by
    rw [← heq, singleton_append, getElem_cons_drop, take_append_drop]
  have hset : bufs.set i buf = bufs.take i ++ ([buf] ++ bufs.drop (i + 1)) := by
    rw [set_eq_take_append_cons_drop, if_pos hlt, singleton_append]
  rw [hset, ours_append, ours_append, ours_singleton hidx hb, ← ours_append, ← ours_append,
    ← hsplit]

theorem reserve_sound (h : Sound id cfg hand d) (count : Nat) :
    Sound id cfg hand (d.reserve count).fst :=
  { (drainCq_sound h).observe with }

theorem reserve_le (d : XdpDevice) (count : Nat) : (d.reserve count).snd ≤ count :=
  Nat.le_trans (Nat.min_le_left ..) (Nat.min_le_left ..)

theorem reserve_free (d : XdpDevice) (count : Nat) :
    (d.reserve count).snd ≤ (d.reserve count).fst.xsk.tx.free :=
  Nat.min_le_right ..

-- The slots which were reserved are still free when the descriptors are pushed, whatever the kernel
-- does.
theorem transmit_sound {frames : List PacketBuf} (h : Sound id cfg (frames.map (·.idx) ++ hand) d)
    (hf : frames.length ≤ d.xsk.tx.free) : Sound id cfg hand (d.transmit frames) := by
  rw [transmit]
  dsimp only
  have hg := submits_gives h.toBase
  generalize frames.foldl submit d = d' at hg ⊢
  have hfree : d'.observe.xsk.tx.free = d.xsk.tx.free := congrArg (·.tx.free) hg.steady.xsk
  have hpush : (d'.observe.xsk.txPush (frames.map d.describe)).snd = frames.length := by
    rw [← length_map (f := d.describe)] at hf ⊢
    exact Producer.push_of_le (hfree ▸ hf)
  rw [assert_of (beq_iff_eq.mpr hpush)]
  have hrx := hg.count .rxKernel rfl
  have htx := hg.count .txKernel rfl
  exact {
    toBase       := { hg.base.observe with }
    rxOwned_eq   := (hg.steady.rxOwned.trans h.rxOwned_eq).trans hrx.symm
    txPending_eq := by
      have hpending : d'.observe.txPending = d.state.count .txKernel :=
        hg.steady.txPending.trans h.txPending_eq
      dsimp only
      rw [hpending]
      exact htx.symm
    rxOwned_le   := by
      have howned : d'.observe.rxOwned = d.rxOwned := hg.steady.rxOwned
      have htarget : d'.observe.rxTarget = d.rxTarget := hg.steady.rxTarget
      dsimp only
      rw [howned, htarget]
      exact h.rxOwned_le }

theorem sendSlots_owned (d : XdpDevice) (slots : List PacketBuf) :
    PrefixOwned slots (d.sendSlots slots).snd := by
  have hle := reserve_le d slots.length
  rw [sendSlots]
  dsimp only
  split
  case isTrue => exact .error _
  rw [map_const', length_take, Nat.min_eq_left hle]
  exact .ok hle

theorem sendSlots_sound {slots rest : List PacketBuf}
    (h : Sound id cfg (ours id (slots ++ rest)) d) :
    Sound id cfg (ours id ((d.sendSlots slots).snd.fst ++ rest)) (d.sendSlots slots).fst := by
  rw [sendSlots]
  have hr := reserve_sound h slots.length
  have hle := reserve_le d slots.length
  have hfree := reserve_free d slots.length
  generalize d.reserve slots.length = r at hr hle hfree ⊢
  have ⟨d', n⟩ := r
  dsimp only at hr hle hfree ⊢
  split
  case isTrue => exact hr
  rename_i hv
  have hours : ∀ buf ∈ slots.take n, buf.belongsTo id = true := by
    intro buf hm
    by_contra hb
    refine hv (any_eq_true.mpr ⟨buf, hm, ?_⟩)
    rw [hr.id_eq, Bool.not_eq_true _ |>.mp hb]
    rfl
  rw [← take_append_drop n slots, append_assoc, ours_append, ours_handles hours] at hr
  dsimp only
  rw [append_assoc, ours_append, ours_consumed, nil_append]
  apply transmit_sound hr
  rw [length_take]
  omega

-- The frame of a handle that is dropped goes back to the free list.
theorem recycle_handle (h : Sound id cfg (buf.idx :: hand) d)
    (hb : buf.belongsTo id = true) : Sound id cfg hand (d.recycle buf) := by
  have hlen := h.custody.length_le
  have hnodup := h.custody.nodup
  rw [h.states, length_append, length_cons] at hlen
  have hfit : d.pool.available < d.pool.numFrames := by
    rw [FramePool.available, h.numFrames_eq]
    omega
  have hused : (buf.idx < d.pool.numFrames && buf.idx ∉ d.pool.free) = true := by
    rw [Bool.and_eq_true, decide_eq_true_iff, decide_eq_true_iff, h.numFrames_eq]
    refine ⟨h.mem_lt mem_cons_self, fun hm => ?_⟩
    exact (disjoint_of_nodup_append hnodup) hm mem_cons_self
  rw [← h.id_eq] at hb
  rw [recycle, if_pos hb, assert_of (decide_eq_true hfit)]
  dsimp only
  rw [assert_of hused, FramePool.recycle, if_pos hb]
  exact { h with custody := h.custody.perm perm_middle }

theorem recycle_sound (h : Sound id cfg (ours id [buf] ++ hand) d) :
    Sound id cfg hand (d.recycle buf) := by
  cases hb : buf.belongsTo id
  case false =>
    rw [recycle, h.id_eq, hb, if_neg Bool.false_ne_true]
    rw [ours, filter_singleton, hb] at h
    exact h
  case true =>
    rw [ours, filter_singleton, hb] at h
    exact recycle_handle h hb

theorem start_sound (h : cfg.Rings) : Sound id cfg [] (start id cfg kernel h) where
  cfg_eq       := rfl
  id_eq        := rfl
  frameSize_eq := rfl
  numFrames_eq := rfl
  states       := length_replicate
  custody      := by
    rw [append_nil]
    exact Custody.Exact.range cfg.frames rfl
  fine         := rfl
  rxOwned_eq   := by simp [start, count_replicate]
  txPending_eq := by simp [start, count_replicate]
  rxOwned_le   := Nat.zero_le _

theorem withConfig_ok {queue : U32} (h : cfg.validate queue = .ok ()) :
    withConfig id cfg queue kernel =
      .ok (start id cfg kernel (XdpConfig.validate_rings h)).refill := by
  rw [withConfig]
  split
  case h_1 he =>
    rw [h] at he
    cases he
  case h_2 => rfl

theorem withConfig_sound {queue : U32} (h : withConfig id cfg queue kernel = .ok d) :
    cfg.Valid ∧ Sound id cfg [] d ∧ cfg.txReserve ≤ d.pool.available := by
  rw [withConfig] at h
  split at h
  case h_1 => cases h
  rename_i hv
  cases h
  have hvalid := XdpConfig.validate_valid hv
  refine ⟨hvalid, (refill_spec (start_sound _)).left, ?_⟩
  refine (le_min ?_ le_rfl).trans (refill_spec (start_sound _)).right
  exact hvalid.reserve.trans_eq length_range.symm

-- The address of a packet lies in the frame of the packet.
theorem frameOf_describe (h : Base id cfg hand d) (hv : cfg.Valid)
    (hb : IsHandle id cfg buf) (hm : buf.idx ∈ hand) (hne : buf.isEmpty = false) :
    d.frameOf (d.describe buf).fst = buf.idx := by
  have hlt := h.mem_lt hm
  have hbound := hb.bound
  have hlen : buf.len ≠ 0 := by
    intro heq
    rw [PacketBuf.isEmpty, heq] at hne
    cases hne
  have hoffset : buf.dataOffset < cfg.chunkSize := by omega
  have harena : buf.idx * cfg.chunkSize + buf.dataOffset < 2 ^ 64 := calc
    buf.idx * cfg.chunkSize + buf.dataOffset < buf.idx * cfg.chunkSize + cfg.chunkSize := by omega
    _ = (buf.idx + 1) * cfg.chunkSize := (Nat.succ_mul ..).symm
    _ ≤ cfg.frames * cfg.chunkSize := Nat.mul_le_mul_right _ hlt
    _ < 2 ^ 64 := hv.arena
  rw [frameOf, describe, h.cfg_eq, BitVec.toNat_ofNat, Nat.mod_eq_of_lt harena, Nat.mul_comm,
    Nat.mul_add_div (by omega), Nat.div_eq_of_lt hoffset, Nat.add_zero]

end XdpDevice

namespace Application

open XdpDevice

variable {id : PoolId} {cfg : XdpConfig} {s : Application}

-- The device and the handles of the application account for all frames.
structure Sound (id : PoolId) (cfg : XdpConfig) (s : Application) : Prop where
  device : XdpDevice.Sound id cfg (ours id s.bufs) s.device
  size   : ∀ buf ∈ s.bufs, buf.belongsTo id = true → buf.memory.length = cfg.chunkSize

namespace Sound

-- The application receives new handles.
theorem extend (h : Sound id cfg s) {r : XdpDevice × List PacketBuf}
    (hr : HandsOut id cfg (ours id s.bufs) r) :
    Sound id cfg { device := r.fst, bufs := r.snd ++ s.bufs } where
  device := by
    rw [ours_append, ours_handles fun buf hm => (hr.handles buf hm).belongs]
    exact hr.sound
  size buf hm hb := by
    cases mem_append.mp hm
    case inl hm => exact (hr.handles buf hm).size
    case inr hm => exact h.size buf hm hb

theorem recv (h : Sound id cfg s) (hv : cfg.Valid) (max : Nat) :
    Sound id cfg (s.step (.recv max)) := by
  have hc := hv.chunk
  have ⟨bufs, heq, hr⟩ := recv_handsOut h.device (by omega) max
  rw [step]
  generalize s.device.recv max = r at heq hr ⊢
  have ⟨d', result⟩ := r
  dsimp only at heq
  subst heq
  exact h.extend hr

theorem send (h : Sound id cfg s) (n : Nat) : Sound id cfg (s.step (.send n)) where
  device := by
    have hd := h.device
    rw [← take_append_drop n s.bufs] at hd
    exact sendSlots_sound hd
  size buf hm hb := by
    apply h.size buf _ hb
    cases mem_append.mp hm
    case inl hm => exact mem_of_mem_take ((sendSlots_owned _ _).mem_of_belongsTo hm hb)
    case inr hm => exact mem_of_mem_drop hm

theorem drop (h : Sound id cfg s) (i : Nat) : Sound id cfg (s.step (.drop i)) := by
  rw [step]
  split
  case h_1 => exact h
  case h_2 buf hi =>
    have hp : s.bufs.Perm (buf :: s.bufs.eraseIdx i) := by
      have ⟨hlt, heq⟩ := List.getElem?_eq_some_iff.mp hi
      rw [← heq]
      exact (getElem_cons_eraseIdx_perm hlt).symm
    have hours : (ours id s.bufs).Perm (ours id [buf] ++ ours id (s.bufs.eraseIdx i)) := by
      rw [← ours_append]
      exact (hp.filter _).map _
    constructor
    case device => exact recycle_sound (h.device.perm hours)
    case size   => exact fun b hm => h.size b (mem_of_mem_eraseIdx hm)

theorem arrange (h : Sound id cfg s) (bufs : List PacketBuf) :
    Sound id cfg (s.step (.arrange bufs)) := by
  rw [step]
  split
  case isFalse => exact h
  case isTrue hp =>
    rw [isPerm_iff] at hp
    constructor
    case device => exact h.device.perm ((hp.symm.filter _).map _)
    case size   => exact fun b hm => h.size b (hp.mem_iff.mp hm)

theorem edit (h : Sound id cfg s) (i : Nat) (buf : PacketBuf) :
    Sound id cfg (s.step (.edit i buf)) := by
  rw [step]
  split
  case h_1 => exact h
  case h_2 old hi =>
    split
    case isFalse => exact h
    rename_i he
    simp only [edits, Bool.and_eq_true, beq_iff_eq] at he
    have ⟨⟨hidx, hpool⟩, hmem⟩ := he
    have hbelongs : buf.belongsTo id = old.belongsTo id := by
      rw [PacketBuf.belongsTo, hpool]
      rfl
    have ⟨hlt, heq⟩ := List.getElem?_eq_some_iff.mp hi
    constructor
    case device =>
      dsimp only
      rw [ours_set hi hidx hbelongs]
      exact h.device
    case size =>
      intro b hm hb
      cases mem_or_eq_of_mem_set hm
      case inl hm => exact h.size b hm hb
      case inr heq' =>
        subst heq'
        rw [hmem]
        exact h.size old (heq ▸ getElem_mem hlt) (hbelongs ▸ hb)

theorem obtain (h : Sound id cfg s) (buf : PacketBuf) : Sound id cfg (s.step (.obtain buf)) := by
  rw [step, h.device.id_eq]
  split
  case isTrue => exact h
  rename_i hb
  constructor
  case device =>
    dsimp only
    rw [ours, filter_cons, if_neg hb]
    exact h.device
  case size =>
    intro b hm hb'
    cases mem_cons.mp hm
    case inl heq => exact absurd (heq ▸ hb') hb
    case inr hm  => exact h.size b hm hb'

theorem step (h : Sound id cfg s) (hv : cfg.Valid) (e : Op) : Sound id cfg (s.step e) := by
  cases e
  case recv max       => exact h.recv hv max
  case send n         => exact h.send n
  case alloc          => exact h.extend (alloc_handsOut h.device hv.headroom)
  case allocBatch max => exact h.extend (allocBatch_handsOut h.device hv.headroom max)
  case progress       => exact ⟨progress_sound h.device, h.size⟩
  case drop i         => exact h.drop i
  case arrange bufs   => exact h.arrange bufs
  case edit i buf     => exact h.edit i buf
  case obtain buf     => exact h.obtain buf

end Sound

-- Frames are never shared:
-- * Each one is in the free list, in one handle, with the kernel for RX or with the kernel for TX.
-- * The counters are the numbers of frames with the kernel, and those for RX are within the target.
-- * Handles stay within their frames, and the kernel can only complete what was submitted.
-- * Refilling leaves the reserve of the free list for TX.
-- * No assertion, subtraction or access by index has failed, and that includes the one of `send`.
structure Exclusive (cfg : XdpConfig) (s : Application) : Prop where
  owner      : ∀ idx, s.device.pool.free.count idx + (s.handles.map (·.idx)).count idx +
    (if s.device.state[idx]? = some .rxKernel then 1 else 0) +
    (if s.device.state[idx]? = some .txKernel then 1 else 0) = if idx < cfg.frames then 1 else 0
  rxOwned    : s.device.rxOwned = s.device.state.count .rxKernel
  txPending  : s.device.txPending = s.device.state.count .txKernel
  target     : s.device.rxOwned ≤ s.device.rxTarget
  packet     : ∀ buf ∈ s.handles, buf.dataOffset + buf.len ≤ cfg.chunkSize
  completion : ∀ buf ∈ s.handles, buf.isEmpty = false →
    s.device.frameOf (s.device.describe buf).fst = buf.idx
  reserve    : min s.device.pool.available cfg.txReserve ≤ s.device.refill.pool.available
  fine       : s.device.panicked = false

theorem Sound.owner (h : Sound id cfg s) (idx : Nat) :
    s.device.pool.free.count idx + (s.handles.map (·.idx)).count idx +
      (if s.device.state[idx]? = some .rxKernel then 1 else 0) +
      (if s.device.state[idx]? = some .txKernel then 1 else 0) = if idx < cfg.frames then 1
        else 0 := by
  have ho := h.device.custody.once idx
  have hhandles : s.handles.map (·.idx) = ours id s.bufs := by
    rw [handles, h.device.id_eq]
    rfl
  have habsent : Custody.absent FrameState.kernel s.device.state idx =
      (if s.device.state[idx]? = some .rxKernel then 1 else 0) +
      (if s.device.state[idx]? = some .txKernel then 1 else 0) := by
    rw [Custody.absent]
    cases hs : s.device.state[idx]?
    case none   => rfl
    case some t => cases t <;> rfl
  rw [h.device.states, count_append, habsent] at ho
  rw [hhandles, Nat.add_assoc]
  exact ho

theorem Sound.exclusive (h : Sound id cfg s) (hv : cfg.Valid) : s.Exclusive cfg := by
  have hh : ∀ buf ∈ s.handles, IsHandle id cfg buf ∧ buf.idx ∈ ours id s.bufs := by
    intro buf hm
    rw [handles, h.device.id_eq] at hm
    have ⟨hm', hb⟩ := mem_filter.mp hm
    exact ⟨⟨hb, h.size buf hm' hb⟩, mem_map_of_mem hm⟩
  exact {
    owner      := h.owner
    rxOwned    := h.device.rxOwned_eq
    txPending  := h.device.txPending_eq
    target     := h.device.rxOwned_le
    packet     := fun buf hm => (hh buf hm).left.bound
    completion :=
      fun buf hm => frameOf_describe h.device.toBase hv (hh buf hm).left (hh buf hm).right
    reserve    := (refill_spec h.device).right
    fine       := h.device.fine }

-- Whatever the kernel writes and whatever the application does, frames are never shared. The first
-- refill leaves the reserve for TX too.
theorem frames_exclusive {queue : U32} {kernel : Nat → Kernel} {d : XdpDevice}
    (h : XdpDevice.withConfig id cfg queue kernel = .ok d) (ops : List Op) :
    cfg.txReserve ≤ d.pool.available ∧
    (Transition.exec step { device := d, bufs := [] } ops).Exclusive cfg := by
  have ⟨hv, hd, hreserve⟩ := withConfig_sound h
  have hstart : Sound id cfg { device := d, bufs := [] } := ⟨hd, fun _ hm => nomatch hm⟩
  have hs : Sound id cfg (Transition.exec step { device := d, bufs := [] } ops) :=
    Transition.exec_induction hstart fun _ e hs => hs.step hv e
  exact ⟨hreserve, hs.exclusive hv⟩

-- A kernel that pretends to complete and to receive the same packet over and over.
theorem frames_exclusive_replayed :
    ∃ d, XdpDevice.withConfig 0 .default 0 (fun i => {
        fqConsumer := 0
        cqProducer := .ofNat 32 i
        cqDesc     := fun _ => 256
        rxProducer := .ofNat 32 i
        rxDesc     := fun _ => (256, 60)
        txConsumer := 0
        content    := fun _ _ => 0 }) = .ok d ∧
      ∀ ops, XdpConfig.default.txReserve ≤ d.pool.available ∧
        (Transition.exec step { device := d, bufs := [] } ops).Exclusive .default := by
  have hv : XdpConfig.default.validate 0 = .ok () := by decide +kernel
  exact ⟨_, XdpDevice.withConfig_ok hv, frames_exclusive (XdpDevice.withConfig_ok hv)⟩

end Application
end Xdp
