import AsyncNetStack.Device.LoopbackArena
import AsyncNetStack.Device.Theorems.Loopback
import AsyncNetStack.Lib.Fifo

open Transition List Option

-- A handle to a frame without a packet.
structure PacketBuf.Empty (frameSize : Nat) (buf : PacketBuf) : Prop where
  len      : buf.len = 0
  capacity : buf.capacity = frameSize

namespace FramePool

theorem emptyBuf_empty (pool : FramePool) (idx : Nat) :
    (pool.emptyBuf idx).Empty pool.frameSize where
  len      := rfl
  capacity := (pool.content idx).toArray.length_toList.trans (pool.content idx).size_toArray

theorem allocRounds_spec {rounds max : Nat} (h : max ≤ rounds) (pool : FramePool) :
    (pool.allocRounds rounds max).snd.length = min max pool.available ∧
    (∀ buf ∈ (pool.allocRounds rounds max).snd, buf.Empty pool.frameSize) ∧
    (pool.allocRounds rounds max).fst.frameSize = pool.frameSize := by
  induction rounds generalizing pool max
  case zero =>
    obtain rfl : max = 0 := Nat.le_zero.mp h
    exact ⟨(Nat.zero_min _).symm, nofun, rfl⟩
  case succ rounds ih =>
    rw [allocRounds]
    split
    case isTrue hz =>
      subst hz
      exact ⟨(Nat.zero_min _).symm, nofun, rfl⟩
    rename_i hz
    have hlen : (pool.allocN (min 64 max)).snd.length = min (min 64 max) pool.available := by
      rw [allocN, length_reverse, length_take, available]
    have hempty :
        ∀ buf ∈ (pool.allocN (min 64 max)).snd.map (pool.allocN (min 64 max)).fst.emptyBuf,
        buf.Empty pool.frameSize := by
      intro buf hbuf
      obtain ⟨idx, _, rfl⟩ := mem_map.mp hbuf
      exact emptyBuf_empty _ idx
    dsimp only
    split
    case isTrue hshort =>
      refine ⟨?_, hempty, rfl⟩
      rw [length_map, hlen]
      rw [hlen] at hshort
      omega
    rename_i hfull
    have hfuel : max - min 64 max ≤ rounds := by omega
    have ⟨hrest, hrestEmpty, hsize⟩ := ih hfuel (pool.allocN (min 64 max)).fst
    have hleft : (pool.allocN (min 64 max)).fst.available = pool.available - min 64 max :=
      length_drop
    refine ⟨?_, ?_, hsize⟩
    · rw [length_append, length_map, hlen, hrest, hleft]
      rw [hlen] at hfull
      omega
    · intro buf hbuf
      rcases mem_append.mp hbuf with hbuf | hbuf
      case inl => exact hempty buf hbuf
      case inr => exact hrestEmpty buf hbuf

end FramePool

namespace LoopbackDevice

variable {d d' : LoopbackDevice} {kernelSlots : Nat} {bytes : List U8} {buf : PacketBuf}

-- Each slot is free or has one payload, which fits into it.
structure Valid (kernelSlots : Nat) (d : LoopbackDevice) : Prop where
  slots   : (d.rx.map Prod.fst ++ d.freeSlots).Perm (List.range kernelSlots)
  fits    : ∀ entry ∈ d.rx, entry.snd ≤ d.pool.frameSize
  content : ∀ i, (d.arena i).length = d.pool.frameSize

namespace Valid

theorem sound (h : Valid kernelSlots d) : d.Sound :=
  h.slots.nodup_iff.mpr nodup_range

theorem length (h : Valid kernelSlots d) : d.rx.length + d.freeSlots.length = kernelSlots := by
  have := h.slots.length_eq
  rwa [length_append, length_map, length_range] at this

-- Frames of the pool come and go.
theorem pool (h : Valid kernelSlots d) {pool : FramePool} (hp : pool.frameSize = d.pool.frameSize) :
    Valid kernelSlots { d with pool } where
  slots   := h.slots
  fits    := by rw [show LoopbackDevice.pool { d with pool } = pool from rfl, hp]; exact h.fits
  content := by rw [show LoopbackDevice.pool { d with pool } = pool from rfl, hp]; exact h.content

theorem store (h : Valid kernelSlots d) {slot : Nat} {freeSlots : List Nat}
    (hf : d.freeSlots = slot :: freeSlots) (hb : bytes.length ≤ d.pool.frameSize) :
    Valid kernelSlots (d.store slot freeSlots bytes) where
  slots := by
    have hs := h.slots
    rw [hf] at hs
    rw [LoopbackDevice.store, map_append, append_assoc]
    exact hs
  fits := by
    intro entry he
    rcases mem_append.mp he with he | he
    case inl => exact h.fits entry he
    case inr => exact mem_singleton.mp he ▸ hb
  content i := by
    have hi := h.content i
    show (if i = slot then _ else _ : List U8).length = d.pool.frameSize
    split
    case isTrue =>
      rw [length_append, length_drop, show (LoopbackDevice.arena _ i).length = _ from hi,
        Nat.add_sub_cancel' hb]
    case isFalse => exact hi

theorem payload_le (h : Valid kernelSlots d) (slot len : Nat) :
    ((d.arena slot).take len).length ≤ d.pool.frameSize := by
  rw [length_take, h.content]
  exact Nat.min_le_right ..

-- The slot of the first payload is free again.
theorem pop (h : Valid kernelSlots d) {slot len : Nat} {rx : List (Nat × Nat)}
    (hrx : d.rx = (slot, len) :: rx) :
    Valid kernelSlots { d with rx, freeSlots := slot :: d.freeSlots } where
  slots := by
    have hs := h.slots
    rw [hrx, map_cons, cons_append] at hs
    exact perm_middle.trans hs
  fits entry hentry := h.fits entry (hrx ▸ mem_cons_of_mem _ hentry)
  content           := h.content

end Valid

-- Whether a frame can be sent.
def sendable (frameSize : Nat) (frame : PacketBuf) : Bool :=
  !(frame.asSlice.isEmpty || frame.asSlice.length > frameSize)

-- Frames are taken up to the first one that cannot be sent, as long as there are slots.
theorem copyIn_takes (h : Valid kernelSlots d) (sent : Nat) (frames : List PacketBuf) :
    let n := min d.freeSlots.length (frames.takeWhile (sendable d.pool.frameSize)).length
    (Device.accepted (d.copyIn sent frames).snd = sent + n) ∧
    Valid kernelSlots (d.copyIn sent frames).fst ∧
    (d.copyIn sent frames).fst.queued = d.queued ++ (frames.take n).map (·.asSlice) := by
  induction frames generalizing d sent
  case nil => exact ⟨by simp [copyIn, Device.accepted], h, by simp [copyIn]⟩
  case cons frame frames ih =>
    rw [copyIn, takeWhile_cons, sendable]
    dsimp only
    cases hs : (frame.asSlice.isEmpty || decide (frame.asSlice.length > d.pool.frameSize))
    case true =>
      simp only [Bool.not_true, Bool.false_eq_true, if_false, if_true, length_nil, Nat.min_zero,
        take_zero, map_nil, append_nil, Nat.add_zero]
      split
      case isTrue     => exact ⟨rfl, h, rfl⟩
      case isFalse hz => exact ⟨(Nat.eq_zero_of_not_pos hz).symm, h, rfl⟩
    case false =>
      simp only [Bool.not_false, Bool.false_eq_true, if_false, if_true, length_cons]
      obtain ⟨_, hfits⟩ := Bool.or_eq_false_iff.mp hs
      have hfits := Nat.not_lt.mp (of_decide_eq_false hfits)
      split
      case h_1 hf => simp [hf, Device.accepted, h]
      case h_2 slot freeSlots hf =>
        obtain ⟨hn, hv, hq⟩ := ih (h.store hf hfits) (sent + 1)
        have hmin (m : Nat) : min (freeSlots.length + 1) (m + 1) = min freeSlots.length m + 1 := by
          omega
        rw [hf, length_cons, hmin, take_succ_cons, map_cons]
        refine ⟨hn.trans (by rw [Nat.add_assoc, Nat.add_comm 1]; rfl), hv, hq.trans ?_⟩
        rw [h.sound.queued_store hf, append_assoc]
        rfl

-- There is no error without a frame that cannot be sent.
theorem copyIn_refused {sent : Nat} {frames : List PacketBuf} {err : IoError}
    (h : (d.copyIn sent frames).snd = .error err) :
    ∃ frame ∈ frames, sendable d.pool.frameSize frame = false := by
  cases frames
  case nil => cases h
  case cons frame frames =>
    rw [copyIn] at h
    dsimp only at h
    split at h
    case isTrue hs => exact ⟨frame, mem_cons_self, by rw [sendable, hs]; rfl⟩
    split at h
    case h_1 => cases h
    cases (copyIn_error (Prod.ext rfl h)).left

theorem fill_empty (he : buf.Empty n) (hb : bytes.length ≤ n) :
    ∃ buf', fill buf bytes = some buf' ∧ buf'.asSlice = bytes := by
  have hwrite {buf : PacketBuf} (h : bytes.length ≤ buf.tailCapacity) :
      ∃ buf', (if h : bytes.length ≤ buf.tailCapacity then
        some ((buf.withLen bytes.length h).copyFromSlice 0 bytes
          (by rw [PacketBuf.len_withLen]; omega))
        else none) = some buf' ∧ buf'.asSlice = bytes := by
    rw [dif_pos h]
    exact ⟨_, rfl, PacketBuf.asSlice_copyFromSlice _ _ rfl⟩
  rw [fill]
  split
  case isTrue =>
    have hroom : 0 ≤ buf.capacity - buf.len := Nat.zero_le _
    rw [PacketBuf.setHeadroom, dif_pos hroom]
    refine hwrite ?_
    rw [PacketBuf.tailCapacity]
    exact hb.trans he.capacity.ge
  case isFalse hle => exact hwrite (Nat.not_lt.mp hle)

-- Payloads leave from the front of the queue, one for each frame.
theorem recvInto_takes (h : Valid kernelSlots d) {bufs : List PacketBuf}
    (he : ∀ buf ∈ bufs, buf.Empty d.pool.frameSize) (hlen : bufs.length ≤ d.rx.length) :
    (d.recvInto bufs).snd.map (·.asSlice) = d.queued.take bufs.length ∧
    Valid kernelSlots (d.recvInto bufs).fst ∧
    (d.recvInto bufs).fst.queued = d.queued.drop bufs.length := by
  induction bufs generalizing d
  case nil => exact ⟨rfl, h, rfl⟩
  case cons buf bufs ih =>
    obtain ⟨hbuf, hbufs⟩ := forall_mem_cons.mp he
    rw [recvInto]
    split
    case h_1 hrx =>
      rw [hrx] at hlen
      cases hlen
    case h_2 slot len rx hrx =>
      obtain ⟨buf', hfill, hslice⟩ := fill_empty hbuf (h.payload_le slot len)
      rw [hrx, length_cons] at hlen
      obtain ⟨hout, hvalid, hrest⟩ := ih (h.pop hrx) hbufs (Nat.le_of_succ_le_succ hlen)
      have hqueued : d.queued = (d.arena slot).take len ::
          queued { d with rx, freeSlots := slot :: d.freeSlots } := by
        rw [queued, hrx, map_cons]
        rfl
      dsimp only
      rw [hfill, hqueued, length_cons, take_succ_cons, drop_succ_cons]
      refine ⟨?_, hvalid, hrest⟩
      rw [toList_some, singleton_append, map_cons, hslice, hout]

end LoopbackDevice

namespace LoopbackArena

variable {a a' : LoopbackArena} {d d' : LoopbackDevice} {kernelSlots : Nat}

-- The arena is cut into slots.
structure Represents (kernelSlots : Nat) (a : LoopbackArena) (d : LoopbackDevice) : Prop where
  pool      : a.pool = d.pool
  freeSlots : a.freeSlots = d.freeSlots
  rx        : a.rx = d.rx
  slot      : ∀ i < kernelSlots,
    Slice.range a.arena (i * d.pool.frameSize) ((i + 1) * d.pool.frameSize) = some (d.arena i)

theorem Represents.withPool (h : Represents kernelSlots a d) {pool : FramePool}
    (hp : pool.frameSize = d.pool.frameSize) :
    Represents kernelSlots { a with pool } { d with pool } where
  pool      := rfl
  freeSlots := h.freeSlots
  rx        := h.rx
  slot      := by rw [show LoopbackDevice.pool { d with pool } = pool from rfl, hp]; exact h.slot

-- The ranges of different slots are disjoint.
theorem slot_disjoint {i j size : Nat} (h : i ≠ j) :
    (i + 1) * size ≤ j * size ∨ (j + 1) * size ≤ i * size := by
  rcases Nat.lt_or_gt_of_ne h with hlt | hlt
  case inl => exact .inl (Nat.mul_le_mul_right size hlt)
  case inr => exact .inr (Nat.mul_le_mul_right size hlt)

theorem Represents.store (h : Represents kernelSlots a d) {slot : Nat} {bytes : List U8}
    (hslot : slot < kernelSlots) (hb : bytes.length ≤ d.pool.frameSize) (freeSlots : List Nat) :
    ∃ arena, Slice.copy a.arena (slot * d.pool.frameSize) (slot * d.pool.frameSize + bytes.length)
      bytes =
        some arena ∧
      Represents kernelSlots { a with arena, freeSlots, rx := a.rx ++ [(slot, bytes.length)] }
        (d.store slot freeSlots bytes) := by
  have hrange := h.slot slot hslot
  have ⟨_, hbound, _⟩ := Slice.range_eq_some.mp hrange
  have hstop : slot * d.pool.frameSize + bytes.length ≤ (slot + 1) * d.pool.frameSize := by
    rw [Nat.succ_mul]
    exact Nat.add_le_add_left hb _
  have hcopy := Slice.copy_of_le (Nat.le_add_right ..) (hstop.trans hbound)
    (Nat.add_sub_cancel_left (slot * d.pool.frameSize) bytes.length).symm
  refine ⟨_, hcopy, h.pool, rfl, congrArg (· ++ _) h.rx, fun i hi => ?_⟩
  show Slice.range _ (i * d.pool.frameSize) ((i + 1) * d.pool.frameSize) =
    some (if i = slot then bytes ++ (d.arena i).drop bytes.length else d.arena i)
  split
  case isTrue heq =>
    subst heq
    exact Slice.range_copy hcopy hrange hstop
  case isFalse hne =>
    have hd : (i + 1) * d.pool.frameSize ≤ slot * d.pool.frameSize ∨
        slot * d.pool.frameSize + bytes.length ≤ i * d.pool.frameSize :=
      (slot_disjoint hne).imp_right hstop.trans
    rw [Slice.range_copy_disjoint hcopy hd, h.slot i hi]

theorem copyIn_represents (h : Represents kernelSlots a d) (hv : d.Valid kernelSlots) (sent : Nat)
    (frames : List PacketBuf) :
    ∃ a', a.copyIn sent frames = some (a', (d.copyIn sent frames).snd) ∧
      Represents kernelSlots a' (d.copyIn sent frames).fst := by
  induction frames generalizing a d sent
  case nil => exact ⟨a, rfl, h⟩
  case cons frame frames ih =>
    rw [copyIn, LoopbackDevice.copyIn, h.pool, h.freeSlots]
    dsimp only
    split
    case isTrue =>
      split
      case isTrue  => exact ⟨a, rfl, h⟩
      case isFalse => exact ⟨a, rfl, h⟩
    rename_i hs
    have hfits : frame.asSlice.length ≤ d.pool.frameSize := by
      simp only [Bool.or_eq_true, decide_eq_true_eq, not_or, gt_iff_lt, Nat.not_lt] at hs
      exact hs.right
    cases hf : d.freeSlots
    case nil => exact ⟨a, rfl, h⟩
    case cons slot freeSlots =>
      have hslot : slot < kernelSlots := by
        refine mem_range.mp (hv.slots.mem_iff.mp (mem_append_right _ ?_))
        rw [hf]
        exact mem_cons_self
      obtain ⟨arena, hcopy, hstore⟩ := h.store hslot hfits freeSlots
      obtain ⟨a', hrest, hrep⟩ := ih hstore (hv.store hf hfits) (sent + 1)
      rw [h.pool] at hrest
      refine ⟨a', ?_, hrep⟩
      dsimp only
      rw [hcopy]
      exact hrest

-- Copying into an empty frame and setting its length afterwards.
theorem overwrite_setLen (buf : PacketBuf) (bytes : List U8) :
    (overwrite buf buf.dataOffset bytes).bind (·.setLen bytes.length) =
      if h : bytes.length ≤ buf.tailCapacity then
        some ((buf.withLen bytes.length h).copyFromSlice 0 bytes
          (by rw [PacketBuf.len_withLen]; omega))
      else
        none := by
  have hbound := buf.bound
  by_cases h : bytes.length ≤ buf.tailCapacity
  case pos =>
    have hfits : buf.dataOffset + bytes.length ≤ buf.memory.length := by
      rw [PacketBuf.tailCapacity, PacketBuf.capacity] at h
      omega
    rw [dif_pos h, overwrite, dif_pos hfits, bind_some, PacketBuf.setLen, dif_pos]
    · rfl
    · rw [PacketBuf.tailCapacity, PacketBuf.capacity]
      simp
      omega
  case neg =>
    have hfits : ¬buf.dataOffset + bytes.length ≤ buf.memory.length := by
      rw [PacketBuf.tailCapacity, PacketBuf.capacity] at h
      omega
    rw [dif_neg h, overwrite, dif_neg hfits]
    rfl

theorem copyOut_eq (h : Represents kernelSlots a d) (hv : d.Valid kernelSlots) {slot len : Nat}
    {rx : List (Nat × Nat)} (hrx : d.rx = (slot, len) :: rx) (buf : PacketBuf) :
    a.copyOut buf = (LoopbackDevice.fill buf ((d.arena slot).take len)).map
      ({ a with rx, freeSlots := slot :: a.freeSlots }, ·) := by
  have hslot : slot < kernelSlots := by
    refine mem_range.mp (hv.slots.mem_iff.mp (mem_append_left _ ?_))
    rw [hrx]
    exact mem_cons_self
  have hfits : len ≤ d.pool.frameSize := hv.fits (slot, len) (hrx ▸ mem_cons_self)
  have hlen : ((d.arena slot).take len).length = len :=
    length_take_of_le ((hv.content slot).symm ▸ hfits)
  have hread := Slice.range_take (n := len) (h.slot slot hslot) (by rw [Nat.succ_mul]; omega)
  generalize (d.arena slot).take len = bytes at hlen hread ⊢
  subst hlen
  have hwrite (buf : PacketBuf) : (do
      let buf ← overwrite buf buf.dataOffset bytes
      let buf ← buf.setLen bytes.length
      return ({ a with rx, freeSlots := slot :: a.freeSlots }, buf) : Option _) =
      Option.map ({ a with rx, freeSlots := slot :: a.freeSlots }, ·)
        (if h : bytes.length ≤ buf.tailCapacity then
          some ((buf.withLen bytes.length h).copyFromSlice 0 bytes
            (by rw [PacketBuf.len_withLen]; omega))
        else
          none) := by
    rw [← overwrite_setLen, map_bind]
    refine congrArg (Option.bind _) (funext fun buf => ?_)
    rw [Function.comp_apply]
    cases buf.setLen bytes.length
    case none => rfl
    case some => rfl
  rw [copyOut, h.rx, hrx]
  dsimp only
  rw [h.pool, hread, LoopbackDevice.fill, ← h.pool]
  split
  case isTrue =>
    cases buf.setHeadroom 0
    case none     => rfl
    case some buf => exact hwrite buf
  case isFalse => exact hwrite buf

theorem recvInto_represents (h : Represents kernelSlots a d) (hv : d.Valid kernelSlots)
    {bufs : List PacketBuf} (he : ∀ buf ∈ bufs, buf.Empty d.pool.frameSize)
    (hlen : bufs.length ≤ d.rx.length) :
    ∃ a', a.recvInto bufs = some (a', (d.recvInto bufs).snd) ∧
      Represents kernelSlots a' (d.recvInto bufs).fst := by
  induction bufs generalizing a d
  case nil => exact ⟨a, rfl, h⟩
  case cons buf bufs ih =>
    have ⟨hbuf, hbufs⟩ := forall_mem_cons.mp he
    cases hrx : d.rx
    case nil =>
      rw [hrx] at hlen
      cases hlen
    case cons entry rx =>
      obtain ⟨slot, len⟩ := entry
      have ⟨buf', hfill, _⟩ := LoopbackDevice.fill_empty hbuf (hv.payload_le slot len)
      rw [hrx, length_cons, length_cons] at hlen
      have hpop : Represents kernelSlots { a with rx, freeSlots := slot :: a.freeSlots }
          { d with rx, freeSlots := slot :: d.freeSlots } :=
        ⟨h.pool, congrArg (slot :: ·) h.freeSlots, rfl, h.slot⟩
      have ⟨a', hrest, hrep⟩ := ih hpop (hv.pop hrx) hbufs (Nat.le_of_succ_le_succ hlen)
      rw [recvInto, copyOut_eq h hv hrx, hfill, LoopbackDevice.recvInto, hrx]
      refine ⟨a', ?_, hrep⟩
      rw [map_some, bind_eq_bind, bind_some]
      dsimp only
      rw [hrest, hfill]
      rfl

def queued (a : LoopbackArena) : List (List U8) :=
  a.rx.map fun entry => (a.arena.drop (entry.fst * a.pool.frameSize)).take entry.snd

theorem Represents.queued_eq (h : Represents kernelSlots a d) (hv : d.Valid kernelSlots) :
    a.queued = d.queued := by
  rw [queued, LoopbackDevice.queued, h.rx, h.pool]
  refine map_congr_left fun entry hentry => ?_
  have hslot : entry.fst < kernelSlots :=
    mem_range.mp (hv.slots.mem_iff.mp (mem_append_left _ (mem_map_of_mem hentry)))
  have hread := Slice.range_take (n := entry.snd) (h.slot entry.fst hslot)
    (by rw [Nat.succ_mul]; have := hv.fits entry hentry; omega)
  obtain ⟨_, _, hbytes⟩ := Slice.range_eq_some.mp hread
  rwa [Nat.add_sub_cancel_left] at hbytes

-- An operation with the payloads that it accepts and returns.
def step (a : LoopbackArena) :
    LoopbackDevice.Op → Option (LoopbackArena × List (List U8) × List (List U8))
  | .recv max    => do
    let (a, out) ← a.recv max
    return (a, [], out.map (·.asSlice))
  | .send frames => do
    let (a, result) ← a.send frames
    return (a, (frames.take (Device.accepted result)).map (·.asSlice), [])
  | .alloc       => some (a.alloc.fst, [], [])
  | .recycle buf => some (a.recycle buf, [], [])

def run (a : LoopbackArena) :
    List LoopbackDevice.Op → Option (LoopbackArena × List (List U8) × List (List U8))
  | []        => some (a, [], [])
  | op :: ops => do
    let (a, accepted, received) ← a.step op
    let (a, accepted', received') ← a.run ops
    return (a, accepted ++ accepted', received ++ received')

-- What an operation is to the queue. A frame for a payload has to be allocated first.
def request (a : LoopbackArena) : LoopbackDevice.Op → Fifo.Op (List U8)
  | .recv max    => .pop (min max a.pool.available)
  | .send frames =>
    .push ((frames.takeWhile (LoopbackDevice.sendable a.pool.frameSize)).map (·.asSlice))
  | _            => .pop 0

def requests (a : LoopbackArena) : List LoopbackDevice.Op → List (Fifo.Op (List U8))
  | []        => []
  | op :: ops => a.request op :: (a.step op).elim [] fun o => o.fst.requests ops

-- The device is in a state of the queue.
def Refines (a : LoopbackArena) (q : Fifo (List U8) kernelSlots) : Prop :=
  ∃ d, Represents kernelSlots a d ∧ d.Valid kernelSlots ∧ q.items = d.queued

variable {q : Fifo (List U8) kernelSlots}

theorem recv_refines (h : Refines a q) (max : Nat) :
    ∃ a' out, a.recv max = some (a', out) ∧
      out.map (·.asSlice) = q.popped (.pop (min max a.pool.available)) ∧
      Refines a' (q.step (.pop (min max a.pool.available))) := by
  obtain ⟨d, hrep, hv, hq⟩ := h
  obtain ⟨hlen, hempty, hsize⟩ :=
    FramePool.allocRounds_spec (Nat.le_refl (min max d.rx.length)) d.pool
  have hqlen : q.items.length = d.rx.length := by rw [hq, LoopbackDevice.queued, length_map]
  rw [recv, hrep.pool, hrep.rx]
  dsimp only
  rw [FramePool.allocBatch]
  generalize d.pool.allocRounds (min max d.rx.length) (min max d.rx.length) = o at hlen hempty hsize
  obtain ⟨pool, bufs⟩ := o
  dsimp only at hlen hempty hsize
  have hempty' : ∀ buf ∈ bufs, buf.Empty (LoopbackDevice.pool { d with pool }).frameSize :=
    fun buf hbuf => hsize ▸ hempty buf hbuf
  have hfew : bufs.length ≤ d.rx.length := by omega
  obtain ⟨hout, hvalid, hrest⟩ := LoopbackDevice.recvInto_takes (hv.pool hsize) hempty' hfew
  obtain ⟨a', hrun, hrep'⟩ := recvInto_represents (hrep.withPool hsize) (hv.pool hsize) hempty' hfew
  have hsame : LoopbackDevice.queued { d with pool } = q.items := hq.symm
  have hmin : min bufs.length q.items.length = min (min max d.pool.available) q.items.length := by
    omega
  rw [hsame] at hout hrest
  rw [hrep.rx] at hrun
  refine ⟨a', _, hrun, ?_, _, hrep', hvalid, ?_⟩
  case refine_1 => rw [hout, Fifo.popped, take_eq_take_iff.mpr hmin]
  case refine_2 => rw [hrest, Fifo.step, drop_eq_drop_iff.mpr hmin]

theorem foldl_recycle_frameSize (frames : List PacketBuf) (pool : FramePool) :
    (frames.foldl .recycle pool).frameSize = pool.frameSize := by
  induction frames generalizing pool
  case nil                  => rfl
  case cons frame frames ih => rw [foldl_cons, ih, FramePool.frameSize_recycle]

theorem send_refines (h : Refines a q) (frames : List PacketBuf) :
    let batch := (frames.takeWhile (LoopbackDevice.sendable a.pool.frameSize)).map (·.asSlice)
    ∃ a' result, a.send frames = some (a', result) ∧
      (frames.take (Device.accepted result)).map (·.asSlice) = q.pushed (.push batch) ∧
      Refines a' (q.step (.push batch)) ∧ Device.accepted result ≤ frames.length ∧
      ∀ err, result = .error err →
        ∃ frame ∈ frames, LoopbackDevice.sendable a.pool.frameSize frame = false := by
  obtain ⟨d, hrep, hv, hq⟩ := h
  obtain ⟨hn, hvalid, hqueued⟩ := LoopbackDevice.copyIn_takes hv 0 frames
  obtain ⟨a', hrun, hrep'⟩ := copyIn_represents hrep hv 0 frames
  have hroom : q.room = d.freeSlots.length := by
    have hlen := hv.length
    have hqlen : q.items.length = d.rx.length := by rw [hq, LoopbackDevice.queued, length_map]
    rw [Fifo.room, hqlen]
    omega
  -- What fits of the frames in front of the first one that cannot be sent.
  have hbatch : (frames.take (min d.freeSlots.length
      (frames.takeWhile (LoopbackDevice.sendable d.pool.frameSize)).length)).map (·.asSlice) =
      ((frames.takeWhile (LoopbackDevice.sendable d.pool.frameSize)).map (·.asSlice)).take
        q.room := by
    obtain ⟨rest, heq⟩ := takeWhile_prefix (l := frames) (LoopbackDevice.sendable d.pool.frameSize)
    generalize frames.takeWhile (LoopbackDevice.sendable d.pool.frameSize) = front at heq
    rw [hroom, ← map_take, ← heq, take_append_of_le_length (Nat.min_le_right ..),
      ← take_eq_take_min]
  rw [hbatch, ← hq] at hqueued
  dsimp only
  rw [send, hrun, hrep.pool]
  generalize hresult : (d.copyIn 0 frames).snd = result at hn
  cases result
  case error err =>
    refine ⟨a', .error err, rfl, ?_, ⟨_, hrep', hvalid, hqueued.symm⟩, Nat.zero_le _,
      fun _ _ => LoopbackDevice.copyIn_refused hresult⟩
    rw [← Nat.zero_add (min _ _), ← hn] at hbatch
    exact hbatch
  case ok sent =>
    have hsent := hn.trans (Nat.zero_add _)
    change sent = _ at hsent
    have hle : sent ≤ frames.length := by
      rw [hsent]
      exact (Nat.min_le_right ..).trans (List.takeWhile_prefix _).length_le
    have hrange : Slice.range frames 0 sent = some (frames.take sent) :=
      Slice.range_of_le (Nat.zero_le _) hle
    rw [← hsent] at hbatch
    have hsize := foldl_recycle_frameSize (frames.take sent) (d.copyIn 0 frames).fst.pool
    refine ⟨{ a' with pool := (frames.take sent).foldl .recycle a'.pool }, .ok sent, ?_, hbatch, ?_,
      hle, fun _ h => by cases h⟩
    case refine_1 =>
      rw [bind_eq_bind, bind_some]
      dsimp only
      rw [hrange]
      rfl
    case refine_2 =>
      rw [hrep'.pool]
      exact ⟨_, hrep'.withPool hsize, hvalid.pool hsize, hqueued.symm⟩

theorem step_refines (h : Refines a q) (op : LoopbackDevice.Op) :
    ∃ a', a.step op = some (a', q.pushed (a.request op), q.popped (a.request op)) ∧
      Refines a' (q.step (a.request op)) := by
  cases op
  case recv max =>
    have ⟨a', out, hrecv, hout, href⟩ := recv_refines h max
    refine ⟨a', ?_, href⟩
    rw [step, hrecv, request, ← hout]
    rfl
  case send frames =>
    have ⟨a', result, hsend, hin, href, _⟩ := send_refines h frames
    refine ⟨a', ?_, href⟩
    rw [step, hsend, request, ← hin]
    rfl
  case alloc =>
    have ⟨d, hrep, hv, hq⟩ := h
    refine ⟨a.alloc.fst, rfl, { d with pool := d.pool.alloc.fst }, ?_, hv.pool rfl, hq⟩
    rw [alloc, hrep.pool]
    exact hrep.withPool rfl
  case recycle buf =>
    have ⟨d, hrep, hv, hq⟩ := h
    have hsize := FramePool.frameSize_recycle d.pool buf
    refine ⟨a.recycle buf, rfl, { d with pool := d.pool.recycle buf }, ?_, hv.pool hsize, hq⟩
    rw [recycle, hrep.pool]
    exact hrep.withPool hsize

theorem run_refines (h : Refines a q) (ops : List LoopbackDevice.Op) :
    ∃ a', a.run ops = some (a', logs Fifo.step Fifo.pushed q (a.requests ops),
        logs Fifo.step Fifo.popped q (a.requests ops)) ∧
      Refines a' (exec Fifo.step q (a.requests ops)) := by
  induction ops generalizing a q
  case nil => exact ⟨a, rfl, h⟩
  case cons op ops ih =>
    have ⟨a₁, hstep, h₁⟩ := step_refines h op
    have ⟨a', hrun, h'⟩ := ih h₁
    rw [run, requests, hstep, bind_eq_bind, bind_some, elim_some]
    refine ⟨a', ?_, h'⟩
    dsimp only
    rw [hrun]
    rfl

theorem withCapacity_refines {id : PoolId} {poolFrames : Nat}
    (h : withCapacity id poolFrames kernelSlots = some a) :
    Refines a (Fifo.empty : Fifo (List U8) kernelSlots) := by
  rw [withCapacity, ite_none_right_eq_some] at h
  obtain ⟨_, heq⟩ := h
  cases heq
  refine ⟨.withCapacity id poolFrames kernelSlots, ⟨rfl, rfl, rfl, fun i hi => ?_⟩,
    ⟨.refl _, nofun, fun _ => length_replicate⟩, rfl⟩
  show Slice.range (List.replicate (kernelSlots * 2048) 0) (i * 2048) ((i + 1) * 2048) =
    some (List.replicate 2048 0)
  refine Slice.range_eq_some.mpr ⟨by omega, by rw [length_replicate]; omega, ?_⟩
  rw [drop_replicate, take_replicate]
  congr 1
  omega

theorem Refines.queued_eq (h : Refines a q) : q.items = a.queued := by
  have ⟨_, hrep, hv, hq⟩ := h
  rw [hq, hrep.queued_eq hv]

-- As many payloads are received as frames can be allocated, and the others are left alone.
theorem Refines.recv (h : Refines a q) (max : Nat) :
    ∃ a' out, a.recv max = some (a', out) ∧
      out.length = min (min max a.queued.length) a.pool.available ∧
      out.map (·.asSlice) = a.queued.take out.length ∧ a'.queued = a.queued.drop out.length := by
  have ⟨a', out, hrecv, hout, h'⟩ := recv_refines h max
  rw [Fifo.popped, h.queued_eq] at hout
  have hlen := congrArg List.length hout
  rw [length_map, length_take] at hlen
  have hmin : min (min max a.pool.available) a.queued.length = min out.length a.queued.length := by
    omega
  refine ⟨a', out, hrecv, by omega, ?_, ?_⟩
  case refine_1 => rw [hout, take_eq_take_iff.mpr hmin]
  case refine_2 => rw [← h'.queued_eq, Fifo.items_pop, h.queued_eq, drop_eq_drop_iff.mpr hmin]

-- As many frames are accepted as there are slots.
theorem Refines.send (h : Refines a q) {frames : List PacketBuf}
    (hframes : ∀ frame ∈ frames, 1 ≤ frame.len ∧ frame.len ≤ a.pool.frameSize) :
    ∃ a', a.send frames = some (a', .ok (min (kernelSlots - a.queued.length) frames.length)) ∧
      a'.queued = a.queued ++ (frames.take (kernelSlots - a.queued.length)).map (·.asSlice) := by
  have hsendable : ∀ frame ∈ frames, LoopbackDevice.sendable a.pool.frameSize frame = true := by
    intro frame hframe
    obtain ⟨hmin, hmax⟩ := hframes frame hframe
    have hnonempty : frame.asSlice.isEmpty = false := by
      rw [isEmpty_eq_false_iff, ← length_pos_iff, PacketBuf.asSlice_length]
      exact hmin
    simp [LoopbackDevice.sendable, hnonempty, hmax]
  obtain ⟨a', result, hsend, hin, h', hle, hrefused⟩ := send_refines h frames
  have hroom : q.room = kernelSlots - a.queued.length := by rw [Fifo.room, h.queued_eq]
  rw [takeWhile_eq_self_iff.mpr hsendable] at hin h'
  rw [Fifo.pushed, hroom] at hin
  cases result
  case error err =>
    obtain ⟨frame, hframe, hnot⟩ := hrefused err rfl
    cases (hsendable frame hframe).symm.trans hnot
  case ok n =>
    have hlen := congrArg List.length hin
    rw [length_map, length_take, Nat.min_eq_left hle, length_take, length_map] at hlen
    refine ⟨a', by rw [hsend, ← hlen]; rfl, ?_⟩
    rw [← h'.queued_eq, Fifo.items_push, h.queued_eq, hroom, map_take]

-- A device as a bounded queue, after it has accepted and returned some payloads.
structure BoundedQueue (kernelSlots : Nat) (a : LoopbackArena)
    (accepted received : List (List U8)) : Prop where
  fifo     : ∃ (q : Fifo (List U8) kernelSlots) (moves : List (Fifo.Op (List U8))),
    q = exec Fifo.step .empty moves ∧ q.items = a.queued ∧
    accepted = logs Fifo.step Fifo.pushed (.empty : Fifo (List U8) kernelSlots) moves ∧
    received = logs Fifo.step Fifo.popped (.empty : Fifo (List U8) kernelSlots) moves
  payloads : received ++ a.queued = accepted
  bound    : a.queued.length ≤ kernelSlots
  slots    : (a.freeSlots ++ a.rx.map Prod.fst).Perm (List.range kernelSlots)
  recv     : ∀ max, ∃ a' out, a.recv max = some (a', out) ∧
    out.length = min (min max a.queued.length) a.pool.available ∧
    out.map (·.asSlice) = a.queued.take out.length ∧ a'.queued = a.queued.drop out.length
  send     : ∀ frames, (∀ frame ∈ frames, 1 ≤ frame.len ∧ frame.len ≤ a.pool.frameSize) →
    ∃ a', a.send frames = some (a', .ok (min (kernelSlots - a.queued.length) frames.length)) ∧
      a'.queued = a.queued ++ (frames.take (kernelSlots - a.queued.length)).map (·.asSlice)

-- No run panics, and a payload that waits is never overwritten.
theorem refines_bounded_fifo {id : PoolId} {poolFrames : Nat} {a₀ : LoopbackArena}
    (h : withCapacity id poolFrames kernelSlots = some a₀) (ops : List LoopbackDevice.Op) :
    ∃ a accepted received, a₀.run ops = some (a, accepted, received) ∧
      BoundedQueue kernelSlots a accepted received := by
  have ⟨a, hrun, href⟩ := run_refines (withCapacity_refines h) ops
  have ⟨d, hrep, hv, _⟩ := href
  have hitems := href.queued_eq
  refine ⟨a, _, _, hrun, ⟨_, _, rfl, hitems, rfl, rfl⟩, ?payloads, ?bound, ?slots, href.recv,
    fun _ => href.send⟩
  case payloads =>
    rw [← hitems, Fifo.exec_balance]
    rfl
  case bound =>
    rw [← hitems]
    exact (exec Fifo.step _ _).bound
  case slots =>
    rw [hrep.rx, hrep.freeSlots]
    exact perm_append_comm.trans hv.slots

-- Two payloads find room. One of them is received, and there is no frame for the other one.
def exhausted : List LoopbackDevice.Op :=
  let frame (byte : U8) : PacketBuf :=
    { memory := [byte, byte], dataOffset := 0, len := 2, idx := 0, pool := none, bound := by simp }
  [.send [frame 1, frame 2, frame 3], .recv 2, .recv 2]

theorem refines_bounded_fifo_exhausted : ∃ a₀, withCapacity 0 1 2 = some a₀ ∧
    (a₀.run exhausted).map Prod.snd = some ([[1, 1], [2, 2]], [[1, 1]]) ∧
    ∃ a accepted received, a₀.run exhausted = some (a, accepted, received) ∧
      BoundedQueue 2 a accepted received :=
  ⟨_, rfl, by decide +kernel,
    refines_bounded_fifo (show withCapacity 0 1 2 = some _ from rfl) exhausted⟩

end LoopbackArena
