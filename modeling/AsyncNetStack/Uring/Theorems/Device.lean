import AsyncNetStack.Uring.Theorems.Table

open List

namespace Uring

open Requests (Keeps)

def isRead (slot : Option Pending) : Bool :=
  slot.any (·.read)

def isWrite (slot : Option Pending) : Bool :=
  slot.any (!·.read)

theorem List.countP_modify {α : Type*} {p : α → Bool} {u : α → α} (h : ∀ a, p (u a) = p a)
    (l : List α) (i : Nat) : (l.modify i u).countP p = l.countP p := by
  induction l generalizing i
  case nil => simp
  case cons a l ih =>
    cases i
    case zero   => simp [countP_cons, h]
    case succ i => simp [countP_cons, ih]

section

variable {pending : List (Option Pending)} {id : Nat}

-- The numbers of reads and writes, when a slot is vacated or taken.
theorem countP_vacate {op : Pending} (h : pending[id]? = some (some op)) :
    (pending.set id none).countP isRead = pending.countP isRead - op.read.toNat ∧
    (pending.set id none).countP isWrite = pending.countP isWrite - (!op.read).toNat := by
  have ⟨hlt, hget⟩ := List.getElem?_eq_some_iff.mp h
  rw [countP_set hlt, countP_set hlt, hget]
  cases hr : op.read <;> simp [isRead, isWrite, hr]

theorem countP_take (h : pending[id]? = some none) (op : Pending) :
    (pending.set id (some op)).countP isRead = pending.countP isRead + op.read.toNat ∧
    (pending.set id (some op)).countP isWrite = pending.countP isWrite + (!op.read).toNat := by
  have ⟨hlt, hget⟩ := List.getElem?_eq_some_iff.mp h
  rw [countP_set hlt, countP_set hlt, hget]
  cases hr : op.read <;> simp [isRead, isWrite, hr]

end

namespace UringTunDevice

variable {cfg : UringConfig} {delivered : List PacketBuf} {hand : List Nat}
variable {d d' d'' : UringTunDevice}

def requests (d : UringTunDevice) : Requests where
  free     := d.free
  pending  := d.pending
  queued   := d.ring.queued
  inflight := d.inflight
  posted   := d.ring.posted

-- The part of the invariant that the steps of the kernel preserve, also while the device has taken
-- a slot and not yet queued the request for it.
structure Core (cfg : UringConfig) (delivered : List PacketBuf) (hand : List Nat)
    (d : UringTunDevice) : Prop where
  config   : d.cfg = cfg
  ring     : d.ring.Sound
  entries  : d.ring.entries = cfg.entries
  requests : d.requests.Sound cfg.entries hand
  order    : d.arrived = delivered ++ d.ready ++ d.ring.posted.filterMap (packetOf d.pending)
  fine     : d.panicked = false

-- What the steps of the kernel leave alone.
structure Watched (d d' : UringTunDevice) : Prop where
  free      : d'.free = d.free
  ready     : d'.ready = d.ready
  rxPending : d'.rxPending = d.rxPending
  txPending : d'.txPending = d.txPending
  used      : d'.ring.sqUsed ≤ d.ring.sqUsed
  reads     : d'.pending.countP isRead = d.pending.countP isRead
  writes    : d'.pending.countP isWrite = d.pending.countP isWrite
  keeps     : Keeps d.pending d'.pending

namespace Watched

theorem refl (d : UringTunDevice) : Watched d d :=
  ⟨rfl, rfl, rfl, rfl, Nat.le_refl _, rfl, rfl, fun _ op h => ⟨op, h, rfl⟩⟩

theorem trans (h₁ : Watched d d') (h₂ : Watched d' d'') : Watched d d'' where
  free      := h₂.free.trans h₁.free
  ready     := h₂.ready.trans h₁.ready
  rxPending := h₂.rxPending.trans h₁.rxPending
  txPending := h₂.txPending.trans h₁.txPending
  used      := h₂.used.trans h₁.used
  reads     := h₂.reads.trans h₁.reads
  writes    := h₂.writes.trans h₁.writes
  keeps i op h := by
    have ⟨op', h', hr⟩ := h₁.keeps i op h
    have ⟨op'', h'', hr'⟩ := h₂.keeps i op' h'
    exact ⟨op'', h'', hr'.trans hr⟩

end Watched

-- The kernel does not move a buffer, and it does not change its size.
theorem request_overwrite (bytes : List U8) (i : Nat) (op : Pending) :
    request i { op with buf := overwrite op.buf bytes } = request i op := by
  have hb := op.buf.bound
  simp only [request, overwrite, PacketBuf.tailCapacity, PacketBuf.capacity, length_append,
    length_take, length_drop, Sqe.mk.injEq, true_and, and_true]
  congr 2
  omega

theorem filterMap_packetOf {pending pending' : List (Option Pending)} {posted : List Cqe}
    (h : ∀ c ∈ posted, pending'[c.id]? = pending[c.id]?) :
    posted.filterMap (packetOf pending') = posted.filterMap (packetOf pending) :=
  filterMap_congr fun c hc => by rw [packetOf, packetOf, h c hc]

-- A request is completed after its buffer was changed by `u`.
theorem Core.complete (h : Core cfg delivered hand d) {k : Nat} {sqe : Sqe}
    (hk : d.inflight[k]? = some sqe) (hf : d.ring.cqFull = false) (result : Int)
    {u : Pending → Pending} (hu : ∀ i op, request i (u op) = request i op)
    (hr : ∀ op, (u op).read = op.read) {pending : List (Option Pending)}
    (hp : pending = d.pending.modify sqe.id (·.map u)) :
    Core cfg delivered hand { d with
      pending
      ring     := d.ring.post ⟨sqe.userData, result⟩
      inflight := d.inflight.eraseIdx k
      arrived  := d.arrived ++ (packetOf pending ⟨sqe.userData, result⟩).toList } ∧
    Watched d { d with
      pending
      ring     := d.ring.post ⟨sqe.userData, result⟩
      inflight := d.inflight.eraseIdx k
      arrived  := d.arrived ++ (packetOf pending ⟨sqe.userData, result⟩).toList } := by
  have ⟨hsound, hposted⟩ := h.ring.post hf ⟨sqe.userData, result⟩
  have hs : sqe ∈ d.requests.queued ++ d.requests.inflight :=
    List.mem_append_right _ (List.mem_of_getElem? hk)
  refine ⟨⟨h.config, hsound, h.entries, ?_, ?_, h.fine⟩, ⟨rfl, rfl, rfl, rfl, ?_, ?_, ?_, ?_⟩⟩
  · show Requests.Sound cfg.entries hand
      ⟨d.free, pending, d.ring.queued, d.inflight.eraseIdx k, (d.ring.post _).posted⟩
    rw [hposted, hp]
    exact h.requests.complete hk hu
  · -- The completions that were posted before are those of other slots.
    have hsame : d.ring.posted.filterMap (packetOf pending) =
        d.ring.posted.filterMap (packetOf d.pending) := by
      refine filterMap_packetOf fun c hc => ?_
      rw [hp, List.getElem?_modify]
      simp [h.requests.posted_ne hs hc]
    show d.arrived ++ _ = delivered ++ d.ready ++ List.filterMap _ (d.ring.post _).posted
    rw [hposted, List.filterMap_append, hsame, h.order, ← List.append_assoc]
    simp [List.filterMap_cons]
    cases packetOf pending ⟨sqe.userData, result⟩ <;> rfl
  · exact Nat.le_refl _
  · rw [hp]
    refine List.countP_modify (fun slot => ?_) ..
    cases slot <;> simp [isRead, hr]
  · rw [hp]
    refine List.countP_modify (fun slot => ?_) ..
    cases slot <;> simp [isWrite, hr]
  · rw [hp]
    exact Requests.modify_keeps hu d.pending sqe.id

theorem Core.move (h : Core cfg delivered hand d) (m : Move) :
    Core cfg delivered hand (d.move m) ∧ Watched d (d.move m) := by
  cases m
  case consume =>
    rcases h.ring.consume with he | ⟨ring, sqe, he, hsound, hq, hposted, hentries⟩
    all_goals simp only [UringTunDevice.move, he]
    case inl => exact ⟨h, .refl d⟩
    refine ⟨⟨h.config, hsound, hentries.trans h.entries, ?_, ?_, h.fine⟩,
      ⟨rfl, rfl, rfl, rfl, ?_, rfl, rfl, (Watched.refl d).keeps⟩⟩
    · show Requests.Sound cfg.entries hand
        ⟨d.free, d.pending, ring.queued, d.inflight ++ [sqe], ring.posted⟩
      rw [hposted]
      exact h.requests.consume hq
    · show d.arrived = delivered ++ d.ready ++ List.filterMap _ ring.posted
      rw [hposted]
      exact h.order
    · have hl := congrArg List.length hq
      rw [length_cons, Ring.length_queued, Ring.length_queued] at hl
      show ring.sqUsed ≤ _
      omega
  case complete k result bytes =>
    simp only [UringTunDevice.move]
    split
    case h_1 => exact ⟨h, .refl d⟩
    case h_2 sqe hk =>
      split
      case isTrue => exact ⟨h, .refl d⟩
      rename_i hf
      have hf : d.ring.cqFull = false := by simpa using hf
      split
      case isTrue =>
        exact h.complete hk hf result (request_overwrite bytes) (fun _ => rfl) rfl
      refine h.complete hk hf result (u := id) (fun _ _ => rfl) (fun _ => rfl) ?_
      have hid : (fun slot : Option Pending => slot.map id) = id := by
        funext slot
        simp
      rw [hid, modify_id]

theorem Core.observe (h : Core cfg delivered hand d) :
    Core cfg delivered hand d.observe ∧ Watched d d.observe := by
  have hmoves (ms : List Move) {d : UringTunDevice} (h : Core cfg delivered hand d) :
      Core cfg delivered hand (ms.foldl UringTunDevice.move d) ∧
      Watched d (ms.foldl UringTunDevice.move d) := by
    induction ms generalizing d
    case nil => exact ⟨h, .refl d⟩
    case cons m ms ih =>
      have ⟨hc, hw⟩ := h.move m
      have ⟨hc', hw'⟩ := ih hc
      exact ⟨hc', hw.trans hw'⟩
  have ⟨hc, hw⟩ := hmoves (d.kernel 0).moves h
  exact ⟨⟨hc.config, hc.ring, hc.entries, hc.requests, hc.order, hc.fine⟩,
    ⟨hw.free, hw.ready, hw.rxPending, hw.txPending, hw.used, hw.reads, hw.writes, hw.keeps⟩⟩

theorem assert_of {cond : Bool} (h : cond = true) : d.assert cond = d := by
  rw [assert, h, Bool.not_true, Bool.or_false]

structure Intact (cfg : UringConfig) (delivered : List PacketBuf) (d : UringTunDevice) :
    Prop extends
    Core cfg delivered [] d where
  rx     : d.rxPending = d.pending.countP isRead
  tx     : d.txPending = d.pending.countP isWrite
  budget : d.rxPending + d.ready.length ≤ cfg.rxDepth

-- Takes everything from `t` that the invariant does not depend on.
def beside (d t : UringTunDevice) : UringTunDevice :=
  { d with pool := t.pool, stats := t.stats, error := t.error, kernel := t.kernel }

theorem Intact.beside (h : Intact cfg delivered d) (t : UringTunDevice) :
    Intact cfg delivered (d.beside t) :=
  ⟨⟨h.config, h.ring, h.entries, h.requests, h.order, h.fine⟩, h.rx, h.tx, h.budget⟩

theorem Intact.frame (h : Intact cfg delivered d) (hd : d' = d.beside d') :
    Intact cfg delivered d' :=
  hd ▸ h.beside d'

theorem Intact.observe (h : Intact cfg delivered d) : Intact cfg delivered d.observe := by
  have ⟨hc, hw⟩ := h.toCore.observe
  refine ⟨hc, ?_, ?_, ?_⟩
  · rw [hw.rxPending, hw.reads, h.rx]
  · rw [hw.txPending, hw.writes, h.tx]
  · rw [hw.rxPending, hw.ready]
    exact h.budget

theorem packet_neg {op : Pending} {result : Int} (h : result < 0) : packet op result = none :=
  dif_neg fun hp => by omega

theorem finishError_eq (d : UringTunDevice) (op : Pending) (errno : Nat) :
    d.finishError op errno = d.beside (d.finishError op errno) := by
  unfold finishError
  split
  · rfl
  · cases op.read <;> rfl

theorem finishRead_eq (d : UringTunDevice) {op : Pending} (hr : op.read = true) (result : Int) :
    d.finishRead op result.toNat =
      { d with ready := d.ready ++ (packet op result).toList }.beside
        (d.finishRead op result.toNat) := by
  unfold finishRead packet
  by_cases hp : 0 < result ∧ result.toNat < op.buf.tailCapacity
  case pos =>
    rw [if_neg (by simp; omega), dif_pos ⟨hr, hp⟩, PacketBuf.setLen,
      dif_pos (Nat.le_of_lt hp.right)]
    rfl
  case neg =>
    rw [if_pos (by simp; omega), dif_neg fun h => hp h.right]
    simp [UringTunDevice.beside, recycle, recordError]

theorem finishWrite_eq (d : UringTunDevice) {op : Pending} (hr : op.read = false) (result : Int) :
    d.finishWrite op result.toNat =
      { d with ready := d.ready ++ (packet op result).toList }.beside
        (d.finishWrite op result.toNat) := by
  have hn : packet op result = none := dif_neg (by simp [hr])
  rw [hn]
  unfold finishWrite
  split <;> simp [UringTunDevice.beside, recycle, recordError]

-- The slot is vacated, and a proper packet is ready.
theorem finish_eq {cqe : Cqe} {op : Pending} (hop : d.pending[cqe.id]? = some (some op))
    (hrx : op.read = true → 1 ≤ d.rxPending) (htx : op.read = false → 1 ≤ d.txPending) :
    d.finish cqe =
      { d with
        pending   := d.pending.set cqe.id none
        free      := cqe.id :: d.free
        rxPending := d.rxPending - op.read.toNat
        txPending := d.txPending - (!op.read).toNat
        ready     := d.ready ++ (packet op cqe.result).toList }.beside (d.finish cqe) := by
  have hrelease : d.release cqe.id op =
      { d with
        pending   := d.pending.set cqe.id none
        free      := cqe.id :: d.free
        rxPending := d.rxPending - op.read.toNat
        txPending := d.txPending - (!op.read).toNat } := by
    unfold release
    cases hr : op.read
    case true =>
      rw [if_pos rfl, assert_of (by simpa using hrx hr)]
      rfl
    case false =>
      rw [if_neg Bool.false_ne_true, assert_of (by simpa using htx hr)]
      rfl
  unfold finish
  simp only [hop, Option.join, Option.bind, id, hrelease]
  split
  case isTrue hneg =>
    rw [packet_neg hneg, finishError_eq]
    simp [UringTunDevice.beside]
  case isFalse hpos =>
    split
    case isTrue hr =>
      rw [finishRead_eq _ hr]
      rfl
    case isFalse hr =>
      rw [finishWrite_eq _ (by simpa using hr)]
      rfl

-- The assertions of `push` hold, if there is a free slot.
theorem push_eq (sqe : Sqe) (hr : d.observe.ring.Sound)
    (hs : d.observe.ring.sqUsed < d.observe.ring.entries) :
    d.push sqe = { d.observe with ring := d.observe.ring.push sqe } := by
  unfold push
  dsimp only
  have h₁ : decide (d.observe.ring.sqUsed ≤ d.observe.ring.entries) = true := by
    simpa using hr.sqUsed_le
  have h₂ : decide (d.observe.ring.freeSlots > 0) = true := by
    simp only [Ring.freeSlots, gt_iff_lt, decide_eq_true_eq]
    omega
  rw [assert_of h₁, assert_of h₂]

-- The invariant holds afterwards, and no packet that was ready is lost.
structure Leads (cfg : UringConfig) (delivered : List PacketBuf) (d d' : UringTunDevice) :
    Prop where
  intact : Intact cfg delivered d'
  ready  : d.ready <+: d'.ready

namespace Leads

theorem refl (h : Intact cfg delivered d) : Leads cfg delivered d d :=
  ⟨h, prefix_refl _⟩

theorem trans (h₁ : Leads cfg delivered d d') (h₂ : Leads cfg delivered d' d'') :
    Leads cfg delivered d d'' :=
  ⟨h₂.intact, h₁.ready.trans h₂.ready⟩

end Leads

namespace Intact

theorem watched (h : Intact cfg delivered d) : Leads cfg delivered d d.observe :=
  ⟨h.observe, by rw [h.toCore.observe.right.ready]⟩

-- A completion is popped and processed.
theorem finish (h : Intact cfg delivered d) {ring : Ring} {cqe : Cqe}
    (hp : d.ring.pop = (ring, some cqe)) :
    Leads cfg delivered d ({ d with ring }.finish cqe) ∧
    ({ d with ring }.finish cqe).free = cqe.id :: d.free := by
  have ⟨hsound, hposted, hqueued, hentries⟩ : ring.Sound ∧ d.ring.posted = cqe :: ring.posted ∧
      ring.queued = d.ring.queued ∧ ring.entries = d.ring.entries := by
    rcases h.ring.pop with ⟨hn, -⟩ | ⟨ring', cqe', hs, hr⟩
    · simp [hn] at hp
    · obtain ⟨rfl, hc⟩ := Prod.mk.inj (hs.symm.trans hp)
      exact Option.some.inj hc ▸ hr
  have hc : cqe ∈ d.ring.posted := hposted ▸ mem_cons_self ..
  obtain ⟨op, hop⟩ : ∃ op, d.pending[cqe.id]? = some (some op) := h.requests.answered cqe hc
  have ⟨hlt, hget⟩ := List.getElem?_eq_some_iff.mp hop
  have hmem : some op ∈ d.pending := hget ▸ getElem_mem hlt
  have hrx (hr : op.read = true) : 1 ≤ d.rxPending := by
    rw [h.rx]
    exact one_le_countP_iff.mpr ⟨_, hmem, by simp [isRead, hr]⟩
  have htx (hr : op.read = false) : 1 ≤ d.txPending := by
    rw [h.tx]
    exact one_le_countP_iff.mpr ⟨_, hmem, by simp [isWrite, hr]⟩
  have ⟨hne, hrequests⟩ := h.requests.reap hposted
  have hbudget := h.budget
  rw [finish_eq (d := { d with ring }) hop hrx htx]
  suffices hi : Intact cfg delivered { d with
      ring
      pending   := d.pending.set cqe.id none
      free      := cqe.id :: d.free
      rxPending := d.rxPending - op.read.toNat
      txPending := d.txPending - (!op.read).toNat
      ready     := d.ready ++ (packet op cqe.result).toList } from
    ⟨⟨hi.beside _, prefix_append ..⟩, rfl⟩
  refine ⟨⟨h.config, hsound, hentries.trans h.entries, ?_, ?_, h.fine⟩, ?_, ?_, ?_⟩
  · show Requests.Sound cfg.entries []
      ⟨cqe.id :: d.free, d.pending.set cqe.id none, ring.queued, d.inflight, ring.posted⟩
    rw [hqueued]
    exact hrequests
  · have hpacket : packetOf d.pending cqe = packet op cqe.result := by simp [packetOf, hop]
    have hsame : ring.posted.filterMap (packetOf (d.pending.set cqe.id none)) =
        ring.posted.filterMap (packetOf d.pending) :=
      filterMap_packetOf fun c hc => Requests.getElem?_set_of_ne (hne c hc)
    show d.arrived = delivered ++ (d.ready ++ (packet op cqe.result).toList) ++
      ring.posted.filterMap (packetOf (d.pending.set cqe.id none))
    rw [h.order, hposted, hsame, filterMap_cons, hpacket]
    cases packet op cqe.result <;> simp
  · show d.rxPending - op.read.toNat = (d.pending.set cqe.id none).countP isRead
    rw [(countP_vacate hop).left, h.rx]
  · show d.txPending - (!op.read).toNat = (d.pending.set cqe.id none).countP isWrite
    rw [(countP_vacate hop).right, h.tx]
  · show d.rxPending - op.read.toNat + (d.ready ++ (packet op cqe.result).toList).length ≤
    cfg.rxDepth
    rw [length_append]
    have hone : (packet op cqe.result).toList.length ≤ op.read.toNat := by
      unfold packet
      split
      case isTrue hp  => simp [hp.left]
      case isFalse    => simp
    cases hr : op.read
    case false =>
      simp only [hr, Bool.toNat_false] at hone ⊢
      omega
    case true =>
      have := hrx hr
      simp only [hr, Bool.toNat_true] at hone ⊢
      omega

-- The number of rounds is sufficient.
theorem reapRounds (h : Intact cfg delivered d) (rounds : Nat)
    (hr : cfg.entries < rounds + d.free.length) :
    Leads cfg delivered d (d.reapRounds rounds) := by
  induction rounds generalizing d
  case zero =>
    have hlen := h.requests.length
    change d.free.length + _ = _ at hlen
    omega
  case succ rounds ih =>
    have hw := h.watched
    have hfree := h.toCore.observe.right.free
    rcases hw.intact.ring.pop with ⟨hp, -⟩ | ⟨ring, cqe, hp, -⟩
    all_goals simp only [UringTunDevice.reapRounds, hp]
    case inl => exact hw
    have ⟨hf, hfree'⟩ := hw.intact.finish hp
    refine (hw.trans hf).trans (ih hf.intact ?_)
    rw [hfree', hfree, length_cons]
    omega

theorem reap (h : Intact cfg delivered d) : Leads cfg delivered d d.reap := by
  have hsize := h.requests.size
  change d.pending.length = _ at hsize
  have hl := h.reapRounds (d.pending.length + 1) (by omega)
  have hi := hl.intact
  exact ⟨⟨⟨hi.config, hi.ring.releaseCompletions, hi.entries, hi.requests, hi.order, hi.fine⟩,
    hi.rx, hi.tx, hi.budget⟩, hl.ready⟩

theorem takeError (h : Intact cfg delivered d) : Leads cfg delivered d d.takeError.fst :=
  ⟨h.beside d.takeError.fst, prefix_refl _⟩

theorem submit (h : Intact cfg delivered d) : Leads cfg delivered d d.submit.fst := by
  have hp : Intact cfg delivered { d with ring := d.ring.publish } :=
    ⟨⟨h.config, h.ring.publish.left, h.entries, h.requests, h.order, h.fine⟩, h.rx, h.tx, h.budget⟩
  have hw := hp.watched.trans hp.watched.intact.watched
  unfold UringTunDevice.submit
  dsimp only
  split <;> exact ⟨hw.intact, hw.ready⟩

theorem progress (h : Intact cfg delivered d) : Leads cfg delivered d d.progress.fst := by
  have hr := h.reap.trans h.reap.intact.takeError
  unfold UringTunDevice.progress
  split
  case h_1 d₁ err he =>
    rw [he] at hr
    exact hr
  case h_2 d₁ he =>
    rw [he] at hr
    dsimp only at hr
    split
    case isFalse => exact hr.trans hr.intact.takeError
    have hs := submit (hr.intact.beside { d₁ with stats.enterCalls := d₁.stats.enterCalls + 1 })
    replace hs : Leads cfg delivered d₁
        { d₁ with stats.enterCalls := d₁.stats.enterCalls + 1 }.submit.fst := ⟨hs.intact, hs.ready⟩
    split
    case h_1 d₂ err he =>
      rw [he] at hs
      dsimp only at hs
      exact hr.trans ⟨hs.intact.frame rfl, hs.ready⟩
    case h_2 d₂ he =>
      rw [he] at hs
      dsimp only at hs
      exact (hr.trans hs).trans (hs.intact.reap.trans hs.intact.reap.intact.takeError)

-- A slot is taken, and the request for it is queued.
theorem queue (h : Intact cfg delivered d) {id : Nat} {free : List Nat} (hf : d.free = id :: free)
    (hs : d.ring.sqUsed < cfg.entries) (buf : PacketBuf) (read : Bool)
    (hb : d.rxPending + d.ready.length + read.toNat ≤ cfg.rxDepth) :
    Intact cfg delivered (d.queue buf read) ∧
    (d.queue buf read).free = free ∧ (d.queue buf read).ready = d.ready ∧
    (d.queue buf read).rxPending = d.rxPending + read.toNat ∧
    (d.queue buf read).ring.sqUsed ≤ d.ring.sqUsed + 1 := by
  have hvacant : d.pending[id]? = some none := h.requests.vacant id (by
    show id ∈ d.free
    rw [hf]
    exact mem_cons_self ..)
  have ⟨hlt, hget⟩ := List.getElem?_eq_some_iff.mp hvacant
  have ⟨hne, hrequests⟩ := h.requests.take hf ⟨buf, read⟩
  let d₁ : UringTunDevice := { d with free, pending := d.pending.set id (some ⟨buf, read⟩) }
  have hcore : Core cfg delivered [id] d₁ := by
    refine ⟨h.config, h.ring, h.entries, hrequests, ?_, h.fine⟩
    have hsame : d.ring.posted.filterMap (packetOf d₁.pending) =
        d.ring.posted.filterMap (packetOf d.pending) :=
      filterMap_packetOf fun c hc => Requests.getElem?_set_of_ne (hne c hc)
    show d.arrived = delivered ++ d.ready ++ d.ring.posted.filterMap (packetOf d₁.pending)
    rw [hsame]
    exact h.order
  have ⟨hc, hw⟩ := hcore.observe
  have hused : d₁.observe.ring.sqUsed < d₁.observe.ring.entries := by
    rw [hc.entries]
    exact Nat.lt_of_le_of_lt hw.used hs
  have hpush := push_eq (request id ⟨buf, read⟩) hc.ring hused
  have ⟨hsound, hqueued⟩ := hc.ring.push hused (request id ⟨buf, read⟩)
  have ⟨op, hop, hreq⟩ := hw.keeps id ⟨buf, read⟩ (by simp [d₁, hlt])
  have hcore' : Core cfg delivered [] { d₁.observe with
      ring := d₁.observe.ring.push (request id ⟨buf, read⟩) } := by
    refine ⟨hc.config, hsound, hc.entries, ?_, hc.order, hc.fine⟩
    show Requests.Sound cfg.entries [] ⟨d₁.observe.free, d₁.observe.pending,
      (d₁.observe.ring.push (request id ⟨buf, read⟩)).queued, d₁.observe.inflight,
      d₁.observe.ring.posted⟩
    rw [hqueued, ← hreq]
    exact hc.requests.push hop
  have heq : d.queue buf read =
      { d₁.observe with
        ring      := d₁.observe.ring.push (request id ⟨buf, read⟩)
        rxPending := d₁.observe.rxPending + read.toNat
        txPending := d₁.observe.txPending + (!read).toNat }.beside (d.queue buf read) := by
    have hq : d.queue buf read = (d₁.push (request id ⟨buf, read⟩)).submitted read := by
      unfold UringTunDevice.queue
      simp only [hf]
      rw [assert_of (by simpa using hlt)]
    rw [hq, hpush]
    cases read <;> rfl
  have hlen := congrArg List.length hqueued
  rw [length_append, Ring.length_queued, Ring.length_queued, length_singleton] at hlen
  have hused' : d₁.observe.ring.sqUsed ≤ d.ring.sqUsed := hw.used
  have hrx : d₁.observe.rxPending = d.rxPending := hw.rxPending
  have htx : d₁.observe.txPending = d.txPending := hw.txPending
  have hready : d₁.observe.ready = d.ready := hw.ready
  have ⟨hreads, hwrites⟩ := countP_take hvacant ⟨buf, read⟩
  have hi : Intact cfg delivered
      { d₁.observe with
        ring      := d₁.observe.ring.push (request id ⟨buf, read⟩)
        rxPending := d₁.observe.rxPending + read.toNat
        txPending := d₁.observe.txPending + (!read).toNat } := by
    refine ⟨⟨hcore'.config, hcore'.ring, hcore'.entries, hcore'.requests, hcore'.order,
      hcore'.fine⟩, ?_, ?_, ?_⟩
    · show d₁.observe.rxPending + read.toNat = d₁.observe.pending.countP isRead
      rw [hrx, hw.reads, h.rx]
      exact hreads.symm
    · show d₁.observe.txPending + (!read).toNat = d₁.observe.pending.countP isWrite
      rw [htx, hw.writes, h.tx]
      exact hwrites.symm
    · show d₁.observe.rxPending + read.toNat + d₁.observe.ready.length ≤ cfg.rxDepth
      rw [hrx, hready]
      omega
  rw [heq]
  refine ⟨hi.beside _, hw.free, hready, ?_, ?_⟩
  · show d₁.observe.rxPending + read.toNat = _
    rw [hrx]
  · show (d₁.observe.ring.push (request id ⟨buf, read⟩)).sqUsed ≤ _
    omega

theorem freeSlots_eq (h : Intact cfg delivered d) :
    d.freeSlots = (d.observe, d.observe.ring.freeSlots) := by
  unfold UringTunDevice.freeSlots
  dsimp only
  rw [assert_of (by simpa using h.observe.ring.sqUsed_le)]

theorem refill (h : Intact cfg delivered d) (budget : Nat)
    (hb : d.rxPending + d.ready.length + budget ≤ cfg.rxDepth) :
    Leads cfg delivered d (d.refill budget) := by
  induction budget generalizing d
  case zero => exact .refl h
  case succ budget ih =>
    have hw := h.watched
    have hsame := h.toCore.observe.right
    unfold UringTunDevice.refill
    split
    case isTrue => exact .refl h
    rename_i hfree
    rw [h.freeSlots_eq]
    split
    case h_1 d₁ he =>
      obtain ⟨rfl, -⟩ := Prod.mk.inj he
      exact hw
    case h_2 d₁ n he =>
      obtain ⟨rfl, hn⟩ := Prod.mk.inj he
      split
      case h_1 => exact ⟨hw.intact.frame rfl, hw.ready⟩
      case h_2 pool idx _ =>
        have hi : Intact cfg delivered { d.observe with pool } := hw.intact.frame rfl
        have hlt : d.observe.ring.sqUsed < cfg.entries := by
          rw [Ring.freeSlots, hw.intact.entries] at hn
          omega
        obtain ⟨id, free, hf⟩ : ∃ id free, d.free = id :: free :=
          exists_cons_of_ne_nil (by simpa using hfree)
        have hbudget :
            d.observe.rxPending + d.observe.ready.length + true.toNat ≤ cfg.rxDepth := by
          rw [hsame.rxPending, hsame.ready, Bool.toNat_true]
          omega
        have ⟨hq, _, hready, hrx, _⟩ :=
          hi.queue (hsame.free.trans hf) hlt (pool.emptyBuf idx) true hbudget
        have hl :
            Leads cfg delivered d ({ d.observe with pool }.queue (pool.emptyBuf idx) true) := by
          refine ⟨hq, ?_⟩
          rw [hready]
          exact hw.ready
        refine hl.trans (ih hq ?_)
        rw [hready, hrx]
        show d.observe.rxPending + true.toNat + d.observe.ready.length + budget ≤ cfg.rxDepth
        rw [hsame.rxPending, hsame.ready, Bool.toNat_true]
        omega

-- What `recv` returns, and what stays for later calls.
structure Received (cfg : UringConfig) (delivered : List PacketBuf) (d : UringTunDevice) (max : Nat)
    (d' : UringTunDevice) (bufs : List PacketBuf) : Prop where
  intact : Intact cfg (delivered ++ bufs) d'
  length : bufs.length ≤ max
  ready  : d.ready <+: bufs ++ d'.ready

theorem recv (h : Intact cfg delivered d) (max : Nat) :
    (∃ d' err, d.recv max = (d', .error err) ∧ Leads cfg delivered d d') ∨
    ∃ d' bufs, d.recv max = (d', .ok bufs) ∧ Received cfg delivered d max d' bufs := by
  have hr := h.reap.trans h.reap.intact.takeError
  unfold UringTunDevice.recv
  split
  case h_1 d₁ err he =>
    rw [he] at hr
    exact .inl ⟨_, _, rfl, hr⟩
  case h_2 d₁ he =>
    rw [he] at hr
    dsimp only at hr ⊢
    have hb := hr.intact.budget
    have hf := hr.trans (hr.intact.refill
      (d₁.cfg.rxDepth - (d₁.rxPending + d₁.ready.length))
      (by rw [hr.intact.config]; omega))
    have hp := hf.trans hf.intact.progress
    split
    case h_1 d₂ err he =>
      rw [he] at hp
      exact .inl ⟨_, _, rfl, hp⟩
    case h_2 d₂ he =>
      rw [he] at hp
      dsimp only at hp
      have hi := hp.intact
      refine .inr ⟨_, _, rfl, ⟨⟨hi.config, hi.ring, hi.entries, hi.requests, ?_, hi.fine⟩, hi.rx,
        hi.tx, ?_⟩, length_take_le .., ?_⟩
      · show d₂.arrived = delivered ++ d₂.ready.take max ++ d₂.ready.drop max ++ _
        rw [append_assoc delivered, take_append_drop]
        exact hi.order
      · have := hi.budget
        show d₂.rxPending + (d₂.ready.drop max).length ≤ cfg.rxDepth
        rw [length_drop]
        omega
      · rw [take_append_drop]
        exact hp.ready

-- All frames of a batch are queued.
theorem queueAll (h : Intact cfg delivered d) (frames : List PacketBuf)
    (hf : frames.length ≤ d.free.length) (hs : d.ring.sqUsed + frames.length ≤ cfg.entries) :
    Leads cfg delivered d (frames.foldl (·.queue · false) d) := by
  induction frames generalizing d
  case nil => exact .refl h
  case cons frame frames ih =>
    rw [length_cons] at hf hs
    obtain ⟨id, free, hfree⟩ : ∃ id free, d.free = id :: free :=
      exists_cons_of_length_pos (by omega)
    have ⟨hq, hfree', hready, _, hused⟩ := h.queue hfree (by omega) frame false (by
      rw [Bool.toNat_false]
      exact h.budget)
    rw [hfree, length_cons] at hf
    have hroom : (d.queue frame false).ring.sqUsed + frames.length ≤ cfg.entries := by omega
    have hl : Leads cfg delivered d (d.queue frame false) := ⟨hq, by rw [hready]⟩
    exact hl.trans (ih hq (by rw [hfree']; omega) hroom)

theorem sendSlots (h : Intact cfg delivered d) (slots : List PacketBuf) :
    Leads cfg delivered d (d.sendSlots slots).fst ∧ PrefixOwned slots (d.sendSlots slots).snd := by
  have hr := h.reap.trans h.reap.intact.takeError
  unfold UringTunDevice.sendSlots
  split
  case h_1 d₁ err he =>
    rw [he] at hr
    exact ⟨hr, .error _⟩
  case h_2 d₁ he =>
    rw [he] at hr
    dsimp only at hr
    have ho := hr.intact.observe
    have hw := hr.trans hr.intact.watched
    rw [hr.intact.freeSlots_eq]
    dsimp only
    generalize hn : min (min slots.length d₁.observe.free.length) d₁.observe.ring.freeSlots = n
    split
    case isTrue => exact ⟨hw, .error _⟩
    have hlen : (slots.take n).length = n := by
      rw [length_take]
      omega
    have hq := ho.queueAll (slots.take n) (by omega) (by
      have := ho.ring.sqUsed_le
      rw [Ring.freeSlots, ho.entries] at hn
      rw [ho.entries] at this
      omega)
    have hp := (hw.trans hq).trans hq.intact.progress
    refine ⟨?_, ?_⟩
    · split
      case h_1 d₂ err he =>
        rw [he] at hp
        dsimp only at hp
        exact ⟨hp.intact.frame rfl, hp.ready⟩
      case h_2 d₂ he =>
        rw [he] at hp
        exact hp
    · rw [map_const', hlen]
      exact .ok (by omega)

theorem start {kernel : Nat → Turn} {pool : FramePool} (h : cfg.validate = .ok ()) :
    Intact cfg [] (start pool cfg kernel) := by
  simp only [UringConfig.validate] at h
  have hv : (Xdp.isPowerOfTwo cfg.entries = true ∧ 1 < cfg.entries ∧ cfg.entries ≤ 4096) ∧
      cfg.rxDepth < cfg.entries := by
    simpa using h
  obtain ⟨⟨hpow, -, hle⟩, hdepth⟩ := hv
  replace hpow : 2 ^ cfg.entries.log2 = cfg.entries := by
    simpa [Xdp.isPowerOfTwo] using hpow
  have hk : cfg.entries.log2 < 31 := by
    by_contra hk
    have := Nat.pow_le_pow_right (show 0 < 2 by decide) (Nat.not_lt.mp hk)
    omega
  have hsound := Ring.new_sound hk
  rw [hpow] at hsound
  refine ⟨⟨rfl, hsound, ?_, ?_, ?_, rfl⟩, ?_, ?_, ?_⟩
  · show (BitVec.ofNat 32 cfg.entries).toNat = _
    rw [BitVec.toNat_ofNat, Nat.mod_eq_of_lt (by omega)]
  · refine ⟨length_replicate, by omega, ?_, fun i hi => ?_, ?_, ?_⟩
    · simp [UringTunDevice.requests, UringTunDevice.start, Requests.live, Ring.queued, Ring.posted,
        Ring.new]
    · have hi : i < cfg.entries := mem_range.mp hi
      simp [UringTunDevice.requests, UringTunDevice.start, hi]
    · simp [UringTunDevice.requests, UringTunDevice.start, Ring.queued, Ring.new]
    · simp [UringTunDevice.requests, UringTunDevice.start, Ring.posted, Ring.new]
  · simp [UringTunDevice.start, Ring.posted, Ring.new]
  · simp [UringTunDevice.start, isRead, countP_replicate]
  · simp [UringTunDevice.start, isWrite, countP_replicate]
  · simp [UringTunDevice.start]

end Intact
end UringTunDevice
end Uring
