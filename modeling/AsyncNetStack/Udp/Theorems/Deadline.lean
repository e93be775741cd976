import AsyncNetStack.Device.Recorder
import AsyncNetStack.Udp.Theorems.Queue

open Udp Transition List Option

namespace Udp.Scheduler

variable {s : Scheduler} {fair : Bool} {m : Duration}

-- The datagrams whose pace matters next.
def heads (s : Scheduler) (fair : Bool) : List Queued :=
  s.queue.take (if fair then s.queue.length else 1)

theorem mem_heads {i : Fin s.queue.length} (h : fair = false → i.val = 0) :
    s.queue.get i ∈ s.heads fair := by
  cases fair
  case true =>
    rw [heads, if_pos rfl, take_length]
    exact getElem_mem _
  case false =>
    have hi := h rfl
    refine mem_take_iff_getElem.mpr ⟨i, ?_, rfl⟩
    rw [if_neg (by decide)]
    omega

theorem exists_heads {q : Queued} (h : q ∈ s.heads fair) :
    ∃ i : Fin s.queue.length, s.queue.get i = q ∧ (fair = false → i.val = 0) := by
  have ⟨i, hi, heq⟩ := mem_take_iff_getElem.mp h
  refine ⟨⟨i, by omega⟩, heq, ?_⟩
  rintro rfl
  rw [if_neg (by decide)] at hi
  dsimp only
  omega

-- When the pace allows to send a datagram.
def readyAt (s : Scheduler) (q : Queued) : Option Duration :=
  s.peers[q.destination]?.map fun b => max s.next b.next

theorem nextDeadline_eq : s.nextDeadline fair =
    (((s.heads fair).filterMap s.readyAt).min?.toList ++ s.queue.filterMap (·.deadline)).min? :=
  rfl

-- The next deadline is the first time at which a datagram expires or is due.
structure Earliest (s : Scheduler) (fair : Bool) (m : Duration) : Prop where
  expires : ∀ q ∈ s.queue, ∀ t ∈ q.deadline, m ≤ t
  due     : ∀ q ∈ s.heads fair, ∀ t ∈ s.readyAt q, m ≤ t
  reached : (∃ q ∈ s.queue, q.deadline = some m) ∨ ∃ q ∈ s.heads fair, s.readyAt q = some m

theorem nextDeadline_some (h : s.nextDeadline fair = some m) : Earliest s fair m := by
  rw [nextDeadline_eq, List.min?_eq_some_iff] at h
  obtain ⟨hmem, hle⟩ := h
  refine ⟨fun q hq t ht => ?_, fun q hq t ht => ?_, ?_⟩
  case refine_1 => exact hle t (mem_append_right _ (mem_filterMap.mpr ⟨q, hq, ht⟩))
  case refine_2 =>
    have ⟨a, ha, hat⟩ := Duration.exists_min?_le (mem_filterMap.mpr ⟨q, hq, ht⟩)
    exact (hle a (mem_append_left _ (mem_toList.mpr ha))).trans hat
  case refine_3 =>
    rcases mem_append.mp hmem with hmem | hmem
    case inl =>
      have hmin := (List.min?_eq_some_iff.mp (mem_toList.mp hmem)).left
      exact .inr (mem_filterMap.mp hmin)
    case inr => exact .inl (mem_filterMap.mp hmem)

theorem readyAt_isSome {q : Queued} (h : q ∈ s.queue) : ∃ t, s.readyAt q = some t := by
  have hmem := Std.TreeMap.mem_iff_isSome_getElem?.mp (s.mem_peers h)
  have ⟨b, hb⟩ := isSome_iff_exists.mp hmem
  exact ⟨max s.next b.next, by rw [readyAt, hb]; rfl⟩

theorem nextDeadline_none : s.nextDeadline fair = none ↔ s.queue = [] := by
  rw [nextDeadline_eq, List.min?_eq_none_iff, append_eq_nil_iff]
  constructor
  case mp =>
    rintro ⟨hnone, _⟩
    by_contra hne
    have hpos := length_pos_of_ne_nil hne
    have ⟨t, ht⟩ := s.readyAt_isSome (getElem_mem hpos)
    have hhead : s.queue.get ⟨0, hpos⟩ ∈ s.heads fair := mem_heads fun _ => rfl
    have ⟨a, ha, _⟩ := Duration.exists_min?_le (mem_filterMap.mpr ⟨_, hhead, ht⟩)
    rw [ha] at hnone
    cases hnone
  case mpr =>
    intro hnil
    simp [heads, hnil]

end Udp.Scheduler

namespace UdpPool

variable {δ : Type} {p : UdpPool δ}

-- Nothing happens if no datagram is to be dropped.
theorem dropWhere_none {cond : Queued → Bool} (h : ∀ q ∈ p.tx.queue, cond q = false)
    (reason : UdpFailure) (i rounds : Nat) : p.dropWhere cond reason i rounds = p := by
  induction rounds generalizing i
  case zero => rfl
  case succ rounds ih =>
    rw [dropWhere]
    split
    case isFalse => rfl
    case isTrue hi =>
      rw [if_neg (by rw [h _ (getElem_mem hi)]; decide)]
      exact ih (i + 1)

theorem advance_idle {t : Duration} (hnow : p.now ≤ t)
    (h : ∀ q ∈ p.tx.queue, ∀ d ∈ q.deadline, t < d) :
    p.advance t = ({ p with now := t }, .ok ()) := by
  have hnone : ∀ q ∈ p.tx.queue, q.deadline.any (· ≤ t) = false := by
    intro q hq
    cases hd : q.deadline
    case none   => rfl
    case some d => simpa using h q hq d hd
  rw [advance, if_neg hnow.not_gt, dropAll]
  exact congrArg (·, _) (dropWhere_none (p := { p with now := t }) hnone ..)

-- Expired datagrams leave the queue.
theorem advance_expires {t : Duration} (hnow : p.now ≤ t) {q : Queued} (hq : q ∈ p.tx.queue)
    {d : Duration} (hd : q.deadline = some d) (hle : d ≤ t) :
    (p.advance t).fst.tx.queue.length < p.tx.queue.length := by
  rw [(p.advance_sifted hnow).right.queue]
  refine length_filter_lt_length_iff_exists.mpr ⟨q, hq, ?_⟩
  simp [hd, hle]

theorem event_device (p : UdpPool δ) (ev : UdpEvent) : (p.event ev).device = p.device := by
  rw [event]
  repeat' split
  all_goals rfl

theorem finish_device (p : UdpPool δ) (q : Queued) (outcome : UdpOutcome) :
    (p.finish q outcome).device = p.device := by
  cases outcome
  all_goals exact event_device ..

section

variable [Device δ]

theorem idle_before {m t : Duration} (h : Scheduler.Earliest p.tx p.config.fairQueue m)
    (hnow : p.now ≤ t) (ht : t < m) : (p.advance t).fst.flush = ({ p with now := t }, .ok 0) := by
  have hfresh : ∀ q ∈ p.tx.queue, ∀ d ∈ q.deadline, t < d :=
    fun q hq d hd => ht.trans_le (h.expires q hq d hd)
  have hnone : p.tx.candidate t p.config.fairQueue [] = none := by
    by_contra hsome
    obtain ⟨index, hc⟩ := ne_none_iff_exists'.mp hsome
    obtain ⟨hnext, hready⟩ := Scheduler.candidate_ready hc
    obtain ⟨_, b, hb, hle⟩ := Scheduler.ready_iff.mp hready
    have hhead : p.tx.queue.get index ∈ p.tx.heads p.config.fairQueue := by
      refine Scheduler.mem_heads fun hfifo => ?_
      rw [hfifo] at hc
      exact Scheduler.candidate_head hc
    have hmax := h.due _ hhead (max p.tx.next b.next) (by rw [Scheduler.readyAt, hb]; rfl)
    exact absurd (hmax.trans (max_le hnext hle)) ht.not_ge
  have hagain := advance_idle (p := { p with now := t }) le_rfl hfresh
  rw [advance_idle hnow hfresh, flush, hagain, Fallible.andThen]
  cases p.config.txBudget
  case zero => rfl
  case succ => simp only [flushRounds, hnone]

end

section

variable [Device δ] {p : UdpPool (Recorder δ)}

theorem attempt_offered (index : Fin p.tx.queue.length) : (p.attempt index).fst.device.offered =
    p.device.offered ++ [[(p.tx.queue.get index).frame]] := by
  rw [attempt]
  dsimp only [Device.send]
  repeat' split
  all_goals first | rfl | exact congrArg Recorder.offered (finish_device ..)

-- Every round but the last passes the frame of its candidate to the device.
theorem flushRounds_offered (blockedPeers : List SocketAddr) (accepted rounds : Nat) :
    p.device.offered ++ ((Selection.mk p blockedPeers).offered.toList.map fun q => [q.frame]) <+:
      (p.flushRounds blockedPeers accepted (rounds + 1)).fst.device.offered := by
  induction rounds using Nat.strong_induction_on generalizing p blockedPeers accepted
  case h rounds ih =>
    have hrest (p : UdpPool (Recorder δ)) (blockedPeers : List SocketAddr) (accepted : Nat) :
        p.device.offered <+: (p.flushRounds blockedPeers accepted rounds).fst.device.offered := by
      cases rounds
      case zero   => exact prefix_refl _
      case succ n => exact (prefix_append ..).trans (ih n n.lt_succ_self ..)
    rw [Selection.offered, Selection.candidate, flushRounds]
    split
    case h_1 h => simp [h]
    case h_2 index h =>
      have hoffered := attempt_offered index
      generalize p.attempt index = r at hoffered ⊢
      obtain ⟨p', result⟩ := r
      simp only [h, map_some, toList_some, map_cons, map_nil, ← hoffered]
      cases result
      case failed => exact prefix_refl _
      all_goals exact hrest ..

-- Before the deadline, nothing changes but the clock, and so nothing is offered to the device. At
-- the deadline, a datagram expires or its frame is passed to the device.
structure Exact (p : UdpPool (Recorder δ)) (d : Duration) : Prop where
  idle : ∀ t, p.now ≤ t → t < d → (p.advance t).fst.flush = ({ p with now := t }, .ok 0)
  busy : p.now ≤ d ∧ ((p.advance d).fst.tx.queue.length < p.tx.queue.length ∨
           ∃ q ∈ p.tx.queue, p.device.offered ++ [[q.frame]] <+:
             (p.advance d).fst.flush.fst.device.offered)

theorem busy_at {m d : Duration} (h : Scheduler.Earliest p.tx p.config.fairQueue m)
    (hnow : p.now ≤ d) (hd : m ≤ d) (hbudget : 0 < p.config.txBudget) :
    (p.advance d).fst.tx.queue.length < p.tx.queue.length ∨
    ∃ q ∈ p.tx.queue, p.device.offered ++ [[q.frame]] <+:
      (p.advance d).fst.flush.fst.device.offered := by
  by_cases hexpired : ∃ q ∈ p.tx.queue, ∃ t ∈ q.deadline, t ≤ d
  case pos =>
    obtain ⟨q, hq, t, ht, hle⟩ := hexpired
    exact .inl (advance_expires hnow hq ht hle)
  case neg =>
    push Not at hexpired
    rcases h.reached with ⟨q, hq, ht⟩ | ⟨q, hq, ht⟩
    case inl => exact absurd hd (hexpired q hq m ht).not_ge
    right
    obtain ⟨index, rfl, hfifo⟩ := Scheduler.exists_heads hq
    obtain ⟨b, hb, rfl⟩ := map_eq_some_iff.mp ht
    have hsome : (p.tx.candidate d p.config.fairQueue []).isSome := by
      refine Scheduler.candidate_isSome ((le_max_left ..).trans hd) ?_ hfifo
      exact Scheduler.ready_iff.mpr ⟨not_mem_nil, b, hb, (le_max_right ..).trans hd⟩
    obtain ⟨first, hfirst⟩ := isSome_iff_exists.mp hsome
    have hagain := advance_idle (p := { p with now := d }) le_rfl hexpired
    obtain ⟨rounds, hrounds⟩ := Nat.exists_eq_add_one_of_ne_zero hbudget.ne'
    refine ⟨p.tx.queue.get first, getElem_mem _, ?_⟩
    rw [advance_idle hnow hexpired, flush, hagain, Fallible.andThen]
    have hoffered := flushRounds_offered (p := { p with now := d }) [] 0 rounds
    simp only [Selection.offered, Selection.candidate, hfirst] at hoffered
    exact hrounds ▸ hoffered

-- The deadline of a pool is exact in both directions, whatever has happened before.
theorem nextDeadline_exact {device : Recorder δ} {config : UdpConfig}
    (h : withConfig device config = .ok p) (ops : List (Op (Recorder δ))) :
    ((exec step p ops).nextDeadline = none ↔ (exec step p ops).tx.queue = []) ∧
    ∀ d, (exec step p ops).nextDeadline = some d → Exact (exec step p ops) d := by
  have ⟨hvalid, hconfig, _⟩ := withConfig_ok h
  have hconfig := (config_change (p.selections_trace ops)).trans hconfig
  generalize exec step p ops = p at hconfig ⊢
  refine ⟨?_, fun d hd => ?_⟩
  case refine_1 =>
    rw [nextDeadline, map_eq_none_iff]
    exact Scheduler.nextDeadline_none
  case refine_2 =>
    obtain ⟨m, hm, rfl⟩ := map_eq_some_iff.mp hd
    have hearliest := Scheduler.nextDeadline_some hm
    refine ⟨fun t hnow ht => idle_before hearliest hnow ?_, le_max_right .., ?_⟩
    case refine_1 => exact (lt_max_iff.mp ht).resolve_right hnow.not_gt
    case refine_2 =>
      exact busy_at hearliest (le_max_right ..) (le_max_left ..) (hconfig ▸ hvalid.txBudget)

end

-- The second datagram has to wait for 29 bytes at a rate of 1000 bytes in a second.
def paced : UdpPool (Recorder LoopbackDevice) :=
  { overLoopback with
    device := { device := .withCapacity 0 4 4, offered := [] }
    config := { UdpConfig.default with bytesPerSecond := some 1000 } }

def secondWaits : UdpPool (Recorder LoopbackDevice) :=
  exec step paced [
    .bind { address := ⟨0x0a000001, 7⟩, id := 1 },
    .send ⟨0x0a000001, 7⟩ ⟨0x0a000002, 9⟩ [1] {},
    .send ⟨0x0a000001, 7⟩ ⟨0x0a000003, 9⟩ [2] {},
    .flush]

theorem nextDeadline_exact_secondWaits :
    secondWaits.device.offered.length = 1 ∧ secondWaits.nextDeadline = some (.fromMillis 29) ∧
    Exact secondWaits (.fromMillis 29) := by
  have h : withConfig paced.device paced.config = .ok paced := rfl
  have hdeadline : secondWaits.nextDeadline = some (.fromMillis 29) := by decide +kernel
  exact ⟨by decide +kernel, hdeadline, (nextDeadline_exact h _).right _ hdeadline⟩

end UdpPool
