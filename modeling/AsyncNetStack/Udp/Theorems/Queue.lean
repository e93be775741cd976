import AsyncNetStack.Udp.Theorems.Drift
import AsyncNetStack.Udp.Theorems.Outcomes

open Std Udp Transition List Option

namespace UdpPool

variable {δ : Type} {p p₁ p₂ p₃ : UdpPool δ}
variable {s : Selection δ} {q : Queued}

-- What changes of a pool do to its queue: datagrams leave it, or one enters it at its end.
inductive Requeues (p₁ p₂ : UdpPool δ) : Prop
  | leaves : p₂.tx.queue.Sublist p₁.tx.queue → p₂.nextId = p₁.nextId → Requeues p₁ p₂
  | enters (q : Queued) : p₂.tx.queue = p₁.tx.queue ++ [q] → q.id = p₁.nextId →
    p₂.nextId = p₁.nextId + 1 → Whole q.frame → Requeues p₁ p₂

theorem Requeues.of_aside (h : Aside p₁ p₂) : Requeues p₁ p₂ :=
  .leaves (h.tx ▸ .refl _) h.nextId

theorem enqueue_requeues {frame : PacketBuf} (h : Whole frame) (p : UdpPool δ)
    (source destination : SocketAddr) (options : SendOptions) :
    Requeues p (p.enqueue frame source destination options).fst := by
  rw [enqueue]
  split
  case isFalse => exact .leaves (.refl _) rfl
  case isTrue  => exact .enters _ rfl rfl rfl h

theorem Work.requeues (h : Work p₁ p₂) : Requeues p₁ p₂ := by
  cases h
  case load h =>
    cases h
    case aside h        => exact .of_aside h
    case retain         => exact .leaves (.refl _) rfl
    case enqueue hwhole => exact enqueue_requeues hwhole ..
  case advance now =>
    rcases lt_or_ge now p₁.now with h | h
    case inl =>
      rw [p₁.advance_error h]
      exact .leaves (.refl _) rfl
    have hsift := (p₁.advance_sifted h).right
    exact .leaves hsift.thins.queue hsift.nextId

-- A request to bind an endpoint is refused, or the endpoint is new.
theorem bind_eq (p : UdpPool δ) (service : Service) : (p.bind service).fst = p ∨
    (p.bind service).fst = { p with services := p.services.insert service.address service.id } := by
  rw [bind]
  split
  case h_1 => exact .inl rfl
  split
  case isTrue => exact .inl rfl
  split
  case isTrue  => exact .inl rfl
  case isFalse => exact .inr rfl

theorem Move.requeues (h : Move p₁ p₂) : Requeues p₁ p₂ := by
  cases h
  case work h => exact h.requeues
  case bind service =>
    rcases p₁.bind_eq service with heq | heq
    all_goals
      rw [heq]
      exact .leaves (.refl _) rfl
  case unbind address =>
    by_cases h : address ∈ p₁.services
    case pos =>
      have hsift := p₁.unbind_sifted h
      exact .leaves hsift.thins.queue hsift.nextId
    case neg =>
      rw [p₁.unbind_absent h]
      exact .leaves (.refl _) rfl

theorem Change.requeues (h : Change p₁ p₂) : Requeues p₁ p₂ := by
  cases h
  case move h           => exact h.requeues
  case install services => exact .leaves (nil_sublist _) (dropAll_sifted ..).nextId

-- The limits of the configuration, and the endpoints that datagrams are sent from.
structure Bounded (p : UdpPool δ) : Prop where
  capacity : p.tx.queue.length ≤ p.config.queueCapacity
  share    : ∀ peer, queuedFor p.tx.queue peer ≤ p.config.perPeerCapacity
  slots    : p.tx.peers.size ≤ p.config.maxTxPeers
  bound    : ∀ q ∈ p.tx.queue, q.source ∈ p.services
  valid    : 0 < p.config.perPeerCapacity

namespace Bounded

-- Datagrams may leave the queue, and peers may be forgotten.
theorem shrink (h : Bounded p₁) (hc : p₂.config = p₁.config)
    (hq : p₂.tx.queue.Sublist p₁.tx.queue) (hs : p₂.tx.peers.size ≤ p₁.tx.peers.size)
    (hb : ∀ q ∈ p₂.tx.queue, q.source ∈ p₁.services → q.source ∈ p₂.services) : Bounded p₂ where
  capacity := hc ▸ hq.length_le.trans h.capacity
  share p  := hc ▸ hq.countP_le.trans (h.share p)
  slots    := hc ▸ hs.trans h.slots
  bound q hmem := hb q hmem (h.bound q (hq.subset hmem))
  valid    := hc ▸ h.valid

theorem of_aside (h : Bounded p₁) (ha : Aside p₁ p₂) : Bounded p₂ :=
  h.shrink ha.config (ha.tx ▸ .refl _) (ha.tx ▸ le_rfl) fun _ _ => ha.services ▸ id

theorem of_sifted {cond : Queued → Bool} (h : Bounded p₁) (hs : Sifted p₁ cond p₂) : Bounded p₂ :=
  h.shrink hs.config hs.thins.queue hs.thins.size.le fun _ _ => hs.services ▸ id

theorem enqueue {frame : PacketBuf} {source destination : SocketAddr} {options : SendOptions}
    (h : Bounded p) (ha : Admitted p source destination) :
    Bounded (p.enqueue frame source destination options).fst := by
  rw [UdpPool.enqueue]
  split
  case isFalse => exact h
  refine ⟨?_, fun peer => ?_, ?_, ?_, h.valid⟩
  case refine_1 =>
    have hroom := ha.room
    simp only [Scheduler.push, length_append, length_singleton]
    omega
  case refine_2 =>
    have hshare := h.share peer
    simp only [Scheduler.push, queuedFor_append]
    split
    case isFalse => exact hshare
    rename_i heq
    subst heq
    have hcount := p.tx.counted destination
    rw [budgeted] at hcount
    cases hb : p.tx.peers[destination]?
    case none =>
      have hvalid := h.valid
      rw [hb] at hcount
      exact hcount ▸ hvalid
    case some b =>
      have hlt := ha.share b hb
      rw [hb] at hcount
      exact hcount ▸ hlt
  case refine_3 =>
    have hslots := h.slots
    simp only [Scheduler.push, TreeMap.size_insert]
    split
    case isTrue => exact hslots
    case isFalse hmem =>
      rw [TreeMap.contains_iff_mem] at hmem
      exact ha.slot hmem
  case refine_4 =>
    intro q hmem
    simp only [Scheduler.push, mem_append, mem_singleton] at hmem
    rcases hmem with hmem | rfl
    case inl => exact h.bound q hmem
    case inr => exact ha.bound

end Bounded

theorem Work.bounded (h : Work p₁ p₂) (hk : Bounded p₁) : Bounded p₂ := by
  cases h
  case load h =>
    cases h
    case aside h        => exact hk.of_aside h
    case retain         => exact hk.shrink rfl (.refl _) TreeMap.size_filter_le_size fun _ _ => id
    case enqueue hadm _ => exact hk.enqueue hadm
  case advance now =>
    rcases lt_or_ge now p₁.now with h | h
    case inl =>
      rw [p₁.advance_error h]
      exact hk
    have hnow : Bounded { p₁ with now } := hk.shrink rfl (.refl _) le_rfl fun _ _ => id
    exact hnow.of_sifted (p₁.advance_sifted h).right

theorem Move.bounded (h : Move p₁ p₂) (hk : Bounded p₁) : Bounded p₂ := by
  cases h
  case work h => exact h.bounded hk
  case bind service =>
    rcases p₁.bind_eq service with heq | heq
    case inl =>
      rw [heq]
      exact hk
    rw [heq]
    refine hk.shrink rfl (.refl _) le_rfl fun q _ hmem => ?_
    exact TreeMap.mem_insert.mpr (.inr hmem)
  case unbind address =>
    by_cases h : address ∈ p₁.services
    case neg =>
      rw [p₁.unbind_absent h]
      exact hk
    case pos =>
      -- The datagrams of the endpoint are gone with it.
      have hsift := p₁.unbind_sifted h
      refine hk.shrink hsift.config hsift.thins.queue hsift.thins.size.le fun q hq hmem => ?_
      rw [hsift.queue, mem_filter] at hq
      have hne : ¬ q.source = address := by simpa using hq.right
      rw [hsift.services, vacated, TreeMap.mem_erase, ne_eq, Std.compare_eq_iff_eq]
      exact ⟨fun heq => hne heq.symm, hmem⟩

theorem Change.bounded (h : Change p₁ p₂) (hk : Bounded p₁) : Bounded p₂ := by
  cases h
  case move h => exact h.bounded hk
  case install services =>
    have hsift := p₁.dropAll_sifted (fun _ => true) .configurationChanged
    have hconfig : (p₁.installServices services).config = p₁.config := hsift.config
    refine ⟨Nat.zero_le _, fun _ => Nat.zero_le _, Nat.zero_le _, nofun, ?_⟩
    rw [hconfig]
    exact hk.valid

theorem Bounded.result [Device δ] (h : Bounded s.pool) : Bounded s.result := by
  have ⟨hkeeps, hqueue, hsize⟩ := result_keeps s
  exact h.shrink hkeeps.config hqueue hsize.le fun _ _ => hkeeps.services ▸ id

-- The queue is in the order of the identifiers, which are issued in increasing order.
structure Sorted (p : UdpPool δ) : Prop where
  queue  : p.tx.queue.Pairwise (·.id < ·.id)
  issued : ∀ q ∈ p.tx.queue, q.id < p.nextId

theorem Sorted.requeues (h : Sorted p₁) (hr : Requeues p₁ p₂) : Sorted p₂ := by
  cases hr
  case leaves hqueue hid =>
    exact ⟨h.queue.sublist hqueue, fun q hq => hid ▸ h.issued q (hqueue.subset hq)⟩
  case enters q hqueue hq hid _ =>
    refine ⟨?_, fun e he => ?_⟩
    case refine_1 =>
      rw [hqueue, pairwise_append]
      refine ⟨h.queue, pairwise_singleton .., fun e he e' he' => ?_⟩
      rw [mem_singleton.mp he', hq]
      exact h.issued e he
    case refine_2 =>
      rw [hqueue, mem_append, mem_singleton] at he
      rw [hid]
      rcases he with he | rfl
      case inl => exact Nat.lt_succ_of_lt (h.issued e he)
      case inr => exact hq ▸ Nat.lt_succ_self _

-- Whether the order of two datagrams matters.
def Linked (fair : Bool) (d e : Queued) : Prop :=
  fair = false ∨ d.destination = e.destination

-- A candidate is the first one of the datagrams whose order matters.
theorem candidate_first_linked (h : Sorted p) {index : Fin p.tx.queue.length}
    {blocked : List SocketAddr} (hc : p.tx.candidate p.now p.config.fairQueue blocked = some index)
    {e : Queued} (he : e ∈ p.tx.queue.eraseIdx index)
    (hl : Linked p.config.fairQueue (p.tx.queue.get index) e) :
    (p.tx.queue.get index).id < e.id := by
  obtain ⟨j, hj, hne, rfl⟩ := mem_eraseIdx_iff_getElem.mp he
  have hlt : index.val < j := by
    cases hfair : p.config.fairQueue
    case false =>
      rw [hfair] at hc
      have := Scheduler.candidate_head hc
      omega
    case true =>
      rw [hfair] at hc hl
      have hpeer : (p.tx.queue.get index).destination = p.tx.queue[j].destination :=
        hl.resolve_left (by decide)
      have hready := Scheduler.ready_iff.mp (Scheduler.candidate_ready hc).right
      rw [hpeer] at hready
      have hturn := Scheduler.candidate_first (j := ⟨j, hj⟩) hc (Scheduler.ready_iff.mpr hready)
      have := Scheduler.turn_peer hturn hpeer
      rw [Fin.le_def] at this
      dsimp only at this
      omega
  exact pairwise_iff_getElem.mp h.queue _ _ _ hj hlt

theorem submission_concat [Device δ] (log : List (Selection δ)) (s : Selection δ) :
    (log ++ [s]).filterMap (·.submission) = log.filterMap (·.submission) ++
      s.submission.toList := by
  rw [filterMap_append]
  cases h : s.submission <;> simp [h]

-- Submitted datagrams come before all others whose order matters.
structure InOrder (p : UdpPool δ) (fair : Bool) (submissions : List Submission) : Prop where
  sorted : Sorted p
  config : p.config.fairQueue = fair
  past   : submissions.Pairwise fun d e =>
             Linked fair d.datagram e.datagram → d.datagram.id < e.datagram.id
  queue  : ∀ d ∈ submissions, ∀ e ∈ p.tx.queue,
             Linked fair d.datagram e → d.datagram.id < e.id
  issued : ∀ d ∈ submissions, d.datagram.id < p.nextId

namespace InOrder

variable {fair : Bool} {submissions : List Submission}

theorem requeues (h : InOrder p₁ fair submissions) (hc : p₂.config = p₁.config)
    (hr : Requeues p₁ p₂) : InOrder p₂ fair submissions := by
  refine ⟨h.sorted.requeues hr, hc ▸ h.config, h.past, fun d hd e he hl => ?_, fun d hd => ?_⟩
  all_goals cases hr
  case refine_1.leaves hqueue _ => exact h.queue d hd e (hqueue.subset he) hl
  case refine_1.enters q hqueue hid _ _ =>
    rw [hqueue, mem_append, mem_singleton] at he
    rcases he with he | rfl
    case inl => exact h.queue d hd e he hl
    case inr => exact hid ▸ h.issued d hd
  case refine_2.leaves hid   => exact hid ▸ h.issued d hd
  case refine_2.enters hid _ => exact hid ▸ Nat.lt_succ_of_lt (h.issued d hd)

variable [Device δ]

theorem result {s : Selection δ} (h : InOrder s.pool fair submissions) :
    InOrder s.result fair (submissions ++ s.submission.toList) := by
  have ⟨hkeeps, hqueue, _⟩ := result_keeps s
  have h' := h.requeues hkeeps.config (.leaves hqueue hkeeps.nextId)
  rw [Selection.submission]
  cases hs : s.submitted
  case none =>
    rw [map_none, toList_none, append_nil]
    exact h'
  case some d =>
    obtain ⟨index, hc, rfl, heq⟩ := submitted_cases hs
    have hmem : s.pool.tx.queue.get index ∈ s.pool.tx.queue := get_mem ..
    refine ⟨h'.sorted, h'.config, ?_, fun d hd e he hl => ?_, fun d hd => ?_⟩
    case refine_1 =>
      refine pairwise_append.mpr ⟨h.past, pairwise_singleton .., fun d hd e he hl => ?_⟩
      rw [mem_singleton.mp he] at hl ⊢
      exact h.queue d hd _ hmem hl
    case refine_2 =>
      rcases mem_append.mp hd with hd | hd
      case inl => exact h'.queue d hd e he hl
      rw [mem_singleton.mp hd, ← h.config] at hl
      rw [mem_singleton.mp hd]
      exact candidate_first_linked h.sorted hc (heq ▸ he) hl
    case refine_3 =>
      rcases mem_append.mp hd with hd | hd
      case inl => exact h'.issued d hd
      rw [mem_singleton.mp hd, hkeeps.nextId]
      exact h.sorted.issued _ hmem

theorem trace {log : List (Selection δ)} (h : InOrder p₁ fair [])
    (ht : Trace Change Selects p₁ log p₂) : InOrder p₂ fair (log.filterMap (·.submission)) := by
  induction ht
  case refl            => exact h
  case move hm ih      => exact ih.requeues hm.config hm.requeues
  case emit s _ hs ih =>
    obtain ⟨rfl, _, rfl⟩ := hs
    rw [submission_concat]
    exact ih.result

end InOrder

theorem withConfig_bounded {device : δ} {config : UdpConfig}
    (h : withConfig device config = .ok p) : Bounded p ∧ InOrder p config.fairQueue [] := by
  have ⟨hvalid, hconfig, htx⟩ := withConfig_ok h
  constructor
  case left =>
    refine ⟨?_, fun _ => ?_, ?_, ?_, hconfig ▸ hvalid.perPeerCapacity⟩
    all_goals rw [htx]
    case refine_4 => exact nofun
    all_goals exact Nat.zero_le _
  case right =>
    refine ⟨⟨?_, ?_⟩, hconfig ▸ rfl, .nil, nofun, nofun⟩
    all_goals rw [htx]
    case refine_1 => exact .nil
    case refine_2 => exact nofun

-- The scheduler finds an entry for every queued datagram, and the entry counts it.
structure Balanced (p : UdpPool δ) : Prop extends Bounded p where
  counted : ∀ peer, budgeted p.tx.peers peer = queuedFor p.tx.queue peer
  entries : ∀ q ∈ p.tx.queue, ∃ b, p.tx.peers[q.destination]? = some b ∧ 0 < b.count

theorem Bounded.balanced (h : Bounded p) : Balanced p where
  toBounded  := h
  counted := p.tx.counted
  entries q hq := by
    have hpos : 0 < queuedFor p.tx.queue q.destination := countP_pos_iff.mpr ⟨q, hq, by simp⟩
    rw [← p.tx.counted, budgeted] at hpos
    cases hb : p.tx.peers[q.destination]?
    case none   => simp [hb] at hpos
    case some b => exact ⟨b, rfl, by simpa [hb] using hpos⟩

-- There is no other datagram with an identifier.
structure Sole (p : UdpPool δ) (q : Queued) : Prop where
  issued : q.id < p.nextId
  unique : ∀ e ∈ p.tx.queue, e.id = q.id → e = q

theorem Sole.requeues (h : Sole p₁ q) (hr : Requeues p₁ p₂) : Sole p₂ q := by
  cases hr
  case leaves hqueue hid => exact ⟨hid ▸ h.issued, fun e he => h.unique e (hqueue.subset he)⟩
  case enters d hqueue hd hid _ =>
    refine ⟨hid ▸ Nat.lt_succ_of_lt h.issued, fun e he heq => ?_⟩
    rw [hqueue, mem_append, mem_singleton] at he
    rcases he with he | rfl
    case inl => exact h.unique e he heq
    case inr => exact absurd (heq.symm.trans hd) h.issued.ne

theorem offered_mem (h : s.offered = some q) : q ∈ s.pool.tx.queue := by
  have ⟨index, _, heq⟩ := map_eq_some_iff.mp h
  exact heq ▸ getElem_mem _

-- A datagram that is handed to the device has not expired, and its source is bound.
def Timely (s : Selection δ) (q : Queued) : Prop :=
  (∀ t ∈ q.deadline, s.pool.now < t) ∧ q.source ∈ s.pool.services

-- What holds for the datagram of a send whenever it is handed to the device.
structure Sent (p : UdpPool δ) (source destination : SocketAddr) (options : SendOptions)
    (s : Selection δ) (q : Queued) : Prop where
  source      : q.source = source
  destination : q.destination = destination
  deadline    : ∀ t ∈ options.deadline, s.pool.now < t
  lifetime    : ∀ t ∈ p.config.queueLifetime, s.pool.now < p.now.saturatingAdd t

-- The datagram that a send has queued.
structure Entered (p : UdpPool δ) (source destination : SocketAddr) (options : SendOptions)
    (id : DatagramId) (q : Queued) : Prop where
  id          : q.id = id
  source      : q.source = source
  destination : q.destination = destination
  deadline    : q.deadline =
    (options.deadline.toList ++ (p.config.queueLifetime.map p.now.saturatingAdd).toList).min?

theorem Entered.sent {source destination : SocketAddr} {options : SendOptions} {id : DatagramId}
    (h : Entered p source destination options id q) (hfresh : ∀ t ∈ q.deadline, s.pool.now < t) :
    Sent p source destination options s q := by
  rw [h.deadline] at hfresh
  have hlt {t : Duration} (ht : t ∈ options.deadline.toList ++
      (p.config.queueLifetime.map p.now.saturatingAdd).toList) : s.pool.now < t := by
    have ⟨m, hm, hle⟩ := Duration.exists_min?_le ht
    exact (hfresh m hm).trans_le hle
  refine ⟨h.source, h.destination, fun t ht => ?_, fun t ht => ?_⟩
  case refine_1 => exact hlt (mem_append_left _ (mem_toList.mpr ht))
  case refine_2 =>
    exact hlt (mem_append_right _ (mem_toList.mpr (mem_map_of_mem _ ht)))

theorem enqueue_sole {tx : Scheduler} {device : δ} {frame : PacketBuf}
    {source destination : SocketAddr} {options : SendOptions} {id : DatagramId}
    (hq : tx.queue = p.tx.queue) (h : Sorted p)
    (he : enqueue { p with tx, device } frame source destination options = (p₁, .ok id)) :
    ∃ q, Sole p₁ q ∧ Entered p source destination options id q := by
  rw [enqueue] at he
  split at he
  case isFalse => cases he
  cases he
  let q : Queued := {
    frame
    id         := p.nextId
    source
    destination
    deadline   :=
      (options.deadline.toList ++ (p.config.queueLifetime.map p.now.saturatingAdd).toList).min?
    generation := p.generation
  }
  refine ⟨q, ⟨Nat.lt_succ_self _, fun e he heq => ?_⟩, ⟨rfl, rfl, rfl, rfl⟩⟩
  simp only [Scheduler.push, hq, mem_append, mem_singleton] at he
  rcases he with he | he
  case inl => exact absurd heq (h.issued e he).ne
  case inr => exact he

section

variable [Device δ]

theorem offered_timely {ops : List (Op δ)} (h : Bounded p) :
    ∀ s ∈ p.selections ops, ∀ q, s.offered = some q → Timely s q := by
  refine (p.selections_trace ops).forall_mem h (fun _ _ hc => hc.bounded) ?_
  rintro _ s _ ⟨rfl, hfresh, rfl⟩ hk
  exact ⟨hk.result, fun q hq => ⟨hfresh q (offered_mem hq), hk.bound q (offered_mem hq)⟩⟩

theorem offered_sent {ops : List (Op δ)} {source destination : SocketAddr} {payload : List U8}
    {options : SendOptions} {id : DatagramId} (h : Sorted p)
    (hs : p.sendWithOptions source destination payload options = (p₁, .ok id)) :
    ∀ s ∈ p₁.selections ops, ∀ q, s.offered = some q → q.id = id →
      Sent p source destination options s q := by
  rcases p.sendWithOptions_cases source destination payload options with
    ⟨_, _, heq, _⟩ | ⟨frame, tx, device, hq, heq⟩
  case inl => cases heq.symm.trans hs
  rw [heq] at hs
  have ⟨d, hsole, hd⟩ := enqueue_sole hq h hs
  refine (p₁.selections_trace ops).forall_mem (P := (Sole · d)) hsole ?_ ?_
  case refine_1 => exact fun _ _ hc hsole => hsole.requeues hc.requeues
  rintro _ s _ ⟨rfl, hfresh, rfl⟩ hsole
  have ⟨hkeeps, hqueue, _⟩ := result_keeps s
  refine ⟨hsole.requeues (.leaves hqueue hkeeps.nextId), fun q hoffered hid => ?_⟩
  have hmem := offered_mem hoffered
  obtain rfl := hsole.unique q hmem (hid.trans hd.id.symm)
  exact hd.sent (hfresh q hmem)

-- The books of the scheduler are balanced and within the limits. Datagrams to a peer are submitted
-- in the order in which they were queued, and without the fair order all datagrams are. Each one is
-- handed to the device before its deadline only, and while its source is bound.
theorem queue_bookkeeping {device : δ} {config : UdpConfig} (h : withConfig device config = .ok p)
    (ops : List (Op δ)) :
    Balanced (exec step p ops) ∧
    (∀ peer, ((p.submissions ops).filter (·.datagram.destination = peer)).Pairwise
      (·.datagram.id < ·.datagram.id)) ∧
    (config.fairQueue = false → (p.submissions ops).Pairwise (·.datagram.id < ·.datagram.id)) ∧
    (∀ s ∈ p.selections ops, ∀ q, s.offered = some q → Timely s q) ∧
    ∀ source destination payload options id p₁,
      (exec step p ops).sendWithOptions source destination payload options = (p₁, .ok id) →
      ∀ ops', ∀ s ∈ p₁.selections ops', ∀ q, s.offered = some q → q.id = id →
        Sent (exec step p ops) source destination options s q := by
  have ⟨hbounded, horder⟩ := withConfig_bounded h
  have htrace := p.selections_trace ops
  have hruns := horder.trace htrace
  have hpast := hruns.past
  have hend := htrace.invariant hbounded (fun _ _ hc => hc.bounded) (by
    rintro _ s _ ⟨rfl, _, rfl⟩ hk
    exact hk.result)
  refine ⟨hend.balanced, fun peer => ?_, fun hfifo => ?_, offered_timely hbounded, ?_⟩
  case refine_1 =>
    refine pairwise_filter.mpr (hpast.imp fun hlinked hd he => hlinked (.inr ?_))
    simp only [decide_eq_true_eq] at hd he
    exact hd.trans he.symm
  case refine_2 => exact hpast.imp fun hlinked => hlinked (.inl hfifo)
  case refine_3 => exact fun _ _ _ _ _ _ hs ops' => offered_sent hruns.sorted hs

end

theorem queue_bookkeeping_loopback :
    withConfig (.withCapacity 0 4 4) .default = .ok overLoopback ∧
    (overLoopback.submissions sentAndDropped).map (·.datagram.id) = [1, 2] ∧
    let p := exec step overLoopback sentAndDropped
    p.tx.queue.map (·.id) = [4] ∧ budgeted p.tx.peers ⟨0x0a000003, 9⟩ = 1 ∧ Balanced p := by
  have h : withConfig (.withCapacity 0 4 4) .default = .ok overLoopback := rfl
  exact ⟨h, by decide +kernel, by decide +kernel, by decide +kernel, (queue_bookkeeping h _).left⟩

end UdpPool
