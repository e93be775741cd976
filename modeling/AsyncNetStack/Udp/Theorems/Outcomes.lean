import AsyncNetStack.Device.Loopback
import AsyncNetStack.Lib.Ledger
import AsyncNetStack.Udp.Theorems.Moves

open Udp Fallible Transition List

namespace UdpOutcome

def isDropped : UdpOutcome → Bool
  | .dropped _ => true
  | _          => false

def isSubmitted : UdpOutcome → Bool
  | .submitted => true
  | _          => false

end UdpOutcome

namespace UdpPool

variable {δ η : Type} {p q p₁ p₂ p₃ : UdpPool δ}
variable {tx : Scheduler} {device : δ} {frame : PacketBuf}

-- Every datagram that was given an identifier is queued or has a single outcome, and outcomes are
-- counted.
structure Booked (p : UdpPool δ) : Prop where
  ledger    : Ledger.Sound p.nextId (p.tx.queue.map (·.id)) (p.outcomes.map Prod.fst)
  submitted : p.stats.submitted = p.outcomes.countP (·.snd.isSubmitted)
  dropped   : p.stats.dropped = p.outcomes.countP (·.snd.isDropped)
  terminal  : ∀ o ∈ p.outcomes, o.snd.isSubmitted ∨ o.snd.isDropped

-- Pools with the same datagrams.
structure Same (p₁ p₂ : UdpPool δ) : Prop where
  nextId    : p₂.nextId = p₁.nextId
  queue     : p₂.tx.queue = p₁.tx.queue
  outcomes  : p₂.outcomes = p₁.outcomes
  submitted : p₂.stats.submitted = p₁.stats.submitted
  dropped   : p₂.stats.dropped = p₁.stats.dropped

namespace Same

theorem refl (p : UdpPool δ) : Same p p :=
  ⟨rfl, rfl, rfl, rfl, rfl⟩

theorem trans (h₁ : Same p₁ p₂) (h₂ : Same p₂ p₃) : Same p₁ p₃ where
  nextId    := h₂.nextId.trans h₁.nextId
  queue     := h₂.queue.trans h₁.queue
  outcomes  := h₂.outcomes.trans h₁.outcomes
  submitted := h₂.submitted.trans h₁.submitted
  dropped   := h₂.dropped.trans h₁.dropped

theorem of_aside (h : Aside p₁ p₂) : Same p₁ p₂ :=
  ⟨h.nextId, h.tx ▸ rfl, h.outcomes, h.submitted, h.dropped⟩

theorem booked (h : Same p₁ p₂) (hb : Booked p₁) : Booked p₂ where
  ledger    := by rw [h.nextId, h.queue, h.outcomes]; exact hb.ledger
  submitted := by rw [h.submitted, h.outcomes]; exact hb.submitted
  dropped   := by rw [h.dropped, h.outcomes]; exact hb.dropped
  terminal  := by rw [h.outcomes]; exact hb.terminal

end Same

-- What an operation does to the books: they stay in order, and no outcome is revoked.
structure Books (p₁ p₂ : UdpPool δ) : Prop where
  booked : Booked p₁ → Booked p₂
  grows  : p₁.outcomes <+: p₂.outcomes

namespace Books

theorem of_same (h : Same p₁ p₂) : Books p₁ p₂ :=
  ⟨h.booked, h.outcomes ▸ prefix_rfl⟩

theorem refl (p : UdpPool δ) : Books p p :=
  .of_same (.refl p)

theorem trans (h₁ : Books p₁ p₂) (h₂ : Books p₂ p₃) : Books p₁ p₃ :=
  ⟨fun h => h₂.booked (h₁.booked h), h₁.grows.trans h₂.grows⟩

end Books

-- A datagram has left the queue with an outcome.
structure Finished (p₁ : UdpPool δ) (id : DatagramId) (outcome : UdpOutcome) (p₂ : UdpPool δ) :
    Prop where
  nextId    : p₂.nextId = p₁.nextId
  queue     : p₂.tx.queue = p₁.tx.queue
  outcomes  : p₂.outcomes = p₁.outcomes ++ [(id, outcome)]
  submitted : p₂.stats.submitted = p₁.stats.submitted
  dropped   : p₂.stats.dropped = p₁.stats.dropped + if outcome.isDropped then 1 else 0

theorem finish_finished (p : UdpPool δ) (q : Queued) (outcome : UdpOutcome) :
    Finished p q.id outcome (p.finish q outcome) := by
  cases outcome
  all_goals
    unfold finish
    exact {
      nextId    := (event_aside ..).nextId
      queue     := (Same.of_aside (event_aside ..)).queue
      outcomes  := (event_aside ..).outcomes
      submitted := (event_aside ..).submitted
      dropped   := (event_aside ..).dropped
    }

theorem Booked.leave (hb : Booked p) (index : Fin p.tx.queue.length) {outcome : UdpOutcome}
    {counted : Nat} (ho : outcome.isSubmitted ∨ outcome.isDropped)
    (hq : tx.queue = p.tx.queue.eraseIdx index)
    (h : Finished { p with tx } (p.tx.queue.get index).id outcome p₁)
    (hs : counted = p₁.stats.submitted + if outcome.isSubmitted then 1 else 0) :
    Booked { p₁ with stats := { p₁.stats with submitted := counted } } where
  ledger := by
    have hperm := (getElem_cons_eraseIdx_perm index.isLt).symm.map (·.id)
    simp only [h.nextId, h.queue, hq, h.outcomes, map_append]
    exact hb.ledger.close hperm (perm_append_singleton ..)
  submitted := by
    simp only [hs, h.submitted, h.outcomes, countP_append, hb.submitted, countP_singleton]
  dropped := by
    simp only [h.dropped, h.outcomes, countP_append, hb.dropped, countP_singleton]
  terminal o hmem := by
    simp only [h.outcomes, mem_append, mem_singleton] at hmem
    rcases hmem with hmem | rfl
    case inl => exact hb.terminal o hmem
    case inr => exact ho

variable (p)

theorem drop_books (index : Fin p.tx.queue.length) (reason : UdpFailure) :
    Books p (p.drop index reason) := by
  have h := finish_finished { p with tx := (p.tx.remove index).fst } (p.tx.queue.get index)
    (.dropped reason)
  exact ⟨fun hb => hb.leave index (.inr rfl) rfl h rfl, h.outcomes ▸ prefix_append ..⟩

theorem submit_books (index : Fin p.tx.queue.length) : Books p (p.submit index) := by
  let tx :=
    p.tx.accepted (p.tx.queue.get index).destination (p.tx.queue.get index).frame.len p.now p.config
  have h := finish_finished { p with tx := (tx.remove index).fst } (p.tx.queue.get index) .submitted
  exact ⟨fun hb => hb.leave index (.inl rfl) rfl h rfl, h.outcomes ▸ prefix_append ..⟩

theorem dropWhere_books (cond : Queued → Bool) (reason : UdpFailure) (i rounds : Nat) :
    Books p (p.dropWhere cond reason i rounds) := by
  induction rounds generalizing p i
  case zero => exact .refl p
  case succ rounds ih =>
    rw [dropWhere]
    split
    case isFalse => exact .refl p
    case isTrue h =>
      split
      case isTrue  => exact (p.drop_books ⟨i, h⟩ reason).trans (ih _ i)
      case isFalse => exact ih p (i + 1)

theorem dropAll_books (cond : Queued → Bool) (reason : UdpFailure) :
    Books p (p.dropAll cond reason) :=
  p.dropWhere_books cond reason 0 _

theorem advance_books (now : Duration) : Books p (p.advance now).fst := by
  rw [advance]
  split
  case isTrue => exact .refl p
  have h : Same p { p with now } := ⟨rfl, rfl, rfl, rfl, rfl⟩
  exact (Books.of_same h).trans (dropAll_books ..)

theorem unbind_books (address : SocketAddr) : Books p (p.unbind address).fst := by
  rw [unbind]
  split
  case isFalse => exact .refl p
  have h : Same p { p with
      services   := p.services.erase address
      generation := p.generation + 1
      peers      := ∅ } := ⟨rfl, rfl, rfl, rfl, rfl⟩
  exact (Books.of_same h).trans (dropAll_books ..)

theorem dropAll_queue (reason : UdpFailure) : (p.dropAll (fun _ => true) reason).tx.queue = [] := by
  rw [(p.dropAll_sifted ..).queue]
  exact filter_false _

theorem installServices_books (services : Std.TreeMap SocketAddr U32) :
    Books p (p.installServices services) := by
  have h : Same (p.dropAll (fun _ => true) .configurationChanged) (p.installServices services) :=
    ⟨rfl, (p.dropAll_queue _).symm, rfl, rfl, rfl⟩
  exact (p.dropAll_books ..).trans (.of_same h)

theorem bind_books (service : Service) : Books p (p.bind service).fst := by
  rw [bind]
  split
  case h_1 => exact .refl p
  split
  case isTrue => exact .refl p
  split
  case isTrue  => exact .refl p
  case isFalse => exact .of_same ⟨rfl, rfl, rfl, rfl, rfl⟩

theorem admission_eq (source destination : SocketAddr) (options : SendOptions) :
    ∃ tx, tx.queue = p.tx.queue ∧ (p.admission source destination options).fst = { p with tx } := by
  rcases p.admission_cases source destination options with ⟨_, h⟩ | ⟨_, h⟩ | ⟨h, _⟩
  all_goals rw [h]
  case inl     => exact ⟨p.tx, rfl, rfl⟩
  case inr.inl => exact ⟨p.tx.retain p.now, rfl, rfl⟩
  case inr.inr => exact ⟨p.tx.retain p.now, rfl, rfl⟩

theorem enqueue_books (frame : PacketBuf) (source destination : SocketAddr)
    (options : SendOptions) : Books p (p.enqueue frame source destination options).fst := by
  rw [enqueue]
  split
  case isFalse => exact .refl p
  refine ⟨fun hb => ⟨?_, hb.submitted, hb.dropped, hb.terminal⟩, prefix_rfl⟩
  refine hb.ledger.issue ?_
  simp only [Scheduler.push, map_append]
  exact perm_append_singleton ..

theorem event_rejected (ev : UdpEvent) : (p.event ev).stats.rejected = p.stats.rejected := by
  rw [event]
  split
  case isTrue  => rfl
  case isFalse => split <;> rfl

variable {p}

-- A refused send is counted once, and no datagram is affected.
structure Refused (p₁ p₂ : UdpPool δ) : Prop where
  same     : Same p₁ p₂
  counts   : ∀ peer, budgeted p₂.tx.peers peer = budgeted p₁.tx.peers peer
  rejected : p₂.stats.rejected = p₁.stats.rejected + 1

theorem Refused.of_same (h : Same p₁ p₂) (hr : p₂.stats.rejected = p₁.stats.rejected + 1) :
    Refused p₁ p₂ :=
  ⟨h, fun peer => by rw [p₂.tx.counted, p₁.tx.counted, h.queue], hr⟩

-- The scheduler and the device may have changed before.
theorem rejected_refused (hq : tx.queue = p.tx.queue) {drops : Nat}
    {source destination : SocketAddr} {reason : UdpFailure} :
    Refused p (rejected { p with tx, device, stats := { p.stats with responseDrops := drops } }
      source destination reason) := by
  have h : Same p { p with tx, device, stats := { p.stats with responseDrops := drops } } :=
    ⟨rfl, hq, rfl, rfl, rfl⟩
  exact .of_same (h.trans (.of_aside (rejected_aside ..))) (event_rejected ..)

-- Like a send, the echo of a received datagram is refused by the checks or queued.
theorem echo_cases (p : UdpPool δ) {d : Datagram} (hd : Wire.parseIpv4 frame.asSlice = .ok d) :
    (∃ p', p.echo d frame = (p', .ok ()) ∧ Refused p p') ∨
    ∃ answer tx, tx.queue = p.tx.queue ∧
      (p.echo d frame).fst = (enqueue { p with tx } answer d.destination d.source {}).fst := by
  have ⟨tx, hq, heq⟩ := p.admission_eq d.destination d.source {}
  rw [echo]
  revert heq
  obtain ⟨p', r⟩ := p.admission d.destination d.source {}
  rintro rfl
  cases r
  case error reason => exact .inl ⟨_, rfl, rejected_refused hq⟩
  have hreply := Responder.respond_parsed hd
  dsimp only [Responder.serving] at hreply ⊢
  rw [hreply]
  exact .inr ⟨_, tx, hq, rfl⟩

theorem Work.books (h : Work p₁ p₂) : Books p₁ p₂ := by
  cases h
  case advance now => exact p₁.advance_books now
  case load h =>
    cases h
    case aside h => exact .of_same (.of_aside h)
    case retain  => exact .of_same ⟨rfl, rfl, rfl, rfl, rfl⟩
    case enqueue => exact p₁.enqueue_books ..

theorem Change.books (h : Change p₁ p₂) : Books p₁ p₂ := by
  cases h
  case install services => exact p₁.installServices_books services
  case move h =>
    cases h
    case work h         => exact h.books
    case bind service   => exact p₁.bind_books service
    case unbind address => exact p₁.unbind_books address

section

variable [Device δ]

-- A datagram is refused, or queued after all checks have been passed.
theorem sendWithOptions_cases (p : UdpPool δ) (source destination : SocketAddr) (payload : List U8)
    (options : SendOptions) :
    (∃ err p', p.sendWithOptions source destination payload options = (p', .error err) ∧
      Refused p p') ∨
    ∃ frame tx device, tx.queue = p.tx.queue ∧
      p.sendWithOptions source destination payload options =
        enqueue { p with tx, device } frame source destination options := by
  have ⟨tx, hq, heq⟩ := p.admission_eq source destination options
  rw [sendWithOptions]
  revert heq
  obtain ⟨p', r⟩ := p.admission source destination options
  rintro rfl
  cases r
  case error reason => exact .inl ⟨_, _, rfl, rejected_refused hq⟩
  dsimp only
  obtain ⟨device, frame⟩ := Device.alloc p.device
  cases frame
  case none => exact .inl ⟨_, _, rfl, rejected_refused hq⟩
  case some frame =>
    dsimp only
    split
    case h_1 => exact .inl ⟨_, _, rfl, rejected_refused hq⟩
    case h_2 => exact .inr ⟨_, tx, device, hq, rfl⟩

theorem result_books (s : Selection δ) : Books s.pool s.result := by
  have hdevice (device : δ) := Books.of_same (.of_aside (s.pool.device_aside device))
  have h := selected s
  generalize s.result = p at h
  generalize s.submitted = o at h
  cases h
  case idle h => exact .of_same (.of_aside h)
  case submitted device index _ hp =>
    rw [hp]
    exact (hdevice device).trans (submit_books { s.pool with device } index)
  case discarded device index reason _ hp =>
    rw [hp]
    exact (hdevice device).trans (drop_books { s.pool with device } index reason)

theorem step_books (p : UdpPool δ) (op : Op δ) : Books p (p.step op) := by
  refine (p.step_changes op).relate (.refl p) (fun _ _ => .trans) (fun _ _ => Change.books) ?_
  rintro _ s _ ⟨rfl, _, rfl⟩
  exact result_books s

end

-- The datagram whose submission failed is still queued.
def Retained [Device δ] (p : UdpPool δ) (err : IoError) : Prop :=
  ∃ q ∈ p.tx.queue, ∃ d : δ, Device.send d [q.frame] = (p.device, .error err)

theorem flushRounds_retained [LawfulDevice δ] {p p' : UdpPool δ} {blockedPeers : List SocketAddr}
    {accepted rounds : Nat} {err : IoError}
    (h : p.flushRounds blockedPeers accepted rounds = (p', .error err)) : Retained p' err := by
  induction rounds generalizing p blockedPeers accepted
  case zero => cases h
  case succ rounds ih =>
    rw [flushRounds] at h
    split at h
    case h_1 => cases h
    rename_i index _
    have ha := p.attempt_attempted index
    revert ha h
    generalize p.attempt index = o
    intro h ha
    cases ha
    case accepted  => exact ih h
    case blocked   => exact ih h
    case discarded => exact ih h
    case failed device err hsend =>
      cases h
      exact ⟨p.tx.queue.get index, get_mem .., p.device, hsend⟩
    case beyond device n hn hsend =>
      have := LawfulDevice.send_le hsend
      simp only [length_singleton] at this
      omega

theorem flush_retained [LawfulDevice δ] {p p' : UdpPool δ} {err : IoError}
    (h : p.flush = (p', .error err)) : Retained p' err := by
  rw [flush, advance, if_neg (lt_irrefl _), andThen_ok] at h
  exact flushRounds_retained h

-- The identifiers that were issued, their outcomes and the statistics agree.
structure Accounts [Device δ] (p : UdpPool δ) : Prop where
  issued   : p.nextId - 1 = p.stats.submitted + p.stats.dropped + p.pending
  once     : (p.tx.queue.map (·.id) ++ p.outcomes.map Prod.fst).Perm (List.range' 1 (p.nextId - 1))
  terminal : ∀ o ∈ p.outcomes, o.snd.isSubmitted ∨ o.snd.isDropped
  final    : ∀ op, p.outcomes <+: (p.step op).outcomes

theorem countP_terminal {outcomes : List (DatagramId × UdpOutcome)}
    (h : ∀ o ∈ outcomes, o.snd.isSubmitted ∨ o.snd.isDropped) :
    outcomes.length =
      outcomes.countP (·.snd.isSubmitted) + outcomes.countP (·.snd.isDropped) := by
  induction outcomes
  case nil => rfl
  case cons o outcomes ih =>
    simp only [mem_cons, forall_eq_or_imp] at h
    have := ih h.right
    obtain ⟨_, outcome⟩ := o
    cases outcome <;> simp_all [UdpOutcome.isSubmitted, UdpOutcome.isDropped] <;> omega

theorem Booked.accounts [Device δ] (h : Booked p) : Accounts p where
  issued := by
    have := h.ledger.count
    rw [length_map, length_map, countP_terminal h.terminal] at this
    rw [pending, h.submitted, h.dropped]
    omega
  once     := h.ledger.perm
  terminal := h.terminal
  final op := (p.step_books op).grows

theorem withConfig_booked {config : UdpConfig} (h : withConfig device config = .ok p) :
    Booked p := by
  rw [withConfig] at h
  split at h <;> cases h
  exact ⟨.empty, rfl, rfl, forall_mem_nil _⟩

-- Every attempt to queue a datagram gets the next identifier or is refused, as long as there are
-- any identifiers left.
def Queues (p : UdpPool δ) (o : UdpPool δ × IoResult DatagramId) : Prop :=
  match o.snd with
  | .ok id   => id = p.nextId ∧ o.fst.nextId = p.nextId + 1 ∧
    o.fst.stats.rejected = p.stats.rejected
  | .error _ => Refused p o.fst ∨ p.nextId + 1 ≥ 2 ^ 64

theorem enqueue_queues {source destination : SocketAddr} {options : SendOptions} :
    Queues p (enqueue { p with tx, device } frame source destination options) := by
  rw [enqueue]
  split
  case isTrue    => exact ⟨rfl, rfl, rfl⟩
  case isFalse h => exact .inr (not_lt.mp h)

theorem sendWithOptions_queues [Device δ] (p : UdpPool δ) (source destination : SocketAddr)
    (payload : List U8) (options : SendOptions) :
    Queues p (p.sendWithOptions source destination payload options) := by
  rcases p.sendWithOptions_cases source destination payload options with
    ⟨_, _, heq, h⟩ | ⟨frame, tx, device, hq, heq⟩
  case inl =>
    rw [heq]
    exact .inl h
  rw [heq]
  exact enqueue_queues

-- An echo is a send, too. A refusal is not an error for it.
theorem echo_queues (p : UdpPool δ) {d : Datagram} (hd : Wire.parseIpv4 frame.asSlice = .ok d) :
    Refused p (p.echo d frame).fst ∨ (p.echo d frame).fst.nextId = p.nextId + 1 ∨
      p.nextId + 1 ≥ 2 ^ 64 := by
  rcases p.echo_cases hd with ⟨_, heq, h⟩ | ⟨answer, tx, hq, heq⟩
  case inl =>
    rw [heq]
    exact .inl h
  rw [heq, enqueue]
  split
  case isTrue    => exact .inr (.inl rfl)
  case isFalse h => exact .inr (.inr (not_lt.mp h))

theorem exec_booked [Device δ] (h : Booked p) (ops : List (Op δ)) : Booked (exec step p ops) :=
  exec_induction h fun p op => (p.step_books op).booked

-- Whatever the operations and the device do, each identifier that is issued gets one outcome, when
-- its datagram leaves the queue. Refused sends are counted and change nothing else, and a datagram
-- whose submission fails stays in the queue.
theorem datagram_outcomes_conserved [LawfulDevice δ] {config : UdpConfig}
    (h : withConfig device config = .ok p) (ops : List (Op δ)) :
    Accounts (exec step p ops) ∧
    (∀ (p : UdpPool δ) source destination payload options,
      Queues p (p.sendWithOptions source destination payload options)) ∧
    (∀ (p : UdpPool δ) (d : Datagram) (frame : PacketBuf), Wire.parseIpv4 frame.asSlice = .ok d →
      Refused p (p.echo d frame).fst ∨ (p.echo d frame).fst.nextId = p.nextId + 1 ∨
        p.nextId + 1 ≥ 2 ^ 64) ∧
    ∀ (p p' : UdpPool δ) (err : IoError), p.flush = (p', .error err) → Retained p' err :=
  ⟨(exec_booked (withConfig_booked h) ops).accounts, sendWithOptions_queues,
    fun p _ _ => p.echo_queues, fun _ _ _ => flush_retained⟩

def overLoopback : UdpPool LoopbackDevice where
  device     := .withCapacity 0 4 4
  services   := ∅
  peers      := ∅
  tx         := .new
  config     := .default
  events     := []
  nextId     := 1
  generation := 0
  now        := .zero
  stats      := {}
  outcomes   := []

-- Two datagrams are submitted, the third one is dropped with its source, and the last one waits.
def sentAndDropped : List (Op LoopbackDevice) := [
  .bind { address := ⟨0x0a000001, 7⟩, id := 1 },
  .send ⟨0x0a000001, 7⟩ ⟨0x0a000002, 9⟩ [1] {},
  .send ⟨0x0a000001, 7⟩ ⟨0x0a000003, 9⟩ [2] {},
  .flush,
  .send ⟨0x0a000001, 7⟩ ⟨0x0a000002, 9⟩ [3] {},
  .unbind ⟨0x0a000001, 7⟩,
  .bind { address := ⟨0x0a000001, 8⟩, id := 2 },
  .send ⟨0x0a000001, 8⟩ ⟨0x0a000003, 9⟩ [4] {}
]

theorem datagram_outcomes_conserved_loopback :
    withConfig (.withCapacity 0 4 4) .default = .ok overLoopback ∧
    let p := exec step overLoopback sentAndDropped
    p.outcomes = [(1, .submitted), (2, .submitted), (3, .dropped .configurationChanged)] ∧
    p.pending = 1 ∧ Accounts p := by
  have h : withConfig (.withCapacity 0 4 4) .default = .ok overLoopback := rfl
  exact ⟨h, by decide +kernel, by decide +kernel, (datagram_outcomes_conserved h _).left⟩

end UdpPool
