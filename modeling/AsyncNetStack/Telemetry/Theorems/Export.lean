import AsyncNetStack.Telemetry.Theorems.Collector

open Transition BitVec

namespace Telemetry

namespace Phase

def batches : Phase → List (List TcpEvent)
  | .sending _ batches => batches
  | _                  => []

-- The loop has seen that it has to stop.
def stopping : Phase → Bool
  | .loaded stopping | .sending stopping _ => stopping
  | .finished                              => true
  | _                                      => false

-- The records have been taken for the last time.
def last : Phase → Bool
  | .sending stopping _ => stopping
  | .finished           => true
  | _                   => false

theorem stopping_of_last {phase : Phase} (h : phase.last) : phase.stopping := by
  cases phase <;> first | exact h | cases h

end Phase

namespace Exporter

variable {x : Exporter} {records batch : List TcpEvent} {due stopping : Bool}

-- A batch that the collector accepts.
structure Sendable (batch : List TcpEvent) : Prop where
  length : batch.length ≤ batchSize
  fits   : ∀ event ∈ batch, Event.Fits event

theorem flatten_batches (records : List TcpEvent) (due stopping : Bool) :
    (batches records due stopping).flatten = records := by
  rw [batches, List.flatten_append, Slice.flatten_chunks (by decide)]
  split <;> rfl

theorem length_batch (h : batch ∈ batches records due stopping) : batch.length ≤ batchSize := by
  rcases List.mem_append.mp h with h | h
  case inr => exact (Slice.length_chunk (by decide) h).right
  have hnil : batch = [] := by
    revert h
    split <;> simp
  rw [hnil]
  exact Nat.zero_le _

theorem batches_sendable (hr : ∀ event ∈ records, Event.Fits event)
    (h : batch ∈ batches records due stopping) : Sendable batch := by
  refine ⟨length_batch h, fun event he => hr event ?_⟩
  rw [← flatten_batches records due stopping]
  exact List.mem_flatten_of_mem h he

-- Events that were accepted and not yet sent.
def waiting (x : Exporter) : List TcpEvent :=
  x.phase.batches.flatten ++ x.records

structure Valid (x : Exporter) : Prop where
  records : ∀ event ∈ x.records, Event.Fits event
  batches : ∀ batch ∈ x.phase.batches, Sendable batch
  running : x.phase ≠ .panicked
  stopped : x.phase.stopping → x.stopped
  drained : x.phase.last → x.records = []

theorem start_valid (capacity : Nat) (session : Vector U8 8) : (start capacity session).Valid where
  records := by simp [start]
  batches := by simp [start, Phase.batches]
  running := nofun
  stopped := nofun
  drained := nofun

-- The datagram with this sequence number arrives as what it was made of.
structure Datagram.Agrees (session : Vector U8 8) (sequence : U64) (d : Datagram) : Prop where
  sequence : d.sequence = sequence
  length   : d.batch.length ≤ batchSize
  collect  : Collector.collect d.bytes =
    some (some (reported session d.sequence d.counters d.batch))

-- What happens to the events in a part of a run.
structure Balances (x : Exporter) (accepted : List TcpEvent) (written : List Datagram)
    (y : Exporter) : Prop where
  valid    : y.Valid
  events   : written.flatMap (·.batch) ++ y.waiting = x.waiting ++ accepted
  sequence : y.sequence = x.sequence + .ofNat 64 written.length
  session  : y.session = x.session
  agrees   : ∀ (i : Nat) (d : Datagram), written[i]? = some d →
              d.Agrees x.session (x.sequence + .ofNat 64 i)

theorem Balances.refl (h : x.Valid) : x.Balances [] [] x where
  valid    := h
  events   := (List.append_nil _).symm
  sequence := (add_zero _).symm
  session  := rfl
  agrees   := by simp

theorem Balances.trans {y z : Exporter} {accepted accepted' : List TcpEvent}
    {written written' : List Datagram} (h₁ : x.Balances accepted written y)
    (h₂ : y.Balances accepted' written' z) :
    x.Balances (accepted ++ accepted') (written ++ written') z where
  valid  := h₂.valid
  events := by
    calc (written ++ written').flatMap (·.batch) ++ z.waiting
      _ = written.flatMap (·.batch) ++ (written'.flatMap (·.batch) ++ z.waiting) := by
        rw [List.flatMap_append, List.append_assoc]
      _ = written.flatMap (·.batch) ++ y.waiting ++ accepted' := by
        rw [h₂.events, List.append_assoc]
      _ = x.waiting ++ (accepted ++ accepted') := by rw [h₁.events, List.append_assoc]
  sequence := by
    rw [h₂.sequence, h₁.sequence, List.length_append, ofNat_add, add_assoc]
  session := h₂.session.trans h₁.session
  agrees i d hd := by
    rw [List.getElem?_append] at hd
    split at hd
    case isTrue => exact h₁.agrees i d hd
    case isFalse hi =>
      have h := h₂.agrees _ d hd
      rwa [h₁.session, h₁.sequence, add_assoc, ← ofNat_add,
        Nat.add_sub_cancel' (Nat.le_of_not_lt hi)] at h

theorem record_balances (h : x.Valid) (hs : x.stopped = false) {event : TcpEvent}
    (hf : Event.Fits event) (contended : Bool) :
    x.Balances (if (x.record event contended).snd then [event] else []) []
      (x.record event contended).fst := by
  have hlast : x.phase.last = false := by
    rw [← Bool.not_eq_true]
    intro hl
    rw [h.stopped (Phase.stopping_of_last hl)] at hs
    cases hs
  rw [record]
  split
  case isFalse => exact { Balances.refl h with valid := { h with } }
  exact {
    valid := { h with
      records := fun e he => (List.mem_append.mp he).elim (h.records e)
        fun he => List.mem_singleton.mp he ▸ hf
      drained := fun hl => absurd hl (by simp [hlast]) }
    events   := by simp [waiting]
    sequence := (add_zero _).symm
    session  := rfl
    agrees   := by simp }

theorem swap_balances (h : x.Valid) (hphase : x.phase = .loaded stopping) (due : Bool) :
    x.Balances [] [] (x.swap due stopping) where
  valid := {
    records := by simp [swap]
    batches := fun batch hb => batches_sendable h.records hb
    running := nofun
    stopped := fun hs => h.stopped (by rw [hphase]; exact hs)
    drained := fun _ => rfl }
  events := by
    simp only [waiting, swap, hphase, Phase.batches, List.flatMap_nil, List.nil_append,
      List.flatten_nil, List.append_nil]
    exact flatten_batches ..
  sequence := (add_zero _).symm
  session  := rfl
  agrees   := by simp

theorem send_balances (h : x.Valid) {rest : List (List TcpEvent)}
    (hphase : x.phase = .sending stopping (batch :: rest)) (result : IoResult Nat) :
    x.Balances [] ((datagram x.session x.sequence x.counters batch).map fun bytes =>
      (⟨x.sequence, x.counters, batch, bytes⟩ : Datagram)).toList
        (x.send stopping batch rest result) := by
  have hmem {b : List TcpEvent} (hb : b ∈ batch :: rest) : b ∈ x.phase.batches := by
    rw [hphase]
    exact hb
  have hbatch := h.batches batch (hmem (.head _))
  have ⟨data, hdata, hcollect⟩ :=
    collect_datagram hbatch.length hbatch.fits x.session x.sequence x.counters
  have hvalid (counters : Counters) :
      Valid { x with sequence := x.sequence + 1, phase := .sending stopping rest, counters } := {
    records := h.records
    batches := fun b hb => h.batches b (hmem (.tail _ hb))
    running := nofun
    stopped := fun hs => h.stopped (by rw [hphase]; exact hs)
    drained := fun hl => h.drained (by rw [hphase]; exact hl) }
  have hbalances (counters : Counters) : x.Balances [] [⟨x.sequence, x.counters, batch, data⟩]
      { x with sequence := x.sequence + 1, phase := .sending stopping rest, counters } := {
    valid    := hvalid counters
    events   := by
      simp only [waiting, hphase, Phase.batches, List.flatMap_cons, List.flatMap_nil,
        List.append_nil, List.flatten_cons, List.append_assoc]
    sequence := by simp
    session  := rfl
    agrees   := fun i d hd => by
      obtain ⟨rfl, rfl⟩ : i = 0 ∧ _ = d := by simpa [List.getElem?_singleton] using hd
      exact ⟨(add_zero _).symm, hbatch.length, hcollect⟩ }
  unfold send
  rw [hdata]
  dsimp only
  split
  case isTrue  => exact hbalances x.counters
  case isFalse => exact hbalances _

-- The loop proceeds without taking or sending any records.
theorem Valid.goto (h : x.Valid) {phase : Phase} (hb : phase.batches = x.phase.batches)
    (hp : phase ≠ .panicked) (hs : phase.stopping → x.stopped) (hl : phase.last → x.records = []) :
    x.Balances [] [] { x with phase } where
  valid    := { h with batches := hb ▸ h.batches, running := hp, stopped := hs, drained := hl }
  events   := by simp [waiting, hb]
  sequence := (add_zero _).symm
  session  := rfl
  agrees   := by simp

theorem step_balances (h : x.Valid) (op : Op) :
    x.Balances (x.accepted op) (x.written op) (x.step op) := by
  cases op
  case record event fits contended =>
    dsimp only [accepted, written, step]
    cases hs : x.stopped
    case true  => exact .refl h
    case false => exact record_balances h hs fits contended
  case progress sourceOverwrites =>
    dsimp only [accepted, written, step]
    split
    case isTrue  => exact .refl h
    case isFalse => exact { Balances.refl h with valid := { h with } }
  case stop => exact { Balances.refl h with valid := { h with stopped := fun _ => rfl } }
  case load =>
    dsimp only [accepted, written, step]
    cases hp : x.phase
    case parked => exact h.goto (by rw [hp]; rfl) nofun id nofun
    all_goals exact .refl h
  case swap due =>
    dsimp only [accepted, written, step]
    cases hp : x.phase
    case loaded stopping => exact swap_balances h hp due
    all_goals exact .refl h
  case send result =>
    dsimp only [accepted, written, step]
    cases hp : x.phase
    case sending stopping batches =>
      cases batches
      case nil             => exact .refl h
      case cons batch rest => exact send_balances h hp result
    all_goals exact .refl h
  case park =>
    dsimp only [accepted, written, step]
    cases hp : x.phase
    case sending stopping batches =>
      cases batches
      case cons => exact .refl h
      case nil =>
        cases stopping
        case false => exact h.goto (by rw [hp]; rfl) nofun nofun nofun
        case true =>
          exact h.goto (by rw [hp]; rfl) nofun (fun _ => h.stopped (by rw [hp]; rfl))
            fun _ => h.drained (by rw [hp]; rfl)
    all_goals exact .refl h

theorem exec_balances (h : x.Valid) (ops : List Op) :
    x.Balances (logs step accepted x ops) (logs step written x ops) (exec step x ops) := by
  induction ops generalizing x
  case nil => exact .refl h
  case cons op ops ih =>
    have hop := step_balances h op
    exact hop.trans (ih hop.valid)

theorem Valid.waiting_eq_nil (h : x.Valid) (hp : x.phase = .finished) : x.waiting = [] := by
  rw [waiting, hp, h.drained (by rw [hp]; rfl)]
  rfl

end Exporter

open Exporter

-- The exporter and the collector agree on the format of datagrams, and all events that were
-- accepted are in one of them sooner or later.
theorem collector_agrees :
    (∀ (session : Vector U8 8) (sequence : U64) (counters : Counters) (events : List TcpEvent),
      events.length ≤ batchSize → (∀ event ∈ events, Event.Fits event) →
      ∃ data, datagram session sequence counters events = some data ∧
        Collector.collect data = some (some (reported session sequence counters events)) ∧
        be64 (.ofNat 64 (reported session sequence counters events).session) = session.toList) ∧
    (∀ records : List TcpEvent, (Slice.chunks batchSize records).flatten = records ∧
      ∀ batch ∈ Slice.chunks batchSize records, batch ≠ [] ∧ batch.length ≤ batchSize) ∧
    ∀ (capacity : Nat) (session : Vector U8 8) (ops : List Exporter.Op),
      let x := exec step (start capacity session) ops
      let log := logs step written (start capacity session) ops
      log.flatMap (·.batch) ++ x.waiting = logs step accepted (start capacity session) ops ∧
      (∀ (i : Nat) (d : Datagram), log[i]? = some d → d.Agrees session (.ofNat 64 i)) ∧
      (x.phase = .finished → x.waiting = []) := by
  refine ⟨fun session sequence counters events h hf => ?_, fun records => ?_,
    fun capacity session ops => ?_⟩
  case refine_1 =>
    have ⟨data, hdata, hcollect⟩ := collect_datagram h hf session sequence counters
    exact ⟨data, hdata, hcollect, be64_number (Vector.length_toList ..)⟩
  case refine_2 =>
    exact ⟨Slice.flatten_chunks (by decide) records, fun batch => Slice.length_chunk (by decide)⟩
  case refine_3 =>
    have h := exec_balances (start_valid capacity session) ops
    refine ⟨h.events, fun i d hd => ?_, h.valid.waiting_eq_nil⟩
    have hd := h.agrees i d hd
    have hzero : (start capacity session).sequence + .ofNat 64 i = .ofNat 64 i := zero_add _
    rwa [hzero] at hd

def closedEvent : TcpEvent where
  time       := .fromSecs 1
  connection := 7
  status     := {
    localAddr       := ⟨0x0a000001, 80⟩
    remoteAddr      := ⟨0x0a000002, 4000⟩
    state           := .timeWait
    sendBuffered    := 1
    receiveBuffered := 2
    flow            := {
      advertisedWindow       := 3
      peerWindow             := 4
      congestionWindow       := 5
      slowStartThreshold     := 6
      bytesInFlight          := 7
      outstandingSegments    := 8
      retransmissionTimeout  := .fromMillis 200
      timeoutRetransmissions := 9
      wait                   := .closing }
    localError      := none }

theorem closedEvent_fits : Event.Fits closedEvent := by
  constructor <;> decide

-- Eleven events are sent in two datagrams.
theorem collector_agrees_eleven :
    (Slice.chunks batchSize (List.replicate 11 closedEvent)).map List.length = [10, 1] ∧
    (shown closedEvent).remoteAddr = "10.0.0.2:4000" ∧
    ∃ data, datagram (Vector.replicate 8 1) 5 .zero [closedEvent] = some data ∧
      Collector.collect data =
        some (some (reported (Vector.replicate 8 1) 5 .zero [closedEvent])) := by
  refine ⟨by decide +kernel, by decide +kernel, ?_⟩
  have ⟨data, hdata, hcollect, _⟩ :=
    collector_agrees.left (Vector.replicate 8 1) 5 .zero [closedEvent]
    (by decide) fun event he => List.mem_singleton.mp he ▸ closedEvent_fits
  exact ⟨data, hdata, hcollect⟩

end Telemetry
