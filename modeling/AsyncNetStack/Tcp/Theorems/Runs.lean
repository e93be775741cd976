import AsyncNetStack.Tcp.Theorems.Receiver

open Serial Tcp List

namespace SendWindow

variable {una sent next : U32} {flights : List Flight}

theorem dropLast_sent (w : SendWindow una sent next flights) :
    ∀ f ∈ flights.dropLast, f.transmissions ≠ 0 := by
  obtain ⟨fs, us, rfl, hl, hs, -, -, -⟩ := w.split
  intro f hf
  rcases us with _ | ⟨u, _ | _⟩
  case nil => exact hs f (dropLast_subset _ (by simpa using hf))
  case cons.nil => exact hs f (by simpa using hf)
  case cons.cons => simp at hl

theorem sent_eq_sequence (w : SendWindow una sent next flights) :
    ∀ f ∈ flights.getLast?, f.transmissions = 0 → sent = f.sequence := by
  intro f hf hu
  obtain ⟨fs, rfl⟩ := List.getLast?_eq_some_iff.mp hf
  obtain ⟨-, -, -, -, -, hq, -⟩ := w.unsent_last (i := fs.length) (by simp) hu
  exact hq.symm

theorem dist_next (w : SendWindow una sent next flights) : Serial.dist una next = sizes flights :=
  w.contiguous.dist_eq (Nat.lt_of_le_of_lt w.span (by decide))

-- All positions of the window are compared by their offsets.
theorem before_exact (w : SendWindow una sent next flights) {x y : Nat}
    (hx : x ≤ Serial.dist una next) (hy : y ≤ Serial.dist una next) :
    before (una + BitVec.ofNat 32 x) (una + BitVec.ofNat 32 y) ↔ x < y := by
  have := w.span
  rw [w.dist_next] at hx hy
  exact before_offsets una (by omega) (by omega)

end SendWindow

namespace Endpoint

variable {cfg : TcpConfig}

-- The representation of the sending side:
-- * The flights are contiguous from `sendUna` to `sendNext`.
-- * Only the last flight may be yet to be sent, and `sendSent` is where it begins.
-- * The span of the flights is so small that serial-number arithmetic is exact on it.
-- * What was acknowledged, is in flight and is queued, in this order, is what was written.
-- * Each emitted segment carries the bytes of the stream at its offset.
-- * None of the subtractions can underflow, no matter which acknowledgment arrives (whether or not
-- it
--   clears the `persist` flags first) and to which length an unsent flight is cut.
structure Represents (cfg : TcpConfig) (e : Endpoint) : Prop where
  contiguous : Contiguous e.conn.sendUna e.conn.flights e.conn.sendNext
  payload    : e.conn.flightPayload = (e.conn.flights.map (·.payload.length)).sum
  sent       : ∀ f ∈ e.conn.flights.dropLast, f.transmissions ≠ 0
  unsent     : ∀ f ∈ e.conn.flights.getLast?, f.transmissions = 0 → e.conn.sendSent = f.sequence
  all_sent   : (∀ f ∈ e.conn.flights.getLast?, f.transmissions ≠ 0) →
    e.conn.sendSent = e.conn.sendNext
  span       : (e.conn.sendNext - e.conn.sendUna).toNat < 2 ^ 16
  exact      : ∀ x y, x ≤ (e.conn.sendNext - e.conn.sendUna).toNat →
    y ≤ (e.conn.sendNext - e.conn.sendUna).toNat →
    (before (e.conn.sendUna + BitVec.ofNat 32 x) (e.conn.sendUna + BitVec.ofNat 32 y) ↔ x < y)
  buffered   : e.conn.sendBuffered ≤ cfg.sendCapacity
  stream     : e.conn.state.isFailure = false →
    e.acked ++ e.conn.flights.flatMap (·.payload) ++ e.conn.queued = e.written
  emitted    : ∀ s ∈ e.emitted, s.payload ≠ [] → ∃ pre, pre ++ s.payload <+: e.written ∧
    s.sequence = e.iss + 1 + BitVec.ofNat 32 pre.length
  no_underflow_acknowledge : ∀ ack now, before e.conn.sendSent ack = false →
    before ack e.conn.sendUna = false →
    ∀ flights ∈ [e.conn.flights, e.conn.flights.map ({ · with persist := false })],
      (Connection.ackFlights ack now .init flights).acknowledgedPayload ≤ e.conn.flightPayload ∧
      (Connection.ackFlights ack now .init flights).early = false
  no_underflow_trim : ∀ now (i : Nat) (f : Flight) n,
    (e.conn.prepare now cfg).flights[i]? = some f →
    f.transmissions = 0 → n ≤ f.payload.length →
    ((e.conn.prepare now cfg).sendNext -
      ({ f with payload := f.payload.take n } : Flight).end).toNat ≤
      (e.conn.prepare now cfg).flightPayload

-- A run in which a client opens a connection and three bytes are written, but not yet sent.
def client : Opening :=
  .active { ip := 0x0a000001, port := 1000 } { ip := 0x0a000002, port := 80 } 7 .zero

def fromServer (flags : U8) (sequence acknowledgment : U32) (payload : List U8) : Segment where
  source         := { ip := 0x0a000002, port := 80 }
  destination    := { ip := 0x0a000001, port := 1000 }
  sequence       := sequence
  acknowledgment := acknowledgment
  flags          := flags
  window         := 1000
  mss            := none
  payload        := payload

def threeBytes : List Op := [
  .call (.transmit .zero .accepted),
  .input (fromServer (SYN ||| ACK) 500 8 []) .zero,
  .call (.transmit .zero .accepted),
  .call (.write [1, 2, 3])
]

theorem sender_representation (h : cfg.rejected = false) (o : Opening) (ops : List Op) :
    Represents cfg (run cfg o ops) := by
  have hv := TcpConfig.Valid.of_not_rejected h
  have hs := (History.run hv o ops).sender
  generalize run cfg o ops = e at hs
  have hi := hs.inv
  have hw := hi.window
  exact {
    contiguous := hw.contiguous
    payload    := by simpa [Connection.outstanding, length_flatMap] using hi.payload
    sent       := hw.dropLast_sent
    unsent     := hw.sent_eq_sequence
    all_sent h := (hw.sent_eq_next h).left
    span       := Nat.lt_of_le_of_lt (hw.dist_next ▸ hw.span) (by decide)
    exact x y hx hy := hw.before_exact hx hy
    buffered   := hi.buffered
    stream     := hs.stream
    emitted s hm := (hs.emitted s hm).data
    no_underflow_acknowledge := by
      intro ack now h₁ h₂ flights hf
      rcases mem_pair.mp hf with rfl | rfl
      · exact Connection.ackFlights_bounds hi.toCore hi.phase.proper h₁ h₂ now
      · have hr := e.conn.clearPersist_retimed cfg
        exact Connection.ackFlights_bounds (hr.core hi.toCore) (hr.inv hi).phase.proper h₁ h₂ now
    no_underflow_trim := by
      intro now i f n hf hu hn
      have hp := Connection.prepare_inv hv hi now
      refine (Nat.le_of_eq (Connection.removed_eq hp.toCore hf hu hn f.persist)).trans ?_
      obtain ⟨l, r, hlr⟩ := append_of_mem (mem_of_getElem? hf)
      rw [hp.payload, Connection.outstanding, hlr]
      simp only [flatMap_append, flatMap_cons, length_append]
      omega
  }

theorem sender_representation_threeBytes :
    (run .default client threeBytes).written = [1, 2, 3] ∧
    Represents .default (run .default client threeBytes) :=
  ⟨by decide, sender_representation TcpConfig.default_not_rejected client threeBytes⟩

-- A flight other than a SYN is submitted for the first time only if both windows leave room for it,
-- or as a probe of a closed window, which is a single byte of data.
theorem first_submission {c c' : Connection} {f : Flight} {i : Nat} {now : Duration}
    (hv : cfg.Valid) (hi : c.Inv cfg) (ht : c.state.isTerminal = false)
    (hst : c.stage now cfg = (c', some i)) (hf : c'.flights[i]? = some f)
    (hu : f.transmissions = 0) (hs : has f.flags SYN = false) :
    (c.transmitted now cfg .accepted).fst.bytesInFlight ≤
      min (c.transmitted now cfg .accepted).fst.cwnd
        (c.transmitted now cfg .accepted).fst.peerWindow.toNat ∨
    ((c.transmitted now cfg .accepted).fst.peerWindow = 0 ∧ c'.bytesInFlight = 0 ∧
      f.payload.length = 1 ∧ has f.flags FIN = false) := by
  have hc : (c.stage now cfg).fst = c' := congrArg Prod.fst hst
  have hi' : c'.Inv cfg := hc ▸ Connection.stage_inv hv hi now
  have hprop := hi'.phase.proper f (mem_of_getElem? hf)
  obtain ⟨g, hg, hroom⟩ := Connection.stage_flight hv hi hst
  obtain rfl : f = g := Option.some.inj (hf.symm.trans hg)
  have hem : c.emission now cfg = some (c'.outgoing (some i) cfg) := by
    simp [Connection.emission, ht, hst]
  have htr := (Connection.transmitted_accepted hem).right
  rw [hst] at htr
  rw [htr, Connection.record_some, Connection.recordFlight_first hi'.toCore hprop hf hu]
  -- Everything has been sent now, which is what was in flight before and this flight.
  have hb : (c'.sendNext - c'.sendUna).toNat = f.size + c'.bytesInFlight := by
    obtain ⟨fs, hfl, -, -, hcont, -, -⟩ := hi'.window.unsent_last hf hu
    have hspan := hi'.window.span
    have hd := hi'.window.dist_next
    rw [hfl, sizes_append, sizes_cons, sizes_nil] at hd hspan
    have hd' : c'.bytesInFlight = sizes fs := hcont.dist_eq (by omega)
    rw [hd']
    exact hd.trans (by omega)
  refine (hroom hu hs).imp (fun h => ?_) id
  exact Nat.le_trans (Nat.le_of_eq hb) h

theorem send_window_discipline (h : cfg.rejected = false) (o : Opening) (ops : List Op) :
    (∀ now c' i f, (run cfg o ops).conn.state.isTerminal = false →
      (run cfg o ops).conn.stage now cfg = (c', some i) → c'.flights[i]? = some f →
      f.transmissions = 0 → has f.flags SYN = false →
      ((run cfg o ops).conn.transmitted now cfg .accepted).fst.bytesInFlight ≤
        min ((run cfg o ops).conn.transmitted now cfg .accepted).fst.cwnd
          ((run cfg o ops).conn.transmitted now cfg .accepted).fst.peerWindow.toNat ∨
      (((run cfg o ops).conn.transmitted now cfg .accepted).fst.peerWindow = 0 ∧
        c'.bytesInFlight = 0 ∧ f.payload.length = 1 ∧ has f.flags FIN = false)) ∧
    (∀ s ∈ (run cfg o ops).emitted,
      s.payload.length ≤ min cfg.mss.toNat (max (run cfg o ops).conn.peerMss.toNat 1) ∧
      (Wire.encode s).length ≤ cfg.mtu) ∧
    (run cfg o ops).conn.flights.length ≤ cfg.maxInflightSegments ∧
    1 ≤ (run cfg o ops).conn.cwnd ∧ (run cfg o ops).conn.cwnd ≤ cfg.maxCwndBytes ∧
    (cfg.initialRto ≤ (run cfg o ops).conn.rto ∧ (run cfg o ops).conn.rto ≤ cfg.maxRto) ∧
    (∀ f ∈ (run cfg o ops).conn.flights, cfg.initialRto ≤ f.rto ∧ f.rto ≤ cfg.maxRto) := by
  have hv := TcpConfig.Valid.of_not_rejected h
  have hs := (History.run hv o ops).sender
  have hl := hs.inv.limits
  refine ⟨fun now c' i f ht hst hf hu hn => first_submission hv hs.inv ht hst hf hu hn, ?_,
    hs.inv.count, hl.cwnd_pos, hl.cwnd_le, hl.rto, hl.flights⟩
  exact fun s hm => ⟨(hs.emitted s hm).mss, (hs.emitted s hm).mtu⟩

theorem send_window_discipline_threeBytes :
    ((run .default client threeBytes).conn.transmitted .zero .default .accepted).fst.bytesInFlight ≤
      min ((run .default client threeBytes).conn.transmitted .zero .default .accepted).fst.cwnd
        ((run .default client threeBytes).conn.transmitted .zero .default
          .accepted).fst.peerWindow.toNat := by
  have h := (send_window_discipline TcpConfig.default_not_rejected client threeBytes).left .zero
    ((run .default client threeBytes).conn.stage .zero .default).fst 0 {
      sequence      := 8
      flags         := ACK ||| PSH
      payload       := [1, 2, 3]
      created       := .zero
      lastSent      := none
      transmissions := 0
      rto           := .fromSecs 1
      persist       := false
      rttEligible   := true
    } (by decide) (Prod.ext rfl (by decide)) (by decide) rfl (by decide)
  exact h.resolve_right (by decide)

theorem receive_window_promise (h : cfg.rejected = false) (o : Opening) (ops : List Op) :
    (run cfg o ops).conn.received.length ≤ cfg.receiveCapacity ∧
    (∀ op, (run cfg o ops).rightEdge cfg ≤ ((run cfg o ops).step cfg op).rightEdge cfg) ∧
    ((run cfg o ops).conn.state.isFailure = false → (run cfg o ops).conn.state ≠ .synSent →
      (run cfg o ops).conn.receiveNext +
          ((run cfg o ops).conn.advertisedWindow cfg).setWidth 32 =
        (run cfg o ops).irs + 1 + BitVec.ofNat 32 ((run cfg o ops).rightEdge cfg)) ∧
    (∀ segment now promised,
      (run cfg o ops).conn.state ∈ [.established, .finWait1, .finWait2] →
      segment.sequence = (run cfg o ops).conn.receiveNext →
      has segment.flags ACK → has segment.flags SYN = false → has segment.flags RST = false →
      before (run cfg o ops).conn.sendSent segment.acknowledgment = false →
      (run cfg o ops).promised = some promised →
      (run cfg o ops).receiveOffset + segment.payload.length ≤ promised →
      (run cfg o ops).conn.peerEof = false ∧
      ((run cfg o ops).conn.input segment now cfg).received =
        (run cfg o ops).conn.received ++ segment.payload ∧
      ((run cfg o ops).conn.input segment now cfg).receiveNext = (run cfg o ops).conn.receiveNext +
        BitVec.ofNat 32 (segment.payload.length +
          ((run cfg o ops).conn.input segment now cfg).peerEof.toNat)) := by
  have hv := TcpConfig.Valid.of_not_rejected h
  have hh := History.run hv o ops
  generalize run cfg o ops = e at hh
  have hi := hh.sender.inv
  refine ⟨hi.received, fun op => (hh.receiver.step hv hi op).edge, fun hf hs => ?_, ?_⟩
  · rw [hh.receiver.next hf hs, rightEdge, BitVec.ofNat_add, BitVec.add_assoc,
      BitVec.ofNat_toNat]
  · intro segment now promised hst hq ha hsyn hrst hack hp hl
    have hr : e.conn.state.isReceiving ∧ e.conn.state.isFailure = false ∧
        e.conn.state.peerClosed = false := by
      cases hst' : e.conn.state <;> simp_all [TcpState.isReceiving, TcpState.isFailure,
        TcpState.peerClosed]
    have hfit : segment.payload.length ≤ (e.conn.advertisedWindow cfg).toNat := by
      have := hl.trans (hh.promised promised hp)
      rw [rightEdge] at this
      omega
    exact ⟨(hi.closing.eof hr.right.left).trans hr.right.right,
      Connection.input_in_order hv hi hr.left hq ha hsyn hrst hack hfit now⟩

theorem receive_window_promise_threeBytes :
    ((run .default client threeBytes).conn.input (fromServer ACK 501 8 [4, 5]) .zero
      .default).received = [] ++ [4, 5] :=
  ((receive_window_promise TcpConfig.default_not_rejected client threeBytes).right.right.right
    (fromServer ACK 501 8 [4, 5]) .zero 16384 (by decide) (by decide) (by decide) (by decide)
    (by decide) (by decide) (by decide) (by decide)).right.left

theorem close_phase_consistent (h : cfg.rejected = false) (o : Opening) (ops : List Op) :
    ((run cfg o ops).conn.state ∉ [.reset, .timedOut, .failed] →
      ((run cfg o ops).conn.peerEof ↔
        (run cfg o ops).conn.state ∈ [.closeWait, .closing, .lastAck, .timeWait, .closed]) ∧
      ((run cfg o ops).conn.state ∈
          [.finWait1, .finWait2, .closing, .lastAck, .timeWait, .closed] →
        (run cfg o ops).conn.writeClosed) ∧
      ((run cfg o ops).conn.state ∈ [.finWait1, .closing, .lastAck] →
        (run cfg o ops).conn.queued = [] ∧
        ∃ f, (run cfg o ops).conn.flights = [f] ∧ f.flags = FIN ||| ACK ∧ f.payload = []) ∧
      ((run cfg o ops).conn.state ∈ [.finWait2, .timeWait, .closed] →
        (run cfg o ops).conn.queued = [] ∧ (run cfg o ops).conn.flights = [] ∧
        (run cfg o ops).conn.sendUna = (run cfg o ops).conn.sendNext) ∧
      ((run cfg o ops).conn.state ∈ [.synSent, .synReceived] →
        (run cfg o ops).conn.queued = [] ∧
        ∃ f, (run cfg o ops).conn.flights = [f] ∧ has f.flags SYN ∧ f.payload = []) ∧
      ((run cfg o ops).conn.phaseDeadline.isSome ↔
        (run cfg o ops).conn.state ∈ [.synSent, .synReceived, .timeWait]) ∧
      ((run cfg o ops).conn.closeDeadline.isSome ↔
        (run cfg o ops).conn.writeClosed ∧ (run cfg o ops).conn.state ≠ .timeWait ∧
        (run cfg o ops).conn.state.isTerminal = false)) ∧
    (∀ s ∈ (run cfg o ops).emitted, has s.flags FIN →
      (run cfg o ops).acked = (run cfg o ops).written ∧ (run cfg o ops).conn.queued = [] ∧
      (run cfg o ops).conn.writeClosed) := by
  have hv := TcpConfig.Valid.of_not_rejected h
  have hs := (History.run hv o ops).sender
  generalize run cfg o ops = e at hs
  refine ⟨fun hf => ?_, fun s hm hfin => ?_⟩
  case refine_2 =>
    obtain ⟨-, hc, ha, hq, -⟩ := (hs.emitted s hm).fin hfin
    exact ⟨ha, hq, hs.closed ▸ hc⟩
  case refine_1 =>
    have hf : e.conn.state.isFailure = false := by
      cases hst : e.conn.state <;> simp_all [TcpState.isFailure]
    have hp := hs.inv.phase
    have hc := hs.inv.window.contiguous
    obtain ⟨he, hw, hpd, hcd⟩ := hs.inv.closing
    refine ⟨?peerEof, ?writeClosed, ?fin, ?done, ?syn, ?phaseDeadline, ?closeDeadline⟩
    case peerEof =>
      rw [he hf]
      cases e.conn.state <;> simp [TcpState.peerClosed]
    case writeClosed =>
      refine fun hm => hw ?_
      cases hst : e.conn.state <;> simp_all [TcpState.finQueued]
    case fin =>
      intro hm
      simp only [mem_cons, not_mem_nil, or_false] at hm
      rcases hm with hm | hm | hm
      all_goals
        rw [hm] at hp
        obtain ⟨hq, f, hf, hfin⟩ := hp
        exact ⟨hq, f, hf, hfin.flags, hfin.payload⟩
    case done =>
      intro hm
      simp only [mem_cons, not_mem_nil, or_false] at hm
      rcases hm with hm | hm | hm
      all_goals
        rw [hm] at hp
        exact ⟨hp.left, hp.right, by simpa [hp.right] using hc⟩
    case syn =>
      intro hm
      simp only [mem_cons, not_mem_nil, or_false] at hm
      rcases hm with hm | hm
      all_goals
        rw [hm] at hp
        obtain ⟨hq, f, hf, hsyn, -⟩ := hp
        exact ⟨hq, f, hf, hsyn.has_syn, hsyn.payload⟩
    case phaseDeadline =>
      rw [hpd]
      cases e.conn.state <;> simp [TcpState.isTimed]
    case closeDeadline =>
      rw [hcd]
      cases e.conn.state <;> simp [TcpState.isOver, TcpState.isTerminal]

theorem close_phase_consistent_threeBytes :
    (run .default client (threeBytes ++ [.call (.close .zero)])).conn.closeDeadline.isSome := by
  have h := close_phase_consistent TcpConfig.default_not_rejected client
    (threeBytes ++ [.call (.close .zero)])
  obtain ⟨-, -, -, -, -, -, hd⟩ := h.left (by decide)
  exact hd.mpr (by decide)

end Endpoint
