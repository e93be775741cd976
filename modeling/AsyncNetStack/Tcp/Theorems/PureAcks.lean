import AsyncNetStack.Tcp.Theorems.Pair
import AsyncNetStack.Tcp.Theorems.Runs

open Serial Tcp

namespace Tcp

-- An acknowledgment that carries nothing else.
structure Segment.IsPureAck (g : Segment) : Prop where
  payload : g.payload = []
  ack     : has g.flags ACK
  syn     : has g.flags SYN = false
  fin     : has g.flags FIN = false
  rst     : has g.flags RST = false

instance (g : Segment) : Decidable g.IsPureAck :=
  decidable_of_iff (g.payload = [] ∧ has g.flags ACK ∧ has g.flags SYN = false ∧
    has g.flags FIN = false ∧ has g.flags RST = false)
    ⟨fun ⟨h₁, h₂, h₃, h₄, h₅⟩ => ⟨h₁, h₂, h₃, h₄, h₅⟩,
      fun ⟨h₁, h₂, h₃, h₄, h₅⟩ => ⟨h₁, h₂, h₃, h₄, h₅⟩⟩

theorem Segment.IsPureAck.sequenceLen_eq {g : Segment} (h : g.IsPureAck) : g.sequenceLen = 0 := by
  simp [Segment.sequenceLen, seqLen, h.payload, h.syn, h.fin]

theorem Segment.IsPureAck.not_syn {g : Segment} (h : g.IsPureAck) :
    (g.flags &&& (SYN ||| ACK ||| RST) == SYN) = false := by
  have hsyn := h.syn
  have hmask : (SYN ||| ACK ||| RST) &&& SYN = SYN := by decide
  simp only [has, bne_eq_false_iff_eq] at hsyn
  rw [beq_eq_false_iff_ne]
  intro he
  have := congrArg (· &&& SYN) he
  simp only [BitVec.and_assoc, hmask, hsyn] at this
  exact absurd this (by decide)

end Tcp

namespace Connection

variable {cfg : TcpConfig} {c : Connection} {g : Segment} {now : Duration}

-- A pure acknowledgment that gets past the checks is processed, and nothing else happens.
theorem input_pureAck (hg : g.IsPureAck) (ht : c.state.isTerminal = false)
    (hs : c.state.isHandshake = false) (hw : c.state ≠ .timeWait) (ha : c.acceptable g cfg)
    (hb : before c.sendSent g.acknowledgment = false) :
    c.input g now cfg = c.acknowledge g now cfg := by
  have hne : c.state ≠ .synSent ∧ c.state ≠ .synReceived := by
    constructor <;> intro h <;> simp [h, TcpState.isHandshake] at hs
  have hdata (c : Connection) : c.receiveData g now cfg = c := receiveData_nothing hg.payload hg.fin
  rw [input, if_neg (by simp [ht]), if_neg hne.left, if_neg hw, if_neg (by simp [hne.right]),
    if_neg (by simp [ha]), if_neg (by simp [hg.rst]), if_neg (by simp [hg.syn]),
    if_neg (by simp [hg.ack]), if_neg (by simp [hb]), if_neg (by simp [hne.right])]
  simp only [hne.right, if_false, hdata, ite_self]

-- An acknowledgment is no reason for another one.
theorem acknowledge_ackPending (hv : cfg.Valid) (hc : c.Core cfg) (hp : ∀ f ∈ c.flights, f.Proper)
    (hb : before c.sendSent g.acknowledgment = false) (now : Duration)
    (h : c.ackPending = false) : (c.acknowledge g now cfg).ackPending = false := by
  rcases acknowledge_cases hv hc hp hb now with ⟨hr, -⟩ | ⟨c', flags, ha, he⟩
  case inl =>
    rw [hr.frame]
    exact h
  have hc' : c'.ackPending = false := by
    rw [ha.frame]
    exact h
  rw [he]
  split
  case isFalse => exact hc'
  unfold finAcknowledged
  split
  case h_3 => rfl
  all_goals exact hc'

theorem acceptable_next (hg : g.IsPureAck) (hq : g.sequence = c.receiveNext) :
    c.acceptable g cfg := by
  simp [acceptable, hg.sequenceLen_eq, hq]

-- Except in TIME-WAIT, a pure acknowledgment in order is not answered.
theorem input_ackPending (hv : cfg.Valid) (hi : c.Inv cfg) (hs : c.state ≠ .synSent)
    (hw : c.state ≠ .timeWait) (hg : g.IsPureAck) (hq : g.sequence = c.receiveNext)
    (hb : before c.sendSent g.acknowledgment = false) (now : Duration) (h : c.ackPending = false) :
    (c.input g now cfg).ackPending = false := by
  cases ht : c.state.isTerminal
  case true => rwa [input, if_pos ht]
  case false =>
  have ha : c.acceptable g cfg := acceptable_next hg hq
  by_cases hr : c.state = .synReceived
  case neg =>
    have hh : c.state.isHandshake = false := by
      cases hst : c.state <;> simp_all [TcpState.isHandshake]
    rw [input_pureAck hg ht hh hw ha hb]
    exact acknowledge_ackPending hv hi.toCore hi.phase.proper hb now h
  case pos =>
    have hest := acknowledge_ackPending (c := c.establish) hv { hi.toCore with } hi.phase.proper hb
      now h
    have hdata (c : Connection) : c.receiveData g now cfg = c :=
      receiveData_nothing hg.payload hg.fin
    rw [input, if_neg (by simp [ht]), if_neg hs, if_neg hw, if_neg (by simp [hg.not_syn]),
      if_neg (by simp [ha]), if_neg (by simp [hg.rst]), if_neg (by simp [hg.syn]),
      if_neg (by simp [hg.ack]), if_neg (by simp [hb])]
    split
    case isTrue => exact h
    simp only [hdata, ite_self]
    exact hest

-- In TIME-WAIT, everything but a reset is answered.
theorem input_timeWait (hs : c.state = .timeWait) (hr : has g.flags RST = false) :
    (c.input g now cfg).ackPending = true := by
  rw [input, if_neg (by rw [hs]; decide), if_neg (by rw [hs]; decide), if_pos hs,
    if_neg (by simp [hr])]
  split <;> rfl

end Connection

namespace Endpoint

variable {cfg : TcpConfig}

theorem pure_ack_unanswered (h : cfg.rejected = false) (o : Opening) (ops : List Op)
    {c : Connection} (hc : (run cfg o ops).conn = c) (hs : c.state ≠ .synSent) {g : Segment}
    (hg : g.IsPureAck) (hq : g.sequence = c.receiveNext)
    (hack : dist c.sendUna g.acknowledgment ≤ dist c.sendUna c.sendSent) (now : Duration)
    (hp : c.ackPending = false) : (c.input g now cfg).ackPending = false ↔ c.state ≠ .timeWait := by
  have hv := TcpConfig.Valid.of_not_rejected h
  have hi : c.Inv cfg := hc ▸ (History.run hv o ops).sender.inv
  refine ⟨fun ha hw => ?_, fun hw => ?_⟩
  · simp [Connection.input_timeWait hw hg.rst] at ha
  apply Connection.input_ackPending hv hi hs hw hg hq ?_ now hp
  have ⟨n, hn, hsent, hd⟩ := hi.window.sent_eq
  rw [hd] at hack
  rw [hsent, ← add_dist c.sendUna g.acknowledgment]
  exact (not_before_offsets _ (by omega) (by omega)).mpr hack

theorem pure_ack_unanswered_threeBytes :
    (run .default client threeBytes).conn.state = .established ∧
    ((run .default client threeBytes).conn.input (fromServer ACK 501 8 []) .zero
      .default).ackPending = false :=
  ⟨by decide, (pure_ack_unanswered TcpConfig.default_not_rejected client threeBytes rfl (by decide)
    (by decide) (by decide) (by decide) .zero (by decide)).mpr (by decide)⟩

end Endpoint

namespace Pair

-- Both ends close at the same time, and each FIN is acknowledged.
def simultaneousClose : Pair :=
  run ⟨.default, .default⟩ { ip := 0x0a000001, port := 1000 } { ip := 0x0a000002, port := 80 }
    7 .zero [
    .call .active (.transmit .zero .accepted),
    .accept 0 500 .zero,
    .call .passive (.transmit .zero .accepted),
    .deliver .active 0 .zero,
    .call .active (.transmit .zero .accepted),
    .deliver .passive 1 .zero,
    .call .active (.close .zero),
    .call .passive (.close .zero),
    .call .active (.transmit .zero .accepted),
    .call .passive (.transmit .zero .accepted),
    .deliver .active 1 .zero,
    .deliver .passive 2 .zero,
    .call .active (.transmit .zero .accepted),
    .call .passive (.transmit .zero .accepted),
    .deliver .active 2 .zero,
    .deliver .passive 3 .zero
  ]

-- The last acknowledgment arrives once more, is answered, and the answer is answered.
def bounce (p : Pair) : Pair :=
  Transition.exec (step ⟨.default, .default⟩) p [
    .deliver .active 2 .zero,
    .call .active (.transmit .zero .accepted),
    .deliver .passive 4 .zero,
    .call .passive (.transmit .zero .accepted)
  ]

def lastAck : Segment where
  source         := { ip := 0x0a000002, port := 80 }
  destination    := { ip := 0x0a000001, port := 1000 }
  sequence       := 502
  acknowledgment := 9
  flags          := ACK
  window         := 16384
  mss            := none
  payload        := []

-- In TIME-WAIT, a pure acknowledgment in order is answered. If both ends are in this state, then
-- they are where they were after each round, and the next acknowledgment is on its way already.
theorem pure_ack_answered_timeWait :
    simultaneousClose.active.conn.state = .timeWait ∧
    simultaneousClose.passive.map (·.conn.state) = some .timeWait ∧
    simultaneousClose.passive.bind (·.emitted[2]?) = some lastAck ∧
    lastAck.IsPureAck ∧
    lastAck.sequence = simultaneousClose.active.conn.receiveNext ∧
    lastAck.acknowledgment = simultaneousClose.active.conn.sendUna ∧
    simultaneousClose.active.conn.ackPending = false ∧
    (simultaneousClose.active.conn.input lastAck .zero .default).ackPending = true ∧
    (bounce simultaneousClose).active.conn = simultaneousClose.active.conn ∧
    (bounce simultaneousClose).passive.map (·.conn) = simultaneousClose.passive.map (·.conn) ∧
    (bounce simultaneousClose).passive.bind (·.emitted[3]?) = some lastAck := by
  decide +kernel

end Pair
