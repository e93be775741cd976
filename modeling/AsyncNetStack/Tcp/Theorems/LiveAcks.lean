import AsyncNetStack.Tcp.Theorems.PureAcks
import AsyncNetStack.Tcp.Theorems.Reset

open Serial Tcp List Option BitVec Bool

namespace TcpState

-- The states in which the handshake is over and segments of the peer are still processed in full.
def isLive : TcpState → Bool
  | established | finWait1 | finWait2 | closeWait | closing | lastAck => true
  | _                                                                 => false

variable {s : TcpState}

theorem isLive_cases (h : s.isLive) : s.isFailure = false ∧ s.isTerminal = false ∧
    s.isHandshake = false ∧ s ≠ .synSent ∧ s ≠ .timeWait := by
  cases s <;> simp_all [isLive, isFailure, isTerminal, isHandshake]

end TcpState

-- The number of sequence numbers which a segment occupies.
def Tcp.Segment.size (g : Segment) : Nat :=
  g.payload.length + (has g.flags SYN).toNat + (has g.flags FIN).toNat

namespace SendWindow

variable {una sent next : U32} {flights : List Flight} {f : Flight}

-- A flight that was sent lies between `una` and `sent`.
theorem sent_offset (w : SendWindow una sent next flights) (hm : f ∈ flights)
    (hf : f.transmissions ≠ 0) :
    ∃ n, f.sequence = una + BitVec.ofNat 32 n ∧ n + f.size ≤ dist una sent := by
  have ⟨fs, us, hfl, _, _, hu, h, _⟩ := w.split
  have hspan := w.span
  subst hfl
  have hm : f ∈ fs := (mem_append.mp hm).resolve_right fun h => hf (hu f h)
  have ⟨l, r, hlr⟩ := append_of_mem hm
  subst hlr
  have ⟨m, hl, hseq, _⟩ := Contiguous.append_iff.mp h
  refine ⟨sizes l, hseq.trans hl.eq_add, ?_⟩
  rw [h.dist_eq (by simp only [sizes_append] at hspan ⊢; omega)]
  simp only [sizes_append, sizes_cons]
  omega

end SendWindow

namespace Endpoint

variable {cfg : TcpConfig} {e e' : Endpoint} {n : Nat}

-- Exactly the first `n` sequence numbers of an end have been submitted, counted from its SYN on.
structure Submitted (e : Endpoint) (n : Nat) : Prop where
  sent    : e.conn.sendSent = e.iss + BitVec.ofNat 32 n
  le      : n ≤ 1 + e.written.length + e.closed.toNat
  emitted : ∀ g ∈ e.emitted, 0 < g.size →
    ∃ k, g.sequence = e.iss + BitVec.ofNat 32 k ∧ k + g.size ≤ n

namespace Submitted

theorem «open» (cfg : TcpConfig) (o : Opening) : Submitted (.open cfg o) 0 where
  sent    := by cases o <;> exact (add_zero _).symm
  le      := Nat.zero_le _
  emitted := by cases o <;> exact fun _ h => absurd h not_mem_nil

-- An operation that submits nothing.
theorem kept (h : Submitted e n) (hs : e'.conn.sendSent = e.conn.sendSent) (hi : e'.iss = e.iss)
    (hw : e.written.length ≤ e'.written.length) (hc : e.closed → e'.closed)
    (hm : ∀ g ∈ e'.emitted, g ∈ e.emitted ∨ g.size = 0) : Submitted e' n where
  sent         := by rw [hs, hi, h.sent]
  le           := by
    have hl := h.le
    have hc' : e.closed.toNat ≤ e'.closed.toNat := toNat_le_toNat hc
    omega
  emitted g hg hz := by
    rw [hi]
    apply h.emitted g ((hm g hg).resolve_right (Nat.ne_of_gt hz)) hz

theorem input (h : Submitted e n) (hv : cfg.Valid) (hi : e.conn.Inv cfg) (g : Segment)
    (now : Duration) : Submitted (e.input g now cfg) n := by
  have hs := Connection.input_sent hv hi g now
  unfold Endpoint.input
  dsimp only
  split
  all_goals exact h.kept hs rfl (Nat.le_refl _) id fun _ => .inl

-- The position of a flight that was sent, counted from the SYN on.
theorem flight_offset (h : Submitted e n) (hs : Sender cfg e) (hf : e.conn.state.isFailure = false)
    (hw : e.written.length < 2 ^ 31) {f : Flight} (hm : f ∈ e.conn.flights)
    (hu : f.transmissions ≠ 0) :
    ∃ k, f.sequence = e.iss + BitVec.ofNat 32 k ∧ k + f.size ≤ n := by
  have ⟨j, hj, hle⟩ := hs.inv.window.sent_offset hm hu
  have ⟨m, hm, hsent, hd⟩ := hs.inv.window.sent_eq
  have huna := hs.una hf
  have hacked := hs.acked.length_le
  have hn := h.le
  have hc := e.closed.toNat_le
  have hcontrol : e.conn.state.controlAcked ≤ 2 := by
    cases e.conn.state <;> simp [TcpState.controlAcked]
  generalize hsum : e.conn.state.controlAcked + e.acked.length = u at huna
  have heq : n = u + m := by
    apply offset_inj e.iss (by omega) (by omega)
    rw [← h.sent, hsent, huna, ofNat_add, add_assoc]
  refine ⟨u + j, ?_, by omega⟩
  rw [hj, huna, ofNat_add, add_assoc]

-- A flight that is sent for the first time continues what was submitted.
theorem first (h : Submitted e n) (hs : Sender cfg e) (hf : e.conn.state.isFailure = false)
    (hw : e.written.length < 2 ^ 31) {f : Flight} {i : Nat} (hi : e.conn.flights[i]? = some f)
    (hu : f.transmissions = 0) :
    f.sequence = e.iss + BitVec.ofNat 32 n ∧
    e.conn.sendNext = e.iss + BitVec.ofNat 32 (n + f.size) ∧
    n + f.size ≤ 1 + e.written.length + e.closed.toNat := by
  have ⟨fs, hfl, _, _, _, hseq, hend⟩ := hs.inv.window.unsent_last hi hu
  have hnext : e.conn.sendNext = e.iss + BitVec.ofNat 32 (n + f.size) := by
    rw [← hend, f.end_eq, hseq, h.sent, ofNat_add, add_assoc]
  refine ⟨hseq.trans h.sent, hnext, ?_⟩
  have hpos := (Sender.next_iff hs.inv hf).mp (hs.una hf)
  have hstream := congrArg List.length (hs.stream hf)
  simp only [length_append] at hstream
  have hspan := hs.inv.window.span
  simp only [hfl, sizes_append, sizes_cons] at hspan
  have hn := h.le
  have hc := e.closed.toNat_le
  have hfin : e.conn.state.finQueued.toNat ≤ e.closed.toNat := by
    apply toNat_le_toNat
    rw [hs.closed]
    exact hs.inv.closing.closed
  have heq := offset_inj e.iss (by omega) (by omega) (hnext.symm.trans hpos)
  omega

-- The submission of a segment.
theorem recorded (h : Submitted e n) (hv : cfg.Valid) (hs : Sender cfg e)
    (hf : e.conn.state.isFailure = false) (hw : e.written.length < 2 ^ 31) {index : Option Nat}
    (hx : e.conn.Indexed index) (now : Duration) (promised : Option Nat) :
    ∃ n' ≥ n, Submitted {
      e with
      conn    := (e.conn.record index now cfg).fst
      emitted := e.emitted ++ [e.conn.outgoing index cfg]
      promised } n' := by
  cases index
  case none =>
    refine ⟨n, Nat.le_refl _, h.kept ?_ rfl (Nat.le_refl _) id fun g hg => ?_⟩
    · rw [Connection.record_none]
      rfl
    · apply (mem_append.mp hg).imp_right
      intro hg
      rw [mem_singleton.mp hg]
      show 0 + (has ACK SYN).toNat + (has ACK FIN).toNat = 0
      decide
  case some i =>
    obtain ⟨f, hi⟩ := hx i rfl
    have hm := mem_of_getElem? hi
    have hseq : (e.conn.outgoing (some i) cfg).sequence = f.sequence := by
      simp [Connection.outgoing, hi]
    have hsize : (e.conn.outgoing (some i) cfg).size = f.size := by
      simp [Connection.outgoing, hi, Segment.size, Flight.size]
    by_cases hu : f.transmissions = 0
    case pos =>
      obtain ⟨hpos, hnext, hle⟩ := h.first hs hf hw hi hu
      refine ⟨n + f.size, Nat.le_add_right .., ?_, hle, fun g hg hz => ?_⟩
      · rw [Connection.record_some,
          Connection.recordFlight_first hs.inv.toCore (hs.inv.phase.proper f hm) hi hu]
        exact hnext
      · rcases mem_append.mp hg with hg | hg
        · obtain ⟨k, hk, hkn⟩ := h.emitted g hg hz
          exact ⟨k, hk, by omega⟩
        · rw [mem_singleton.mp hg, hseq, hsize]
          exact ⟨n, hpos, Nat.le_refl _⟩
    case neg =>
      refine ⟨n, Nat.le_refl _, ?_, h.le, fun g hg hz => ?_⟩
      · rw [Connection.record_some]
        show (e.conn.recordFlight i now cfg).fst.sendSent = _
        rw [(Connection.recordFlight_again hv hs.inv.toCore hi hu now).frame]
        exact h.sent
      · rcases mem_append.mp hg with hg | hg
        · exact h.emitted g hg hz
        · rw [mem_singleton.mp hg, hseq, hsize]
          exact h.flight_offset hs hf hw hm hu

theorem transmit (h : Submitted e n) (hv : cfg.Valid) (hs : Sender cfg e)
    (hw : e.written.length < 2 ^ 31) (now : Duration) (outcome : Submission) :
    ∃ n' ≥ n, Submitted (e.transmit now outcome cfg) n' := by
  have staged {c : Connection} (hc : Connection.StageEffect e.conn c) :
      Submitted { e with conn := c } n :=
    h.kept (by rw [hc.frame]; rfl) rfl (Nat.le_refl _) id fun _ => .inl
  rcases transmit_cases hv hs.inv now outcome with ⟨c, he, hc, -⟩ | ⟨hg, -, he⟩ <;> rw [he]
  case inl => exact ⟨n, Nat.le_refl _, staged hc⟩
  have hc := Connection.stage_effect hv hs.inv now
  have hs₁ := hs.staged hc (Connection.stage_inv hv hs.inv now)
  have hf : (e.conn.stage now cfg).fst.state.isFailure = false := by
    have ht := (Connection.emission_some hg).left
    have hf : e.conn.state.isFailure = false := by
      by_contra hf
      simp [TcpState.isTerminal_of_isFailure (by simpa using hf)] at ht
    rcases hc.state with hst | ⟨-, ⟨-, hst⟩ | ⟨-, hst⟩⟩ <;> rw [hst]
    · exact hf
    all_goals rfl
  exact (staged hc).recorded hv hs₁ hf hw (Connection.stage_indexed hv hs.inv now) now _

theorem call (h : Submitted e n) (hv : cfg.Valid) (hs : Sender cfg e)
    (hw : e.written.length < 2 ^ 31) (call : Call) :
    ∃ n' ≥ n, Submitted (e.call cfg call) n' := by
  have same {e' : Endpoint} (hk : Submitted e' n) : ∃ n' ≥ n, Submitted e' n' :=
    ⟨n, Nat.le_refl _, hk⟩
  cases call
  case transmit now outcome => exact h.transmit hv hs hw now outcome
  all_goals
    apply same
    simp only [Endpoint.call]
  case write bytes =>
    unfold Endpoint.write
    rcases e.conn.write_cases bytes cfg with ⟨err, hw⟩ | hw | ⟨m, -, hc, -, hw⟩ <;> simp only [hw]
    all_goals exact h.kept rfl rfl (by simp) id fun _ => .inl
  case read size =>
    unfold Endpoint.read
    rcases e.conn.read_cases size with ⟨err, hr⟩ | ⟨hr, -⟩ | ⟨m, hr, -, -⟩ <;> simp only [hr]
    all_goals exact h.kept rfl rfl (Nat.le_refl _) id fun _ => .inl
  case close now =>
    unfold Endpoint.close
    rcases e.conn.close_cases now cfg with ⟨-, hc⟩ | ⟨err, hc⟩ | ⟨-, d, hc⟩ <;> simp only [hc]
    all_goals exact h.kept rfl rfl (Nat.le_refl _) (by simp) fun _ => .inl
  case tick now =>
    rcases e.conn.tick_cases now cfg with ht | ⟨-, ht⟩ | ⟨-, ht⟩ <;> rw [ht]
    all_goals exact h.kept rfl rfl (Nat.le_refl _) id fun _ => .inl

-- What a segment contributes to the receiver has been submitted.
theorem contributes (h : Submitted e n) (hw : e.written.length < 2 ^ 31) {g : Segment}
    (hg : g ∈ e.emitted) {c : Connection} {m : Nat} (hm : m ≤ 2 ^ 31)
    (hn : c.receiveNext = e.iss + 1 + BitVec.ofNat 32 m) {bytes : List U8} {fin : Nat}
    (hfin : fin ≤ 1) (hc : c.Contributes g bytes fin) :
    bytes = [] ∧ fin = 0 ∨ 1 + m + (bytes.length + fin) ≤ n := by
  have hpart := hc.part.length_le
  rw [length_drop] at hpart
  by_cases hz : g.size = 0
  case pos =>
    left
    simp only [Segment.size, Nat.add_eq_zero_iff, length_eq_zero_iff, toNat_eq_zero] at hz
    rw [hz.left.left, length_nil] at hpart
    refine ⟨eq_nil_of_length_eq_zero (by omega), hc.last.resolve_right fun hl => ?_⟩
    simp [hz.right] at hl
  case neg =>
    right
    have ⟨k, hk, hkn⟩ := h.emitted g hg (Nat.pos_of_ne_zero hz)
    have hle := h.le
    have hcl := e.closed.toNat_le
    have hskip := hc.skip_le
    have hn : c.receiveNext = e.iss + BitVec.ofNat 32 (1 + m) := by
      rw [hn, ofNat_add, add_assoc]
      rfl
    have hlast := hc.last
    have hsize : g.size = g.payload.length + (has g.flags SYN).toNat + (has g.flags FIN).toNat :=
      rfl
    rw [hk, hn] at hskip hpart hlast
    have hd := add_dist_offsets e.iss (x := k) (y := 1 + m) (by omega) (by omega)
    rcases hlast with rfl | ⟨hf, hseq⟩
    · omega
    · have heq : k + g.payload.length = 1 + m + bytes.length := by
        apply offset_inj e.iss (by omega) (by omega)
        simpa [ofNat_add, add_assoc] using hseq
      simp only [hf, toNat_true] at hsize
      omega

end Submitted

-- The receiver has got no further than the sender.
def Within (s r : Endpoint) : Prop :=
  ∃ n, Submitted s n ∧
    (r.conn.state.isFailure = false → r.conn.state ≠ .synSent → 1 + r.receiveOffset ≤ n)

namespace Within

variable {s r r' : Endpoint}

theorem call_sender (h : Within s r) (hv : cfg.Valid) (hs : Sender cfg s)
    (hw : s.written.length < 2 ^ 31) (call : Call) : Within (s.call cfg call) r := by
  have ⟨n, hn, hr⟩ := h
  have ⟨n', hle, hn'⟩ := hn.call hv hs hw call
  exact ⟨n', hn', fun hf hne => (hr hf hne).trans hle⟩

theorem call_receiver (h : Within s r) (hc : Called r r') : Within s r' := by
  have ⟨n, hn, hr⟩ := h
  refine ⟨n, hn, fun hf hne => ?_⟩
  rw [Link.receiveOffset_call hc]
  refine hr (hc.failure hf) fun hs => ?_
  rcases hc.synSent hs with hs | hf'
  · exact hne hs
  · simp [hf] at hf'

theorem acknowledge (h : Within s r) (hv : cfg.Valid) (hi : s.conn.Inv cfg) (g : Segment)
    (now : Duration) : Within (s.input g now cfg) r := by
  have ⟨n, hn, hr⟩ := h
  exact ⟨n, hn.input hv hi g now, hr⟩

theorem receive (h : Within s r) (hl : Link s r) (hv : cfg.Valid) (hr : Receiver r)
    (hi : r.conn.Inv cfg) {cfg' : TcpConfig} (hs : Sender cfg' s) (hw : s.written.length < 2 ^ 31)
    {g : Segment} (hg : g ∈ s.emitted) (now : Duration) : Within s (r.input g now cfg) := by
  obtain ⟨n, hn, hle⟩ := h
  refine ⟨n, hn, fun hf hne => ?_⟩
  have hf' : (r.conn.input g now cfg).state.isFailure = false := by
    simp only [Endpoint.input] at hf
    split at hf <;> exact hf
  have hf₀ := not_failure_of_input hf'
  rw [input_of_not_failure hf'] at hne ⊢
  simp only [receiveOffset, length_append, length_drop] at hle hne ⊢
  rcases Connection.input_receiver hv hi g now with hc | hc | ⟨hs', bytes, fin, ht⟩ |
    ⟨hs', bytes, fin, ht, hsyn, hfin, -⟩
  case inl => simp [hc, Connection.fail, TcpState.isFailure] at hf'
  case inr.inl =>
    rw [hc] at hne ⊢
    have := hle hf₀ hne
    omega
  case inr.inr.inl =>
    have hoff := hle hf₀ hs'
    rw [ht.received, length_append, ht.eof]
    rcases ht.origin with ⟨rfl, rfl⟩ | hc
    · simp only [length_nil]
      omega
    · have hnext := hr.next hf₀ hs'
      have hlen := hl.receiveOffset_le
      have heof := ht.eof
      rw [hl.irs hf₀ hs'] at hnext
      simp only [receiveOffset, hc.not_eof, toNat_false, Nat.add_zero, Nat.zero_add] at *
      have hfin : fin ≤ 1 := heof ▸ toNat_le _
      have := hn.contributes hw hg (by omega) hnext hfin hc
      rcases this with ⟨rfl, rfl⟩ | this
      · simp only [length_nil]
        omega
      · omega
  case inr.inr.inr =>
    -- The SYN is all that the first segment of the peer carries.
    obtain ⟨hp, _⟩ := (hs.emitted g hg).syn hsyn
    have heof := hi.closing.eof hf₀
    have happ := hr.fresh (by rw [hs']; rfl)
    have hnone : bytes = [] ∧ fin = 0 := by
      rcases ht.origin with ho | ho
      · exact ho
      have hb := ho.part
      have hlast := ho.last
      rw [Connection.has_synData_fin] at hlast
      simp only [Connection.synData, hp, drop_nil, prefix_nil] at hb
      exact ⟨hb, by simpa [hfin] using hlast⟩
    have hsize : 0 < g.size := by simp [Segment.size, hsyn]
    obtain ⟨k, _, hk⟩ := hn.emitted g hg hsize
    have heof' := ht.eof
    have hrec := congrArg List.length ht.received
    rw [hnone.left, hnone.right] at *
    simp only [Connection.synAccepted, heof, hs', TcpState.peerClosed, toNat_false,
      append_nil] at heof' hrec
    rw [hrec, heof', happ, length_nil]
    omega

end Within

-- Two numbers of a stream that the sender has submitted and that have not been acknowledged before
-- are less than a window apart.
theorem Within.unreceived {s r : Endpoint} (h : Within s r) (hl : Link s r) (hs : Sender cfg s)
    (hr : Receiver r) (hw : s.written.length < 2 ^ 31) (hf : s.conn.state.isFailure = false)
    (hf' : r.conn.state.isFailure = false) (hne : r.conn.state ≠ .synSent) :
    ∃ u x n, s.conn.sendUna = s.iss + BitVec.ofNat 32 u ∧
      r.conn.receiveNext = s.iss + BitVec.ofNat 32 x ∧
      s.conn.sendSent = s.iss + BitVec.ofNat 32 n ∧ u ≤ x ∧ x ≤ n ∧ n ≤ u + 65535 := by
  have ⟨n, hn, hle⟩ := h
  have ⟨u, hu, huna⟩ := hl.una hf
  have ⟨m, hm, hsent, _⟩ := hs.inv.window.sent_eq
  have hoff := hl.receiveOffset_le
  have hnle := hn.le
  have hc := s.closed.toNat_le
  have hnext : r.conn.receiveNext = s.iss + BitVec.ofNat 32 (1 + r.receiveOffset) := by
    rw [hr.next hf' hne, hl.irs hf' hne, ofNat_add, add_assoc]
    rfl
  have heq : n = u + m := by
    apply offset_inj s.iss (by omega) (by omega)
    rw [← hn.sent, hsent, huna, ofNat_add, add_assoc]
  exact ⟨u, 1 + r.receiveOffset, n, huna, hnext, hn.sent, hu, hle hf' hne, by omega⟩

end Endpoint

namespace Connection

variable {cfg : TcpConfig} {c : Connection} {g : Segment} {now : Duration}

-- The acceptability test for a segment without length, if it is at most a window ahead.
theorem acceptable_ahead (hg : g.IsPureAck) {n : Nat} (hn : n ≤ 65535)
    (hq : g.sequence = c.receiveNext + BitVec.ofNat 32 n) :
    c.acceptable g cfg ↔ n = 0 ∨ n < (c.advertisedWindow cfg).toNat := by
  have hrel : (g.sequence - c.receiveNext).toInt = n := by
    have hm : (BitVec.ofNat 32 n).toNat = n := by
      rw [toNat_ofNat, Nat.mod_eq_of_lt (by omega)]
    rw [hq, add_comm, add_sub_cancel, toInt_eq_toNat_of_lt (by omega), hm]
  simp only [acceptable, hg.sequenceLen_eq, hrel]
  simp
  omega

theorem input_not_acceptable (hg : g.IsPureAck) (ht : c.state.isTerminal = false)
    (hs : c.state.isHandshake = false) (hw : c.state ≠ .timeWait) (ha : ¬c.acceptable g cfg) :
    c.input g now cfg = { c with ackPending := true } := by
  have hne : c.state ≠ .synSent ∧ c.state ≠ .synReceived := by
    constructor <;> intro h <;> simp [h, TcpState.isHandshake] at hs
  rw [input, if_neg (by simp [ht]), if_neg hne.left, if_neg hw, if_neg (by simp [hne.right]),
    if_pos (by simpa using ha), if_neg (by simp [hg.rst])]

-- An acknowledgment number between `sendUna` and `sendSent` becomes `sendUna`.
theorem acknowledge_advances (hv : cfg.Valid) (hi : c.Inv cfg)
    (h₁ : before c.sendSent g.acknowledgment = false)
    (h₂ : before g.acknowledgment c.sendUna = false) (now : Duration) :
    (c.acknowledge g now cfg).sendUna = g.acknowledgment := by
  rcases acknowledge_cases hv hi.toCore hi.phase.proper h₁ now with ⟨hr, h | h⟩ |
    ⟨c', flags, ha, he⟩
  case inl.inl => simp [h₂] at h
  case inl.inr =>
    rw [hr.frame]
    exact h.symm
  case inr =>
    rw [he]
    split
    · exact (finAcknowledged_una ..).trans ha.una
    · exact ha.una

end Connection

namespace Pair

open Endpoint

variable {cfg : Configs} {p : Pair}

def Configs.at_ (cfg : Configs) : Side → TcpConfig
  | .active  => cfg.active
  | .passive => cfg.passive

-- Neither end has received more than the other one has submitted.
def Covered (p : Pair) : Prop :=
  p.passive.elim (∃ n, Submitted p.active n) fun b => Within p.active b ∧ Within b p.active

theorem Waiting.synSent {a : Endpoint} (h : Waiting cfg a) (hf : a.conn.state.isFailure = false) :
    a.conn.state = .synSent := by
  by_contra hne
  -- The peer has not chosen its initial sequence number yet.
  have h₀ := (h.back (a.conn.outgoing none cfg.active) 0 .zero).irs hf hne
  have h₁ := (h.back (a.conn.outgoing none cfg.active) 1 .zero).irs hf hne
  have : (0 : U32) = 1 := h₀.symm.trans h₁
  simp at this

theorem Waiting.covered {a : Endpoint} (h : Waiting cfg a) {n : Nat} (hn : Submitted a n)
    {syn : Segment} (hm : syn ∈ a.emitted) (hs : has syn.flags SYN) (iss : U32) (now : Duration) :
    Covered ⟨a, some (.open cfg.passive (.passive syn iss now))⟩ := by
  refine ⟨⟨n, hn, fun _ _ => ?_⟩, 0, .open .., fun hf hne => absurd (h.synSent hf) hne⟩
  have hsize : 0 < syn.size := by simp [Segment.size, hs]
  have ⟨k, _, hk⟩ := hn.emitted syn hm hsize
  show 1 + 0 ≤ n
  omega

theorem step_covered (ha : cfg.active.Valid) (hb : cfg.passive.Valid) (hw : p.Bounded)
    (hi : p.Inv cfg) (h : p.Covered) (event : Event) : (p.step cfg event).Covered := by
  have ⟨a, b⟩ := p
  have hwa : a.written.length < 2 ^ 31 := hw .active
  cases event
  case call side call =>
    cases b
    case none =>
      cases side
      case passive => exact h
      case active =>
        have ⟨n, hn⟩ : ∃ n, Submitted a n := h
        have hs : Waiting cfg a := hi
        have ⟨n', _, hn'⟩ := hn.call ha hs.active.sender hwa call
        exact ⟨n', hn'⟩
    case some b =>
      have hwb : b.written.length < 2 ^ 31 := hw .passive
      have hl : Linked cfg a b := hi
      have ⟨hab, hba⟩ : Within a b ∧ Within b a := h
      cases side
      case active =>
        have hc := Called.call ha hl.active.sender hl.active.receiver hl.back.silent call
        exact ⟨hab.call_sender ha hl.active.sender hwa call, hba.call_receiver hc⟩
      case passive =>
        have hc := Called.call hb hl.passive.sender hl.passive.receiver hl.forth.silent call
        exact ⟨hab.call_receiver hc, hba.call_sender hb hl.passive.sender hwb call⟩
  case accept index iss now =>
    simp only [step, accept]
    split
    case h_2 => exact h
    case h_1 syn hg =>
      split
      case isFalse => exact h
      case isTrue hs =>
        have ⟨n, hn⟩ : ∃ n, Submitted a n := h
        exact Waiting.covered hi hn (mem_of_getElem? hg) hs iss now
  case deliver side index now =>
    cases b
    case none =>
      cases side <;> simp only [step, deliver, bind_none, map_none]
      · exact h
      · split <;> exact h
    case some b =>
      have hwb : b.written.length < 2 ^ 31 := hw .passive
      have hl : Linked cfg a b := hi
      have ⟨hab, hba⟩ : Within a b ∧ Within b a := h
      cases side
      case active =>
        simp only [step, deliver, bind_some]
        split
        case h_2 => exact h
        case h_1 g hg =>
          have hm := mem_of_getElem? hg
          exact ⟨hab.acknowledge ha hl.active.sender.inv g now, hba.receive hl.back ha
            hl.active.receiver hl.active.sender.inv hl.passive.sender hwb hm now⟩
      case passive =>
        simp only [step, deliver, map_some]
        split
        case h_2 => exact h
        case h_1 g hg =>
          have hm := mem_of_getElem? hg
          exact ⟨hab.receive hl.forth hb hl.passive.receiver hl.passive.sender.inv hl.active.sender
            hwa hm now, hba.acknowledge hb hl.passive.sender.inv g now⟩

theorem run_covered (ha : cfg.active.Valid) (hb : cfg.passive.Valid)
    (localAddr remoteAddr : SocketAddr) (iss : U32) (now : Duration) (events : List Event)
    (hw : (run cfg localAddr remoteAddr iss now events).Bounded) :
    (run cfg localAddr remoteAddr iss now events).Inv cfg ∧
    (run cfg localAddr remoteAddr iss now events).Covered := by
  have hopen : Inv cfg («open» cfg localAddr remoteAddr iss now) ∧
      («open» cfg localAddr remoteAddr iss now).Covered :=
    ⟨open_inv ha localAddr remoteAddr iss now, 0,
      Submitted.open cfg.active (.active localAddr remoteAddr iss now)⟩
  have hstep (p : Pair) (event : Event) (h : p.Bounded → p.Inv cfg ∧ p.Covered)
      (hw : (p.step cfg event).Bounded) :
          (p.step cfg event).Inv cfg ∧ (p.step cfg event).Covered := by
    have hw := bounded_of_step hw
    have ⟨hi, hc⟩ := h hw
    exact ⟨step_inv ha hb hw hi event, step_covered ha hb hw hi hc event⟩
  exact Transition.exec_induction (P := fun p : Pair => p.Bounded → p.Inv cfg ∧ p.Covered)
    (fun _ => hopen) hstep hw

-- What both ends of a pair know about each other, from the point of view of `a`.
structure Peers (cfg cfg' : TcpConfig) (a b : Endpoint) : Prop where
  valid   : cfg.Valid ∧ cfg'.Valid
  bounds  : a.written.length < 2 ^ 31 ∧ b.written.length < 2 ^ 31
  here    : History cfg a
  there   : History cfg' b
  forth   : Link a b
  back    : Link b a
  ahead   : Within a b
  behind  : Within b a

theorem run_peers (ha : cfg.active.Valid) (hb : cfg.passive.Valid)
    (localAddr remoteAddr : SocketAddr) (iss : U32) (now : Duration) (events : List Event)
    (hw : (run cfg localAddr remoteAddr iss now events).Bounded) (side : Side) {a b : Endpoint}
    (hea : (run cfg localAddr remoteAddr iss now events).endpoint side = some a)
    (heb : (run cfg localAddr remoteAddr iss now events).endpoint side.other = some b) :
    Peers (cfg.at_ side) (cfg.at_ side.other) a b := by
  have h := run_covered ha hb localAddr remoteAddr iss now events hw
  generalize run cfg localAddr remoteAddr iss now events = p at h hw hea heb
  obtain ⟨x, y⟩ := p
  cases y
  case none => cases side <;> simp [endpoint, Side.other] at hea heb
  case some y =>
    have hwx : x.written.length < 2 ^ 31 := hw .active
    have hwy : y.written.length < 2 ^ 31 := hw .passive
    have hl : Linked cfg x y := h.left
    obtain ⟨hxy, hyx⟩ : Within x y ∧ Within y x := h.right
    cases side <;> cases hea <;> cases heb
    · exact ⟨⟨ha, hb⟩, ⟨hwx, hwy⟩, hl.active, hl.passive, hl.forth, hl.back, hxy, hyx⟩
    · exact ⟨⟨hb, ha⟩, ⟨hwy, hwx⟩, hl.passive, hl.active, hl.back, hl.forth, hyx, hxy⟩

-- A pure acknowledgment is processed exactly if what the peer has submitted and this end has not
-- received is nothing at all, or less than the window.
theorem Peers.honoured {cfg cfg' : TcpConfig} {a b : Endpoint} (h : Peers cfg cfg' a b)
    (hla : a.conn.state.isLive) (hlb : b.conn.state.isLive) {g : Segment} {now : Duration}
    (hg : b.conn.emission now cfg' = some g) (hp : g.payload = []) (hs : has g.flags SYN = false)
    (hf : has g.flags FIN = false) (hq : g.sequence = b.conn.sendSent) (now' : Duration) :
    (a.conn.input g now' cfg).sendUna = g.acknowledgment ↔
      (before a.conn.receiveNext b.conn.sendSent →
        dist a.conn.receiveNext b.conn.sendSent < (a.conn.advertisedWindow cfg).toNat) ∨
      a.conn.sendUna = b.conn.receiveNext := by
  have ⟨hv, hv'⟩ := h.valid
  have ⟨hfa, hta, hha, hna, hwa⟩ := TcpState.isLive_cases hla
  have ⟨hfb, _, _, hnb, _⟩ := TcpState.isLive_cases hlb
  have ⟨hack, ⟨_, hrst⟩, hnum⟩ :=
    Connection.emission_flags hv' h.there.sender.inv hnb hg
  have hpure : g.IsPureAck := ⟨hp, hack, hs, hf, hrst⟩
  have ⟨u, x, n, _, hnext, hsent, hux, hxn, hn⟩ := h.behind.unreceived h.back h.there.sender
    h.here.receiver h.bounds.right hfb hfa hna
  have ⟨u', x', n', huna', hnext', hsent', hux', hxn', hn'⟩ := h.ahead.unreceived h.forth
    h.here.sender h.there.receiver h.bounds.left hfa hfb hnb
  have hedge : a.conn.acceptable g cfg ↔ (before a.conn.receiveNext b.conn.sendSent →
      dist a.conn.receiveNext b.conn.sendSent < (a.conn.advertisedWindow cfg).toNat) := by
    have hq' : g.sequence = a.conn.receiveNext + BitVec.ofNat 32 (n - x) := by
      rw [hq, hsent, hnext, add_assoc, ← ofNat_add, Nat.add_sub_cancel' hxn]
    rw [Connection.acceptable_ahead hpure (by omega) hq', hnext, hsent,
      before_offsets b.iss (by omega) (by omega), dist_offsets b.iss hxn (by omega)]
    omega
  by_cases hacc : a.conn.acceptable g cfg
  case pos =>
    have h₁ : before a.conn.sendSent g.acknowledgment = false := by
      rw [hnum, hsent', hnext', not_before_offsets a.iss (by omega) (by omega)]
      exact hxn'
    have h₂ : before g.acknowledgment a.conn.sendUna = false := by
      rw [hnum, huna', hnext', not_before_offsets a.iss (by omega) (by omega)]
      exact hux'
    rw [Connection.input_pureAck hpure hta hha hwa hacc h₁]
    have hadv := Connection.acknowledge_advances hv h.here.sender.inv h₁ h₂ now'
    exact iff_of_true hadv (.inl (hedge.mp hacc))
  case neg =>
    rw [Connection.input_not_acceptable hpure hta hha hwa hacc,
      hnum]
    exact (or_iff_right (mt hedge.mpr hacc)).symm

theorem live_acks_honoured (ha : cfg.active.rejected = false) (hb : cfg.passive.rejected = false)
    (localAddr remoteAddr : SocketAddr) (iss : U32) (now : Duration) (events : List Event)
    (hw : ∀ side, ((run cfg localAddr remoteAddr iss now events).written side).length < 2 ^ 31)
    (side : Side) {a b : Endpoint}
    (hea : (run cfg localAddr remoteAddr iss now events).endpoint side = some a)
    (heb : (run cfg localAddr remoteAddr iss now events).endpoint side.other = some b)
    (hla : a.conn.state.isLive) (hlb : b.conn.state.isLive) {g : Segment} {sent received : Duration}
    (hg : b.conn.emission sent (cfg.at_ side.other) = some g) (hp : g.payload = [])
    (hs : has g.flags SYN = false) (hf : has g.flags FIN = false)
    (hq : g.sequence = b.conn.sendSent) :
    (a.conn.input g received (cfg.at_ side)).sendUna = g.acknowledgment ↔
      (before a.conn.receiveNext b.conn.sendSent → dist a.conn.receiveNext b.conn.sendSent <
        (a.conn.advertisedWindow (cfg.at_ side)).toNat) ∨
      a.conn.sendUna = b.conn.receiveNext := by
  have h :=
    run_peers (.of_not_rejected ha) (.of_not_rejected hb) localAddr remoteAddr iss now events
    hw side hea heb
  exact h.honoured hla hlb hg hp hs hf hq received

def narrow (capacity : Nat) : Configs where
  active  := { TcpConfig.default with receiveCapacity := capacity, mss := 1 }
  passive := .default

-- Both ends have sent a byte. The byte of the active end has arrived at the passive end, but not
-- the other way round. With a receive capacity of one byte, the window of the active end is filled
-- by it.
def crossing (capacity : Nat) : Pair :=
  run (narrow capacity) { ip := 0x0a000001, port := 1000 } { ip := 0x0a000002, port := 80 }
    7 .zero [
    .call .active (.transmit .zero .accepted),
    .accept 0 500 .zero,
    .call .passive (.transmit .zero .accepted),
    .deliver .active 0 .zero,
    .call .active (.transmit .zero .accepted),
    .deliver .passive 1 .zero,
    .call .passive (.write [9]),
    .call .passive (.transmit .zero .accepted),
    .call .active (.write [5]),
    .call .active (.transmit .zero .accepted),
    .deliver .passive 2 .zero
  ]

def crossingAck : Segment where
  source         := { ip := 0x0a000002, port := 80 }
  destination    := { ip := 0x0a000001, port := 1000 }
  sequence       := 502
  acknowledgment := 9
  flags          := ACK
  window         := 16383
  mss            := none
  payload        := []

theorem live_acks_honoured_crossing :
    ((crossing 2).active.conn.input crossingAck .zero (narrow 2).active).sendUna = 9 := by
  have ⟨b, hb⟩ : ∃ b, (crossing 2).passive = some b := isSome_iff_exists.mp (by decide)
  have hspec : (crossing 2).passive.all (fun b => b.conn.state.isLive &&
      b.conn.emission .zero .default == some crossingAck && b.conn.sendSent == 502) := by
    decide +kernel
  simp only [hb, all_some, and_eq_true, beq_iff_eq] at hspec
  have ⟨⟨hlive, hg⟩, hsent⟩ := hspec
  have hvalid : (narrow 2).active.rejected = false := by decide
  refine (live_acks_honoured hvalid TcpConfig.default_not_rejected _ _ _ _ _ (fun side => ?_)
    .active
    rfl hb (by decide) hlive hg rfl (by decide) (by decide) hsent.symm).mpr (.inl ?_)
  · cases side <;> decide
  · rw [hsent]
    decide

-- The acknowledgment of the byte is dropped, and the byte stays unacknowledged.
theorem live_ack_dropped_at_edge :
    (narrow 1).active.rejected = false ∧
    (crossing 1).active.conn.state = .established ∧
    (crossing 1).passive.map (·.conn.state) = some .established ∧
    (crossing 1).passive.bind (·.conn.emission .zero .default) = some crossingAck ∧
    (crossing 1).passive.map (·.conn.sendSent) = some crossingAck.sequence ∧
    (crossing 1).active.conn.flights.map (·.payload) = [[5]] ∧
    ((crossing 1).active.conn.input crossingAck .zero (narrow 1).active).sendUna = 8 ∧
    crossingAck.acknowledgment = 9 := by
  decide +kernel

end Pair
