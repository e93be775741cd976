import AsyncNetStack.Tcp.Theorems.SendWindow

open Serial Tcp List

namespace TcpState

-- The states in which the FIN of the peer has been received.
def peerClosed : TcpState → Bool
  | closeWait | closing | lastAck | timeWait | closed => true
  | _                                                 => false

-- The states in which the FIN of this end has been put in line.
def finQueued : TcpState → Bool
  | finWait1 | finWait2 | closing | lastAck | timeWait | closed => true
  | _                                                           => false

def isHandshake : TcpState → Bool
  | synSent | synReceived => true
  | _                     => false

-- The states that are left at the phase deadline.
def isTimed : TcpState → Bool
  | synSent | synReceived | timeWait => true
  | _                                => false

-- The states in which nothing is left to be closed.
def isOver : TcpState → Bool
  | timeWait | closed | reset | timedOut | failed => true
  | _                                             => false

-- The states in which the peer's data is taken.
def isReceiving : TcpState → Bool
  | established | finWait1 | finWait2 => true
  | _                                 => false

end TcpState

namespace TcpConfig

variable {cfg : TcpConfig} {d : Duration}

def RtoRange (cfg : TcpConfig) (d : Duration) : Prop :=
  cfg.initialRto ≤ d ∧ d ≤ cfg.maxRto

theorem Valid.rtoRange_initial (hv : cfg.Valid) : cfg.RtoRange cfg.initialRto :=
  ⟨le_refl _, hv.rto_le⟩

theorem Valid.rtoRange_clamp (hv : cfg.Valid) (d : Duration) :
    cfg.RtoRange (min (max d cfg.initialRto) cfg.maxRto) :=
  ⟨le_min (le_max_right ..) hv.rto_le, min_le_right ..⟩

theorem Valid.rtoRange_double (hv : cfg.Valid) (h : cfg.RtoRange d) :
    cfg.RtoRange (min (d.saturatingMul 2) cfg.maxRto) :=
  ⟨le_min (h.left.trans (d.le_saturatingMul (by decide))) hv.rto_le, min_le_right ..⟩

end TcpConfig

namespace Connection

variable {cfg : TcpConfig} {c c' c'' : Connection} {now : Duration}

-- The bounds on congestion window and timers.
structure Limits (cfg : TcpConfig) (cwnd : Nat) (rto : Duration) (flights : List Flight) :
    Prop where
  cwnd_pos : 1 ≤ cwnd
  cwnd_le  : cwnd ≤ cfg.maxCwndBytes
  rto      : cfg.RtoRange rto
  flights  : ∀ f ∈ flights, cfg.RtoRange f.rto

-- What the state says about the queues on the sending side.
def Phase (state : TcpState) (queued : List U8) (flights : List Flight) : Prop :=
  match state with
  | .synSent                        => queued = [] ∧ ∃ f, flights = [f] ∧ f.IsSyn ∧ f.flags = SYN
  | .synReceived                    => queued = [] ∧ ∃ f, flights = [f] ∧ f.IsSyn ∧
    f.flags = SYN ||| ACK
  | .established | .closeWait       => ∀ f ∈ flights, f.IsData
  | .finWait1 | .closing | .lastAck => queued = [] ∧ ∃ f, flights = [f] ∧ f.IsFin
  | _                               => queued = [] ∧ flights = []

-- What the state says about flags and deadlines.
structure Closing (state : TcpState) (writeClosed peerEof : Bool)
    (phaseDeadline closeDeadline : Option Duration) : Prop where
  eof            : state.isFailure = false → peerEof = state.peerClosed
  closed         : state.finQueued → writeClosed
  phase_deadline : phaseDeadline.isSome = state.isTimed
  close_deadline : closeDeadline.isSome = (writeClosed && !state.isOver)

-- The part of the invariant that does not depend on the state.
structure Core (cfg : TcpConfig) (c : Connection) : Prop where
  window   : SendWindow c.sendUna c.sendSent c.sendNext c.flights
  payload  : c.flightPayload = c.outstanding.length
  buffered : c.sendBuffered ≤ cfg.sendCapacity
  limits   : Limits cfg c.cwnd c.rto c.flights
  count    : c.flights.length ≤ cfg.maxInflightSegments
  mss      : ∀ f ∈ c.flights, f.payload.length ≤ c.sendMss cfg
  received : c.received.length ≤ cfg.receiveCapacity

structure Inv (cfg : TcpConfig) (c : Connection) : Prop extends Core cfg c where
  phase   : Phase c.state c.queued c.flights
  closing : Closing c.state c.writeClosed c.peerEof c.phaseDeadline c.closeDeadline

namespace Phase

variable {state : TcpState} {queued : List U8} {flights : List Flight}

theorem proper (h : Phase state queued flights) : ∀ f ∈ flights, f.Proper := by
  cases state <;> simp only [Phase] at h
  case synSent | synReceived =>
    obtain ⟨-, f, rfl, hf, -⟩ := h
    simpa using .inl hf
  case established | closeWait => exact fun f hf => .inr (.inl (h f hf))
  case finWait1 | closing | lastAck =>
    obtain ⟨-, f, rfl, hf⟩ := h
    simpa using .inr (.inr hf)
  all_goals simp [h.right]

-- The phase only depends on flags and payload of the flights.
theorem congr {fs : List Flight} (h : Phase state queued flights)
    (hs : fs.map Flight.content = flights.map Flight.content) : Phase state queued fs := by
  have one {f : Flight} (hf : fs.map Flight.content = [f.content]) :
      ∃ g, fs = [g] ∧ g.content = f.content := map_eq_singleton_iff.mp hf
  cases state <;> simp only [Phase] at h ⊢
  case synSent | synReceived =>
    obtain ⟨hq, f, rfl, hf, hl⟩ := h
    obtain ⟨g, rfl, hg⟩ := one hs
    exact ⟨hq, g, rfl, hf.congr hg, (congrArg Prod.fst hg).trans hl⟩
  case established | closeWait =>
    intro f hf
    obtain ⟨g, hg, he⟩ := mem_map.mp (hs ▸ mem_map_of_mem hf)
    exact (h g hg).congr he.symm
  case finWait1 | closing | lastAck =>
    obtain ⟨hq, f, rfl, hf⟩ := h
    obtain ⟨g, rfl, hg⟩ := one hs
    exact ⟨hq, g, rfl, hf.congr hg⟩
  all_goals
    obtain ⟨hq, rfl⟩ := h
    exact ⟨hq, map_eq_nil_iff.mp hs⟩

theorem sameShape {fs : List Flight} (h : Phase state queued flights) (hs : SameShape fs flights) :
    Phase state queued fs :=
  h.congr hs.content_eq

theorem failed (h : state.isFailure) : Phase state [] [] := by
  cases state <;> simp_all [Phase, TcpState.isFailure]

theorem of_isOpen (h : state.isOpen) : Phase state queued flights ↔ ∀ f ∈ flights, f.IsData := by
  cases state <;> simp_all [Phase, TcpState.isOpen]

end Phase

-- Takes everything that concerns timers, congestion control and the peer's window from `t`.
def retime (c t : Connection) : Connection :=
  { c with
    flights                := t.flights
    cwnd                   := t.cwnd
    ssthresh               := t.ssthresh
    congestionCredit       := t.congestionCredit
    lastDataSent           := t.lastDataSent
    synRetransmitted       := t.synRetransmitted
    timeoutRetransmissions := t.timeoutRetransmissions
    deviceBlocked          := t.deviceBlocked
    peerWindow             := t.peerWindow
    windowSequence         := t.windowSequence
    windowAck              := t.windowAck
    rto                    := t.rto
    srtt                   := t.srtt
    rttvar                 := t.rttvar
    windowProbeAt          := t.windowProbeAt }

-- A step that changes nothing else, and keeps what the flights put into the stream.
structure Retimed (cfg : TcpConfig) (c c' : Connection) : Prop where
  frame   : c' = c.retime c'
  flights : SameShape c'.flights c.flights
  limits  : Limits cfg c.cwnd c.rto c.flights → Limits cfg c'.cwnd c'.rto c'.flights

namespace Retimed

@[refl]
theorem refl (cfg : TcpConfig) (c : Connection) : Retimed cfg c c where
  frame   := rfl
  flights := .refl _
  limits  := id

theorem trans (h₁ : Retimed cfg c c') (h₂ : Retimed cfg c' c'') : Retimed cfg c c'' where
  frame   := h₂.frame.trans (by rw [h₁.frame]; rfl)
  flights := h₂.flights.trans h₁.flights
  limits  := h₂.limits ∘ h₁.limits

theorem outstanding_eq (h : Retimed cfg c c') : c'.outstanding = c.outstanding :=
  h.flights.payload_eq

theorem core (h : Retimed cfg c c') (hc : c.Core cfg) : c'.Core cfg := by
  have hl := h.limits hc.limits
  rw [h.frame] at hl ⊢
  exact {
    window   := hc.window.sameShape h.flights
    payload  := hc.payload.trans (congrArg List.length h.outstanding_eq.symm)
    buffered := hc.buffered
    limits   := hl
    count    := h.flights.length_eq ▸ hc.count
    mss      := h.flights.forall_shape
      (fun _ _ he hg => (Flight.shape_eq_iff.mp he).right.right.left ▸ hg) hc.mss
    received := hc.received
  }

theorem inv (h : Retimed cfg c c') (hi : c.Inv cfg) : c'.Inv cfg where
  toCore  := h.core hi.toCore
  phase   := by rw [h.frame]; exact hi.phase.sameShape h.flights
  closing := by rw [h.frame]; exact hi.closing

end Retimed

theorem sendMss_pos (hv : cfg.Valid) (c : Connection) : 1 ≤ c.sendMss cfg := by
  have := hv.mss_pos
  simp only [sendMss]
  omega

theorem sendMss_le (c : Connection) (cfg : TcpConfig) : c.sendMss cfg ≤ cfg.mss.toNat :=
  Nat.min_le_left ..

theorem initialCwnd_pos (hv : cfg.Valid) (c : Connection) : 1 ≤ c.initialCwnd cfg := by
  have h₁ := c.sendMss_pos hv
  have h₂ := hv.cwnd_segments_pos
  have h₃ := hv.max_cwnd_pos
  refine Nat.le_min.mpr ⟨Nat.mul_pos h₁ (Nat.lt_min.mpr ⟨h₂, ?_⟩), h₃⟩
  repeat' split
  all_goals decide

theorem initialCwnd_le (c : Connection) : c.initialCwnd cfg ≤ cfg.maxCwndBytes :=
  Nat.min_le_right ..

theorem updateRto_retimed (hv : cfg.Valid) (sample : Duration) :
    Retimed cfg c (c.updateRto sample cfg) where
  frame   := rfl
  flights := .refl _
  limits h := { h with rto := hv.rtoRange_clamp _ }

theorem restartTimer_retimed : Retimed cfg c (c.restartTimer now) where
  frame   := rfl
  flights := .modifyHead fun f => by split <;> rfl
  limits h := {
    h with
    flights := by
      simp only [restartTimer]
      cases hf : c.flights
      case nil => simp
      case cons f fs =>
        have := h.flights
        simp only [hf, mem_cons, forall_eq_or_imp, modifyHead_cons] at this ⊢
        refine ⟨?_, this.right⟩
        split
        · exact h.rto
        · exact this.left
  }

theorem growCwnd_retimed (hv : cfg.Valid) (flags : U8) (n : Nat) :
    Retimed cfg c (c.growCwnd flags n cfg) := by
  have hadd (k : Nat) (h : 0 < c.cwnd) : 0 < saturatingAdd 64 c.cwnd k := by
    rw [saturatingAdd]
    omega
  have hgrow {cwnd credit : Nat} (h : 0 < c.cwnd → 0 < cwnd) :
      Retimed cfg c { c with cwnd := min cwnd cfg.maxCwndBytes, congestionCredit := credit } :=
    ⟨rfl, .refl _, fun hl => { hl with
      cwnd_pos := Nat.lt_min.mpr ⟨h hl.cwnd_pos, hv.max_cwnd_pos⟩
      cwnd_le  := Nat.min_le_right .. }⟩
  unfold growCwnd
  split
  case isTrue =>
    refine ⟨rfl, .refl _, fun h => { h with
      cwnd_pos := c.initialCwnd_pos hv, cwnd_le := c.initialCwnd_le, rto := ?_ }⟩
    split
    · exact hv.rtoRange_clamp _
    · exact h.rto
  split
  case isFalse => exact .refl ..
  simp only
  split
  case isTrue => exact hgrow (hadd _)
  split
  case isTrue => exact hgrow (hadd _)
  exact hgrow id

theorem clearPersist_retimed (c : Connection) (cfg : TcpConfig) :
    Retimed cfg c { c with flights := c.flights.map ({ · with persist := false }) } where
  frame   := rfl
  flights := .map fun f => rfl
  limits h := {
    h with
    flights := by
      intro f hf
      obtain ⟨g, hg, rfl⟩ := mem_map.mp hf
      exact h.flights g hg
  }

theorem updateWindow_retimed (c : Connection) (segment : Segment) (cfg : TcpConfig) :
    Retimed cfg c (c.updateWindow segment) := by
  unfold updateWindow
  split
  case isFalse => exact .refl ..
  split
  · have hc := c.clearPersist_retimed cfg
    exact ⟨rfl, hc.flights, hc.limits⟩
  · exact ⟨rfl, .refl _, id⟩

theorem restartIdle_retimed (hv : cfg.Valid) (c : Connection) (now : Duration) :
    Retimed cfg c (c.restartIdle now cfg) := by
  unfold restartIdle
  split
  case isFalse => exact .refl ..
  exact ⟨rfl, .refl _, fun h => { h with
    cwnd_pos := Nat.le_min.mpr ⟨h.cwnd_pos, c.initialCwnd_pos hv⟩
    cwnd_le  := (Nat.min_le_left ..).trans h.cwnd_le }⟩

theorem active_inv (hv : cfg.Valid) (localAddr remoteAddr : SocketAddr) (iss : U32)
    (now : Duration) : (active localAddr remoteAddr iss now cfg).Inv cfg where
  window := .single rfl rfl (Flight.IsSyn.size_eq ⟨.inl rfl, rfl⟩) rfl
  payload := rfl
  buffered := Nat.zero_le _
  limits := {
    cwnd_pos := Nat.le_min.mpr ⟨hv.max_cwnd_pos, hv.mss_pos⟩
    cwnd_le  := Nat.min_le_left ..
    rto      := hv.rtoRange_initial
    flights  := by simpa [active, startFlight] using hv.rtoRange_initial
  }
  count := hv.max_inflight_pos
  mss := by simp [active, startFlight]
  received := Nat.zero_le _
  phase := ⟨rfl, _, rfl, ⟨.inl rfl, rfl⟩, rfl⟩
  closing := { eof := fun _ => rfl, closed := nofun, phase_deadline := rfl, close_deadline := rfl }

theorem passive_inv (hv : cfg.Valid) (syn : Segment) (iss : U32) (now : Duration) :
    (passive syn iss now cfg).Inv cfg where
  window :=
    have he : seqLen (SYN ||| ACK) 0 = seqLen SYN 0 := by decide
    .single rfl (congrArg (iss + ·) he) (Flight.IsSyn.size_eq ⟨.inr rfl, rfl⟩) rfl
  payload := rfl
  buffered := Nat.zero_le _
  limits := {
    (active_inv hv syn.destination syn.source iss now).limits with
    flights := by simpa [passive, active, startFlight] using hv.rtoRange_initial
  }
  count := hv.max_inflight_pos
  mss := by simp [passive, active, startFlight]
  received := Nat.zero_le _
  phase := ⟨rfl, _, rfl, ⟨.inr rfl, rfl⟩, rfl⟩
  closing := { eof := fun _ => rfl, closed := nofun, phase_deadline := rfl, close_deadline := rfl }

-- Writing either queues a nonempty prefix of the bytes or leaves the connection as it is.
theorem write_cases (c : Connection) (bytes : List U8) (cfg : TcpConfig) :
    (∃ e, c.write bytes cfg = (c, .error e)) ∨
    (c.write bytes cfg = (c, .ok 0)) ∨
    (∃ n ≤ cfg.sendCapacity - c.sendBuffered, c.writeClosed = false ∧ c.state.isOpen ∧
      c.write bytes cfg = ({ c with queued := c.queued ++ bytes.take n }, .ok n)) := by
  unfold write
  split
  case isTrue => exact .inl ⟨_, rfl⟩
  case isFalse h =>
    simp only [Bool.or_eq_true, Bool.not_eq_true', not_or, Bool.not_eq_true, Bool.not_eq_false] at h
    split
    case isTrue => exact .inr (.inl rfl)
    dsimp only
    split
    case isTrue => exact .inl ⟨_, rfl⟩
    case isFalse => exact .inr (.inr ⟨_, Nat.min_le_right .., h.left, h.right, rfl⟩)

theorem write_inv (h : c.Inv cfg) (bytes : List U8) : (c.write bytes cfg).fst.Inv cfg := by
  rcases c.write_cases bytes cfg with ⟨e, hw⟩ | hw | ⟨n, hn, -, ho, hw⟩ <;> rw [hw]
  case inr.inr =>
    exact { h with
      buffered := by
        have := h.buffered
        simp only [sendBuffered, length_append, length_take] at this hn ⊢
        omega
      phase := (Phase.of_isOpen ho).mpr ((Phase.of_isOpen ho).mp h.phase) }
  all_goals exact h

-- Reading takes bytes off the front of `received`, or leaves the connection as it is.
theorem read_cases (c : Connection) (size : Nat) :
    (∃ e, c.read size = (c, .error e)) ∨
    (c.read size = (c, .ok []) ∧
      (size = 0 ∨ c.received = [] ∧ (c.peerEof ∨ c.state = .closed) ∧ c.localError = none ∧
        c.state ≠ .reset ∧ c.state ≠ .timedOut)) ∨
    (∃ n, c.read size =
      ({ c with received := c.received.drop n, ackPending := true }, .ok (c.received.take n)) ∧
      0 < n ∧ n ≤ c.received.length) := by
  unfold read
  split
  case isTrue h => exact .inr (.inl ⟨rfl, .inl h⟩)
  split
  case h_1 => exact .inl ⟨_, rfl⟩
  split
  case isTrue => exact .inl ⟨_, rfl⟩
  split
  case isTrue => exact .inl ⟨_, rfl⟩
  dsimp only
  split
  case isTrue h => exact .inr (.inr ⟨_, rfl, h, Nat.min_le_right ..⟩)
  split
  case isFalse => exact .inl ⟨_, rfl⟩
  case isTrue hz hl hr ht hn h =>
    refine .inr (.inl ⟨rfl, .inr ⟨length_eq_zero_iff.mp (by omega), ?_, hl, hr, ht⟩⟩)
    simpa using h

theorem read_inv (h : c.Inv cfg) (size : Nat) : (c.read size).fst.Inv cfg := by
  rcases c.read_cases size with ⟨e, hr⟩ | ⟨hr, -⟩ | ⟨n, hr, -, -⟩ <;> rw [hr]
  case inr.inr =>
    exact { h with
      received := by
        have := h.received
        simp only [length_drop]
        omega }
  all_goals exact h

theorem close_cases (c : Connection) (now : Duration) (cfg : TcpConfig) :
    (c.writeClosed ∧ c.close now cfg = (c, .ok ())) ∨
    (∃ e, c.close now cfg = (c, .error e)) ∨
    (c.state.isOpen ∧ ∃ d,
      c.close now cfg = ({ c with writeClosed := true, closeDeadline := some d }, .ok ())) := by
  unfold close
  split
  case isTrue h => exact .inl ⟨h, rfl⟩
  split
  case isTrue => exact .inr (.inl ⟨_, rfl⟩)
  case isFalse h => exact .inr (.inr ⟨by simpa using h, _, rfl⟩)

theorem close_inv (h : c.Inv cfg) (now : Duration) : (c.close now cfg).fst.Inv cfg := by
  rcases c.close_cases now cfg with ⟨-, hc⟩ | ⟨e, hc⟩ | ⟨ho, d, hc⟩ <;> rw [hc]
  case inr.inr =>
    refine { h with closing := { h.closing with closed := fun _ => rfl, close_deadline := ?_ } }
    cases hs : c.state <;> simp_all [TcpState.isOpen, TcpState.isOver]
  all_goals exact h

theorem fail_inv (h : c.Inv cfg) {s : TcpState} (hs : s.isFailure) : (c.fail s).Inv cfg where
  window := .empty _
  payload := rfl
  buffered := Nat.zero_le _
  limits := { h.limits with flights := by simp [fail] }
  count := Nat.zero_le _
  mss := by simp [fail]
  received := Nat.zero_le _
  phase := .failed hs
  closing := by
    refine ⟨fun hf => absurd hs (Bool.not_eq_true _ ▸ hf), ?_, ?_, ?_⟩
    all_goals cases s <;> simp_all [fail, TcpState.isFailure, TcpState.isTimed, TcpState.isOver,
      TcpState.finQueued]

theorem tick_cases (c : Connection) (now : Duration) (cfg : TcpConfig) :
    c.tick now cfg = c ∨
    (c.state = .timeWait ∧
      c.tick now cfg = { c with state := .closed, phaseDeadline := none, ackPending := false }) ∨
    (c.state.isTerminal = false ∧ c.tick now cfg = c.fail .timedOut) := by
  unfold tick
  split
  case isTrue => exact .inl rfl
  rename_i ht
  split
  case isTrue hs =>
    split
    · exact .inr (.inl ⟨hs, rfl⟩)
    · exact .inl rfl
  split
  · exact .inr (.inr ⟨by simpa using ht, rfl⟩)
  · exact .inl rfl

theorem tick_inv (h : c.Inv cfg) (now : Duration) : (c.tick now cfg).Inv cfg := by
  rcases c.tick_cases now cfg with ht | ⟨hs, ht⟩ | ⟨-, ht⟩ <;> rw [ht]
  case inl => exact h
  case inr.inl =>
    obtain ⟨he, hw, -, hd⟩ := h.closing
    have hp := h.phase
    simp only [hs, Phase] at he hw hd hp
    refine { h with phase := hp, closing := ⟨fun _ => he rfl, hw, rfl, ?_⟩ }
    simpa [TcpState.isOver] using hd
  case inr.inr => exact fail_inv h rfl

end Connection
