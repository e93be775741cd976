import AsyncNetStack.Primitives.Basic
import AsyncNetStack.Primitives.Duration

inductive TcpState
  | synSent
  | synReceived
  | established
  | finWait1
  | finWait2
  | closeWait
  | closing
  | lastAck
  | timeWait
  | closed
  | reset
  | timedOut
  | failed
  deriving DecidableEq, Repr

namespace TcpState

def isTerminal : TcpState → Bool
  | closed | reset | timedOut | failed => true
  | _                                  => false

-- The states which `Connection::fail` is called with.
def isFailure : TcpState → Bool
  | reset | timedOut | failed => true
  | _                         => false

theorem isTerminal_of_isFailure {s : TcpState} (h : s.isFailure) : s.isTerminal := by
  cases s <;> simp_all [isFailure, isTerminal]

-- `matches!(state, TcpState::Established | TcpState::CloseWait)`
def isOpen : TcpState → Bool
  | established | closeWait => true
  | _                       => false

end TcpState

structure TcpConfig where
  maxConnections       : Nat
  maxListeners         : Nat
  controlCapacity      : Nat
  sendCapacity         : Nat
  receiveCapacity      : Nat
  receiveWindowLimit   : U16
  initialCwndSegments  : U16
  maxCwndBytes         : Nat
  initialSsthreshBytes : Nat
  maxInflightSegments  : Nat
  txBurst              : Nat
  verboseState         : Bool
  eventCapacity        : Nat
  stateReportInterval  : Duration
  mtu                  : Nat
  mss                  : U16
  initialRto           : Duration
  maxRto               : Duration
  maxRetransmits       : Nat
  handshakeTimeout     : Duration
  sendTimeout          : Duration
  closeTimeout         : Duration
  timeWait             : Duration

namespace TcpConfig

def default : TcpConfig where
  maxConnections       := 64
  maxListeners         := 16
  controlCapacity      := 64
  sendCapacity         := 16 * 1024
  receiveCapacity      := 16 * 1024
  receiveWindowLimit   := 65535
  initialCwndSegments  := 2
  maxCwndBytes         := 16 * 1024
  initialSsthreshBytes := 65535
  maxInflightSegments  := 128
  txBurst              := 32
  verboseState         := false
  eventCapacity        := 256
  stateReportInterval  := .fromMillis 250
  mtu                  := 1500
  mss                  := 536
  initialRto           := .fromSecs 1
  maxRto               := .fromSecs 60
  maxRetransmits       := 8
  handshakeTimeout     := .fromSecs 30
  sendTimeout          := .fromSecs 120
  closeTimeout         := .fromSecs 120
  timeWait             := .fromSecs 120

-- The condition under which `TcpPool::new` rejects a configuration.
def rejected (config : TcpConfig) : Bool :=
  config.maxConnections == 0
    || config.maxListeners == 0
    || config.controlCapacity == 0
    || config.sendCapacity == 0
    || config.sendCapacity > 2 ^ 30
    || config.receiveWindowLimit == 0
    || !(1 ≤ config.initialCwndSegments.toNat && config.initialCwndSegments.toNat ≤ 4)
    || config.maxCwndBytes == 0
    || config.maxCwndBytes > 2 ^ 30
    || config.initialSsthreshBytes == 0
    || config.initialSsthreshBytes > 2 ^ 30
    || config.maxInflightSegments == 0
    || config.maxInflightSegments > 65535
    || config.txBurst == 0
    || (config.verboseState && (config.eventCapacity == 0 || config.stateReportInterval.isZero))
    || config.receiveCapacity == 0
    || config.receiveCapacity > 65535
    || config.mtu < 68
    || config.mtu > 65535
    || config.mss == 0
    || config.mss.toNat > config.mtu - 40
    || config.mss.toNat > config.receiveCapacity
    || config.initialRto < .fromSecs 1
    || config.maxRto < config.initialRto
    || config.handshakeTimeout.isZero
    || config.sendTimeout.isZero
    || config.closeTimeout.isZero
    || config.timeWait.isZero

theorem default_not_rejected : default.rejected = false := by
  decide

-- What the acceptance of a configuration means for a single connection.
structure Valid (config : TcpConfig) : Prop where
  max_cwnd_pos         : 0 < config.maxCwndBytes
  max_inflight_pos     : 0 < config.maxInflightSegments
  cwnd_segments_pos    : 0 < config.initialCwndSegments.toNat
  receive_capacity     : config.receiveCapacity ≤ 65535
  window_limit_pos     : 0 < config.receiveWindowLimit.toNat
  mss_pos              : 0 < config.mss.toNat
  mss_le_mtu           : config.mss.toNat + 40 ≤ config.mtu
  mtu_ge               : 68 ≤ config.mtu
  mtu_le               : config.mtu ≤ 65535
  rto_le               : config.initialRto ≤ config.maxRto

theorem Valid.of_not_rejected {config : TcpConfig} (h : config.rejected = false) :
    config.Valid := by
  simp only [rejected, Bool.or_eq_false_iff, beq_eq_false_iff_ne, decide_eq_false_iff_not, not_lt,
    Bool.not_eq_false', Bool.and_eq_true, decide_eq_true_iff] at h
  obtain
    ⟨⟨⟨⟨⟨⟨⟨⟨⟨⟨⟨⟨⟨⟨⟨⟨⟨⟨⟨⟨⟨⟨⟨⟨⟨⟨⟨-, -⟩, -⟩, -⟩, -⟩, hl⟩, hs⟩, hc⟩, -⟩, -⟩, -⟩, hi⟩, -⟩, -⟩, -⟩, -⟩,
    hr⟩, hu⟩, hu'⟩, hm⟩, hmu⟩, -⟩, -⟩, hr'⟩, -⟩, -⟩, -⟩, -⟩ := h
  have hm' : config.mss.toNat ≠ 0 := fun h => hm (BitVec.eq_of_toNat_eq h)
  have hl' : config.receiveWindowLimit.toNat ≠ 0 := fun h => hl (BitVec.eq_of_toNat_eq h)
  exact {
    max_cwnd_pos      := Nat.pos_of_ne_zero hc
    max_inflight_pos  := Nat.pos_of_ne_zero hi
    cwnd_segments_pos := hs.left
    receive_capacity  := hr
    window_limit_pos  := Nat.pos_of_ne_zero hl'
    mss_pos           := Nat.pos_of_ne_zero hm'
    mss_le_mtu        := by omega
    mtu_ge            := hu
    mtu_le            := hu'
    rto_le            := hr'
  }

end TcpConfig
