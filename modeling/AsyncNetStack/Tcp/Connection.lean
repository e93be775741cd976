import AsyncNetStack.Device.Basic
import AsyncNetStack.Transport.Tcp
import AsyncNetStack.Tcp.Config

open Serial Tcp

inductive TcpWait
  | application
  | acknowledgment
  | peerWindow
  | congestionWindow
  | flightLimit
  | device
  | handshake
  | closing
  | terminal
  | ready
  deriving DecidableEq, Repr

structure FlowStatus where
  advertisedWindow       : U16
  peerWindow             : U16
  congestionWindow       : Nat
  slowStartThreshold     : Nat
  bytesInFlight          : Nat
  outstandingSegments    : Nat
  retransmissionTimeout  : Duration
  timeoutRetransmissions : Nat
  wait                   : TcpWait
  deriving DecidableEq

structure ConnectionStatus where
  localAddr       : SocketAddr
  remoteAddr      : SocketAddr
  state           : TcpState
  sendBuffered    : Nat
  receiveBuffered : Nat
  flow            : FlowStatus
  localError      : Option ErrorKind

structure Reset where
  localAddr      : SocketAddr
  remoteAddr     : SocketAddr
  sequence       : U32
  acknowledgment : U32
  flags          : U8
  deriving DecidableEq

-- A segment that occupies sequence space and is kept until it is acknowledged.
structure Flight where
  sequence      : U32
  flags         : U8
  payload       : List U8
  created       : Duration
  lastSent      : Option Duration
  transmissions : Nat
  rto           : Duration
  persist       : Bool
  rttEligible   : Bool
  deriving DecidableEq

namespace Flight

def «end» (f : Flight) : U32 :=
  f.sequence + seqLen f.flags f.payload.length

def due (f : Flight) (now : Duration) : Bool :=
  f.lastSent.all (fun at_ => at_.saturatingAdd f.rto ≤ now)

end Flight

structure Connection where
  localAddr              : SocketAddr
  remoteAddr             : SocketAddr
  state                  : TcpState
  accepted               : Bool
  received               : List U8
  localError             : Option ErrorKind
  queued                 : List U8
  flights                : List Flight
  flightPayload          : Nat
  cwnd                   : Nat
  ssthresh               : Nat
  congestionCredit       : Nat
  lastDataSent           : Option Duration
  synRetransmitted       : Bool
  timeoutRetransmissions : Nat
  deviceBlocked          : Bool
  reported               : Option (TcpState × TcpWait × Nat)
  reportedFlow           : Option FlowStatus
  reportedAt             : Duration
  sendUna                : U32
  sendNext               : U32
  -- Unlike `sendNext`, this excludes a prepared segment that the device has not accepted.
  sendSent               : U32
  receiveNext            : U32
  peerWindow             : U16
  windowSequence         : U32
  windowAck              : U32
  peerMss                : U16
  ackPending             : Bool
  peerEof                : Bool
  writeClosed            : Bool
  phaseDeadline          : Option Duration
  closeDeadline          : Option Duration
  rto                    : Duration
  srtt                   : Option Duration
  rttvar                 : Duration
  windowProbeAt          : Duration
  probePending           : Bool
  deriving DecidableEq

-- What became of a segment handed to the device: it was out of frames or queue space, the segment
-- could not be built or submitted, or it was accepted.
inductive Submission
  | blocked
  | failed (e : IoError)
  | accepted

namespace Connection

def startFlight
    (c : Connection) (flags : U8) (payload : List U8) (persist : Bool) (now : Duration) :
    Connection :=
  let flight : Flight := {
    sequence      := c.sendNext
    flags         := flags
    payload       := payload
    created       := now
    lastSent      := none
    transmissions := 0
    rto           := c.rto
    persist       := persist
    rttEligible   := true
  }
  { c with
    sendNext      := flight.end
    flightPayload := c.flightPayload + flight.payload.length
    flights       := c.flights ++ [flight] }

def active (localAddr remoteAddr : SocketAddr) (iss : U32) (now : Duration) (cfg : TcpConfig) :
    Connection :=
  let c : Connection := {
    localAddr              := localAddr
    remoteAddr             := remoteAddr
    state                  := .synSent
    accepted               := true
    received               := []
    localError             := none
    queued                 := []
    flights                := []
    flightPayload          := 0
    cwnd                   := min cfg.maxCwndBytes cfg.mss.toNat
    ssthresh               := cfg.initialSsthreshBytes
    congestionCredit       := 0
    lastDataSent           := none
    synRetransmitted       := false
    timeoutRetransmissions := 0
    deviceBlocked          := false
    reported               := none
    reportedFlow           := none
    reportedAt             := now
    sendUna                := iss
    sendNext               := iss
    sendSent               := iss
    receiveNext            := 0
    peerWindow             := 0
    windowSequence         := 0
    windowAck              := 0
    peerMss                := 536
    ackPending             := false
    peerEof                := false
    writeClosed            := false
    phaseDeadline          := some (now.saturatingAdd cfg.handshakeTimeout)
    closeDeadline          := none
    rto                    := cfg.initialRto
    srtt                   := none
    rttvar                 := .zero
    windowProbeAt          := now
    probePending           := false
  }
  c.startFlight SYN [] false now

def passive (syn : Segment) (iss : U32) (now : Duration) (cfg : TcpConfig) : Connection :=
  let c := active syn.destination syn.source iss now cfg
  { c with
    state          := .synReceived
    accepted       := false
    receiveNext    := syn.sequence + 1
    peerWindow     := syn.window
    peerMss        := syn.mss.getD 536
    windowSequence := syn.sequence
    flights        := c.flights.modifyHead ({ · with flags := SYN ||| ACK }) }

variable (c : Connection)

def sendBuffered : Nat :=
  c.queued.length + c.flightPayload

-- Returns the number of bytes accepted.
def write (c : Connection) (bytes : List U8) (cfg : TcpConfig) : Connection × IoResult Nat :=
  if c.writeClosed || !c.state.isOpen then
    (c, .error { kind := .notConnected, message := "TCP write side is not established/open" })
  else if bytes.isEmpty then
    (c, .ok 0)
  else
    let n := min bytes.length (cfg.sendCapacity - c.sendBuffered)
    if n = 0 then
      (c, .error (.blocked "TCP send buffer full"))
    else
      ({ c with queued := c.queued ++ bytes.take n }, .ok n)

-- Returns the bytes copied into an output buffer of the given size.
def read (size : Nat) : Connection × IoResult (List U8) :=
  if size = 0 then
    (c, .ok [])
  else match c.localError with
  | some kind => (c, .error { kind, message := "TCP local network failure" })
  | none =>
    if c.state = .reset then
      (c, .error { kind := .connectionReset, message := "TCP reset" })
    else if c.state = .timedOut then
      (c, .error { kind := .timedOut, message := "TCP timed out" })
    else
      let n := min size c.received.length
      if 0 < n then
        -- The window is reopened with the next acknowledgment.
        ({ c with received := c.received.drop n, ackPending := true }, .ok (c.received.take n))
      else if c.peerEof || c.state = .closed then
        (c, .ok [])
      else
        (c, .error (.blocked "no TCP data available"))

def close (c : Connection) (now : Duration) (cfg : TcpConfig) : Connection × IoResult Unit :=
  if c.writeClosed then
    (c, .ok ())
  else if !c.state.isOpen then
    (c, .error (.invalid "close requires an established TCP connection"))
  else
    ({ c with
      writeClosed   := true
      closeDeadline := some (now.saturatingAdd cfg.closeTimeout) }, .ok ())

def fail (state : TcpState) : Connection :=
  { c with
    state         := state
    localError    := none
    queued        := []
    received      := []
    flights       := []
    flightPayload := 0
    sendUna       := c.sendSent
    sendNext      := c.sendSent
    deviceBlocked := false
    ackPending    := false
    phaseDeadline := none
    closeDeadline := none }

def resetPacket : Reset where
  localAddr      := c.localAddr
  remoteAddr     := c.remoteAddr
  sequence       := c.sendSent
  acknowledgment := c.receiveNext
  flags          := if c.state = .synSent then RST else RST ||| ACK

-- Whether an optional deadline has passed.
def passed (deadline : Option Duration) (now : Duration) : Bool :=
  deadline.any (· ≤ now)

def expired (now : Duration) (cfg : TcpConfig) : Bool :=
  passed c.phaseDeadline now
    || passed c.closeDeadline now
    || c.flights.head?.any (fun f =>
      f.created.saturatingAdd cfg.sendTimeout ≤ now
        || (!f.persist && f.due now && f.transmissions > cfg.maxRetransmits))

def tick (now : Duration) (cfg : TcpConfig) : Connection :=
  if c.state.isTerminal then
    c
  else if c.state = .timeWait then
    if passed c.phaseDeadline now then
      { c with state := .closed, phaseDeadline := none, ackPending := false }
    else
      c
  else if c.expired now cfg then
    c.fail .timedOut
  else
    c

def nextDeadline (cfg : TcpConfig) : Option Duration :=
  if c.state.isTerminal then
    none
  else
    let flight := c.flights.head?.map (fun f =>
      min (f.lastSent.elim f.created (·.saturatingAdd f.rto))
        (f.created.saturatingAdd cfg.sendTimeout))
    let probe :=
      if c.writeClosed && c.peerWindow == 0 && c.flights.isEmpty && c.state.isOpen then
        some c.windowProbeAt
      else
        none
    [c.phaseDeadline, c.closeDeadline, flight, probe].reduceOption.min?

def sendMss (cfg : TcpConfig) : Nat :=
  min cfg.mss.toNat (max c.peerMss.toNat 1)

def initialCwnd (cfg : TcpConfig) : Nat :=
  let mss := c.sendMss cfg
  let segments :=
    if c.synRetransmitted then 1
    else if mss > 2190 then 2
    else if mss > 1095 then 3
    else 4
  min (mss * min cfg.initialCwndSegments.toNat segments) cfg.maxCwndBytes

def advertisedWindow (cfg : TcpConfig) : U16 :=
  BitVec.ofNat 16 (min (cfg.receiveCapacity - c.received.length) cfg.receiveWindowLimit.toNat)

def bytesInFlight : Nat :=
  (c.sendSent - c.sendUna).toNat

def enterTimeWait (now : Duration) (cfg : TcpConfig) : Connection :=
  { c with
    state         := .timeWait
    closeDeadline := none
    phaseDeadline := some (now.saturatingAdd cfg.timeWait) }

-- The estimator of RFC 6298.
def updateRto (sample : Duration) (cfg : TcpConfig) : Connection :=
  let (srtt, rttvar) :=
    match c.srtt with
    | some srtt =>
      let difference :=
        if srtt > sample then srtt.saturatingSub sample else sample.saturatingSub srtt
      (((srtt.saturatingMul 7).div 8).saturatingAdd (sample.div 8),
       ((c.rttvar.saturatingMul 3).div 4).saturatingAdd (difference.div 4))
    | none => (sample, sample.div 2)
  { c with
    srtt   := some srtt
    rttvar := rttvar
    rto    :=
      min (max (srtt.saturatingAdd (max (rttvar.saturatingMul 4) (.fromMillis 1))) cfg.initialRto)
        cfg.maxRto }

-- The send window of a segment is taken over if the segment is not older than the last one used.
def updateWindow (segment : Segment) : Connection :=
  if before c.windowSequence segment.sequence
      || (c.windowSequence == segment.sequence && !before segment.acknowledgment c.windowAck) then
    { c with
      peerWindow     := segment.window
      windowSequence := segment.sequence
      windowAck      := segment.acknowledgment
      flights        :=
        if segment.window.toNat > 0 then c.flights.map ({ · with persist := false })
        else c.flights }
  else
    c

-- The accumulators of the loop that takes acknowledged flights off the front of the queue.
-- `early` marks the early return from within the loop.
structure AckScan where
  flights             : List Flight
  completedFlags      : U8
  sample              : Option Duration
  ambiguous           : Bool
  acknowledgedPayload : Nat
  early               : Bool

def ackFlights (ack : U32) (now : Duration) (acc : AckScan) : List Flight → AckScan
  | [] => { acc with flights := [] }
  | f :: fs =>
    if !before f.sequence ack then
      { acc with flights := f :: fs }
    else
      let ambiguous := acc.ambiguous || (!f.rttEligible || f.transmissions > 1)
      if !before ack f.end then
        ackFlights ack now {
          acc with
          completedFlags      := acc.completedFlags ||| f.flags
          sample              :=
            if f.transmissions = 1 ∧ f.rttEligible then f.lastSent.map now.saturatingSub
            else acc.sample
          ambiguous           := ambiguous
          acknowledgedPayload := acc.acknowledgedPayload + f.payload.length
        } fs
      else
        let consumed := (ack - f.sequence).toNat
        if consumed > f.payload.length then
          { acc with flights := f :: fs, ambiguous := ambiguous, early := true }
        else
          let f' := {
            f with
            payload     := f.payload.drop consumed
            sequence    := ack
            rttEligible := false
          }
          { acc with
            flights             := f' :: fs
            ambiguous           := ambiguous
            acknowledgedPayload := acc.acknowledgedPayload + consumed }

def AckScan.init : AckScan where
  flights             := []
  completedFlags      := 0
  sample              := none
  ambiguous           := false
  acknowledgedPayload := 0
  early               := false

-- The retransmission timer restarts when an acknowledgment makes progress.
def restartTimer (now : Duration) : Connection :=
  { c with
    flights := c.flights.modifyHead fun f =>
      if f.lastSent.isSome then { f with lastSent := some now, rto := c.rto, rttEligible := false }
      else f }

def growCwnd
    (c : Connection) (completedFlags : U8) (acknowledgedPayload : Nat) (cfg : TcpConfig) :
    Connection :=
  if has completedFlags SYN then
    { c with
      cwnd := c.initialCwnd cfg
      rto  :=
        if c.synRetransmitted then min (max (.fromSecs 3) cfg.initialRto) cfg.maxRto else c.rto }
  else if acknowledgedPayload > 0 then
    let mss := c.sendMss cfg
    if c.cwnd < c.ssthresh then
      { c with
        cwnd := min (saturatingAdd 64 c.cwnd (min acknowledgedPayload mss)) cfg.maxCwndBytes }
    else
      let credit := saturatingAdd 64 c.congestionCredit acknowledgedPayload
      if credit ≥ c.cwnd then
        { c with
          congestionCredit := credit - c.cwnd
          cwnd             := min (saturatingAdd 64 c.cwnd mss) cfg.maxCwndBytes }
      else
        { c with congestionCredit := credit, cwnd := min c.cwnd cfg.maxCwndBytes }
  else
    c

def finAcknowledged (now : Duration) (cfg : TcpConfig) : Connection :=
  match c.state with
  | .finWait1 => { c with state := .finWait2 }
  | .closing  => c.enterTimeWait now cfg
  | .lastAck  => { c with state := .closed, closeDeadline := none, ackPending := false }
  | _         => c

-- The part of `acknowledge` that is reached if the acknowledgment number is new.
def progress (ack : U32) (now : Duration) (cfg : TcpConfig) : Connection :=
  let scan := ackFlights ack now .init c.flights
  let c := { c with flights := scan.flights }
  if scan.early then
    c
  else
    let c := {
      c with
      flightPayload := c.flightPayload - scan.acknowledgedPayload
      sendUna       := ack
    }
    let c :=
      match scan.ambiguous, scan.sample with
      | false, some sample => c.updateRto sample cfg
      | _, _               => c
    let c := c.restartTimer now
    let c := c.growCwnd scan.completedFlags scan.acknowledgedPayload cfg
    if has scan.completedFlags FIN then c.finAcknowledged now cfg else c

def acknowledge (segment : Segment) (now : Duration) (cfg : TcpConfig) : Connection :=
  if before segment.acknowledgment c.sendUna then
    c
  else
    let c := c.updateWindow segment
    if segment.acknowledgment = c.sendUna then c
    else c.progress segment.acknowledgment now cfg

def finReceived (now : Duration) (cfg : TcpConfig) : Connection :=
  let c := { c with receiveNext := c.receiveNext + 1, peerEof := true }
  match c.state with
  | .established => { c with state := .closeWait }
  | .finWait1    => { c with state := .closing }
  | .finWait2    => c.enterTimeWait now cfg
  | _            => c

def receiveData (segment : Segment) (now : Duration) (cfg : TcpConfig) : Connection :=
  if segment.payload.isEmpty && !has segment.flags FIN then
    c
  else
    let c := { c with ackPending := true }
    if c.peerEof || !(c.state = .established || c.state = .finWait1 || c.state = .finWait2) then
      c
    -- No out-of-order storage.
    else if before c.receiveNext segment.sequence then
      c
    else
      let window := (c.advertisedWindow cfg).toNat
      let skip := (c.receiveNext - segment.sequence).toNat
      if skip > segment.payload.length then
        c
      else
        let count := min (segment.payload.length - skip) window
        let c := {
          c with
          received    := c.received ++ (segment.payload.drop skip).take count
          receiveNext := c.receiveNext + BitVec.ofNat 32 count
        }
        let finSequence := segment.sequence + BitVec.ofNat 32 segment.payload.length
        if has segment.flags FIN && finSequence == c.receiveNext && count < window then
          c.finReceived now cfg
        else
          c

def synSent (segment : Segment) (now : Duration) (cfg : TcpConfig) : Connection :=
  let validAck :=
    has segment.flags ACK && segment.acknowledgment == c.sendSent && c.sendSent != c.sendUna
  if has segment.flags RST then
    if validAck then c.fail .reset else c
  -- Simultaneous open is deliberately not implemented.
  else if !validAck || !has segment.flags SYN || has segment.flags FIN then
    c
  else
    let c := {
      c with
      receiveNext    := segment.sequence + 1
      peerWindow     := segment.window
      peerMss        := segment.mss.getD 536
      windowSequence := segment.sequence
      windowAck      := segment.acknowledgment
    }
    let c := c.acknowledge segment now cfg
    let c := { c with state := .established, phaseDeadline := none, ackPending := true }
    if segment.payload.isEmpty then
      c
    else
      c.receiveData
        { segment with sequence := segment.sequence + 1, flags := segment.flags &&& ~~~SYN } now cfg

-- Whether a segment overlaps the receive window.
def acceptable (segment : Segment) (cfg : TcpConfig) : Bool :=
  let window   : Int := (c.advertisedWindow cfg).toNat
  let relative : Int := (segment.sequence - c.receiveNext).toInt
  let length   : Int := segment.sequenceLen.toNat
  if length = 0 then
    relative = 0 || (relative > 0 && relative < window)
  else
    window > 0 && relative < window && relative + length > 0

def input (segment : Segment) (now : Duration) (cfg : TcpConfig) : Connection :=
  if c.state.isTerminal then
    c
  else if c.state = .synSent then
    c.synSent segment now cfg
  else if c.state = .timeWait then
    -- A reset is ignored here to avoid prematurely assassinating the TIME-WAIT state.
    if has segment.flags RST then
      c
    else if has segment.flags FIN && segment.sequence + segment.sequenceLen == c.receiveNext then
      { c with ackPending := true, phaseDeadline := some (now.saturatingAdd cfg.timeWait) }
    else
      { c with ackPending := true }
  else if c.state = .synReceived
      && segment.flags &&& (SYN ||| ACK ||| RST) == SYN
      && segment.sequence + 1 == c.receiveNext then
    -- A duplicate SYN repeats the SYN-ACK, and keeps its retry count.
    { c with flights := c.flights.modifyHead ({ · with lastSent := none }) }
  else if !c.acceptable segment cfg then
    if has segment.flags RST then c else { c with ackPending := true }
  else if has segment.flags RST then
    if segment.sequence = c.receiveNext then c.fail .reset else { c with ackPending := true }
  else if has segment.flags SYN then
    { c with ackPending := true }
  else if !has segment.flags ACK then
    c
  else if before c.sendSent segment.acknowledgment then
    { c with ackPending := true }
  else if c.state = .synReceived
      && (segment.acknowledgment != c.sendSent || c.sendSent == c.sendUna) then
    c
  else
    let c :=
      if c.state = .synReceived then { c with state := .established, phaseDeadline := none } else c
    let c := c.acknowledge segment now cfg
    if c.state.isTerminal then c else c.receiveData segment now cfg

def status (cfg : TcpConfig) : ConnectionStatus :=
  let inflight := c.bytesInFlight
  let wait : TcpWait :=
    if c.state.isTerminal then .terminal
    else if c.deviceBlocked then .device
    else if c.state = .synSent || c.state = .synReceived then .handshake
    else if !c.queued.isEmpty then
      if c.peerWindow.toNat ≤ inflight then .peerWindow
      else if c.cwnd ≤ inflight then .congestionWindow
      else if c.flights.length ≥ cfg.maxInflightSegments then .flightLimit
      else .ready
    else if c.peerWindow == 0 && (!c.flights.isEmpty || c.writeClosed) then .peerWindow
    else if !c.flights.isEmpty then .acknowledgment
    else if c.writeClosed then .closing
    else .application
  { localAddr       := c.localAddr
    remoteAddr      := c.remoteAddr
    state           := c.state
    sendBuffered    := c.sendBuffered
    receiveBuffered := c.received.length
    localError      := c.localError
    flow            := {
      advertisedWindow       := c.advertisedWindow cfg
      peerWindow             := c.peerWindow
      congestionWindow       := c.cwnd
      slowStartThreshold     := c.ssthresh
      bytesInFlight          := inflight
      outstandingSegments    := c.flights.length
      retransmissionTimeout  := c.rto
      timeoutRetransmissions := c.timeoutRetransmissions
      wait                   := wait
    } }

-- After an idle period the congestion window restarts from its initial value.
def restartIdle (now : Duration) (cfg : TcpConfig) : Connection :=
  if c.flights.isEmpty && c.lastDataSent.any (fun at_ => at_.saturatingAdd c.rto ≤ now) then
    { c with cwnd := min c.cwnd (c.initialCwnd cfg), congestionCredit := 0 }
  else
    c

def prepareData (now : Duration) (cfg : TcpConfig) : Connection :=
  let persist := c.peerWindow == 0 && c.flights.isEmpty
  let reserved := (c.sendNext - c.sendUna).toNat
  let available := if persist then 1 else min c.cwnd c.peerWindow.toNat - reserved
  let n := min (min c.queued.length (c.sendMss cfg)) available
  if n = 0 then
    c
  else
    { c with queued := c.queued.drop n }.startFlight (ACK ||| PSH) (c.queued.take n) persist now

def prepareFin (now : Duration) : Connection :=
  if c.peerWindow.toNat > 0 then
    { c.startFlight (FIN ||| ACK) [] false now with
      state := if c.state = .closeWait then .lastAck else .finWait1 }
  else if c.windowProbeAt ≤ now then
    { c with probePending := true }
  else
    c

def prepare (now : Duration) (cfg : TcpConfig) : Connection :=
  if !c.state.isOpen
      || c.flights.length ≥ cfg.maxInflightSegments
      || c.flights.getLast?.any (·.transmissions == 0) then
    c
  else if !c.queued.isEmpty then
    (c.restartIdle now cfg).prepareData now cfg
  else if c.flights.isEmpty && c.writeClosed then
    c.prepareFin now
  else
    c

-- Only the oldest outstanding segment drives loss recovery.
def flightIndex (now : Duration) : Option Nat :=
  if c.flights.head?.any (·.due now) then
    some 0
  else if c.flights.getLast?.any (·.transmissions == 0) then
    some (c.flights.length - 1)
  else
    none

-- Cuts a flight down to `available` bytes. The bytes cut off return to the front of the queue.
def trim (index : Nat) (f : Flight) (available : Nat) (persist : Bool) : Connection :=
  if f.payload.length > available then
    let f' := { f with payload := f.payload.take available }
    { c with
      queued        := f.payload.drop available ++ c.queued
      flightPayload := c.flightPayload - (c.sendNext - f'.end).toNat
      sendNext      := f'.end
      flights       := c.flights.set index { f' with persist } }
  else
    { c with flights := c.flights.set index { f with persist } }

-- A device-blocked segment may outlive a window update or loss, so both windows are checked again
-- before any previously unsent bytes are submitted.
def recheck (index : Nat) (now : Duration) : Connection × Option Nat :=
  match c.flights[index]? with
  | none => (c, some index)
  | some f =>
    if f.transmissions == 0 && !has f.flags SYN then
      let inflight := c.bytesInFlight
      let persist := c.peerWindow == 0 && inflight == 0
      let available := if persist then 1 else min c.cwnd c.peerWindow.toNat - inflight
      if available == 0 || (persist && has f.flags FIN) then
        if persist && c.windowProbeAt ≤ now then
          ({ c with probePending := true }, none)
        else
          (c, none)
      else
        (c.trim index f available persist, some index)
    else
      (c, some index)

-- The state of the connection and the index of the flight to be sent, right before a frame is
-- allocated for it.
def stage (now : Duration) (cfg : TcpConfig) : Connection × Option Nat :=
  let c := c.prepare now cfg
  let (c, index) :=
    match c.flightIndex now with
    | some index => c.recheck index now
    | none       => (c, none)
  ({ c with deviceBlocked := false }, index)

-- The segment that carries the selected flight, or else a pure acknowledgment. A window probe uses
-- a sequence number that the peer has already seen.
def outgoing (index : Option Nat) (cfg : TcpConfig) : Segment :=
  let (sequence, flags, payload) :=
    match index.bind (c.flights[·]?) with
    | some flight => (flight.sequence, flight.flags, flight.payload)
    | none =>
      (if c.probePending && !c.ackPending then c.sendSent - 1 else c.sendSent, ACK, [])
  { source         := c.localAddr
    destination    := c.remoteAddr
    sequence       := sequence
    acknowledgment := c.receiveNext
    flags          := flags
    window         := c.advertisedWindow cfg
    mss            := if has flags SYN then some cfg.mss else none
    payload        := payload }

-- The loss response to the retransmission of a flight.
def retransmit (f : Flight) (now : Duration) (cfg : TcpConfig) : Connection :=
  let mss := c.sendMss cfg
  let timedOut := f.lastSent.any (fun at_ => at_.saturatingAdd f.rto ≤ now)
  let c := {
    c with
    synRetransmitted := c.synRetransmitted || has f.flags SYN
    rto              := min (f.rto.saturatingMul 2) cfg.maxRto
    flights          := c.flights.map ({ · with rttEligible := false })
  }
  if !f.persist && timedOut then
    { c with
      -- Repeated timeouts of the same segment retain `ssthresh`.
      ssthresh               :=
        if f.transmissions = 1 then max (c.bytesInFlight / 2) (2 * mss) else c.ssthresh
      cwnd                   := min mss cfg.maxCwndBytes
      congestionCredit       := 0
      timeoutRetransmissions := saturatingAdd 64 c.timeoutRetransmissions 1 }
  else
    c

-- Records that the device accepted the flight at `index`. Returns whether it was a retransmission.
def recordFlight (index : Nat) (now : Duration) (cfg : TcpConfig) : Connection × Bool :=
  match c.flights[index]? with
  | none => (c, false)
  | some f =>
    let retransmitted := f.transmissions > 0
    let c := if retransmitted then c.retransmit f now cfg else c
    let f' := {
      f with
      rto           := if retransmitted then c.rto else f.rto
      rttEligible   := if retransmitted then false else f.rttEligible
      transmissions := saturatingAdd 32 f.transmissions 1
      lastSent      := some now
    }
    ({ c with
      flights      := c.flights.set index f'
      sendSent     := if before c.sendSent f'.end then f'.end else c.sendSent
      lastDataSent := if f'.payload.isEmpty then c.lastDataSent else some now }, retransmitted)

-- Records that the device accepted the outgoing segment.
def record (index : Option Nat) (now : Duration) (cfg : TcpConfig) : Connection × Bool :=
  let flags := (c.outgoing index cfg).flags
  let (c, retransmitted) :=
    match index with
    | some index => c.recordFlight index now cfg
    | none       => (c, false)
  let c := if has flags ACK then { c with ackPending := false } else c
  let c :=
    if c.probePending then
      { c with probePending := false, windowProbeAt := now.saturatingAdd c.rto }
    else
      c
  (c, retransmitted)

-- The segment which a call of `transmit` tries to submit, if any.
def emission (now : Duration) (cfg : TcpConfig) : Option Segment :=
  if c.state.isTerminal then
    none
  else
    let (c, index) := c.stage now cfg
    if index.isNone && !c.ackPending && !c.probePending then none
    else some (c.outgoing index cfg)

-- The effect of a call of `transmit` for the given outcome of the submission. The outcome is only
-- relevant if there is a segment to submit.
def transmitted (now : Duration) (cfg : TcpConfig) (outcome : Submission) :
    Connection × IoResult (Bool × Bool) :=
  if c.state.isTerminal then
    (c, .ok (false, false))
  else
    let (c, index) := c.stage now cfg
    if index.isNone && !c.ackPending && !c.probePending then
      (c, .ok (false, false))
    else match outcome with
    | .blocked  => ({ c with deviceBlocked := true }, .ok (false, false))
    | .failed e => (c, .error e)
    | .accepted =>
      let (c, retransmitted) := c.record index now cfg
      (c, .ok (true, retransmitted))

-- Hands a segment to the device.
def submit {δ : Type} [Device δ] (device : δ) (segment : Segment) : δ × Submission :=
  match Device.alloc device with
  | (device, none)       => (device, .blocked)
  | (device, some frame) =>
    match Wire.buildIpv4 frame segment with
    | .error e  => (device, .failed e)
    | .ok frame =>
      match Device.send device [frame] with
      | (device, .error e) => (device, if e.kind = .wouldBlock then .blocked else .failed e)
      | (device, .ok n)    => (device, if n = 0 then .blocked else .accepted)

def transmit {δ : Type} [Device δ] (c : Connection) (device : δ) (now : Duration)
    (cfg : TcpConfig) : δ × Connection × IoResult (Bool × Bool) :=
  match c.emission now cfg with
  | none         => (device, c.transmitted now cfg .blocked)
  | some segment =>
    let (device, outcome) := submit device segment
    (device, c.transmitted now cfg outcome)

end Connection
