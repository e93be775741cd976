import AsyncNetStack.Lib.Fallible
import AsyncNetStack.Tcp.Connection

open Serial Tcp Fallible

abbrev ConnectionId := Nat

structure TcpStats where
  received           : Nat
  malformed          : Nat
  ignored            : Nat
  submitted          : Nat
  retransmitted      : Nat
  resetsSubmitted    : Nat
  controlDrops       : Nat
  connectionOverflow : Nat
  eventsOverwritten  : Nat

def TcpStats.default : TcpStats where
  received           := 0
  malformed          := 0
  ignored            := 0
  submitted          := 0
  retransmitted      := 0
  resetsSubmitted    := 0
  controlDrops       := 0
  connectionOverflow := 0
  eventsOverwritten  := 0

structure TcpEvent where
  time       : Duration
  connection : ConnectionId
  status     : ConnectionStatus

-- What a pool produces on behalf of one of its connections: a segment that the device accepted from
-- it, or a reset that was built from its counters and queued.
inductive Output
  | segment (id : ConnectionId) (segment : Segment)
  | reset (id : ConnectionId) (reset : Reset)
  deriving DecidableEq

def Output.id : Output → ConnectionId
  | segment id _ => id
  | reset id _   => id

-- The received packets (`rx`) are not part of the state, as every call of `Device::recv` clears
-- them first. The outputs are a history: nothing depends on them.
structure TcpPool (δ : Type) where
  device      : δ
  config      : TcpConfig
  connections : Std.TreeMap ConnectionId Connection
  listeners   : Std.TreeSet SocketAddr
  resets      : List Reset
  now         : Duration
  nextId      : Nat
  stats       : TcpStats
  events      : List TcpEvent
  outputs     : List Output

namespace TcpPool

def missing : IoError :=
  { kind := .notFound, message := "unknown TCP connection" }

def validateAddress (address : SocketAddr) : IoResult Unit :=
  if address.port = 0 || address.ip.isUnspecified || address.ip.isBroadcast
      || address.ip.isMulticast then
    .error (.invalid "TCP needs a unicast IP and nonzero port")
  else
    .ok ()

-- Errors that concern only the connection or the reset which could not be submitted.
def isLocal (e : IoError) : Bool :=
  e.kind = .notConnected || e.kind = .addrNotAvailable || e.kind = .invalidInput

variable {δ : Type}

def init (device : δ) (config : TcpConfig) : TcpPool δ where
  device      := device
  config      := config
  connections := ∅
  listeners   := ∅
  resets      := []
  now         := .zero
  nextId      := 1
  stats       := .default
  events      := []
  outputs     := []

def new (device : δ) (config : TcpConfig) : IoResult (TcpPool δ) :=
  if config.rejected then .error (.invalid "invalid TCP configuration")
  else .ok (init device config)

variable (p : TcpPool δ)

def listen (address : SocketAddr) : TcpPool δ × IoResult Unit :=
  match validateAddress address with
  | .error e => (p, .error e)
  | .ok _ =>
    if p.listeners.contains address then
      (p, .error { kind := .addrInUse, message := "TCP listener exists" })
    else if p.listeners.size = p.config.maxListeners then
      (p, .error (.blocked "listener table full"))
    else
      ({ p with listeners := p.listeners.insert address }, .ok ())

def unlisten (address : SocketAddr) : TcpPool δ :=
  { p with
    listeners   := p.listeners.erase address
    connections := p.connections.filter (fun _ c => c.accepted || c.localAddr != address) }

def find (localAddr remoteAddr : SocketAddr) : Option ConnectionId :=
  (p.connections.toList.find? fun (_, c) =>
    c.localAddr == localAddr && c.remoteAddr == remoteAddr && !c.state.isTerminal).map (·.fst)

def allocateId : TcpPool δ × IoResult ConnectionId :=
  if p.nextId + 1 < 2 ^ 64 then
    ({ p with nextId := p.nextId + 1 }, .ok p.nextId)
  else
    (p, .error (.invalid "connection IDs exhausted"))

-- Adds a connection under a new identifier. It is made from the result of `initial_sequence`.
def register (sequence : IoResult U32) (f : U32 → Connection) : TcpPool δ × IoResult ConnectionId :=
  match sequence with
  | .error e => (p, .error e)
  | .ok iss  =>
    andThen p.allocateId fun p id =>
      ({ p with connections := p.connections.insert id (f iss) }, .ok id)

def connect (localAddr remoteAddr : SocketAddr) (sequence : IoResult U32) :
    TcpPool δ × IoResult ConnectionId :=
  andThen (p, validateAddress localAddr) fun p _ =>
  andThen (p, validateAddress remoteAddr) fun p _ =>
    if localAddr = remoteAddr then
      (p, .error (.invalid "identical TCP endpoints"))
    else if p.connections.size = p.config.maxConnections then
      (p, .error (.blocked "connection table full"))
    else if (p.find localAddr remoteAddr).isSome then
      (p, .error { kind := .addrInUse, message := "TCP tuple already active" })
    else
      p.register sequence (.active localAddr remoteAddr · p.now p.config)

def accept (address : SocketAddr) : TcpPool δ × IoResult (Option ConnectionId) :=
  if !p.listeners.contains address then
    (p, .error (.invalid "no listener at this address"))
  else
    match p.connections.toList.find? fun (_, c) =>
        c.localAddr == address && !c.accepted && c.state.isOpen with
    | some (id, c) =>
      ({ p with connections := p.connections.insert id { c with accepted := true } }, .ok (some id))
    | none => (p, .ok none)

def reportState (id : ConnectionId) : TcpPool δ :=
  match p.connections[id]? with
  | none => p
  | some c =>
    let status := c.status p.config
    let key := (status.state, status.flow.wait, status.flow.timeoutRetransmissions)
    let transition := c.reported != some key
    let metricsChanged := c.reportedFlow != some status.flow
    let sampleDue := c.reportedAt.saturatingAdd p.config.stateReportInterval ≤ p.now
    if !transition && !(metricsChanged && sampleDue) then
      p
    else
      let full := p.events.length = p.config.eventCapacity
      { p with
        connections := p.connections.insert id {
          c with
          reported     := some key
          reportedFlow := some status.flow
          reportedAt   := p.now
        }
        stats := {
          p.stats with
          eventsOverwritten :=
            if full then saturatingAdd 64 p.stats.eventsOverwritten 1 else p.stats.eventsOverwritten
        }
        events := (if full then p.events.tail else p.events) ++
          [{ time := p.now, connection := id, status := status }] }

def reportStates : TcpPool δ :=
  if p.config.verboseState then p.connections.keys.foldl reportState p else p

-- A call on a single connection.
def onConnection {α : Type} (p : TcpPool δ) (id : ConnectionId)
    (f : Connection → Connection × IoResult α) : TcpPool δ × IoResult α :=
  match p.connections[id]? with
  | none   => (p, .error missing)
  | some c => ({ p with connections := p.connections.insert id (f c).fst }, (f c).snd)

def write (p : TcpPool δ) (id : ConnectionId) (bytes : List U8) : TcpPool δ × IoResult Nat :=
  p.onConnection id (·.write bytes p.config)

def read (p : TcpPool δ) (id : ConnectionId) (size : Nat) : TcpPool δ × IoResult (List U8) :=
  p.onConnection id (·.read size)

def close (p : TcpPool δ) (id : ConnectionId) : TcpPool δ × IoResult Unit :=
  p.onConnection id (·.close p.now p.config)

-- Queues a reset. The `origin` is the connection whose counters it was built from, if any.
def queueReset (origin : Option ConnectionId) (reset : Reset) : TcpPool δ :=
  if p.resets.length = p.config.controlCapacity then
    { p with stats := { p.stats with controlDrops := p.stats.controlDrops + 1 } }
  else
    { p with
      resets  := p.resets ++ [reset]
      outputs := p.outputs ++ (origin.map (.reset · reset)).toList }

def abort (id : ConnectionId) : TcpPool δ × IoResult Unit :=
  match p.connections[id]? with
  | none   => (p, .error missing)
  | some c =>
    let p := { p with connections := p.connections.insert id (c.fail .reset) }
    ((p.queueReset (some id) c.resetPacket).reportStates, .ok ())

def remove (id : ConnectionId) : TcpPool δ × IoResult Unit :=
  match p.connections[id]? with
  | none   => (p, .error missing)
  | some c =>
    if !c.state.isTerminal then
      (p, .error (.blocked "connection is not terminal"))
    else
      ({ p.reportStates with connections := p.reportStates.connections.erase id }, .ok ())

-- The stateless answer to a segment that does not belong to any connection.
def resetFor (segment : Segment) : Reset :=
  if has segment.flags ACK then
    { localAddr      := segment.destination
      remoteAddr     := segment.source
      sequence       := segment.acknowledgment
      acknowledgment := 0
      flags          := RST }
  else
    { localAddr      := segment.destination
      remoteAddr     := segment.source
      sequence       := 0
      acknowledgment := segment.sequence + segment.sequenceLen
      flags          := RST ||| ACK }

def ignore : TcpPool δ :=
  { p with stats := { p.stats with ignored := p.stats.ignored + 1 } }

-- The `n`-th identifier is given to a connection whose sequence numbers start at `sequence n`.
def input (p : TcpPool δ) (segment : Segment) (sequence : ConnectionId → IoResult U32) :
    TcpPool δ × IoResult Unit :=
  if (validateAddress segment.source).isOk = false ||
    (validateAddress segment.destination).isOk = false
      || has segment.flags URG then
    (p.ignore, .ok ())
  else match p.find segment.destination segment.source with
  | some id =>
    ({ p with connections := p.connections.modify id (·.input segment p.now p.config) }, .ok ())
  | none =>
    if !p.listeners.toList.any (·.ip == segment.destination.ip)
        && !p.connections.values.any (·.localAddr.ip == segment.destination.ip) then
      (p.ignore, .ok ())
    else if has segment.flags RST then
      (p, .ok ())
    else if p.listeners.contains segment.destination
        && segment.flags &&& (SYN ||| ACK ||| FIN) == SYN then
      if p.connections.size = p.config.maxConnections then
        ({ p with
          stats := { p.stats with connectionOverflow := p.stats.connectionOverflow + 1 } }, .ok ())
      else
        andThen (p.register (sequence p.nextId) (.passive segment · p.now p.config)) fun p _ =>
          (p, .ok ())
    else
      (p.queueReset none (resetFor segment), .ok ())

def receive (p : TcpPool δ) (sequence : ConnectionId → IoResult U32) :
    List PacketBuf → TcpPool δ × IoResult Unit
  | []              => (p, .ok ())
  | frame :: frames =>
    let bytes := frame.asSlice
    if bytes.length < 20 || bytes[9]? != some 6 then
      p.ignore.receive sequence frames
    else match Wire.parseIpv4 bytes with
    | .ok segment =>
      let p := { p with stats := { p.stats with received := p.stats.received + 1 } }
      andThen (p.input segment sequence) fun p _ => p.receive sequence frames
    | .error _ =>
      receive { p with stats := { p.stats with malformed := p.stats.malformed + 1 } }
        sequence frames

section Device

variable [Device δ]

variable (p : TcpPool δ)

def pollDevice (now : Duration) : TcpPool δ × IoResult Unit :=
  let (device, result) := Device.pollAt p.device now
  ({ p with device }, result)

def recvDevice (budget : Nat) : TcpPool δ × IoResult (List PacketBuf) :=
  let (device, result) := Device.recv p.device budget
  ({ p with device }, result)

def resetSegment (reset : Reset) : Segment where
  source         := reset.localAddr
  destination    := reset.remoteAddr
  sequence       := reset.sequence
  acknowledgment := reset.acknowledgment
  flags          := reset.flags
  window         := 0
  mss            := none
  payload        := []

def flushReset : TcpPool δ × IoResult Unit :=
  match p.resets with
  | [] => (p, .ok ())
  | reset :: resets =>
    match Device.alloc p.device with
    | (device, none) => ({ p with device }, .ok ())
    | (device, some frame) =>
      match Wire.buildIpv4 frame (resetSegment reset) with
      | .error e => ({ p with device }, .error e)
      | .ok frame =>
        match Device.send device [frame] with
        | (device, .error e) =>
          if e.kind = .wouldBlock then
            ({ p with device }, .ok ())
          else if isLocal e then
            ({ p with
              device, resets
              stats := { p.stats with controlDrops := p.stats.controlDrops + 1 } }, .ok ())
          else
            ({ p with device }, .error e)
        | (device, .ok n) =>
          if n = 1 then
            ({ p with
              device, resets
              stats := { p.stats with resetsSubmitted := p.stats.resetsSubmitted + 1 } }, .ok ())
          else
            ({ p with device }, .ok ())

-- One attempt to transmit a segment of a connection. Returns whether there may be another one.
def transmitOne (id : ConnectionId) (now : Duration) : TcpPool δ × IoResult Bool :=
  match p.connections[id]? with
  | none => (p, .ok false)
  | some c =>
    match c.transmit p.device now p.config with
    | (device, c', .error e) =>
      if isLocal e then
        ({ p with
          device
          connections :=
            p.connections.insert id { c'.fail .failed with localError := some e.kind } }, .ok false)
      else
        ({ p with device, connections := p.connections.insert id c' }, .error e)
    | (device, c', .ok (sent, retransmitted)) =>
      ({ p with
        device
        connections := p.connections.insert id c'
        stats := {
          p.stats with
          submitted     := p.stats.submitted + sent.toNat
          retransmitted := p.stats.retransmitted + retransmitted.toNat
        }
        outputs :=
          if sent then p.outputs ++ ((c.emission now p.config).map (.segment id)).toList
          else p.outputs }, .ok sent)

def transmitBurst (p : TcpPool δ) (id : ConnectionId) (now : Duration) :
    Nat → TcpPool δ × IoResult Unit
  | 0     => (p, .ok ())
  | n + 1 =>
    andThen (p.transmitOne id now) fun p sent =>
      if sent then p.transmitBurst id now n else (p, .ok ())

def transmitAll (p : TcpPool δ) (now : Duration) : List ConnectionId → TcpPool δ × IoResult Unit
  | []        => (p, .ok ())
  | id :: ids =>
    andThen (p.transmitBurst id now p.config.txBurst) fun p _ => p.transmitAll now ids

-- The part of `poll` that comes before any use of the device.
def tick (p : TcpPool δ) (now : Duration) : TcpPool δ :=
  reportStates { p with now, connections := p.connections.map fun _ c => c.tick now p.config }

def release : TcpPool δ :=
  { p with connections := p.connections.filter fun _ c => c.accepted || !c.state.isTerminal }

def poll (now : Duration) (budget : Nat) (sequence : ConnectionId → IoResult U32) :
    TcpPool δ × IoResult Nat :=
  if now < p.now then
    (p, .error (.invalid "time went backwards"))
  else
    andThen ((p.tick now).release.pollDevice now) fun p _ =>
    andThen (p.recvDevice budget) fun p frames =>
    andThen (p.receive sequence frames) fun p _ =>
    andThen p.flushReset fun p _ =>
    andThen (p.transmitAll now p.connections.keys) fun p _ =>
    andThen (p.reportStates.pollDevice now) fun p _ =>
      (p, .ok frames.length)

end Device

def nextDeadline (p : TcpPool δ) : Option Duration :=
  (p.connections.values.filterMap (·.nextDeadline p.config)).min?

-- All calls that can change a pool. The device is within reach of the owner of the pool.
inductive Op (δ : Type)
  | listen (address : SocketAddr)
  | unlisten (address : SocketAddr)
  | connect (localAddr remoteAddr : SocketAddr) (sequence : IoResult U32)
  | accept (address : SocketAddr)
  | write (id : ConnectionId) (bytes : List U8)
  | read (id : ConnectionId) (size : Nat)
  | close (id : ConnectionId)
  | abort (id : ConnectionId)
  | remove (id : ConnectionId)
  | poll (now : Duration) (budget : Nat) (sequence : ConnectionId → IoResult U32)
  | popEvent
  | deviceMut (f : δ → δ)

def step [Device δ] (p : TcpPool δ) : Op δ → TcpPool δ
  | .listen address                        => (p.listen address).fst
  | .unlisten address                      => p.unlisten address
  | .connect localAddr remoteAddr sequence => (p.connect localAddr remoteAddr sequence).fst
  | .accept address                        => (p.accept address).fst
  | .write id bytes                        => (p.write id bytes).fst
  | .read id size                          => (p.read id size).fst
  | .close id                              => (p.close id).fst
  | .abort id                              => (p.abort id).fst
  | .remove id                             => (p.remove id).fst
  | .poll now budget sequence              => (p.poll now budget sequence).fst
  | .popEvent                              => { p with events := p.events.tail }
  | .deviceMut f                           => { p with device := f p.device }

end TcpPool
