import AsyncNetStack.Device.Basic
import AsyncNetStack.Lib.Fallible
import AsyncNetStack.Net.Responder
import AsyncNetStack.Udp.Scheduler

open Std Udp Fallible

structure Service where
  address : SocketAddr
  id      : U32
  deriving DecidableEq

structure Peer where
  service  : Service
  lastSeen : Duration

structure PoolStats where
  received          : Nat := 0
  invalid           : Nat := 0
  unbound           : Nat := 0
  submitted         : Nat := 0
  responseDrops     : Nat := 0
  peerOverflow      : Nat := 0
  rejected          : Nat := 0
  dropped           : Nat := 0
  eventsOverwritten : Nat := 0

structure SendOptions where
  deadline : Option Duration := none

inductive UdpOutcome
  | rejected (reason : UdpFailure)
  | dropped (reason : UdpFailure)
  | submitted
  deriving DecidableEq

structure UdpEvent where
  time        : Duration
  id          : Option DatagramId
  source      : SocketAddr
  destination : SocketAddr
  generation  : U64
  outcome     : UdpOutcome

-- The buffers which the source keeps in order not to allocate are not part of the state. Neither
-- are the two capacities that repeat those of the configuration. The outcomes are history: they are
-- the events of datagrams that left the queue, and unlike events they are never overwritten.
structure UdpPool (δ : Type) where
  device     : δ
  services   : TreeMap SocketAddr U32
  peers      : TreeMap SocketAddr Peer
  tx         : Scheduler
  config     : UdpConfig
  events     : List UdpEvent
  nextId     : Nat
  generation : U64
  now        : Duration
  stats      : PoolStats
  outcomes   : List (DatagramId × UdpOutcome)

namespace UdpPool

variable {δ η : Type}

-- What a handler wants for a datagram. An echo reuses the received frame.
inductive Action
  | ignore
  | echo
  deriving DecidableEq

def QUERY : List U8 :=
  [0x41, 0x4e, 0x53, 0x50, 1, 0]

def ADVERT : List U8 :=
  [0x41, 0x4e, 0x53, 0x50, 1, 1]

def blocked : IoError :=
  .blocked "UDP pool TX queue or frame pool full"

def failureError (reason : UdpFailure) : IoError where
  kind := match reason with
    | .sourceUnavailable                   => .addrNotAvailable
    | .invalidDestination | .invalidPacket => .invalidInput
    | .deadlineExpired                     => .timedOut
    | _                                    => .wouldBlock
  message := "UDP admission rejected; see failure event"

def validateBind (address : SocketAddr) : IoResult Unit :=
  if address.port = 0 || address.ip.isUnspecified || address.ip.isBroadcast ||
      address.ip.isMulticast then
    .error (.invalid "bind requires unicast IP and nonzero port")
  else
    .ok ()

def withConfig (device : δ) (config : UdpConfig) : IoResult (UdpPool δ) :=
  if config.invalid then
    .error (.invalid "invalid UDP configuration")
  else
    .ok {
      device     := device
      services   := ∅
      peers      := ∅
      tx         := .new
      config     := config
      events     := []
      nextId     := 1
      generation := 0
      now        := .zero
      stats      := {}
      outcomes   := []
    }

def new (device : δ) (queueCapacity peerCapacity : Nat) : IoResult (UdpPool δ) :=
  withConfig device { UdpConfig.default with
    queueCapacity
    peerCapacity
    maxTxPeers      := queueCapacity
    perPeerCapacity := queueCapacity
    txBudget        := queueCapacity }

variable (p : UdpPool δ)

def popEvent : UdpPool δ × Option UdpEvent :=
  ({ p with events := p.events.tail }, p.events.head?)

def pending : Nat :=
  p.tx.queue.length

def nextDeadline (p : UdpPool δ) : Option Duration :=
  (p.tx.nextDeadline p.config.fairQueue).map (max · p.now)

def bump (f : PoolStats → PoolStats) : UdpPool δ :=
  { p with stats := f p.stats }

def event (ev : UdpEvent) : UdpPool δ :=
  if p.config.eventCapacity = 0 then
    p
  else if p.events.length = p.config.eventCapacity then
    bump { p with events := p.events.tail ++ [ev] } fun s =>
      { s with eventsOverwritten := saturatingAdd 64 s.eventsOverwritten 1 }
  else
    { p with events := p.events ++ [ev] }

def rejected (p : UdpPool δ) (source destination : SocketAddr) (reason : UdpFailure) : UdpPool δ :=
  let p := p.bump fun s => { s with rejected := s.rejected + 1 }
  p.event {
    time       := p.now
    id         := none
    source
    destination
    generation := p.generation
    outcome    := .rejected reason
  }

def finish (q : Queued) (outcome : UdpOutcome) : UdpPool δ :=
  let p := match outcome with
    | .dropped _ => p.bump fun s => { s with dropped := s.dropped + 1 }
    | _          => p
  event { p with outcomes := p.outcomes ++ [(q.id, outcome)] } {
    time        := p.now
    id          := some q.id
    source      := q.source
    destination := q.destination
    generation  := q.generation
    outcome
  }

-- Removes a datagram from the queue, with the reason for it.
def drop (index : Fin p.tx.queue.length) (reason : UdpFailure) : UdpPool δ :=
  let (tx, q) := p.tx.remove index
  finish { p with tx } q (.dropped reason)

-- The loops that go through the queue and drop some datagrams. There are as many rounds as there
-- are datagrams from the index on, and a datagram that moves up to the index is next.
def dropWhere (p : UdpPool δ) (cond : Queued → Bool) (reason : UdpFailure) (i : Nat) :
    Nat → UdpPool δ
  | 0          => p
  | rounds + 1 =>
    if h : i < p.tx.queue.length then
      if cond p.tx.queue[i] then
        dropWhere (p.drop ⟨i, h⟩ reason) cond reason i rounds
      else
        dropWhere p cond reason (i + 1) rounds
    else
      p

def dropAll (cond : Queued → Bool) (reason : UdpFailure) : UdpPool δ :=
  p.dropWhere cond reason 0 p.tx.queue.length

def unbind (address : SocketAddr) : UdpPool δ × Bool :=
  if p.services.contains address then
    let p := { p with
      services   := p.services.erase address
      generation := p.generation + 1
      peers      := ∅ }
    (p.dropAll (·.source = address) .configurationChanged, true)
  else
    (p, false)

def insertServices (replacement : TreeMap SocketAddr U32) :
    List Service → IoResult (TreeMap SocketAddr U32)
  | []                  => .ok replacement
  | service :: services =>
    match validateBind service.address with
    | .error err => .error err
    | .ok ()     =>
      if replacement.contains service.address then
        .error { kind := .addrInUse, message := "duplicate endpoint" }
      else
        insertServices (replacement.insert service.address service.id) services

def validateServices (services : List Service) : IoResult (TreeMap SocketAddr U32) :=
  if services.length > p.config.serviceCapacity then
    .error blocked
  else
    insertServices ∅ services

def installServices (services : TreeMap SocketAddr U32) : UdpPool δ :=
  let p := p.dropAll (fun _ => true) .configurationChanged
  { p with
    tx         := .new
    services
    peers      := ∅
    generation := p.generation + 1 }

-- Maps are equal if they have the same entries.
def servesAlready (services : TreeMap SocketAddr U32) : Bool :=
  services.toList == p.services.toList

def replaceServices (services : List Service) : UdpPool δ × IoResult Unit :=
  match p.validateServices services with
  | .error err      => (p, .error err)
  | .ok replacement =>
    (if p.servesAlready replacement then p else p.installServices replacement, .ok ())

def bind (service : Service) : UdpPool δ × IoResult Unit :=
  match validateBind service.address with
  | .error err => (p, .error err)
  | .ok ()     =>
    if p.services.contains service.address then
      (p, .error { kind := .addrInUse, message := "endpoint already bound" })
    else if p.services.size ≥ p.config.serviceCapacity then
      (p, .error blocked)
    else
      ({ p with services := p.services.insert service.address service.id }, .ok ())

def admission (p : UdpPool δ) (source destination : SocketAddr) (options : SendOptions) :
    UdpPool δ × Except UdpFailure Unit :=
  if !p.services.contains source then
    (p, .error .sourceUnavailable)
  else if destination.port = 0 || destination.ip.isUnspecified || destination.ip.isMulticast then
    (p, .error .invalidDestination)
  else if options.deadline.any (· ≤ p.now) then
    (p, .error .deadlineExpired)
  else
    let (tx, result) := p.tx.admission destination p.now p.config
    ({ p with tx }, result)

def exhausted : IoError :=
  { kind := .other 0, message := "UDP IDs exhausted" }

def enqueue (frame : PacketBuf) (source destination : SocketAddr)
    (options : SendOptions) : UdpPool δ × IoResult DatagramId :=
  if p.nextId + 1 < 2 ^ 64 then
    let lifetime := p.config.queueLifetime.map p.now.saturatingAdd
    let q : Queued := {
      frame
      id         := p.nextId
      source
      destination
      deadline   := (options.deadline.toList ++ lifetime.toList).min?
      generation := p.generation
    }
    ({ p with nextId := p.nextId + 1, tx := p.tx.push q }, .ok p.nextId)
  else
    (p, .error exhausted)

-- Advance the queue clock and expire stale traffic without receiving packets.
def advance (now : Duration) : UdpPool δ × IoResult Unit :=
  if now < p.now then
    (p, .error (.invalid "time went backwards"))
  else
    (dropAll { p with now } (·.deadline.any (· ≤ now)) .deadlineExpired, .ok ())

section

variable [Device δ]

variable (p : UdpPool δ)

-- A datagram without a frame or that does not fit into one is refused like one that is not
-- admitted.
def sendWithOptions (source destination : SocketAddr) (payload : List U8)
    (options : SendOptions) : UdpPool δ × IoResult DatagramId :=
  match p.admission source destination options with
  | (p, .error reason) => (p.rejected source destination reason, .error (failureError reason))
  | (p, .ok ())        =>
    match Device.alloc p.device with
    | (device, none)       =>
      (rejected { p with device } source destination .noBuffer, .error blocked)
    | (device, some frame) =>
      match Udp.Wire.buildIpv4 frame { source, destination, payload } 0 with
      | .error err => (rejected { p with device } source destination .invalidPacket, .error err)
      | .ok frame  => enqueue { p with device } frame source destination options

def sendTo (source destination : SocketAddr) (payload : List U8) : UdpPool δ × IoResult Unit :=
  let (p, result) := p.sendWithOptions source destination payload {}
  (p, result.map fun _ => ())

def discover (source seed : SocketAddr) (serviceId : U32) : UdpPool δ × IoResult Unit :=
  p.sendTo source seed (QUERY ++ be32 serviceId)

-- Errors after which a datagram is not worth another attempt.
def isPermanent (kind : ErrorKind) : Bool :=
  kind = .invalidInput || kind = .addrNotAvailable || kind = .notConnected ||
  kind = .permissionDenied

-- The device has accepted the datagram at an index.
def submit (index : Fin p.tx.queue.length) : UdpPool δ :=
  let q := p.tx.queue.get index
  let tx := p.tx.accepted q.destination q.frame.len p.now p.config
  let (tx, q) := tx.remove index
  (finish { p with tx } q .submitted).bump fun s => { s with submitted := s.submitted + 1 }

-- What becomes of a datagram that is offered to the device. One that is discarded is not worth
-- another attempt, and a failure ends the flush.
inductive Attempt
  | accepted
  | blocked
  | discarded
  | failed (err : IoError)

def beyondSlice : IoError :=
  { kind := .invalidData, message := "device accepted beyond submitted slice" }

-- Datagrams are offered one at a time, so that a permanent failure concerns only one of them.
def attempt (index : Fin p.tx.queue.length) : UdpPool δ × Attempt :=
  let (device, result) := Device.send p.device [(p.tx.queue.get index).frame]
  match result with
  | .ok 1      => (submit { p with device } index, .accepted)
  | .ok 0      => ({ p with device }, .blocked)
  | .ok _      => ({ p with device }, .failed beyondSlice)
  | .error err =>
    if err.kind = .wouldBlock then
      ({ p with device }, .blocked)
    else if isPermanent err.kind then
      (drop { p with device } index (.device err.kind), .discarded)
    else
      ({ p with device }, .failed err)

def flushRounds (p : UdpPool δ) (blockedPeers : List SocketAddr) (accepted : Nat) :
    Nat → UdpPool δ × IoResult Nat
  | 0          => (p, .ok accepted)
  | rounds + 1 =>
    match p.tx.candidate p.now p.config.fairQueue blockedPeers with
    | none       => (p, .ok accepted)
    | some index =>
      let peer := (p.tx.queue.get index).destination
      match p.attempt index with
      | (p, .accepted)   => p.flushRounds blockedPeers (accepted + 1) rounds
      | (p, .blocked)    => p.flushRounds (blockedPeers ++ [peer]) accepted rounds
      | (p, .failed err) => (p, .error err)
      | (p, .discarded)  =>
        p.flushRounds (if p.config.fairQueue then blockedPeers ++ [peer] else blockedPeers) accepted
          rounds

def flush : UdpPool δ × IoResult Nat :=
  andThen (p.advance p.now) fun p _ => p.flushRounds [] 0 p.config.txBudget

-- Whether a service is one that a query asks for.
def answers (destination : SocketAddr) (id : U32) (service : SocketAddr × U32) : Bool :=
  service.snd = id && service.fst.port = destination.port &&
  (service.fst = destination || destination.ip.isBroadcast)

def advertise (source : SocketAddr) (id : U32) (service : SocketAddr × U32) : UdpPool δ :=
  match p.sendTo service.fst source (ADVERT ++ be32 id) with
  | (p, .ok ())   => p
  | (p, .error _) => p.bump fun s => { s with responseDrops := s.responseDrops + 1 }

-- Queries are answered for all services at the time of the query.
def receiveQuery (d : Datagram) (id : U32) : UdpPool δ :=
  (p.services.toList.filter (answers d.destination id)).foldl (·.advertise d.source id ·) p

def receiveAdvert (now : Duration) (source : SocketAddr) (id : U32) : UdpPool δ :=
  if p.peers.size < p.config.peerCapacity || p.peers.contains source then
    { p with
      peers := p.peers.insert source { service := { address := source, id }, lastSeen := now } }
  else
    p.bump fun s => { s with peerOverflow := s.peerOverflow + 1 }

-- The received frame is turned into the answer.
def echo (d : Datagram) (frame : PacketBuf) : UdpPool δ × IoResult Unit :=
  match p.admission d.destination d.source {} with
  | (p, .error reason) =>
    ((p.bump fun s => { s with responseDrops := s.responseDrops + 1 }).rejected d.destination
      d.source
      reason, .ok ())
  | (p, .ok ()) =>
    let responder : Responder := { ipv4 := d.destination.ip, udpPort := some d.destination.port }
    match responder.respond frame with
    | (frame, reply) =>
      if reply.isReply then
        let (p, result) := p.enqueue frame d.destination d.source {}
        (p, result.map fun _ => ())
      else
        (p, .ok ())

-- The service that a discovery message is about.
def serviceId : List U8 → U32
  | [_, _, _, _, _, _, b₀, b₁, b₂, b₃] => b₀ ++ b₁ ++ b₂ ++ b₃
  | _                                   => 0

-- A discovery message is never delivered to the application. The handler has a state of its own.
def receive (now : Duration) (handler : η → Datagram → η × Action) (h : η)
    (frame : PacketBuf) : UdpPool δ × η × IoResult Unit :=
  match Udp.Wire.parseIpv4 frame.asSlice with
  | .error _ => (p.bump fun s => { s with invalid := s.invalid + 1 }, h, .ok ())
  | .ok d    =>
    let p := p.bump fun s => { s with received := s.received + 1 }
    let discovery := d.payload.length = 10 && d.payload.take 4 = QUERY.take 4
    if discovery && d.payload.take 6 = QUERY then
      (p.receiveQuery d (serviceId d.payload), h, .ok ())
    else if !p.services.contains d.destination then
      (p.bump fun s => { s with unbound := s.unbound + 1 }, h, .ok ())
    else if discovery then
      if d.payload.take 6 = ADVERT then
        (p.receiveAdvert now d.source (serviceId d.payload), h, .ok ())
      else
        (p, h, .ok ())
    else
      match handler h d with
      | (h, .ignore) => (p, h, .ok ())
      | (h, .echo)   =>
        let (p, result) := p.echo d frame
        (p, h, result)

-- An error ends the loop, and the remaining frames are dropped.
def receiveAll (p : UdpPool δ) (now : Duration) (handler : η → Datagram → η × Action) (h : η) :
    List PacketBuf → UdpPool δ × η × IoResult Unit
  | []              => (p, h, .ok ())
  | frame :: frames =>
    match p.receive now handler h frame with
    | (p, h, .error err) => (p, h, .error err)
    | (p, h, .ok ())     => p.receiveAll now handler h frames

def pollDevice (now : Duration) : UdpPool δ × IoResult Unit :=
  let (device, result) := Device.pollAt p.device now
  ({ p with device }, result)

def recvDevice (budget : Nat) : UdpPool δ × IoResult (List PacketBuf) :=
  let (device, result) := Device.recv p.device (min budget p.config.queueCapacity)
  ({ p with device }, result)

def expirePeers (now lease : Duration) : UdpPool δ :=
  { p with peers := p.peers.filter fun _ peer => now.saturatingSub peer.lastSeen < lease }

-- The part of `poll` before the received frames are processed.
def collect (now lease : Duration) (budget : Nat) : UdpPool δ × IoResult (List PacketBuf) :=
  if now < p.now then
    (p, .error (.invalid "time went backwards"))
  else
    andThen (p.advance now) fun p _ =>
    andThen (p.pollDevice now) fun p _ =>
    andThen (p.expirePeers now lease).flush fun p _ =>
      p.recvDevice budget

def poll (now lease : Duration) (budget : Nat) (handler : η → Datagram → η × Action)
    (h : η) : UdpPool δ × η × IoResult Nat :=
  match p.collect now lease budget with
  | (p, .error err) => (p, h, .error err)
  | (p, .ok frames) =>
    let (p, h, result) := p.receiveAll now handler h frames
    (p, h, result.map fun _ => frames.length)

end

inductive Op (δ : Type)
  | bind (service : Service)
  | unbind (address : SocketAddr)
  | replaceServices (services : List Service)
  | send (source destination : SocketAddr) (payload : List U8) (options : SendOptions)
  | discover (source seed : SocketAddr) (serviceId : U32)
  | advance (now : Duration)
  | flush
  | poll (now lease : Duration) (budget : Nat) (handler : Nat → Datagram → Action)
  | popEvent
  | deviceMut (f : δ → δ)

-- A handler is a closure with state, so its answer depends on how often it was called before. The
-- device can change on its own account, and whenever a frame is dropped.
def step [Device δ] (p : UdpPool δ) : Op δ → UdpPool δ
  | .bind service                            => (p.bind service).fst
  | .unbind address                          => (p.unbind address).fst
  | .replaceServices services                => (p.replaceServices services).fst
  | .send source destination payload options =>
    (p.sendWithOptions source destination payload options).fst
  | .discover source seed serviceId          => (p.discover source seed serviceId).fst
  | .advance now                             => (p.advance now).fst
  | .flush                                   => p.flush.fst
  | .poll now lease budget handler           =>
    (p.poll now lease budget (fun n d => (n + 1, handler n d)) 0).fst
  | .popEvent                                => p.popEvent.fst
  | .deviceMut f                             => { p with device := f p.device }

end UdpPool
