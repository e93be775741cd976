import AsyncNetStack.Device.Basic
import AsyncNetStack.Lib.Fallible
import AsyncNetStack.Net.Ethernet
import AsyncNetStack.Net.Route

open Ipv4Addr

inductive NeighborState
  | static (mac : Mac)
  | reachable (mac : Mac) (expires : Duration)
  | resolving (attempts : Nat) (nextProbe : Duration) (expires : Duration)
  | failed (retryAfter : Duration)
  deriving DecidableEq

namespace NeighborState

def mac (now : Duration) : NeighborState → Option Mac
  | .static mac            => some mac
  | .reachable mac expires => if now < expires then some mac else none
  | _                      => none

def isResolving : NeighborState → Bool
  | .resolving .. => true
  | _             => false

def isStatic : NeighborState → Bool
  | .static _ => true
  | _         => false

end NeighborState

structure InterfaceConfig where
  address             : Ipv4Addr
  prefixLen           : Nat
  mac                 : Mac
  mtu                 : Nat
  txCapacity          : Nat
  perNeighborCapacity : Nat
  neighborCapacity    : Nat
  routeCapacity       : Nat
  controlCapacity     : Nat
  neighborTtl         : Duration
  retryInterval       : Duration
  resolutionTimeout   : Duration
  failedRetryDelay    : Duration
  maxArpAttempts      : Nat
  eventCapacity       : Nat

namespace InterfaceConfig

def new (address : Ipv4Addr) (prefixLen : Nat) (mac : Mac) : InterfaceConfig where
  address             := address
  prefixLen           := prefixLen
  mac                 := mac
  mtu                 := 1500
  txCapacity          := 128
  perNeighborCapacity := 16
  neighborCapacity    := 64
  routeCapacity       := 64
  controlCapacity     := 8
  neighborTtl         := .fromSecs 60
  retryInterval       := .fromSecs 1
  resolutionTimeout   := .fromSecs 3
  failedRetryDelay    := .fromSecs 1
  maxArpAttempts      := 3
  eventCapacity       := 0

-- The checks of `EthernetIpv4::new` on the configuration alone.
def invalid (c : InterfaceConfig) : Bool :=
  c.prefixLen > 32 || !c.address.unicast || !c.mac.unicast || c.mtu < 68 || c.mtu > 0xffff ||
  c.txCapacity == 0 || c.perNeighborCapacity == 0 || c.neighborCapacity == 0 ||
  c.routeCapacity == 0 || c.controlCapacity == 0 || c.maxArpAttempts == 0 ||
  c.neighborTtl.isZero || c.retryInterval.isZero || c.resolutionTimeout.isZero ||
  c.failedRetryDelay.isZero

end InterfaceConfig

structure InterfaceStats where
  acceptedIp         : Nat := 0
  submittedIp        : Nat := 0
  submittedControl   : Nat := 0
  receivedIp         : Nat := 0
  malformed          : Nat := 0
  ignored            : Nat := 0
  queueFull          : Nat := 0
  noRoute            : Nat := 0
  arpRequestsQueued  : Nat := 0
  arpRepliesQueued   : Nat := 0
  controlDrops       : Nat := 0
  neighborTimeouts   : Nat := 0
  timeoutDrops       : Nat := 0
  configurationDrops : Nat := 0
  addressConflicts   : Nat := 0
  deriving DecidableEq

inductive InterfaceEvent
  | routeSelected (destination nextHop : Ipv4Addr) (route : Route)
  | queuedForNeighbor (nextHop : Ipv4Addr)
  | neighborResolved (ip : Ipv4Addr) (mac : Mac)
  | arpRequestQueued (target : Ipv4Addr) (attempt : Nat)
  | neighborTimedOut (ip : Ipv4Addr) (dropped : Nat)
  | noRoute (destination : Ipv4Addr)
  | queueFull
  | addressConflict (mac : Mac)
  | submitted (data control : Nat)
  | configurationChanged (dropped : Nat)
  deriving DecidableEq

-- A packet that waits for the link address of its next hop.
structure Pending where
  nextHop : Ipv4Addr
  frame   : Ethernet.Roomy
  serial  : Nat

-- A framed packet. Broadcasts have no next hop.
structure Ready where
  frame   : PacketBuf
  nextHop : Option Ipv4Addr
  serial  : Nat

def Pending.tag (p : Pending) : Option Ipv4Addr × Nat :=
  (some p.nextHop, p.serial)

def Ready.tag (r : Ready) : Option Ipv4Addr × Nat :=
  (r.nextHop, r.serial)

-- The fields `serial`, `nextHop` of a framed packet, and `submitted` are history: they identify a
-- packet by the number of packets accepted before it, and no operation depends on them.
--
-- A `VecDeque` stores its elements in a ring, and `flush_front` offers the device only the part in
-- front of the wrap. The wraps are not modeled: the `n`-th flush from now offers `layout n` frames,
-- if there are as many.
structure EthernetIpv4 (δ : Type) where
  device       : δ
  config       : InterfaceConfig
  configured   : Bool
  routes       : RouteTable
  neighbors    : Std.TreeMap Ipv4Addr NeighborState
  pending      : List Pending
  ready        : List Ready
  control      : List PacketBuf
  controlSpare : Option Ethernet.Roomy
  events       : List (Duration × InterfaceEvent)
  now          : Duration
  stats        : InterfaceStats
  layout       : Nat → Nat
  submitted    : List (Option Ipv4Addr × Nat)

namespace EthernetIpv4

variable {δ : Type}

-- Whether an address names the network or all hosts of a subnet that has such addresses.
def isNetworkOrBroadcast (connected : Route) (ip : Ipv4Addr) : Bool :=
  connected.prefixLen ≤ 30 &&
  (ip == connected.network || ip == (connected.network ||| ~~~(mask connected.prefixLen)))

-- Makes an allocated frame empty, with room for an Ethernet header and the minimum padding.
def prepareEmpty (frame : PacketBuf) : Option Ethernet.Roomy :=
  ((frame.withLen 0 (Nat.zero_le _)).setHeadroom (max frame.dataOffset 14)).bind Ethernet.roomy?

variable (e : EthernetIpv4 δ)

def event (ev : InterfaceEvent) : EthernetIpv4 δ :=
  { e with
    events :=
      if e.config.eventCapacity = 0 then
        e.events
      else if e.events.length = e.config.eventCapacity then
        e.events.tail ++ [(e.now, ev)]
      else
        e.events ++ [(e.now, ev)] }

def broadcast (ip : Ipv4Addr) : Bool :=
  ip.isBroadcast ||
  (e.config.prefixLen ≤ 30 &&
    ip == (e.config.address &&& mask e.config.prefixLen ||| ~~~(mask e.config.prefixLen)))

def discardQueued : EthernetIpv4 δ :=
  let dropped := e.pending.length + e.ready.length
  event
    { e with
      pending   := []
      ready     := []
      control   := []
      neighbors := e.neighbors.filter fun _ n => !n.isResolving
      stats     := { e.stats with configurationDrops := e.stats.configurationDrops + dropped } }
    (.configurationChanged dropped)

-- The requests for an address that are still queued.
def probes (ip : Ipv4Addr) (frame : PacketBuf) : Bool :=
  (Arp.Packet.parse (frame.asSlice.drop 14)).any fun p => p.operation == .request &&
    p.targetIp == ip

def cancelProbes (ip : Ipv4Addr) : EthernetIpv4 δ :=
  { e with control := e.control.filter (!probes ip ·) }

def resolved (ip : Ipv4Addr) : Option Mac :=
  e.neighbors[ip]?.bind (·.mac e.now)

def frameFor (mac : Mac) (p : Pending) : Ready where
  frame   := Ethernet.prepend p.frame e.config.mac mac Ethernet.IPV4
  nextHop := some p.nextHop
  serial  := p.serial

-- The first waiting packet moves to the ready queue, or to the back of its own.
def releaseOne : EthernetIpv4 δ :=
  match e.pending with
  | []        => e
  | p :: rest =>
    match e.resolved p.nextHop with
    | some mac => { e with pending := rest, ready := e.ready ++ [e.frameFor mac p] }
    | none     => { e with pending := rest ++ [p] }

def releaseResolved : EthernetIpv4 δ :=
  releaseOne^[e.pending.length] e

-- Replace the local address and the connected and default routes.
def configureIpv4 (address : Ipv4Addr) (prefixLen : Nat)
    (gateway : Option Ipv4Addr) : EthernetIpv4 δ × IoResult Bool :=
  if !address.unicast then
    (e, .error (.invalid "invalid local address"))
  else
    match Route.new address prefixLen none with
    | .error err     => (e, .error err)
    | .ok connected =>
      if isNetworkOrBroadcast connected address then
        (e, .error (.invalid "local address is network/broadcast"))
      else if gateway.any fun ip =>
          !ip.unicast || ip == address || !connected.contains ip ||
          isNetworkOrBroadcast connected ip then
        (e, .error (.invalid "gateway must be a distinct on-link unicast address"))
      else
        match configuredRoutes connected with
        | .error err  => (e, .error err)
        | .ok routes =>
          if e.configured && e.config.address == address && e.config.prefixLen == prefixLen &&
              e.routes.entries == routes.entries then
            (e, .ok false)
          else
            let e := e.discardQueued
            ({ e with
                neighbors  := ∅
                routes     := routes
                config     := { e.config with address := address, prefixLen := prefixLen }
                configured := true },
              .ok true)
where
  configuredRoutes (connected : Route) : IoResult RouteTable := do
    let routes ← (RouteTable.new e.config.routeCapacity).insert connected
    match gateway with
    | none    => return routes
    | some ip => routes.insert (← Route.new 0#32 0 (some ip))

def withdrawIpv4 : EthernetIpv4 δ :=
  let e := e.discardQueued
  { e with
    neighbors  := ∅
    routes     := .new e.config.routeCapacity
    configured := false }

def popEvent : EthernetIpv4 δ × Option (Duration × InterfaceEvent) :=
  ({ e with events := e.events.tail }, e.events.head?)

def addRoute (route : Route) : EthernetIpv4 δ × IoResult Unit :=
  if route.gateway.any fun ip => ip == e.config.address || e.broadcast ip then
    (e, .error (.invalid "gateway must be a unicast neighbor"))
  else
    match e.routes.insert route with
    | .error err  => (e, .error err)
    | .ok routes => (discardQueued { e with routes }, .ok ())

def setGateway (gateway : Ipv4Addr) : EthernetIpv4 δ × IoResult Unit :=
  match Route.new 0#32 0 (some gateway) with
  | .error err => (e, .error err)
  | .ok route => e.addRoute route

def removeRoute (address : Ipv4Addr) (prefixLen : Nat) : EthernetIpv4 δ × IoResult Bool :=
  match e.routes.remove address prefixLen with
  | .error err             => (e, .error err)
  | .ok (routes, removed) =>
    let e := { e with routes }
    (if removed then e.discardQueued else e, .ok removed)

def removeNeighbor (address : Ipv4Addr) : EthernetIpv4 δ × Bool :=
  if address ∈ e.neighbors then
    (discardQueued { e with neighbors := e.neighbors.erase address }, true)
  else
    (e, false)

-- Frames in the ready queue can contain the old link address of a neighbor that has one.
def changesMac (mac : Mac) : NeighborState → Bool
  | .static old | .reachable old _ => old != mac
  | _                              => false

def addStaticNeighbor (ip : Ipv4Addr) (mac : Mac) : EthernetIpv4 δ × IoResult Unit :=
  if !ip.unicast || e.broadcast ip || ip == e.config.address || !mac.unicast then
    (e, .error (.invalid "invalid static neighbor"))
  else if !e.neighbors.contains ip && e.neighbors.size == e.config.neighborCapacity then
    (e, .error (.blocked "neighbor table full"))
  else
    let e := if e.neighbors[ip]?.any (changesMac mac) then e.discardQueued else e
    let e := e.cancelProbes ip
    let e :=
      event { e with neighbors := e.neighbors.insert ip (.static mac) } (.neighborResolved ip mac)
    (e.releaseResolved, .ok ())

def resetLink : EthernetIpv4 δ :=
  let e := e.discardQueued
  { e with neighbors := e.neighbors.filter fun _ n => n.isStatic }

def nextDeadline : Option Duration :=
  (e.neighbors.values.filterMap fun
    | .static _                             => none
    | .reachable _ expires                  => some expires
    | .failed retryAfter                    => some retryAfter
    | .resolving attempts nextProbe expires =>
      some (if attempts < e.config.maxArpAttempts then min nextProbe expires else expires)).min?

-- ARP caches an address only here. Static entries never change, and a full table does not grow.
def learn (ip : Ipv4Addr) (mac : Mac) : EthernetIpv4 δ :=
  if e.neighbors[ip]?.any (·.isStatic) then
    e
  else if !e.neighbors.contains ip && e.neighbors.size == e.config.neighborCapacity then
    e
  else
    let e := e.cancelProbes ip
    let expires := e.now.saturatingAdd e.config.neighborTtl
    event { e with neighbors := e.neighbors.insert ip (.reachable mac expires) }
      (.neighborResolved ip mac)

-- The subset of IPv4 without options and fragments: source, destination and total length.
def ipv4 (bytes : List U8) : Option (Ipv4Addr × Ipv4Addr × Nat) :=
  match bytes with
  | b₀ :: _ :: t₀ :: t₁ :: _ :: _ :: f₀ :: f₁ :: ttl :: _ :: _ :: _ ::
    s₀ :: s₁ :: s₂ :: s₃ :: d₀ :: d₁ :: d₂ :: d₃ :: _ =>
    let total := (t₀ ++ t₁).toNat
    if b₀ != 0x45 || ttl == 0 then
      none
    else if total < 20 || total > bytes.length || checksum (bytes.take 20) != 0 ||
        (f₀ ++ f₁) &&& ~~~0x4000#16 != 0 then
      none
    else
      some (s₀ ++ s₁ ++ s₂ ++ s₃, d₀ ++ d₁ ++ d₂ ++ d₃, total)
  | _ => none

section

variable [Device δ]

variable (e : EthernetIpv4 δ)

def ensureSpare : EthernetIpv4 δ :=
  match e.controlSpare with
  | some _ => e
  | none   =>
    let (device, frame) := Device.alloc e.device
    { e with device, controlSpare := frame.bind prepareEmpty }

def encodeArp (packet : Arp.Packet) (destination : Mac) (spare : Ethernet.Roomy) : PacketBuf :=
  Ethernet.prepend (spare.write packet.encode (by simp)) e.config.mac destination Ethernet.ARP

def queueArp (packet : Arp.Packet) (destination : Mac) : EthernetIpv4 δ × Bool :=
  if e.control.length = e.config.controlCapacity then
    (e, false)
  else
    let e := e.ensureSpare
    match e.controlSpare with
    | none       => (e, false)
    | some spare =>
      ({ e with
          controlSpare := none
          control      := e.control ++ [e.encodeArp packet destination spare] },
        true)

def bump (f : InterfaceStats → InterfaceStats) : EthernetIpv4 δ :=
  { e with stats := f e.stats }

def ignore : EthernetIpv4 δ :=
  e.bump fun s => { s with ignored := s.ignored + 1 }

def malformed (e : EthernetIpv4 δ) : EthernetIpv4 δ :=
  e.bump fun s => { s with malformed := s.malformed + 1 }

def delivered : EthernetIpv4 δ :=
  e.bump fun s => { s with receivedIp := s.receivedIp + 1 }

def replyTo (packet : Arp.Packet) : EthernetIpv4 δ :=
  let reply : Arp.Packet := {
    operation := .reply
    senderMac := e.config.mac
    senderIp  := e.config.address
    targetMac := packet.senderMac
    targetIp  := packet.senderIp
  }
  match e.queueArp reply packet.senderMac with
  | (e, true)  => e.bump fun s => { s with arpRepliesQueued := s.arpRepliesQueued + 1 }
  | (e, false) => e.bump fun s => { s with controlDrops := s.controlDrops + 1 }

def awaitsReply : NeighborState → Bool
  | .resolving _ _ expires => e.now < expires
  | _                      => false

def receiveArp (bytes : List U8) (sourceMac : Mac) : EthernetIpv4 δ :=
  match Arp.Packet.parse bytes with
  | none        => e.malformed
  | some packet =>
    if packet.senderMac != sourceMac then
      e.malformed
    else if packet.senderIp == e.config.address && packet.senderMac != e.config.mac then
      (e.bump fun s => { s with addressConflicts := s.addressConflicts + 1 }).event
        (.addressConflict packet.senderMac)
    else if packet.targetIp != e.config.address then
      e.ignore
    else
      match packet.operation with
      | .request =>
        -- An unspecified sender probes for address conflicts: it is answered, but not learned.
        if packet.senderIp.unicast && !e.broadcast packet.senderIp then
          (e.learn packet.senderIp packet.senderMac).replyTo packet
        else if !packet.senderIp.isUnspecified then
          e.ignore
        else
          e.replyTo packet
      | .reply =>
        if packet.targetMac == e.config.mac && packet.senderIp.unicast &&
            !e.broadcast packet.senderIp && e.neighbors[packet.senderIp]?.any e.awaitsReply then
          e.learn packet.senderIp packet.senderMac
        else
          e.ignore

-- Returns the packet if it is for the layer above. Ethernet padding is not part of it.
def receiveFrame (frame : PacketBuf) : EthernetIpv4 δ × Option PacketBuf :=
  if !e.configured then
    (e.ignore, none)
  else
    match Ethernet.parse frame.asSlice with
    | none        => (e.malformed, none)
    | some header =>
      let bytes := frame.asSlice.drop 14
      if !header.source.unicast ||
          (header.destination != e.config.mac && header.destination != Mac.broadcast) then
        (e.ignore, none)
      else if header.etherType = Ethernet.ARP then
        (e.receiveArp bytes header.source, none)
      else if header.etherType = Ethernet.IPV4 then
        match ipv4 bytes with
        | none                         => (e.malformed, none)
        | some (_, destination, total) =>
          if total > e.config.mtu ||
              (destination != e.config.address && !e.broadcast destination) then
            (e.ignore, none)
          else
            (e.delivered, (frame.pullHeader 14).bind (·.setLen total))
      else
        (e.ignore, none)

def receiveFrames (e : EthernetIpv4 δ) : List PacketBuf → EthernetIpv4 δ × List PacketBuf
  | []              => (e, [])
  | frame :: frames =>
    let (e, packet) := e.receiveFrame frame
    let (e, packets) := e.receiveFrames frames
    (e, packet.toList ++ packets)

def timeOut (ip : Ipv4Addr) : EthernetIpv4 δ :=
  let failed := NeighborState.failed (e.now.saturatingAdd e.config.failedRetryDelay)
  let kept := e.pending.filter (·.nextHop != ip)
  let dropped := e.pending.length - kept.length
  let e := cancelProbes { e with neighbors := e.neighbors.insert ip failed, pending := kept } ip
  (e.bump fun s => { s with
      timeoutDrops     := s.timeoutDrops + dropped
      neighborTimeouts := s.neighborTimeouts + 1 }).event
    (.neighborTimedOut ip dropped)

def probe (ip : Ipv4Addr) (attempts : Nat) (expires : Duration) : EthernetIpv4 δ :=
  let request : Arp.Packet := {
    operation := .request
    senderMac := e.config.mac
    senderIp  := e.config.address
    targetMac := 0
    targetIp  := ip
  }
  match e.queueArp request Mac.broadcast with
  | (e, false) => e
  | (e, true)  =>
    let next :=
      NeighborState.resolving (attempts + 1) (e.now.saturatingAdd e.config.retryInterval) expires
    let e := { e with neighbors := e.neighbors.insert ip next }
    (e.bump fun s => { s with arpRequestsQueued := s.arpRequestsQueued + 1 }).event
      (.arpRequestQueued ip (attempts + 1))

-- The timers of one neighbor.
def refresh (ip : Ipv4Addr) (state : NeighborState) : EthernetIpv4 δ :=
  match state with
  | .static _ => e
  | .reachable _ expires =>
    if expires ≤ e.now then { e with neighbors := e.neighbors.erase ip } else e
  | .failed retryAfter =>
    if retryAfter ≤ e.now then { e with neighbors := e.neighbors.erase ip } else e
  | .resolving attempts nextProbe expires =>
    if expires ≤ e.now then
      e.timeOut ip
    else if nextProbe ≤ e.now ∧ attempts < e.config.maxArpAttempts then
      e.probe ip attempts expires
    else
      e

-- The number of frames in front of the wrap of a queue. A queue that is not empty has one.
def front (length : Nat) : Nat :=
  max 1 (min (e.layout 0) length)

-- Offers the device the front of a queue, and returns how many frames it accepts. A device without
-- room accepts none.
def flushFront (queue : List PacketBuf) : EthernetIpv4 δ × IoResult Nat :=
  match queue with
  | [] => (e, .ok 0)
  | _  =>
    let (device, result) := Device.send e.device (queue.take (e.front queue.length))
    ({ e with device, layout := fun n => e.layout (n + 1) },
      match result with
      | .ok n    => .ok n
      | .error err => if err.kind = .wouldBlock then .ok 0 else .error err)

def submitControl (n : Nat) : EthernetIpv4 δ :=
  let e := { e with control := e.control.drop n }
  let e := e.bump fun s => { s with submittedControl := s.submittedControl + n }
  if n > 0 then e.event (.submitted 0 n) else e

def submitData (n : Nat) : EthernetIpv4 δ :=
  let e := { e with
    ready     := e.ready.drop n
    submitted := e.submitted ++ (e.ready.take n).map Ready.tag }
  let e := e.bump fun s => { s with submittedIp := s.submittedIp + n }
  if n > 0 then e.event (.submitted n 0) else e

def flush : EthernetIpv4 δ × IoResult Unit :=
  Fallible.andThen (e.flushFront e.control) fun e n =>
    let e := e.submitControl n
    if !e.control.isEmpty then
      (e, .ok ())
    else
      Fallible.andThen (e.flushFront (e.ready.map (·.frame))) fun e n =>
        (e.submitData n, .ok ())

-- Timers run on a snapshot of the table, and each of them changes its own entry at most.
def runTimers (work : List (Ipv4Addr × NeighborState)) : EthernetIpv4 δ :=
  work.foldl (fun e w => e.refresh w.fst w.snd) e

def advance (now : Duration) : EthernetIpv4 δ × IoResult Unit :=
  if now < e.now then
    (e, .error (.invalid "time went backwards"))
  else
    let e := ensureSpare { e with now }
    (e.runTimers e.neighbors.toList).releaseResolved.flush

def pollAt (e : EthernetIpv4 δ) (now : Duration) : EthernetIpv4 δ × IoResult Unit :=
  let (device, result) := Device.pollAt e.device now
  Fallible.andThen ({ e with device }, result) fun e _ => e.advance now

-- The device when the reserved frame is dropped. Other frames that are dropped are not followed.
def dropSpare : δ :=
  e.controlSpare.elim e.device (Device.recycle e.device ·.frame)

-- The reserved frame is dropped before receiving, so that the device can receive into it. When
-- `advance` fails, the received packets are lost to the caller, who ignores them on an error.
def recv (e : EthernetIpv4 δ) (max : Nat) : EthernetIpv4 δ × IoResult (List PacketBuf) :=
  if max = 0 then
    Fallible.andThen (e.advance e.now) fun e _ => (e, .ok [])
  else
    let (device, result) := Device.recv e.dropSpare max
    Fallible.andThen ({ e with device, controlSpare := none }, result) fun e frames =>
      let (e, packets) := e.receiveFrames frames
      Fallible.andThen (e.advance e.now) fun e _ => (e, .ok packets)

def recentlyFailed : NeighborState → Bool
  | .failed retryAfter => e.now < retryAfter
  | _                  => false

-- Only the missing route is counted and reported.
def validate (frame : PacketBuf) : EthernetIpv4 δ × IoResult Unit :=
  match ipv4 frame.asSlice with
  | none                              => (e, .error (.invalid "invalid IPv4 packet"))
  | some (source, destination, total) =>
    let unsupported := "unsupported source, destination, MTU or Ethernet headroom"
    if source != e.config.address || destination == e.config.address ||
        (!destination.unicast && !e.broadcast destination) || total != frame.len ||
        total > e.config.mtu then
      (e, .error (.invalid unsupported))
    else
      match Ethernet.roomy? frame with
      | none   => (e, .error (.invalid unsupported))
      | some _ =>
        if e.broadcast destination then
          (e, .ok ())
        else
          match e.routes.lookup destination with
          | none =>
            ((e.bump fun s => { s with noRoute := s.noRoute + 1 }).event (.noRoute destination),
              .error { kind := .notConnected, message := "no IPv4 route" })
          | some route =>
            let hop := route.nextHop destination
            if hop == e.config.address || e.broadcast hop || !hop.unicast then
              (e, .error (.invalid "route has an invalid next hop"))
            else if e.neighbors[hop]?.any e.recentlyFailed then
              (e, .error { kind := .notConnected, message := "ARP resolution recently failed" })
            else
              (e, .ok ())

def validateAll (e : EthernetIpv4 δ) : List PacketBuf → EthernetIpv4 δ × IoResult Unit
  | []              => (e, .ok ())
  | frame :: frames => Fallible.andThen (e.validate frame) fun e _ => e.validateAll frames

def destinationOf (bytes : List U8) : Option Ipv4Addr :=
  match bytes.drop 16 with
  | d₀ :: d₁ :: d₂ :: d₃ :: _ => some (d₀ ++ d₁ ++ d₂ ++ d₃)
  | _                         => none

-- Starts the resolution of a next hop, unless it is under way.
def resolve (nextHop : Ipv4Addr) : EthernetIpv4 δ :=
  if e.neighbors[nextHop]?.any (·.isResolving) then
    e
  else
    let expires := e.now.saturatingAdd e.config.resolutionTimeout
    { e with neighbors := e.neighbors.insert nextHop (.resolving 0 e.now expires) }

def waiting (nextHop : Ipv4Addr) : Nat :=
  (e.pending.filter (·.nextHop == nextHop)).length

-- What becomes of one validated packet. A panic is a call to `unwrap` or an assertion that fails in
-- the source, from which validation has to keep it.
inductive Acceptance (δ : Type)
  | taken (e : EthernetIpv4 δ)
  | full
  | panic

def acceptUnicast (serial : Nat) (frame : Ethernet.Roomy)
    (destination : Ipv4Addr) (route : Route) : Acceptance δ :=
  let nextHop := route.nextHop destination
  let pending : Pending := { nextHop, frame, serial }
  match e.resolved nextHop with
  | some mac =>
    let e := e.event (.routeSelected destination nextHop route)
    .taken { e with ready := e.ready ++ [e.frameFor mac pending] }
  | none =>
    if e.config.perNeighborCapacity ≤ e.waiting nextHop ∨
        (!e.neighbors.contains nextHop && e.neighbors.size == e.config.neighborCapacity) then
      .full
    else
      let e := (e.resolve nextHop).event (.routeSelected destination nextHop route)
      .taken (event { e with pending := e.pending ++ [pending] } (.queuedForNeighbor nextHop))

def accept (serial : Nat) (slot : PacketBuf) : Acceptance δ :=
  match destinationOf slot.asSlice, Ethernet.roomy? slot with
  | some destination, some frame =>
    if e.broadcast destination then
      let framed := Ethernet.prepend frame e.config.mac Mac.broadcast Ethernet.IPV4
      .taken { e with ready := e.ready ++ [{ frame := framed, nextHop := none, serial }] }
    else
      match e.routes.lookup destination with
      | none       => .panic
      | some route => e.acceptUnicast serial frame destination route
  | _, _ => .panic

-- Accepts packets up to the first one without room, and counts them. The slot of an accepted packet
-- is left with the empty buffer.
def acceptAll (e : EthernetIpv4 δ) (accepted : Nat) :
    List PacketBuf → EthernetIpv4 δ × List PacketBuf × Nat
  | []            => (e, [], accepted)
  | slot :: slots =>
    match e.accept (e.stats.acceptedIp + accepted) slot with
    | .taken e =>
      let (e, slots, accepted) := e.acceptAll (accepted + 1) slots
      (e, .default :: slots, accepted)
    | _ => (e, slot :: slots, accepted)

-- The frames are those that a call leaves in the slots of the caller.
def sendSlots (slots : List PacketBuf) : EthernetIpv4 δ × List PacketBuf × IoResult Nat :=
  if !e.configured then
    (e, slots, .error { kind := .addrNotAvailable, message := "IPv4 configuration withdrawn" })
  else
    let available := e.config.txCapacity - e.pending.length - e.ready.length
    let limit := min available slots.length
    match e.validateAll (slots.take limit) with
    | (e, .error err) => (e, slots, .error err)
    | (e, .ok ())     =>
      let (e, slots', accepted) := e.acceptAll 0 (slots.take limit)
      let e :=
        if accepted < slots.length then
          (e.bump fun s => { s with queueFull := s.queueFull + 1 }).event .queueFull
        else
          e
      (e.bump fun s => { s with acceptedIp := s.acceptedIp + accepted },
        slots' ++ slots.drop limit, .ok accepted)

def send (frames : List PacketBuf) : EthernetIpv4 δ × IoResult Nat :=
  let (e, _, result) := e.sendSlots frames
  (e, result)

def alloc (e : EthernetIpv4 δ) : EthernetIpv4 δ × Option PacketBuf :=
  let e := e.ensureSpare
  match e.controlSpare with
  | none   => (e, none)
  | some _ =>
    let (device, frame) := Device.alloc e.device
    ({ e with device }, (frame.bind prepareEmpty).map (·.frame))

instance : Device (EthernetIpv4 δ) where
  pollAt      := pollAt
  recv        := recv
  send        := send
  alloc       := alloc
  recycle e f := { e with device := Device.recycle e.device f }
  frameSize e := Device.frameSize e.device

-- The layout is that of the queues in the run that follows.
def new (device : δ) (config : InterfaceConfig) (layout : Nat → Nat) :
    IoResult (EthernetIpv4 δ) := do
  if config.invalid then
    throw (.invalid "invalid Ethernet IPv4 configuration")
  let connected ← Route.new config.address config.prefixLen none
  if isNetworkOrBroadcast connected config.address then
    throw (.invalid "interface address is a subnet network/broadcast address")
  let (device, frame) := Device.alloc device
  let some frame := frame | throw (.blocked "no frame for ARP reserve")
  let some spare := prepareEmpty frame
    | throw (.invalid "frame cannot hold Ethernet headers and minimum padding")
  if spare.frame.tailCapacity < config.mtu then
    throw (.invalid "MTU exceeds device frame capacity after headroom")
  let routes ← (RouteTable.new config.routeCapacity).insert connected
  return {
    device       := device
    config       := config
    configured   := true
    routes       := routes
    neighbors    := ∅
    pending      := []
    ready        := []
    control      := []
    controlSpare := some spare
    events       := []
    now          := .zero
    stats        := {}
    layout       := layout
    submitted    := []
  }

end

inductive Op (δ : Type)
  | send (frames : List PacketBuf)
  | recv (max : Nat)
  | advance (now : Duration)
  | pollAt (now : Duration)
  | addRoute (route : Route)
  | setGateway (gateway : Ipv4Addr)
  | removeRoute (address : Ipv4Addr) (prefixLen : Nat)
  | addStaticNeighbor (ip : Ipv4Addr) (mac : Mac)
  | removeNeighbor (address : Ipv4Addr)
  | resetLink
  | configureIpv4 (address : Ipv4Addr) (prefixLen : Nat) (gateway : Option Ipv4Addr)
  | withdrawIpv4
  | alloc
  | popEvent
  | deviceMut (f : δ → δ)

def step [Device δ] (e : EthernetIpv4 δ) : Op δ → EthernetIpv4 δ
  | .send frames                             => (e.send frames).fst
  | .recv max                                => (e.recv max).fst
  | .advance now                             => (e.advance now).fst
  | .pollAt now                              => (e.pollAt now).fst
  | .addRoute route                          => (e.addRoute route).fst
  | .setGateway gateway                      => (e.setGateway gateway).fst
  | .removeRoute address prefixLen           => (e.removeRoute address prefixLen).fst
  | .addStaticNeighbor ip mac                => (e.addStaticNeighbor ip mac).fst
  | .removeNeighbor address                  => (e.removeNeighbor address).fst
  | .resetLink                               => e.resetLink
  | .configureIpv4 address prefixLen gateway => (e.configureIpv4 address prefixLen gateway).fst
  | .withdrawIpv4                            => e.withdrawIpv4
  | .alloc                                   => e.alloc.fst
  | .popEvent                                => e.popEvent.fst
  | .deviceMut f                             => { e with device := f e.device }

end EthernetIpv4
