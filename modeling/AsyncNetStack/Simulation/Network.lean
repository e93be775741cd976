import AsyncNetStack.Device.Basic
import AsyncNetStack.Device.FramePool

namespace Simulation

-- A directed link. The alternating delay is added to every second packet, every `dropEvery`-th
-- packet is lost, and an MTU of zero is no limit.
structure Link where
  delay            : Duration
  alternatingDelay : Duration
  dropEvery        : Nat
  partitioned      : Bool
  mtu              : Nat
  deriving DecidableEq

namespace Link

def default : Link where
  delay            := .zero
  alternatingDelay := .zero
  dropEvery        := 0
  partitioned      := false
  mtu              := 0

def faulty (link : Link) (sequence len : Nat) : Bool :=
  link.partitioned || (link.mtu != 0 && len > link.mtu) ||
  (link.dropEvery != 0 && sequence % link.dropEvery == 0)

def latency (link : Link) (sequence : Nat) : Duration :=
  link.delay.saturatingAdd (if sequence % 2 = 0 then link.alternatingDelay else .zero)

end Link

structure FabricStats where
  delivered         : Nat := 0
  faultDrops        : Nat := 0
  queueDrops        : Nat := 0
  unroutable        : Nat := 0
  backpressure      : Nat := 0
  disconnectedDrops : Nat := 0
  deriving DecidableEq

-- A frame in flight. Its serial number counts the frames that were queued before it, and is
-- history.
structure Pending where
  deliverAt : Duration
  source    : Nat
  frame     : PacketBuf
  serial    : Nat

-- `drained` are the frames that a port has received, each with the time when it was. This is
-- history, too.
structure Port where
  pool     : FramePool
  queue    : List Pending
  capacity : Nat
  active   : Bool
  online   : Bool
  drained  : List (Pending × Duration)
  size     : pool.frameSize = 2048

namespace Port

def new (id : PoolId) (frames capacity : Nat) : Port where
  pool     := .new id frames 2048
  queue    := []
  capacity := capacity
  active   := true
  online   := true
  drained  := []
  size     := rfl

def goOffline (port : Port) : Port :=
  { port with online := false }

def push (port : Port) (p : Pending) : Port :=
  { port with queue := port.queue ++ [p] }

def recycle (port : Port) (frame : PacketBuf) : Port :=
  { port with
    pool := port.pool.recycle frame
    size := by rw [FramePool.frameSize_recycle, port.size] }

-- A copy of a packet in a frame of the port. There is none if the pool is exhausted.
def copy (port : Port) (packet : List U8) (h : packet.length ≤ 2048) : Port × Option PacketBuf :=
  ({ port with pool := port.pool.alloc.fst, size := port.size },
    port.pool.alloc.snd.map fun idx =>
      (port.pool.emptyBuf idx).store packet (by
        simp [FramePool.emptyBuf, FramePool.packetBuf, PacketBuf.capacity, port.size, h]))

end Port

-- What a reference to a device tells about it: the fabric it belongs to, and its port.
structure Handle where
  fabric : Nat
  id     : Nat
  deriving DecidableEq

-- The state of a fabric, with a key that stands for its identity. A link without an entry is the
-- default one at sequence number zero. `serial` is the number of frames that were queued, and is
-- history.
structure Network where
  key    : Nat
  now    : Duration
  ports  : List Port
  routes : Std.TreeMap Ipv4Addr Nat
  links  : Nat × Nat → Link × Nat
  stats  : FabricStats
  serial : Nat

namespace Network

def empty (key : Nat) : Network where
  key     := key
  now     := .zero
  ports   := []
  routes  := ∅
  links _ := (.default, 0)
  stats   := {}
  serial  := 0

variable (s : Network)

def bump (f : FabricStats → FabricStats) : Network :=
  { s with stats := f s.stats }

-- Frames that are dropped return to the pools they belong to.
def dropFrames (frames : List PacketBuf) : Network :=
  { s with ports := s.ports.map fun port => frames.foldl .recycle port }

def isOnline (id : Nat) : Bool :=
  s.ports[id]?.any (·.online)

-- Frames which neither come from a port nor are on their way to it.
def unrelated (id i : Nat) (p : Pending) : Bool :=
  i != id && p.source != id

-- Frames to and from the port are purged.
def disconnect (id : Nat) : Network :=
  let ports : List Port := s.ports.modify id .goOffline
  let purged := (ports.mapIdx fun i port => port.queue.filter (!unrelated id i ·)).flatten
  let s := { s with
    ports := ports.mapIdx fun i (port : Port) =>
      { port with queue := port.queue.filter (unrelated id i) }
    stats := { s.stats with disconnectedDrops := s.stats.disconnectedDrops + purged.length } }
  s.dropFrames (purged.map (·.frame))

def port (pool : PoolId) (addresses : List Ipv4Addr) (frames queue : Nat) :
    Network × IoResult Nat :=
  if frames == 0 || queue == 0 || addresses.isEmpty ||
      addresses.any fun a => a.isUnspecified || a.isBroadcast || a.isMulticast ||
      s.routes.contains a then
    (s, .error (.invalid "invalid capacity or conflicting/non-unicast address"))
  else
    let id := s.ports.length
    ({ s with
        ports  := s.ports ++ [.new pool frames queue]
        routes := addresses.foldl (fun routes a => routes.insert a id) s.routes },
      .ok id)

-- Reconfiguration resets the fault sequence of the link.
def setLink (source target : Handle) (link : Link) : Network × IoResult Unit :=
  if source.fabric ≠ s.key ∨ target.fabric ≠ s.key then
    (s, .error (.invalid "ports belong to another fabric"))
  else
    ({ s with links := Function.update s.links (source.id, target.id) (link, 0) }, .ok ())

def advance (elapsed : Duration) : Network × IoResult Unit :=
  if h : s.now.nanos + elapsed.nanos < 2 ^ 64 * 10 ^ 9 then
    ({ s with now := ⟨s.now.nanos + elapsed.nanos, h⟩ }, .ok ())
  else
    (s, .error (.invalid "clock overflow"))

-- A device is dropped with its address.
def dropDevice (id : Nat) : Network :=
  let s := s.disconnect id
  { s with
    ports  := s.ports.modify id fun port => { port with active := false }
    routes := s.routes.filter fun _ target => target != id }

def alloc (s : Network) (id : Nat) : Network × Option PacketBuf :=
  match s.ports[id]? with
  | none      => (s, none)
  | some port =>
    ({ s with ports := s.ports.modify id fun port =>
        { port with pool := port.pool.alloc.fst, size := port.size } },
      port.pool.alloc.snd.map port.pool.emptyBuf)

-- The order is stable: frames for the same time stay in the order in which they were queued.
def sorted (queue : List Pending) : List Pending :=
  queue.mergeSort fun p q => p.deliverAt ≤ q.deliverAt

def arrived (max : Nat) (queue : List Pending) : List Pending :=
  ((sorted queue).take max).takeWhile (·.deliverAt ≤ s.now)

def recv (id max : Nat) : Network × IoResult (List PacketBuf) :=
  match s.ports[id]? with
  | none      => (s, .ok [])
  | some port =>
    let out := s.arrived max port.queue
    ({ s with
        ports := s.ports.modify id fun port => { port with
          queue   := (sorted port.queue).drop out.length
          drained := port.drained ++ out.map (·, s.now) }
        stats := { s.stats with delivered := s.stats.delivered + out.length } },
      .ok (out.map (·.frame)))

-- An IPv4 packet that fits into a frame.
structure Datagram where
  bytes       : List U8
  destination : Ipv4Addr
  fits        : bytes.length ≤ 2048

def datagram (bytes : List U8) : Option Datagram :=
  match bytes, bytes.drop 16 with
  | first :: _, d₀ :: d₁ :: d₂ :: d₃ :: _ =>
    if h : first >>> 4 = 4 ∧ bytes.length ≤ 2048 then
      some { bytes, destination := d₀ ++ d₁ ++ d₂ ++ d₃, fits := h.right }
    else
      none
  | _, _ => none

-- Sends a packet over a link, and returns the time of its delivery unless it is lost. The sequence
-- number is a `u64` that wraps around.
def traverse (source target len : Nat) : Network × Option Duration :=
  let link := (s.links (source, target)).fst
  let sequence := ((s.links (source, target)).snd + 1) % 2 ^ 64
  let s := { s with links := Function.update s.links (source, target) (link, sequence) }
  if link.faulty sequence len then
    (s.bump fun st => { st with faultDrops := st.faultDrops + 1 }, none)
  else
    (s, some (s.now.saturatingAdd (link.latency sequence)))

def enqueue (source target : Nat) (frame : PacketBuf) (deliverAt : Duration) : Network :=
  let p : Pending := { deliverAt, source, frame, serial := s.serial }
  { s with ports := s.ports.modify target (·.push p), serial := s.serial + 1 }

def queueDrop : Network :=
  s.bump fun st => { st with queueDrops := st.queueDrops + 1 }

-- Only broadcasts are limited to these ports. A unicast packet can return to its source.
def eligible (source target : Nat) : Bool :=
  target != source && s.ports[target]?.any fun port => port.active && port.online

def isFull (target : Nat) : Bool :=
  s.ports[target]?.any fun port => port.queue.length == port.capacity

-- The copy of a broadcast for one port.
def copyTo (source : Nat) (d : Datagram) (target : Nat) : Network :=
  if !s.eligible source target then
    s
  else
    match s.traverse source target d.bytes.length with
    | (s, none)           => s
    | (s, some deliverAt) =>
      if s.isFull target then
        s.queueDrop
      else
        match s.ports[target]? with
        | none      => s
        | some port =>
          let s :=
            { s with ports := s.ports.modify target fun port => (port.copy d.bytes d.fits).fst }
          match (port.copy d.bytes d.fits).snd with
          | none      => s.queueDrop
          | some copy => s.enqueue source target copy deliverAt

-- What becomes of a frame: it is consumed, or the receiver has no room for it, or it is no packet.
inductive Transmission
  | accepted (s : Network)
  | congested (s : Network)
  | invalid

def broadcast (source : Nat) (frame : PacketBuf) (d : Datagram) : Network :=
  ((List.range s.ports.length).foldl (·.copyTo source d ·) s).dropFrames [frame]

-- Congestion is checked before faults, so a retry does not advance the fault sequence.
def unicast (source : Nat) (frame : PacketBuf) (d : Datagram) : Transmission :=
  match s.routes[d.destination]? with
  | none =>
    .accepted ((s.bump fun st => { st with unroutable := st.unroutable + 1 }).dropFrames [frame])
  | some target =>
    if !s.isOnline target then
      let s := s.bump fun st => { st with disconnectedDrops := st.disconnectedDrops + 1 }
      .accepted (s.dropFrames [frame])
    else if s.isFull target then
      .congested (s.bump fun st => { st with backpressure := st.backpressure + 1 })
    else
      match s.traverse source target d.bytes.length with
      | (s, none)           => .accepted (s.dropFrames [frame])
      | (s, some deliverAt) => .accepted (s.enqueue source target frame deliverAt)

def transmit (source : Nat) (frame : PacketBuf) : Transmission :=
  match datagram frame.asSlice with
  | none   => .invalid
  | some d =>
    if d.destination.isBroadcast then
      .accepted (s.broadcast source frame d)
    else
      s.unicast source frame d

-- The loop over the frames of the caller. A consumed frame leaves an empty buffer in its slot.
def transmitAll (s : Network) (source accepted : Nat) :
    List PacketBuf → Network × List PacketBuf × IoResult Nat
  | []            => (s, [], .ok accepted)
  | slot :: slots =>
    match s.transmit source slot with
    | .invalid =>
      if accepted ≠ 0 then
        (s, slot :: slots, .ok accepted)
      else
        (s, slot :: slots, .error (.invalid "fabric expects IPv4 frames"))
    | .congested s => (s, slot :: slots, .ok accepted)
    | .accepted s  =>
      let (s, slots, result) := s.transmitAll source (accepted + 1) slots
      (s, .default :: slots, result)

def sendSlots (id : Nat) (slots : List PacketBuf) : Network × List PacketBuf × IoResult Nat :=
  if slots.isEmpty then
    (s, slots, .ok 0)
  else if !s.isOnline id then
    (s, slots, .error { kind := .notConnected, message := "simulated endpoint is offline" })
  else
    s.transmitAll id 0 slots

inductive Op
  | port (pool : PoolId) (addresses : List Ipv4Addr) (frames queue : Nat)
  | setLink (source target : Handle) (link : Link)
  | advance (elapsed : Duration)
  | send (id : Nat) (slots : List PacketBuf)
  | recv (id max : Nat)
  | alloc (id : Nat)
  | dropDevice (id : Nat)
  | recycle (frame : PacketBuf)

-- Nobody has a reference to a device that was dropped.
def live (id : Nat) : Bool :=
  s.ports[id]?.any (·.active)

def Op.devices : Op → List Nat
  | .setLink source target _ => [source, target].filterMap fun h =>
    if h.fabric = s.key then some h.id else none
  | .send id _ | .recv id _ | .alloc id | .dropDevice id => [id]
  | _ => []

def perform : Op → Network
  | .port pool addresses frames queue => (s.port pool addresses frames queue).fst
  | .setLink source target link       => (s.setLink source target link).fst
  | .advance elapsed                  => (s.advance elapsed).fst
  | .send id slots                    => (s.sendSlots id slots).fst
  | .recv id max                      => (s.recv id max).fst
  | .alloc id                         => (s.alloc id).fst
  | .dropDevice id                    => s.dropDevice id
  | .recycle frame                    => s.dropFrames [frame]

-- Operations on devices that do not exist are not possible.
def step (op : Op) : Network :=
  if (op.devices s).all s.live then s.perform op else s

end Network

-- A handle to one port of a fabric, with the state that all handles of the fabric share.
structure SimDevice where
  network : Network
  id      : Nat

namespace SimDevice

def sendSlots (d : SimDevice) (slots : List PacketBuf) :
    SimDevice × List PacketBuf × IoResult Nat :=
  let (network, slots, result) := d.network.sendSlots d.id slots
  ({ d with network }, slots, result)

instance : Device SimDevice where
  pollAt d _ := (d, .ok ())
  recv d max :=
    let (network, result) := d.network.recv d.id max
    ({ d with network }, result)
  send d frames :=
    let (d, _, result) := d.sendSlots frames
    (d, result)
  alloc d :=
    let (network, frame) := d.network.alloc d.id
    ({ d with network }, frame)
  recycle d frame := { d with network := d.network.dropFrames [frame] }
  frameSize _ := 2048

end SimDevice

end Simulation
