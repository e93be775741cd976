import AsyncNetStack.Simulation.Network

namespace Simulation

-- An isolated broadcast domain whose ports are offline until they are associated with it.
structure AccessPoint where
  network : Network
  running : Bool

namespace AccessPoint

def empty (key : Nat) : AccessPoint where
  network := .empty key
  running := false

def port (ap : AccessPoint) (pool : PoolId) (addresses : List Ipv4Addr) (frames queue : Nat) :
    AccessPoint × IoResult Nat :=
  match ap.network.port pool addresses frames queue with
  | (network, .error err) => ({ ap with network }, .error err)
  | (network, .ok id)     =>
    ({ ap with
        network := { network with
          ports := network.ports.modify id fun port => { port with online := false } } },
      .ok id)

variable (ap : AccessPoint)

def start : AccessPoint :=
  { ap with running := true }

-- Every port is disconnected, and all queues are purged.
def stop : AccessPoint :=
  let s := ap.network
  let purged := s.ports.flatMap (·.queue)
  let s := { s with
    ports := s.ports.map fun (port : Port) => { port.goOffline with queue := [] }
    stats := { s.stats with disconnectedDrops := s.stats.disconnectedDrops + purged.length } }
  { network := s.dropFrames (purged.map (·.frame)), running := false }

def check (device : Handle) : IoResult Unit :=
  if device.fabric ≠ ap.network.key then
    .error (.invalid "endpoint belongs to another access point")
  else
    .ok ()

def associate (device : Handle) : AccessPoint × IoResult Unit :=
  match ap.check device with
  | .error err => (ap, .error err)
  | .ok ()     =>
    if !ap.running then
      (ap, .error { kind := .notConnected, message := "access point is stopped" })
    else
      ({ ap with
          network := { ap.network with
            ports := ap.network.ports.modify device.id fun port => { port with online := true } } },
        .ok ())

def disassociate (device : Handle) : AccessPoint × IoResult Unit :=
  match ap.check device with
  | .error err => (ap, .error err)
  | .ok ()     => ({ ap with network := ap.network.disconnect device.id }, .ok ())

-- The fabric of an access point is only reached through its devices. Dropping the access point
-- stops it, and so does not need an operation of its own.
inductive Op
  | port (pool : PoolId) (addresses : List Ipv4Addr) (frames queue : Nat)
  | start
  | stop
  | associate (device : Handle)
  | disassociate (device : Handle)
  | setLink (source target : Handle) (link : Link)
  | advance (elapsed : Duration)
  | send (id : Nat) (slots : List PacketBuf)
  | recv (id max : Nat)
  | alloc (id : Nat)
  | dropDevice (id : Nat)
  | recycle (frame : PacketBuf)

def onNetwork (op : Network.Op) : AccessPoint :=
  { ap with network := ap.network.step op }

def live (ap : AccessPoint) (device : Handle) : Bool :=
  device.fabric != ap.network.key || ap.network.live device.id

def step : Op → AccessPoint
  | .port pool addresses frames queue => (ap.port pool addresses frames queue).fst
  | .start                            => ap.start
  | .stop                             => ap.stop
  | .associate device                 => if ap.live device then (ap.associate device).fst else ap
  | .disassociate device              => if ap.live device then (ap.disassociate device).fst else ap
  | .setLink source target link       => ap.onNetwork (.setLink source target link)
  | .advance elapsed                  => ap.onNetwork (.advance elapsed)
  | .send id slots                    => ap.onNetwork (.send id slots)
  | .recv id max                      => ap.onNetwork (.recv id max)
  | .alloc id                         => ap.onNetwork (.alloc id)
  | .dropDevice id                    => ap.onNetwork (.dropDevice id)
  | .recycle frame                    => ap.onNetwork (.recycle frame)

end AccessPoint

end Simulation
