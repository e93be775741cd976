import AsyncNetStack.Lib.Trace
import AsyncNetStack.Simulation.AccessPoint

open Transition

namespace Simulation

-- A packet that was accepted on a link: its bytes, the time, and what was added to the queue of the
-- receiver.
structure Passage where
  packet     : List U8
  acceptedAt : Duration
  queued     : List Pending

-- How long a packet is on its way, in nanoseconds. There is no entry for a packet that was dropped.
def Passage.delays (p : Passage) : List Nat :=
  p.queued.map fun q => q.deliverAt.nanos - p.acceptedAt.nanos

namespace Network

def queueOf (s : Network) (id : Nat) : List Pending :=
  s.ports[id]?.elim [] (·.queue)

def isBroadcast (frame : PacketBuf) : Bool :=
  (datagram frame.asSlice).any (·.destination.isBroadcast)

-- The frame is a unicast packet to an address of the port.
def leadsTo (s : Network) (target : Nat) (frame : PacketBuf) : Bool :=
  (datagram frame.asSlice).any fun d =>
    !d.destination.isBroadcast && s.routes[d.destination]? == some target

-- The frames of a batch that are accepted on a link.
def passages (s : Network) (source target : Nat) : List PacketBuf → List Passage
  | []            => []
  | slot :: slots =>
    match s.transmit source slot with
    | .accepted s' =>
      let p : Passage := {
        packet     := slot.asSlice
        acceptedAt := s.now
        queued     := (s'.queueOf target).drop (s.queueOf target).length }
      (if s.leadsTo target slot then [p] else []) ++ s'.passages source target slots
    | _ => []

end Network

-- The frames that the source of a link has yet to send, and the fabric: that of an access point, or
-- one of its own, for which only the events of a fabric occur.
structure Dispatch where
  ap     : AccessPoint
  unsent : List PacketBuf

namespace Dispatch

inductive Event
  | send (count : Nat)
  | fabric (op : Network.Op)
  | accessPoint (op : AccessPoint.Op)

abbrev network (x : Dispatch) : Network :=
  x.ap.network

-- Sends a batch. Frames that are not accepted remain, and are sent again with a later batch.
def send (source : Nat) (x : Dispatch) (count : Nat) : Dispatch :=
  match x.network.sendSlots source (x.unsent.take count) with
  | (network, _, .ok n)    => { ap := { x.ap with network }, unsent := x.unsent.drop n }
  | (network, _, .error _) => { x with ap := { x.ap with network } }

def step (source : Nat) (x : Dispatch) : Event → Dispatch
  | .send count     => x.send source count
  | .fabric op      => { x with ap := x.ap.onNetwork op }
  | .accessPoint op => { x with ap := x.ap.step op }

-- The packets that are accepted on a link in a step.
def accepted (source target : Nat) (x : Dispatch) : Event → List Passage
  | .send count =>
    if x.network.isOnline source then x.network.passages source target (x.unsent.take count) else []
  | _ => []

-- All frames of the source are sent in batches, and nobody configures the link.
def Event.spares (key source target : Nat) : Event → Bool
  | .fabric (.send id _) | .accessPoint (.send id _) => id != source
  | .fabric (.setLink a b _) | .accessPoint (.setLink a b _) =>
    !(a = ⟨key, source⟩ && b = ⟨key, target⟩)
  | _ => true

-- Nothing is accepted while the source is offline, so only the target has to stay online.
structure Steady (source target : Nat) (x : Dispatch) (event : Event) : Prop where
  online  : x.network.isOnline target
  stays   : (x.step source event).network.isOnline target
  unicast : ∀ frame ∈ x.unsent, !Network.isBroadcast frame
  spares  : event.spares x.network.key source target

instance (source target : Nat) (x : Dispatch) (event : Event) :
    Decidable (Steady source target x event) :=
  decidable_of_iff (x.network.isOnline target ∧ (x.step source event).network.isOnline target ∧
      (∀ frame ∈ x.unsent, !Network.isBroadcast frame) ∧ event.spares x.network.key source target)
    ⟨fun ⟨ho, hs, hu, he⟩ => ⟨ho, hs, hu, he⟩, fun ⟨ho, hs, hu, he⟩ => ⟨ho, hs, hu, he⟩⟩

def configured (ap : AccessPoint) (source target : Nat) (link : Link) (frames : List PacketBuf) :
    Dispatch where
  ap := { ap with network :=
    (ap.network.setLink ⟨ap.network.key, source⟩ ⟨ap.network.key, target⟩ link).fst }
  unsent := frames

end Dispatch

-- A run with a link that was just configured. The link remains as it is, both of its ports remain
-- online, and anything can happen elsewhere.
structure Experiment (link : Link) where
  ap     : AccessPoint
  source : Nat
  target : Nat
  frames : List PacketBuf
  events : List Dispatch.Event
  steady : Along (Dispatch.step source) (Dispatch.Steady source target)
            (.configured ap source target link frames) events

namespace Experiment

variable {link : Link} (x : Experiment link)

def start : Dispatch :=
  .configured x.ap x.source x.target link x.frames

def log : List Passage :=
  logs (Dispatch.step x.source) (Dispatch.accepted x.source x.target) x.start x.events

def packets (frames : List PacketBuf) : List (List U8) :=
  (frames.filter (x.start.network.leadsTo x.target)).map (·.asSlice)

-- The packets for the link that are left in the end.
def remaining : List (List U8) :=
  x.packets (exec (Dispatch.step x.source) x.start x.events).unsent

end Experiment

end Simulation
