import AsyncNetStack.Lib.Agenda
import AsyncNetStack.Simulation.Network

open List

namespace Simulation

-- What a fabric does with frames, regardless of where the memory for them comes from. A lane is a
-- port without its pool.
structure Lane where
  queue    : List Pending
  capacity : Nat
  active   : Bool
  online   : Bool
  drained  : List (Pending × Duration)

namespace Lane

def goOffline (lane : Lane) : Lane :=
  { lane with online := false }

def push (lane : Lane) (p : Pending) : Lane :=
  { lane with queue := lane.queue ++ [p] }

def retain (lane : Lane) (keep : Pending → Bool) : Lane :=
  { lane with queue := lane.queue.filter keep }

def arrived (lane : Lane) (now : Duration) (max : Nat) : List Pending :=
  Agenda.drain Pending.deliverAt now max lane.queue

def drain (lane : Lane) (now : Duration) (max : Nat) : Lane :=
  { lane with
    queue   := (Agenda.sort Pending.deliverAt lane.queue).drop (lane.arrived now max).length
    drained := lane.drained ++ (lane.arrived now max).map (·, now) }

-- Frames fit into the queue, and leave it in order and not before they are due.
structure Sound (now : Duration) (serial : Nat) (lane : Lane) : Prop where
  bounded  : lane.queue.length ≤ lane.capacity
  timely   : Agenda.Timely Pending.deliverAt Pending.serial now serial lane.queue
              (lane.drained.map Prod.fst)
  punctual : ∀ d ∈ lane.drained, d.fst.deliverAt ≤ d.snd

namespace Sound

variable {lane : Lane} {now : Duration} {serial : Nat}

theorem mono (h : Sound now serial lane) {now' : Duration} {serial' : Nat} (hn : now ≤ now')
    (hs : serial ≤ serial') : Sound now' serial' lane :=
  { h with timely := (h.timely.tick hn).mono hs }

theorem push {p : Pending} (h : Sound now serial lane) (hroom : lane.queue.length ≠ lane.capacity)
    (hd : now ≤ p.deliverAt) (hs : p.serial = serial) : Sound now (serial + 1) (lane.push p) where
  bounded := by
    have := h.bounded
    simp only [Lane.push, length_append, length_singleton]
    omega
  timely := h.timely.push hd hs
  punctual := h.punctual

theorem retain (h : Sound now serial lane) (keep : Pending → Bool) :
    Sound now serial (lane.retain keep) where
  bounded  := (length_filter_le ..).trans h.bounded
  timely   := h.timely.sublist filter_sublist
  punctual := h.punctual

theorem drain (h : Sound now serial lane) (max : Nat) : Sound now serial (lane.drain now max) where
  bounded := by
    have := h.bounded
    simp only [Lane.drain, length_drop, Agenda.length_sort]
    omega
  timely := by
    simpa [Lane.drain, Lane.arrived, Function.comp_def] using h.timely.drain max
  punctual d hd := by
    rcases mem_append.mp hd with hd | hd
    case inl => exact h.punctual d hd
    obtain ⟨p, hp, rfl⟩ := mem_map.mp hd
    exact Agenda.drain_due hp

end Sound

theorem length_retain (lane : Lane) (keep : Pending → Bool) :
    (lane.retain keep).queue.length + (lane.queue.filter (!keep ·)).length = lane.queue.length :=
  (length_eq_length_filter_add keep).symm

theorem length_drain (lane : Lane) (now : Duration) (max : Nat) :
    (lane.drain now max).queue.length + (lane.arrived now max).length = lane.queue.length := by
  have h := congrArg List.length
    (Agenda.drain_append_drop Pending.deliverAt now max lane.queue)
  rw [length_append, Agenda.length_sort] at h
  simp only [drain, arrived]
  omega

theorem mem_drain {lane : Lane} {now : Duration} {max : Nat} {p : Pending}
    (h : p ∈ (lane.drain now max).queue) : p ∈ lane.queue :=
  Agenda.mem_sort.mp (mem_of_mem_drop h)

end Lane

-- `settled` counts the frames that were delivered or lost.
structure Fabric where
  now     : Duration
  lanes   : List Lane
  settled : Nat
  serial  : Nat

namespace Fabric

def isOnline (f : Fabric) (id : Nat) : Bool :=
  f.lanes[id]?.any (·.online)

def enqueue (f : Fabric) (source target : Nat) (frame : PacketBuf) (deliverAt : Duration) :
    Fabric :=
  let p : Pending := { deliverAt, source, frame, serial := f.serial }
  { f with lanes := f.lanes.modify target (·.push p), serial := f.serial + 1 }

def settle (f : Fabric) (count : Nat) : Fabric :=
  { f with settled := f.settled + count }

-- `Transit source f n f'` says that `n` frames from a source were accepted, each of which is lost
-- or queued for an online lane that has room for it.
inductive Transit (source : Nat) (f : Fabric) : Nat → Fabric → Prop
  | refl : Transit source f 0 f
  | settle {n : Nat} {g : Fabric} : Transit source f n g → Transit source f (n + 1) (g.settle 1)
  | enqueue {n target : Nat} {g : Fabric} {lane : Lane} {frame : PacketBuf} {deliverAt : Duration} :
    Transit source f n g → g.lanes[target]? = some lane → lane.online →
    lane.queue.length ≠ lane.capacity → g.now ≤ deliverAt →
    Transit source f (n + 1) (g.enqueue source target frame deliverAt)

-- Lanes on which the same frames are queued, and that are online if they were before.
structure Kept (l₁ l₂ : Lane) : Prop where
  queue    : l₂.queue = l₁.queue
  capacity : l₂.capacity = l₁.capacity
  drained  : l₂.drained = l₁.drained
  online   : l₁.online → l₂.online

-- Takes a lane offline, together with all frames to and from it.
def disconnect (f : Fabric) (id : Nat) : Fabric :=
  let lanes := f.lanes.modify id .goOffline
  let purged := (lanes.mapIdx fun i lane => lane.queue.filter (!Network.unrelated id i ·)).flatten
  { f with
    lanes   := lanes.mapIdx fun i lane => lane.retain (Network.unrelated id i)
    settled := f.settled + purged.length }

def shutdown (f : Fabric) : Fabric :=
  { f with
    lanes   := f.lanes.map fun lane => { lane.goOffline with queue := [] }
    settled := f.settled + (f.lanes.flatMap (·.queue)).length }

-- What happens apart from that.
inductive Change (f : Fabric) : Fabric → Prop
  | tick {now : Duration} : f.now ≤ now → Change f { f with now }
  | join (lane : Lane) : lane.queue = [] → lane.drained = [] →
    Change f { f with lanes := f.lanes ++ [lane] }
  | recv (max : Nat) {id : Nat} {lane : Lane} : f.lanes[id]? = some lane →
    Change f { f.settle (lane.arrived f.now max).length with
      lanes := f.lanes.modify id (·.drain f.now max) }
  | keep (id : Nat) {g : Lane → Lane} : (∀ lane, Kept lane (g lane)) →
    Change f { f with lanes := f.lanes.modify id g }
  | disconnect (id : Nat) : Change f (f.disconnect id)
  | shutdown : Change f f.shutdown

abbrev Changes : Fabric → Fabric → Prop :=
  Relation.ReflTransGen Change

end Fabric

end Simulation
