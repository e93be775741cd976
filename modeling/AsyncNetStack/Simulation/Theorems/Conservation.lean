import AsyncNetStack.Simulation.Theorems.Refinement

namespace Simulation

open Fabric Transition

namespace Network

variable {s s' : Network} {sent sent' : List Nat} {source : Nat}

-- Every frame that was sent is accounted for, and the ports of the fabric are as they should.
structure Sound (sent : List Nat) (s : Network) : Prop where
  fabric   : s.fabric.Sound
  balanced : sent.sum = s.fabric.total

theorem empty_sound (key : Nat) : Sound [] (empty key) :=
  ⟨⟨by simp [fabric, empty], by simp [fabric, empty]⟩, rfl⟩

theorem Sound.transit (hs : Sound sent s) (ho : s.isOnline source)
    (h : Transit source s.fabric sent'.sum s'.fabric) : Sound (sent ++ sent') s' :=
  ⟨h.sound (s.isOnline_eq source ▸ ho) hs.fabric, by
    rw [List.sum_append, hs.balanced, h.total_eq]⟩

theorem Sound.revise (hs : Sound sent s) (hn : sent' = []) (h : Revises s s') :
    Sound (sent ++ sent') s' :=
  ⟨Changes.sound h hs.fabric, by
    rw [hn, List.append_nil, hs.balanced, Changes.total_eq h]⟩

theorem step_sound (sent : List Nat) (s : Network) (op : Op) (hs : Sound sent s) :
    Sound (sent ++ op.sent s) (s.step op) := by
  rcases s.step_cases op with ⟨_, _, _, ho, ht⟩ | ⟨hn, hr⟩
  case inl => exact hs.transit ho ht
  case inr => exact hs.revise hn hr

-- The fates of frames: those that were sent are delivered, lost or queued, no queue exceeds its
-- capacity, and a port receives its frames in the order of their delivery times, those for the same
-- time in the order in which they were queued, and none of them too early.
structure Conserves (sent : List Nat) (s : Network) : Prop where
  balanced : sent.sum = s.stats.delivered + (s.ports.map (·.queue.length)).sum +
              s.stats.faultDrops + s.stats.queueDrops + s.stats.unroutable +
              s.stats.disconnectedDrops
  bounded  : ∀ port ∈ s.ports, port.queue.length ≤ port.capacity
  ordered  : ∀ port ∈ s.ports, port.drained.Pairwise fun d e =>
              Agenda.Before Pending.deliverAt Pending.serial d.fst e.fst
  punctual : ∀ port ∈ s.ports, ∀ d ∈ port.drained, d.fst.deliverAt ≤ d.snd
  received : ∀ (id max : Nat) (port : Port), s.ports[id]? = some port → ∃ out : List Pending,
              (s.recv id max).snd = .ok (out.map (·.frame)) ∧
              (s.recv id max).fst.ports[id]?.map (·.drained) =
                some (port.drained ++ out.map (·, s.now))

theorem mem_lanes {port : Port} (h : port ∈ s.ports) : port.lane ∈ s.fabric.lanes :=
  List.mem_map_of_mem h

theorem Sound.conserves (hs : Sound sent s) : s.Conserves sent where
  balanced := by
    have h := hs.balanced
    simp only [total, inFlight, Network.fabric, List.map_map, Function.comp_def, Port.lane] at h
    omega
  bounded port hp := (hs.fabric.lanes _ (mem_lanes hp)).bounded
  ordered port hp := List.pairwise_map.mp (hs.fabric.lanes _ (mem_lanes hp)).timely.ordered
  punctual port hp := (hs.fabric.lanes _ (mem_lanes hp)).punctual
  received id max port hp := by
    refine ⟨s.arrived max port.queue, ?_, ?_⟩
    all_goals rw [recv, hp]
    simp [hp]

end Network

namespace AccessPoint

open Network

theorem step_sound (sent : List Nat) (ap : AccessPoint) (op : Op) (hs : Sound sent ap.network) :
    Sound (sent ++ op.sent ap) (ap.step op).network := by
  rcases ap.step_cases op with ⟨_, _, _, ho, ht⟩ | ⟨hn, hr⟩
  case inl => exact hs.transit ho ht
  case inr => exact hs.revise hn hr

def sent (key : Nat) (ops : List Op) : List Nat :=
  logs step Op.sent (.empty key) ops

theorem exec_sound (key : Nat) (ops : List Op) :
    Sound (sent key ops) (exec step (.empty key) ops).network :=
  logs_induction (P := fun sent ap => Sound sent (network ap)) (l := []) (empty_sound key)
    step_sound

end AccessPoint

-- The frames that are accounted for are those which the sends of the run have accepted, by the
-- numbers that they returned.
theorem Network.fabric_packet_conservation (key : Nat) :
    (∀ ops, (exec Network.step (.empty key) ops).Conserves
      (logs Network.step Network.Op.sent (.empty key) ops)) ∧
    ∀ ops, (exec AccessPoint.step (.empty key) ops).network.Conserves (AccessPoint.sent key ops) :=
  ⟨fun _ => (logs_induction (P := Sound) (l := []) (empty_sound key) step_sound).conserves,
    fun ops => (AccessPoint.exec_sound key ops).conserves⟩

namespace Network

-- A packet for the address that repeats a byte.
def packet (byte : U8) : PacketBuf where
  memory     := 0x45 :: List.replicate 15 0 ++ List.replicate 4 byte
  dataOffset := 0
  len        := 20
  idx        := 0
  pool       := none
  bound      := by simp

-- The second port is full after one packet. Of the broadcast behind it one copy finds no room and
-- the other is lost, the third packet has no receiver, and the last one is not accepted.
def mixed : List Op := [
  .port 0 [0x01010101#32] 4 2,
  .port 1 [0x02020202#32] 4 1,
  .port 2 [0x03030303#32] 4 2,
  .setLink ⟨0, 0⟩ ⟨0, 2⟩ { Link.default with dropEvery := 1 },
  .send 0 [packet 2, packet 255, packet 9, packet 2],
  .recv 1 1,
  .send 0 [packet 2],
  .dropDevice 1]

theorem fabric_packet_conservation_mixed :
    logs step Op.sent (.empty 0) mixed = [1, 2, 1, 1] ∧
    (exec step (.empty 0) mixed).stats = {
      delivered         := 1
      faultDrops        := 1
      queueDrops        := 1
      unroutable        := 1
      backpressure      := 1
      disconnectedDrops := 1 } ∧
    (exec step (.empty 0) mixed).Conserves [1, 2, 1, 1] := by
  have hsent : logs step Op.sent (.empty 0) mixed = [1, 2, 1, 1] := by decide +kernel
  exact ⟨hsent, by decide +kernel, hsent ▸ (fabric_packet_conservation 0).left mixed⟩

end Network

end Simulation
