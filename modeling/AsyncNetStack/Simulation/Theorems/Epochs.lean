import AsyncNetStack.Simulation.Theorems.Conservation

namespace Simulation

open Fabric Transition List Option

namespace Network

variable {s : Network}

def Offline (s : Network) : Prop :=
  ∀ port ∈ s.ports, port.online = false

theorem Offline.isOnline (h : s.Offline) (i : Nat) : s.isOnline i = false := by
  rw [Network.isOnline]
  cases hp : s.ports[i]?
  case none      => rfl
  case some port => exact h port (mem_of_getElem? hp)

theorem Offline.map (h : s.Offline) {f : Port → Port}
    (hf : ∀ port, port.online = false → (f port).online = false) :
    ∀ port ∈ s.ports.map f, port.online = false := by
  intro port hp
  obtain ⟨port₀, hp₀, rfl⟩ := mem_map.mp hp
  exact hf port₀ (h port₀ hp₀)

theorem Offline.modify (h : s.Offline) {f : Port → Port} {i : Nat}
    (hf : ∀ port, port.online = false → (f port).online = false) :
    ∀ port ∈ s.ports.modify i f, port.online = false := by
  intro port hp
  obtain ⟨j, hj⟩ := mem_iff_getElem?.mp hp
  rw [List.getElem?_modify] at hj
  obtain ⟨port₀, hp₀, rfl⟩ := map_eq_some_iff.mp hj
  have := h port₀ (mem_of_getElem? hp₀)
  split
  case isTrue  => exact hf port₀ this
  case isFalse => exact this

theorem Offline.dropFrames (h : s.Offline) (frames : List PacketBuf) :
    (s.dropFrames frames).Offline :=
  h.map fun port ho => (congrArg Lane.online (port.lane_recycle frames)).trans ho

theorem Offline.disconnect (h : s.Offline) (id : Nat) : (s.disconnect id).Offline := by
  rw [Network.disconnect]
  refine Offline.dropFrames (fun port hp => ?_) _
  obtain ⟨j, hj, rfl⟩ := mem_mapIdx.mp hp
  have := h.modify (f := .goOffline) (i := id) (fun _ _ => rfl) _ (getElem_mem hj)
  exact this

theorem Offline.perform (h : s.Offline) {op : Op}
    (hop : ∀ pool addresses frames queue, op ≠ .port pool addresses frames queue) :
    (s.perform op).Offline := by
  cases op
  case port pool addresses frames queue => exact absurd rfl (hop pool addresses frames queue)
  case setLink source target link =>
    rw [Network.perform, setLink]
    split <;> exact h
  case advance elapsed =>
    rw [Network.perform, advance]
    split <;> exact h
  case send id slots =>
    rcases s.sendSlots_forwards id slots with ⟨heq, _⟩ | ⟨ho, _⟩
    case inl =>
      rw [Network.perform, heq]
      exact h
    case inr => exact absurd ho (by simp [h.isOnline id])
  case recv id max =>
    rw [Network.perform, recv]
    split
    case h_1 => exact h
    case h_2 => exact h.modify fun _ ho => ho
  case alloc id =>
    rw [Network.perform, alloc]
    split
    case h_1 => exact h
    case h_2 => exact h.modify fun _ ho => ho
  case dropDevice id => exact (h.disconnect id).modify fun _ ho => ho
  case recycle frame => exact h.dropFrames [frame]

theorem Offline.step (h : s.Offline) {op : Op}
    (hop : ∀ pool addresses frames queue, op ≠ .port pool addresses frames queue) :
    (s.step op).Offline := by
  rw [Network.step]
  split
  case isTrue  => exact h.perform hop
  case isFalse => exact h

end Network

namespace AccessPoint

open Network

variable {key : Nat} {ops : List Op} {i : Nat} {p : Pending}

abbrev after (key : Nat) (ops : List Op) : Network :=
  (exec step (.empty key) ops).network

def Connected (s : Network) (source target : Nat) : Prop :=
  s.isOnline source ∧ s.isOnline target

-- A frame was sent in one of the steps of the run, and both its ports have been online ever since.
structure Sent (key : Nat) (ops : List Op) (target : Nat) (p : Pending) (before rest : List Op)
    (slots : List PacketBuf) : Prop where
  split     : ops = before ++ .send p.source slots :: rest
  lower     : (after key before).serial ≤ p.serial
  upper     : p.serial < (after key (before ++ [.send p.source slots])).serial
  connected : ∀ mid, mid <+: rest →
    Connected (after key (before ++ .send p.source slots :: mid)) p.source target

theorem Sent.extend {before rest : List Op} {slots : List PacketBuf}
    (h : Sent key ops i p before rest slots) {op : Op}
    (hc : Connected (after key (ops ++ [op])) p.source i) :
    Sent key (ops ++ [op]) i p before (rest ++ [op]) slots where
  split := by rw [h.split, append_assoc, cons_append]
  lower := h.lower
  upper := h.upper
  connected mid hmid := by
    rcases prefix_concat_iff.mp hmid with rfl | hmid
    case inl =>
      rw [h.split, append_assoc, cons_append] at hc
      exact hc
    case inr => exact h.connected mid hmid

end AccessPoint

end Simulation
