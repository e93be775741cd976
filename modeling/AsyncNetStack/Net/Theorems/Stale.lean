import AsyncNetStack.Net.Theorems.Ethernet
import AsyncNetStack.Net.Theorems.Interface

-- A framed packet has the link address of its next hop.
def Ready.Carries (r : Ready) (mac : Mac) : Prop :=
  (Ethernet.parse r.frame.asSlice).map (·.destination) = some mac

namespace EthernetIpv4

variable {δ : Type} {e e' : EthernetIpv4 δ} {ip : Ipv4Addr} {mac : Mac}

theorem frameFor_carries (e : EthernetIpv4 δ) (mac : Mac) (p : Pending) :
    (e.frameFor mac p).Carries mac := by
  rw [Ready.Carries, frameFor, Ethernet.parse_prepend]
  rfl

-- Packets are released with the link address that their next hop has in the table.
theorem releaseResolved_ready (h : e.resolved ip = some mac) :
    ∃ released, e.releaseResolved.ready = e.ready ++ released ∧
      ∀ r ∈ released, r.nextHop = some ip → r.Carries mac := by
  rw [releaseResolved_eq]
  refine ⟨_, rfl, fun r hr hip => ?_⟩
  have ⟨p, _, hp⟩ := List.mem_filterMap.mp hr
  have ⟨mac', hm, hr⟩ := Option.map_eq_some_iff.mp hp
  obtain rfl : p.nextHop = ip := by
    rw [← hr] at hip
    exact Option.some.inj hip
  obtain rfl : mac' = mac := Option.some.inj (hm.symm.trans h)
  exact hr ▸ frameFor_carries e mac' p

-- The queue is discarded if the table has another link address at the time of the call.
theorem addStaticNeighbor_ready (h : e.addStaticNeighbor ip mac = (e', .ok ())) :
    ∃ released,
      e'.ready = (if e.neighbors[ip]?.any (changesMac mac) then [] else e.ready) ++ released ∧
      ∀ r ∈ released, r.nextHop = some ip → r.Carries mac := by
  rw [addStaticNeighbor] at h
  split at h
  case isTrue => cases h
  split at h
  case isTrue => cases h
  cases h
  have hr (e₁ : EthernetIpv4 δ) : resolved (event { e₁.cancelProbes ip with
      neighbors := (e₁.cancelProbes ip).neighbors.insert ip (.static mac) }
      (.neighborResolved ip mac)) ip = some mac := by
    simp [resolved, event, NeighborState.mac]
  obtain ⟨released, hq, hc⟩ := releaseResolved_ready (hr
    (if e.neighbors[ip]?.any (changesMac mac) then e.discardQueued else e))
  refine ⟨released, hq.trans ?_, hc⟩
  congr 1
  show (if _ then _ else _ : EthernetIpv4 δ).ready = _
  split
  case isTrue  => rfl
  case isFalse => rfl

-- A static neighbor leaves no other link address behind if and only if each packet that was framed
-- with one finds another one in the table as well.
theorem static_neighbor_replaces (h : e.addStaticNeighbor ip mac = (e', .ok ())) :
    (∀ r ∈ e'.ready, r.nextHop = some ip → r.Carries mac) ↔
    ∀ r ∈ e.ready, r.nextHop = some ip → ¬r.Carries mac →
      e.neighbors[ip]?.any (changesMac mac) = true := by
  have ⟨released, hq, hc⟩ := addStaticNeighbor_ready h
  rw [hq]
  split
  case isTrue hd => exact ⟨fun _ _ _ _ _ => hd, fun _ => hc⟩
  rename_i hd
  constructor
  case mp =>
    intro hall r hr hip hn
    exact absurd (hall r (List.mem_append_left _ hr) hip) hn
  case mpr =>
    intro hall r hr hip
    cases List.mem_append.mp hr
    case inl hr => exact not_imp_comm.mp (hall r hr hip) hd
    case inr hr => exact hc r hr hip

instance (r : Ready) (mac : Mac) : Decidable (r.Carries mac) :=
  inferInstanceAs (Decidable (_ = _))

theorem ok_of_isOk {r : IoResult Unit} (h : r.isOk = true) : r = .ok () := by
  cases r
  case error => cases h
  case ok    => rfl

-- With another address in the table, the packet that was framed before is discarded.
theorem static_neighbor_replaces_static : ∃ e₀, overLoopback = .ok e₀ ∧
    let e := Transition.exec step e₀ [.addStaticNeighbor 0x0a000002#32 2#48, .send [datagramToPeer]]
    let o := e.addStaticNeighbor 0x0a000002#32 3#48
    o.snd = .ok () ∧ e.ready.length = 1 ∧
    ((∀ r ∈ o.fst.ready, r.nextHop = some 0x0a000002#32 → r.Carries 3#48) ↔
    ∀ r ∈ e.ready, r.nextHop = some 0x0a000002#32 → ¬r.Carries 3#48 →
      e.neighbors[0x0a000002#32]?.any (changesMac 3#48) = true) := by
  have ⟨e₀, h, hc⟩ := overLoopback_any (p := fun e₀ =>
    let e := Transition.exec step e₀ [.addStaticNeighbor 0x0a000002#32 2#48, .send [datagramToPeer]]
    (e.addStaticNeighbor 0x0a000002#32 3#48).snd.isOk && e.ready.length == 1) (by decide +kernel)
  have ⟨hok, hlen⟩ := (Bool.and_eq_true ..).mp hc
  refine ⟨e₀, h, ok_of_isOk hok, beq_iff_eq.mp hlen, ?_⟩
  exact static_neighbor_replaces (Prod.ext rfl (ok_of_isOk hok))

-- The neighbor is learned, a packet is framed for it, and its entry expires while the device is
-- blocked.
def expiredWhileBlocked : List (Op LoopbackDevice) :=
  [.deviceMut fun d => (d.send [requestFromPeer]).fst, .recv 1,
    .deviceMut fun d => { d with freeSlots := [] }, .send [datagramToPeer], .advance (.fromSecs 61)]

theorem static_neighbor_after_expiry : ∃ e₀, overLoopback = .ok e₀ ∧
    let o := (Transition.exec step e₀ expiredWhileBlocked).addStaticNeighbor 0x0a000002#32 3#48
    o.snd = .ok () ∧ ∃ r ∈ o.fst.ready, r.nextHop = some 0x0a000002#32 ∧ r.Carries 2#48 := by
  have ⟨e₀, h, hc⟩ := overLoopback_any (p := fun e₀ =>
    let o := (Transition.exec step e₀ expiredWhileBlocked).addStaticNeighbor 0x0a000002#32 3#48
    o.snd.isOk && o.fst.ready.any fun r =>
      r.nextHop == some 0x0a000002#32 && decide (r.Carries 2#48)) (by decide +kernel)
  refine ⟨e₀, h, ?_⟩
  generalize (Transition.exec step e₀ expiredWhileBlocked).addStaticNeighbor _ _ = o at hc
  have ⟨hok, hany⟩ := (Bool.and_eq_true ..).mp hc
  have ⟨r, hr, hp⟩ := List.any_eq_true.mp hany
  have ⟨hip, hm⟩ := (Bool.and_eq_true ..).mp hp
  exact ⟨ok_of_isOk hok, r, hr, beq_iff_eq.mp hip, of_decide_eq_true hm⟩

end EthernetIpv4
