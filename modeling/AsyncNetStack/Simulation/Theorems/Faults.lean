import AsyncNetStack.Simulation.Experiment
import AsyncNetStack.Simulation.Theorems.Refinement

open Transition Std List

namespace Simulation
namespace Network

variable {s s' : Network} {source target a b : Nat} {frame : PacketBuf}

-- Nothing happens to a link: its configuration and sequence number remain, and the same addresses
-- lead to its target.
structure SameLink (a b : Nat) (s s' : Network) : Prop where
  link   : s'.links (a, b) = s.links (a, b)
  routes : ∀ ip : Ipv4Addr, s'.routes[ip]? = some b ↔ s.routes[ip]? = some b

namespace SameLink

theorem of_eq (hl : s'.links = s.links) (hr : s'.routes = s.routes) : SameLink a b s s' :=
  ⟨by rw [hl], fun _ => by rw [hr]⟩

theorem trans {t : Network} (h₁ : SameLink a b s s') (h₂ : SameLink a b s' t) : SameLink a b s t :=
  ⟨h₂.link.trans h₁.link, fun ip => (h₂.routes ip).trans (h₁.routes ip)⟩

end SameLink

-- A packet only touches the link on which it is sent.
theorem traverse_spares (h : (source, target) ≠ (a, b)) (len : Nat) :
    SameLink a b s (s.traverse source target len).fst := by
  have hlink (link : Link × Nat) :
      Function.update s.links (source, target) link (a, b) = s.links (a, b) :=
    Function.update_of_ne h.symm ..
  rw [traverse]
  dsimp only
  split
  case isTrue  => exact ⟨hlink _, fun _ => .rfl⟩
  case isFalse => exact ⟨hlink _, fun _ => .rfl⟩

theorem copyTo_spares (h : source ≠ a) (d : Datagram) (target : Nat) :
    SameLink a b s (s.copyTo source d target) := by
  have hne : (source, target) ≠ (a, b) := fun heq => h (Prod.mk.inj heq).left
  have ht := s.traverse_spares hne d.bytes.length
  rw [copyTo]
  split
  case isTrue => exact .of_eq rfl rfl
  revert ht
  rcases s.traverse source target d.bytes.length with ⟨m, _ | deliverAt⟩ <;> intro ht
  case none => exact ht
  dsimp only
  split
  case isTrue => exact ht.trans (.of_eq rfl rfl)
  cases m.ports[target]?
  case none => exact ht
  case some port =>
    dsimp only
    cases (port.copy d.bytes d.fits).snd
    case none => exact ht.trans (.of_eq rfl rfl)
    case some => exact ht.trans (.of_eq rfl rfl)

theorem copies_spares (h : source ≠ a) (d : Datagram) (targets : List Nat) :
    SameLink a b s (targets.foldl (·.copyTo source d ·) s) := by
  induction targets generalizing s
  case nil                 => exact .of_eq rfl rfl
  case cons target targets ih => exact (copyTo_spares h d target).trans ih

def Transmission.Spares (a b : Nat) (s : Network) : Transmission → Prop
  | .accepted s' | .congested s' => SameLink a b s s'
  | .invalid                     => True

theorem unicast_spares {d : Datagram} (h : source ≠ a ∨ s.routes[d.destination]? ≠ some b) :
    (s.unicast source frame d).Spares a b s := by
  rw [unicast]
  cases hr : s.routes[d.destination]?
  case none => exact .of_eq rfl rfl
  case some target =>
    have hne : (source, target) ≠ (a, b) := by
      rintro ⟨rfl, rfl⟩
      exact h.elim (· rfl) (· hr)
    have ht := s.traverse_spares hne d.bytes.length
    dsimp only
    split
    case isTrue => exact SameLink.of_eq rfl rfl
    split
    case isTrue => exact SameLink.of_eq rfl rfl
    revert ht
    rcases s.traverse source target d.bytes.length with ⟨m, _ | deliverAt⟩ <;> intro ht
    case none => exact ht.trans (.of_eq rfl rfl)
    case some => exact ht.trans (.of_eq rfl rfl)

theorem transmit_spares (h : source ≠ a) (frame : PacketBuf) :
    (s.transmit source frame).Spares a b s := by
  rw [transmit]
  cases datagram frame.asSlice
  case none   => trivial
  case some d =>
    dsimp only
    split
    case isTrue  => exact (copies_spares h d _).trans (.of_eq rfl rfl)
    case isFalse => exact unicast_spares (.inl h)

theorem transmitAll_spares (h : source ≠ a) (accepted : Nat) (slots : List PacketBuf) :
    SameLink a b s (s.transmitAll source accepted slots).fst := by
  induction slots generalizing s accepted
  case nil => exact .of_eq rfl rfl
  case cons slot slots ih =>
    have ht := s.transmit_spares (b := b) h slot
    rw [transmitAll]
    revert ht
    cases s.transmit source slot <;> intro ht
    case invalid =>
      dsimp only
      split <;> exact .of_eq rfl rfl
    case congested => exact ht
    case accepted  => exact ht.trans (ih (accepted + 1))

theorem sendSlots_spares (h : source ≠ a) (slots : List PacketBuf) :
    SameLink a b s (s.sendSlots source slots).fst := by
  rw [sendSlots]
  split
  case isTrue => exact .of_eq rfl rfl
  split
  case isTrue  => exact .of_eq rfl rfl
  case isFalse => exact transmitAll_spares h 0 slots

theorem insert_routes {routes : TreeMap Ipv4Addr Nat} {addresses : List Ipv4Addr} {id : Nat}
    (hne : id ≠ b) (h : ∀ ip ∈ addresses, routes[ip]? ≠ some b) (ip : Ipv4Addr) :
    (addresses.foldl (fun routes ip => routes.insert ip id) routes)[ip]? = some b ↔
      routes[ip]? = some b := by
  induction addresses generalizing routes
  case nil => rfl
  case cons address addresses ih =>
    have hinsert (ip : Ipv4Addr) : (routes.insert address id)[ip]? = some b ↔
        address ≠ ip ∧ routes[ip]? = some b := by
      rw [TreeMap.getElem?_insert]
      by_cases heq : address = ip
      case pos => simp [heq, hne]
      case neg => simp [heq]
    rw [foldl_cons, ih fun ip hip hr => h ip (.tail _ hip) ((hinsert ip).mp hr).right, hinsert]
    refine and_iff_right_of_imp ?_
    rintro hr rfl
    exact h address (.head _) hr

theorem lt_length_of_online (h : s.isOnline b) : b < s.ports.length := by
  rw [isOnline] at h
  cases hp : s.ports[b]?
  case none      => simp [hp] at h
  case some port => exact (List.getElem?_eq_some_iff.mp hp).fst

-- The addresses of a new port are not in use.
theorem port_spares (h : s.isOnline b) (pool : PoolId) (addresses : List Ipv4Addr)
    (frames queue : Nat) : SameLink a b s (s.port pool addresses frames queue).fst := by
  rw [port]
  split
  case isTrue => exact .of_eq rfl rfl
  case isFalse hvalid =>
    refine ⟨rfl, insert_routes (lt_length_of_online h).ne' fun ip hip hr => hvalid ?_⟩
    have hc : s.routes.contains ip := by
      rw [TreeMap.contains_eq_isSome_getElem?, hr, Option.isSome_some]
    simp only [Bool.or_eq_true, any_eq_true]
    exact .inr ⟨ip, hip, .inr hc⟩

theorem setLink_spares {x y : Handle} (h : ¬(x = ⟨s.key, a⟩ ∧ y = ⟨s.key, b⟩)) (link : Link) :
    SameLink a b s (s.setLink x y link).fst := by
  rw [setLink]
  split
  case isTrue        => exact .of_eq rfl rfl
  case isFalse hkeys =>
    refine ⟨Function.update_of_ne (fun heq => h ?_) .., fun _ => .rfl⟩
    rw [not_or, not_not, not_not] at hkeys
    obtain ⟨rfl, rfl⟩ := Prod.mk.inj heq
    exact ⟨by rw [← hkeys.left], by rw [← hkeys.right]⟩

-- Addresses are only withdrawn from a port that goes offline.
theorem dropDevice_spares {id : Nat} (h : (s.dropDevice id).isOnline b) :
    SameLink a b s (s.dropDevice id) := by
  refine ⟨rfl, fun ip => ?_⟩
  have hne : id ≠ b := by
    rintro rfl
    have hoff : (s.disconnect id).isOnline id = false := by
      rw [isOnline_eq, fabric_disconnect]
      exact Fabric.isOnline_disconnect_self
    simp only [dropDevice, isOnline, List.getElem?_modify, if_pos] at h hoff
    revert h hoff
    cases (s.disconnect id).ports[id]? <;> simp
  rw [dropDevice]
  dsimp only
  rw [TreeMap.getElem?_filter', Option.filter_eq_some_iff, bne_iff_ne]
  exact and_iff_left hne.symm

theorem recv_spares (id max : Nat) : SameLink a b s (s.recv id max).fst := by
  rw [recv]
  cases s.ports[id]? <;> exact .of_eq rfl rfl

theorem alloc_spares (id : Nat) : SameLink a b s (s.alloc id).fst := by
  rw [alloc]
  cases s.ports[id]? <;> exact .of_eq rfl rfl

theorem advance_spares (elapsed : Duration) : SameLink a b s (s.advance elapsed).fst := by
  rw [advance]
  split <;> exact .of_eq rfl rfl

theorem step_spares {op : Op} (h : (Dispatch.Event.fabric op).spares s.key a b) (ho : s.isOnline b)
    (ho' : (s.step op).isOnline b) : SameLink a b s (s.step op) := by
  rw [step] at ho' ⊢
  split at ho'
  case isFalse hlive =>
    rw [if_neg hlive]
    exact .of_eq rfl rfl
  rename_i hlive
  rw [if_pos hlive]
  cases op
  case port pool addresses frames queue => exact port_spares ho pool addresses frames queue
  case setLink x y link =>
    exact setLink_spares (not_and_or.mpr (by simpa [Dispatch.Event.spares] using h)) link
  case advance elapsed => exact advance_spares elapsed
  case send id slots   => exact sendSlots_spares (by simpa [Dispatch.Event.spares] using h) slots
  case recv id max     => exact recv_spares id max
  case alloc id        => exact alloc_spares id
  case dropDevice id   => exact dropDevice_spares ho'
  case recycle frame   => exact .of_eq rfl rfl

end Network

namespace AccessPoint

open Network

variable {ap : AccessPoint} {a b : Nat}

theorem port_spares (h : ap.network.isOnline b) (pool : PoolId) (addresses : List Ipv4Addr)
    (frames queue : Nat) :
    SameLink a b ap.network (ap.port pool addresses frames queue).fst.network := by
  have hs := Network.port_spares (a := a) h pool addresses frames queue
  rw [port]
  revert hs
  rcases ap.network.port pool addresses frames queue with ⟨network, _ | id⟩ <;> intro hs
  case error => exact hs
  case ok    => exact hs.trans (.of_eq rfl rfl)

theorem associate_spares (device : Handle) :
    SameLink a b ap.network (ap.associate device).fst.network := by
  rw [associate]
  cases ap.check device
  case error => exact .of_eq rfl rfl
  dsimp only
  split <;> exact .of_eq rfl rfl

theorem disassociate_spares (device : Handle) :
    SameLink a b ap.network (ap.disassociate device).fst.network := by
  rw [disassociate]
  cases ap.check device <;> exact .of_eq rfl rfl

theorem step_spares {op : Op} (h : (Dispatch.Event.accessPoint op).spares ap.network.key a b)
    (ho : ap.network.isOnline b) (ho' : (ap.step op).network.isOnline b) :
    SameLink a b ap.network (ap.step op).network := by
  cases op
  case port pool addresses frames queue => exact port_spares ho pool addresses frames queue
  case start                            => exact .of_eq rfl rfl
  case stop                             => exact .of_eq rfl rfl
  case associate device =>
    rw [step]
    split
    case isTrue  => exact associate_spares device
    case isFalse => exact .of_eq rfl rfl
  case disassociate device =>
    rw [step]
    split
    case isTrue  => exact disassociate_spares device
    case isFalse => exact .of_eq rfl rfl
  all_goals exact Network.step_spares h ho ho'

end AccessPoint

namespace Link

variable {link : Link} {sequence len : Nat}

theorem faulty_iff : link.faulty sequence len ↔
    link.partitioned ∨ (link.mtu ≠ 0 ∧ link.mtu < len) ∨
      (link.dropEvery ≠ 0 ∧ link.dropEvery ∣ sequence) := by
  simp [faulty, or_assoc, Nat.dvd_iff_mod_eq_zero]

-- Nanoseconds from the time when a packet is accepted to its delivery.
def extra (link : Link) (sequence : Nat) : Nat :=
  link.delay.nanos + if sequence % 2 = 0 then link.alternatingDelay.nanos else 0

theorem saturatingAdd_latency {now : Duration}
    (h : now.nanos + link.extra sequence < 2 ^ 64 * 10 ^ 9) :
    (now.saturatingAdd (link.latency sequence)).nanos = now.nanos + link.extra sequence := by
  have hzero : Duration.zero.nanos = 0 := rfl
  have hlatency : (link.latency sequence).nanos = link.extra sequence := by
    rw [extra] at h
    rw [latency, extra]
    split
    case isTrue heven =>
      rw [if_pos heven] at h
      exact Duration.saturatingAdd_nanos (by rw [Duration.AddFits]; omega)
    case isFalse hodd =>
      rw [if_neg hodd] at h
      exact Duration.saturatingAdd_nanos (by rw [Duration.AddFits]; omega)
  rw [Duration.saturatingAdd_nanos, hlatency]
  rwa [Duration.AddFits, hlatency]

end Link

-- What the fault schedule of a link says about a packet.
def Passage.Follows (source : Nat) (link : Link) (sequence : Nat) (p : Passage) : Prop :=
  if link.faulty sequence p.packet.length then
    p.queued = []
  else
    ∃ q, p.queued = [q] ∧ q.source = source ∧ q.frame.asSlice = p.packet ∧
      q.deliverAt = p.acceptedAt.saturatingAdd (link.latency sequence)

namespace Network

variable {s s' : Network} {a b : Nat} {frame : PacketBuf} {d : Datagram}

theorem datagram_bytes {bytes : List U8} (h : datagram bytes = some d) : d.bytes = bytes := by
  unfold datagram at h
  split at h
  case h_2 => cases h
  split at h
  case isFalse => cases h
  rw [← Option.some.inj h]

theorem queueOf_eq (s : Network) (i : Nat) :
    s.queueOf i = s.fabric.lanes[i]?.elim [] Lane.queue := by
  rw [queueOf, lanes_getElem?]
  cases s.ports[i]? <;> rfl

theorem queueOf_dropFrames (s : Network) (frames : List PacketBuf) (i : Nat) :
    (s.dropFrames frames).queueOf i = s.queueOf i := by
  rw [queueOf_eq, queueOf_eq, fabric_dropFrames]

theorem queueOf_enqueue (h : s.isOnline b) (frame : PacketBuf) (deliverAt : Duration) :
    (s.enqueue a b frame deliverAt).queueOf b =
      s.queueOf b ++ [{ deliverAt, source := a, frame, serial := s.serial }] := by
  simp only [queueOf, enqueue, List.getElem?_modify, if_pos]
  cases hp : s.ports[b]?
  case none => simp [isOnline, hp] at h
  case some => rfl

-- A packet is accepted on a link with the next sequence number.
structure Crosses (a b : Nat) (s : Network) (frame : PacketBuf) (s' : Network) : Prop where
  link   : s'.links (a, b) = ((s.links (a, b)).fst, ((s.links (a, b)).snd + 1) % 2 ^ 64)
  routes : s'.routes = s.routes
  queued : Passage.Follows a (s.links (a, b)).fst (((s.links (a, b)).snd + 1) % 2 ^ 64) {
    packet     := frame.asSlice
    acceptedAt := s.now
    queued     := (s'.queueOf b).drop (s.queueOf b).length }

theorem unicast_crosses (hd : d.bytes = frame.asSlice) (hr : s.routes[d.destination]? = some b)
    (ho : s.isOnline b) :
    (∃ s', s.unicast a frame d = .congested s' ∧ SameLink a b s s') ∨
      ∃ s', s.unicast a frame d = .accepted s' ∧ Crosses a b s frame s' := by
  rw [unicast, hr]
  dsimp only
  rw [if_neg (by simpa using ho)]
  split
  case isTrue => exact .inl ⟨_, rfl, .of_eq rfl rfl⟩
  refine .inr ?_
  simp only [traverse, hd]
  by_cases hf :
      (s.links (a, b)).fst.faulty (((s.links (a, b)).snd + 1) % 2 ^ 64) frame.asSlice.length
  case pos =>
    rw [if_pos hf]
    refine ⟨_, rfl, Function.update_self .., rfl, ?_⟩
    rw [Passage.Follows, if_pos hf, queueOf_dropFrames]
    exact drop_length
  case neg =>
    rw [if_neg hf]
    refine ⟨_, rfl, Function.update_self .., rfl, ?_⟩
    rw [Passage.Follows, if_neg hf, queueOf_enqueue (by exact ho)]
    exact ⟨_, drop_left .., rfl, rfl, rfl⟩

theorem leadsTo_iff : s.leadsTo b frame ↔ ∃ d, datagram frame.asSlice = some d ∧
    !d.destination.isBroadcast ∧ s.routes[d.destination]? = some b := by
  rw [leadsTo]
  cases datagram frame.asSlice <;> simp

theorem leadsTo_congr (h : ∀ ip : Ipv4Addr, s'.routes[ip]? = some b ↔ s.routes[ip]? = some b)
    (frame : PacketBuf) : s'.leadsTo b frame = s.leadsTo b frame := by
  rw [Bool.eq_iff_iff, leadsTo_iff, leadsTo_iff]
  simp only [h]

theorem transmit_of_leadsTo (h : s.leadsTo b frame) (ho : s.isOnline b) :
    (∃ s', s.transmit a frame = .congested s' ∧ SameLink a b s s') ∨
      ∃ s', s.transmit a frame = .accepted s' ∧ Crosses a b s frame s' := by
  have ⟨d, hd, hu, hr⟩ := leadsTo_iff.mp h
  rw [transmit, hd]
  dsimp only
  rw [if_neg (by simpa using hu)]
  exact unicast_crosses (datagram_bytes hd) hr ho

theorem transmit_of_not_leadsTo (hu : !isBroadcast frame) (h : ¬s.leadsTo b frame) :
    (s.transmit a frame).Spares a b s := by
  rw [isBroadcast] at hu
  rw [transmit]
  cases hd : datagram frame.asSlice
  case none   => trivial
  case some d =>
    have hu : !d.destination.isBroadcast := by simpa [hd] using hu
    dsimp only
    rw [if_neg (by simpa using hu)]
    exact unicast_spares (.inr fun hr => h (leadsTo_iff.mpr ⟨d, hd, hu, hr⟩))

theorem transmit_isOnline (h : s.transmit a frame = .accepted s') {i : Nat} (ho : s.isOnline i) :
    s'.isOnline i := by
  have hf := s.transmit_forwards a frame
  rw [h] at hf
  rw [isOnline_eq] at ho ⊢
  exact Fabric.Transit.isOnline hf ho

end Network

namespace Dispatch

open Network

variable {a b : Nat}

-- Nothing is accepted on the link. Frames for other destinations can be.
structure Idles (a b : Nat) (x y : Dispatch) : Prop where
  same   : SameLink a b x.network y.network
  unsent : ∃ others, x.unsent = others ++ y.unsent ∧ ∀ frame ∈ others, !x.network.leadsTo b frame

-- The first of the frames is accepted on the link.
structure Accepts (a b : Nat) (x : Dispatch) (p : Passage) (y : Dispatch) : Prop where
  unsent  : ∃ frame, x.unsent = frame :: y.unsent ∧ x.network.leadsTo b frame ∧
    p.packet = frame.asSlice
  link    : y.network.links (a, b) =
              ((x.network.links (a, b)).fst, ((x.network.links (a, b)).snd + 1) % 2 ^ 64)
  routes  : y.network.routes = x.network.routes
  follows : p.Follows a (x.network.links (a, b)).fst (((x.network.links (a, b)).snd + 1) % 2 ^ 64)

theorem Idles.of_same {x y : Dispatch} (h : SameLink a b x.network y.network)
    (hu : y.unsent = x.unsent) : Idles a b x y :=
  ⟨h, [], hu.symm, nofun⟩

-- The boundaries of batches are not visible in what happens to the link.
theorem transmitAll_trace {s : Network} {slots : List PacketBuf}
    (hu : ∀ slot ∈ slots, !isBroadcast slot) (ho : s.isOnline b) (running : Bool) (accepted : Nat)
    (rest : List PacketBuf) :
    ∃ n, Trace (Idles a b) (Accepts a b) ⟨⟨s, running⟩, slots ++ rest⟩ (s.passages a b slots)
        ⟨⟨(s.transmitAll a accepted slots).fst, running⟩, (slots ++ rest).drop n⟩ ∧
      ((s.transmitAll a accepted slots).snd.snd = .ok (accepted + n) ∨
        n = 0 ∧ accepted = 0 ∧ ∃ err, (s.transmitAll a accepted slots).snd.snd = .error err) := by
  induction slots generalizing s accepted
  case nil => exact ⟨0, .refl, .inl rfl⟩
  case cons slot slots ih =>
    have hs := hu slot (.head _)
    rw [transmitAll, passages]
    cases ht : s.transmit a slot
    case invalid =>
      dsimp only
      refine ⟨0, ?_⟩
      by_cases hz : accepted = 0
      case pos => simpa [hz] using .refl
      case neg => simpa [hz] using .refl
    case congested s' =>
      have hsame : SameLink a b s s' := by
        by_cases hl : s.leadsTo b slot
        case pos =>
          rcases transmit_of_leadsTo (a := a) hl ho with ⟨t, heq, h⟩ | ⟨t, heq, h⟩
          case inl =>
            cases ht.symm.trans heq
            exact h
          case inr => cases ht.symm.trans heq
        case neg =>
          have h := transmit_of_not_leadsTo (a := a) hs hl
          rwa [ht] at h
      exact ⟨0, .of_move (.of_same hsame rfl), .inl rfl⟩
    case accepted s' =>
      obtain ⟨n, htrace, hresult⟩ :=
        ih (fun slot h => hu slot (.tail _ h)) (transmit_isOnline ht ho)
        (accepted + 1)
      refine ⟨n + 1, ?_, ?_⟩
      case refine_2 =>
        rcases hresult with hok | ⟨_, hne, _⟩
        case inl => exact .inl (hok.trans (by rw [Nat.add_assoc, Nat.add_comm 1]))
        case inr => cases hne
      case refine_1 =>
        refine Trace.trans ?_ htrace
        by_cases hl : s.leadsTo b slot
        case pos =>
          rw [if_pos hl]
          rcases transmit_of_leadsTo (a := a) hl ho with ⟨t, heq, h⟩ | ⟨t, heq, h⟩
          case inl => cases ht.symm.trans heq
          cases ht.symm.trans heq
          exact .of_emit ⟨⟨slot, rfl, hl, rfl⟩, h.link, h.routes, h.queued⟩
        case neg =>
          have h := transmit_of_not_leadsTo (a := a) hs hl
          rw [ht] at h
          rw [if_neg hl]
          exact .of_move ⟨h, [slot], rfl, by simpa using hl⟩

theorem send_trace {x : Dispatch} {count : Nat} (hu : ∀ frame ∈ x.unsent, !isBroadcast frame)
    (ho : x.network.isOnline b) :
    Trace (Idles a b) (Accepts a b) x (accepted a b x (.send count)) (x.send a count) := by
  simp only [accepted, send, sendSlots]
  by_cases hempty : (x.unsent.take count).isEmpty
  case pos =>
    rw [if_pos hempty, isEmpty_iff.mp hempty, passages, ite_self]
    exact .refl
  case neg =>
    rw [if_neg hempty]
    by_cases honline : x.network.isOnline a
    case neg =>
      simp only [honline]
      exact .refl
    case pos =>
      obtain ⟨n, htrace, hresult⟩ := transmitAll_trace (a := a)
        (fun slot h => hu slot (mem_of_mem_take h)) ho x.ap.running 0 (x.unsent.drop count)
      rw [take_append_drop] at htrace
      simp only [honline, if_true, Bool.not_true, Bool.false_eq_true, if_false]
      revert htrace hresult
      rcases x.network.transmitAll a 0 (x.unsent.take count) with ⟨s', slots, m | err⟩ <;>
        intro htrace hresult
      case error =>
        rcases hresult with hok | ⟨rfl, _⟩
        case inl => cases hok
        case inr => exact htrace
      rcases hresult with hok | ⟨_, _, _, herr⟩
      case inl =>
        cases hok
        simpa using htrace
      case inr => cases herr

theorem step_trace {x : Dispatch} {event : Event} (h : Steady a b x event) :
    Trace (Idles a b) (Accepts a b) x (accepted a b x event) (x.step a event) := by
  cases event
  case send count     => exact send_trace h.unicast h.online
  case fabric op      =>
    exact .of_move (.of_same (Network.step_spares h.spares h.online h.stays) rfl)
  case accessPoint op =>
    exact .of_move (.of_same (AccessPoint.step_spares h.spares h.online h.stays) rfl)

end Dispatch

namespace Experiment

open Dispatch

variable {link : Link} (x : Experiment link)

-- After a part of the run: the sequence number counts the packets that were accepted, which all
-- follow the fault schedule, and together with those that are left they are the packets from the
-- start.
structure Scheduled (log : List Passage) (y : Dispatch) : Prop where
  sequence : y.network.links (x.source, x.target) = (link, log.length % 2 ^ 64)
  routes   : ∀ ip : Ipv4Addr, y.network.routes[ip]? = some x.target ↔
              x.start.network.routes[ip]? = some x.target
  follows  : ∀ (k : Nat) (p : Passage), log[k]? = some p →
    p.Follows x.source link ((k + 1) % 2 ^ 64)
  packets  : log.map Passage.packet ++ x.packets y.unsent = x.packets x.frames

variable {x} {log : List Passage} {y z : Dispatch}

theorem packets_append (frames frames' : List PacketBuf) :
    x.packets (frames ++ frames') = x.packets frames ++ x.packets frames' := by
  rw [packets, filter_append, map_append, packets, packets]

theorem Scheduled.start : x.Scheduled [] x.start where
  sequence := by
    have hkeys : ¬(x.ap.network.key ≠ x.ap.network.key ∨ x.ap.network.key ≠ x.ap.network.key) := by
      simp
    simp only [Experiment.start, configured, Network.setLink, if_neg hkeys]
    exact Function.update_self ..
  routes _ := .rfl
  follows  := nofun
  packets  := rfl

theorem Scheduled.idles (h : x.Scheduled log y) (hi : Idles x.source x.target y z) :
    x.Scheduled log z := by
  obtain ⟨hsame, others, hu, hothers⟩ := hi
  have hskip : x.packets others = [] := by
    simp only [Experiment.packets, map_eq_nil_iff, filter_eq_nil_iff]
    intro frame hf
    rw [← Network.leadsTo_congr h.routes]
    simpa using hothers frame hf
  exact {
    sequence  := hsame.link.trans h.sequence
    routes ip := (hsame.routes ip).trans (h.routes ip)
    follows   := h.follows
    packets   := by
      rw [← h.packets, hu, packets_append, hskip, nil_append] }

theorem Scheduled.accepts {p : Passage} (h : x.Scheduled log y)
    (ha : Accepts x.source x.target y p z) : x.Scheduled (log ++ [p]) z := by
  obtain ⟨⟨frame, hu, hl, hp⟩, hlink, hroutes, hfollows⟩ := ha
  rw [h.sequence, Nat.mod_add_mod] at hlink hfollows
  have hframe : x.packets [frame] = [p.packet] := by
    rw [Network.leadsTo_congr h.routes] at hl
    simp [Experiment.packets, hl, hp]
  refine ⟨?sequence, ?routes, ?follows, ?packets⟩
  case sequence => rw [hlink, length_append, length_singleton]
  case routes =>
    rw [hroutes]
    exact h.routes
  case follows =>
    intro k q hq
    rw [List.getElem?_append] at hq
    split at hq
    case isTrue => exact h.follows k q hq
    case isFalse hk =>
      rw [List.getElem?_singleton] at hq
      split at hq
      case isFalse => cases hq
      rename_i hz
      cases hq
      rwa [show k = log.length by omega]
  case packets =>
    rw [map_append, map_singleton, ← hframe, append_assoc, ← packets_append,
      singleton_append, ← hu, h.packets]

theorem scheduled (x : Experiment link) :
    x.Scheduled x.log (exec (step x.source) x.start x.events) :=
  (Trace.of_along (fun _ _ => step_trace) x.steady).history .start (fun _ _ _ hi h => h.idles hi)
    fun _ _ _ _ ha h => h.accepts ha

-- The `k`-th packet, counted from zero, has the sequence number `k + 1`.
theorem follows {k : Nat} {p : Passage} (hk : k + 1 < 2 ^ 64) (hp : x.log[k]? = some p) :
    p.Follows x.source link (k + 1) := by
  have h := x.scheduled.follows k p hp
  rwa [Nat.mod_eq_of_lt hk] at h

theorem packets_getElem? {k : Nat} {p : Passage} (hp : x.log[k]? = some p) :
    (x.packets x.frames)[k]? = some p.packet := by
  have hlog : (x.log.map Passage.packet)[k]? = some p.packet := by
    rw [List.getElem?_map, hp, Option.map_some]
  have hk := (List.getElem?_eq_some_iff.mp hlog).fst
  rw [← x.scheduled.packets, List.getElem?_append_left hk, hlog]

end Experiment

namespace Passage

variable {source sequence : Nat} {link : Link} {p q : Passage}

theorem Follows.dropped_iff (h : p.Follows source link sequence) :
    p.queued = [] ↔ link.faulty sequence p.packet.length := by
  rw [Follows] at h
  split at h
  case isTrue hf => exact iff_of_true h hf
  case isFalse hf =>
    obtain ⟨q, hq, _⟩ := h
    exact iff_of_false (by rw [hq]; exact cons_ne_nil q []) hf

theorem Follows.queued (h : p.Follows source link sequence) (hne : p.queued ≠ []) :
    ∃ q, p.queued = [q] ∧ q.source = source ∧ q.frame.asSlice = p.packet ∧
      q.deliverAt = p.acceptedAt.saturatingAdd (link.latency sequence) := by
  rw [Follows] at h
  split at h
  case isTrue  => exact absurd h hne
  case isFalse => exact h

theorem Follows.delays_eq (h : p.Follows source link sequence)
    (hfits : p.acceptedAt.nanos + link.extra sequence < 2 ^ 64 * 10 ^ 9) :
    p.delays = if link.faulty sequence p.packet.length then [] else [link.extra sequence] := by
  rw [Follows] at h
  split at h
  case isTrue hf  => rw [delays, h, if_pos hf, map_nil]
  case isFalse hf =>
    obtain ⟨q, hq, _, _, hat⟩ := h
    rw [delays, hq, if_neg hf, map_singleton, hat, Link.saturatingAdd_latency hfits,
      Nat.add_sub_cancel_left]

end Passage

-- Which packets are lost and how long the others take depends on the link and on the order of
-- packets, but not on batches, congestion or traffic on other links.
theorem Experiment.faults_reproducible {link : Link} :
    (∀ (x : Experiment link) (k : Nat) (p : Passage), k + 1 < 2 ^ 64 → x.log[k]? = some p →
      (p.queued = [] ↔ link.partitioned ∨ (link.mtu ≠ 0 ∧ link.mtu < p.packet.length) ∨
        (link.dropEvery ≠ 0 ∧ link.dropEvery ∣ k + 1)) ∧
      (p.queued ≠ [] → ∃ q, p.queued = [q] ∧ q.source = x.source ∧ q.frame.asSlice = p.packet ∧
        (p.acceptedAt.nanos + link.extra (k + 1) < 2 ^ 64 * 10 ^ 9 →
          q.deliverAt.nanos = p.acceptedAt.nanos + link.extra (k + 1)))) ∧
    (∀ x : Experiment link, x.log.map Passage.packet ++ x.remaining = x.packets x.frames) ∧
    ∀ x₁ x₂ : Experiment link, x₁.packets x₁.frames = x₂.packets x₂.frames →
      ∀ (k : Nat) (p₁ p₂ : Passage), k + 1 < 2 ^ 64 → x₁.log[k]? = some p₁ → x₂.log[k]? = some p₂ →
        p₁.packet = p₂.packet ∧ (p₁.queued = [] ↔ p₂.queued = []) ∧
        (p₁.acceptedAt.nanos + link.extra (k + 1) < 2 ^ 64 * 10 ^ 9 →
          p₂.acceptedAt.nanos + link.extra (k + 1) < 2 ^ 64 * 10 ^ 9 → p₁.delays = p₂.delays) := by
  refine ⟨fun x k p hk hp => ?_, fun x => x.scheduled.packets, fun x₁ x₂ heq k p₁ p₂ hk h₁ h₂ => ?_⟩
  case refine_1 =>
    have hf := follows hk hp
    refine ⟨hf.dropped_iff.trans Link.faulty_iff, fun hne => ?_⟩
    have ⟨q, hq, hs, hb, hat⟩ := hf.queued hne
    exact ⟨q, hq, hs, hb, fun hfits => by rw [hat, Link.saturatingAdd_latency hfits]⟩
  case refine_2 =>
    have hf₁ := follows hk h₁
    have hf₂ := follows hk h₂
    have hpacket : p₁.packet = p₂.packet :=
      Option.some.inj ((packets_getElem? h₁).symm.trans (heq ▸ packets_getElem? h₂))
    refine ⟨hpacket, ?_, fun hfits₁ hfits₂ => ?_⟩
    case refine_1 => rw [hf₁.dropped_iff, hf₂.dropped_iff, hpacket]
    case refine_2 => rw [hf₁.delays_eq hfits₁, hf₂.delays_eq hfits₂, hpacket]

namespace Experiment

def ping : PacketBuf where
  memory     := 0x45 :: List.replicate 18 0 ++ [2]
  dataOffset := 0
  len        := 20
  idx        := 0
  pool       := none
  bound      := by decide

-- Two ports with room for a single packet each, and a link that loses every third packet.
def pair : AccessPoint where
  network := [1#32, 2#32].foldl (fun s ip => (s.port 0 [ip] 4 1).fst) (.empty 0)
  running := false

def lossy : Link :=
  { Link.default with alternatingDelay := .fromSecs 1, dropEvery := 3 }

-- One batch, which is sent again once there is room for the rest.
def retried : Experiment lossy where
  ap     := pair
  source := 0
  target := 1
  frames := List.replicate 4 ping
  events := [.send 4, .send 2, .fabric (.recv 1 1), .send 3, .fabric (.advance (.fromSecs 2)),
    .fabric (.recv 1 1), .send 2]
  steady := by decide +kernel

def single : Experiment lossy where
  ap     := pair
  source := 0
  target := 1
  frames := List.replicate 4 ping
  events := [.send 1, .fabric (.recv 1 1), .send 1, .fabric (.advance (.fromSecs 2)),
    .fabric (.recv 1 1), .send 1, .send 1]
  steady := by decide +kernel

theorem faults_reproducible_retried :
    retried.log.map Passage.delays = [[0], [10 ^ 9], [], [10 ^ 9]] ∧
    single.log.map Passage.delays = retried.log.map Passage.delays ∧
    ∀ (p₁ p₂ : Passage), retried.log[3]? = some p₁ → single.log[3]? = some p₂ →
      p₁.packet = p₂.packet ∧ (p₁.queued = [] ↔ p₂.queued = []) := by
  refine ⟨by decide +kernel, by decide +kernel, fun p₁ p₂ h₁ h₂ => ?_⟩
  have h :=
    faults_reproducible.right.right retried single (by decide +kernel) 3 p₁ p₂ (by decide) h₁ h₂
  exact ⟨h.left, h.right.left⟩

end Experiment

end Simulation
