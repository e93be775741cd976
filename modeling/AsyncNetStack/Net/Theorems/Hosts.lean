import AsyncNetStack.Net.Theorems.Learning

open Fallible Std

namespace EthernetIpv4

variable {δ : Type} {e e' e'' : EthernetIpv4 δ} {ip : Ipv4Addr}

-- The addresses that other hosts on the link can have.
structure Remote (e : EthernetIpv4 δ) (ip : Ipv4Addr) : Prop where
  unicast   : ip.unicast = true
  foreign   : ip ≠ e.config.address
  broadcast : e.broadcast ip = false

-- All new keys of the table are addresses of other hosts.
structure Extends (e e' : EthernetIpv4 δ) : Prop where
  config : e'.config = e.config
  keys   : ∀ ip ∈ e'.neighbors, ip ∈ e.neighbors ∨ e.Remote ip

theorem Remote.of_config (h : e.Remote ip) (hc : e'.config = e.config) : e'.Remote ip where
  unicast   := h.unicast
  foreign   := by rw [hc]; exact h.foreign
  broadcast := by rw [EthernetIpv4.broadcast, hc]; exact h.broadcast

namespace Extends

theorem of_subset (hc : e'.config = e.config) (hk : ∀ ip ∈ e'.neighbors, ip ∈ e.neighbors) :
    Extends e e' :=
  ⟨hc, fun ip hip => .inl (hk ip hip)⟩

theorem of_eq (hc : e'.config = e.config) (hn : e'.neighbors = e.neighbors) : Extends e e' :=
  of_subset hc fun _ hip => hn ▸ hip

theorem of_aside (h : Aside e e') : Extends e e' :=
  of_eq h.config h.neighbors

theorem refl (e : EthernetIpv4 δ) : Extends e e :=
  of_eq rfl rfl

theorem trans (h₁ : Extends e e') (h₂ : Extends e' e'') : Extends e e'' where
  config := h₂.config.trans h₁.config
  keys ip hip := by
    cases h₂.keys ip hip
    case inl h => exact h₁.keys ip h
    case inr h => exact .inr (h.of_config h₁.config.symm)

theorem andThen {α β : Type} {o : EthernetIpv4 δ × IoResult α}
    {f : EthernetIpv4 δ → α → EthernetIpv4 δ × IoResult β}
    (h : Extends e o.fst) (hf : ∀ e' a, o = (e', .ok a) → Extends e' (f e' a).fst) :
    Extends e (andThen o f).fst :=
  andThen_of h fun e' a heq h => h.trans (hf e' a heq)

-- An entry is replaced, or added for another host.
theorem insert (h : ip ∈ e.neighbors ∨ e.Remote ip) (state : NeighborState) :
    Extends e { e with neighbors := e.neighbors.insert ip state } where
  config := rfl
  keys ip' hip := by
    rcases TreeMap.mem_insert.mp hip with heq | hip
    case inl => exact Std.compare_eq_iff_eq.mp heq ▸ h
    case inr => exact .inl hip

theorem erase (e : EthernetIpv4 δ) (ip : Ipv4Addr) :
    Extends e { e with neighbors := e.neighbors.erase ip } :=
  of_subset rfl fun _ hip => TreeMap.mem_of_mem_erase hip

theorem filter (e : EthernetIpv4 δ) (keep : Ipv4Addr → NeighborState → Bool) :
    Extends e { e with neighbors := e.neighbors.filter keep } :=
  of_subset rfl fun _ hip => TreeMap.mem_of_mem_filter hip

end Extends

theorem discardQueued_extends (e : EthernetIpv4 δ) : Extends e e.discardQueued :=
  ⟨rfl, (Extends.filter e _).keys⟩

theorem releaseResolved_extends (e : EthernetIpv4 δ) : Extends e e.releaseResolved := by
  rw [releaseResolved_eq]
  exact .of_eq rfl rfl

theorem submitData_extends (e : EthernetIpv4 δ) (n : Nat) : Extends e (e.submitData n) := by
  rw [submitData]
  split
  case isTrue  => exact .of_eq rfl rfl
  case isFalse => exact .of_eq rfl rfl

theorem learn_extends (h : ip ∈ e.neighbors ∨ e.Remote ip) (mac : Mac) :
    Extends e (e.learn ip mac) := by
  rw [learn]
  repeat' split
  all_goals try exact .refl e
  exact ⟨rfl, (Extends.insert h _).keys⟩

theorem timeOut_extends (h : ip ∈ e.neighbors) : Extends e (e.timeOut ip) :=
  ⟨rfl, (Extends.insert (.inl h) _).keys⟩

variable (e)

theorem addStaticNeighbor_extends (ip : Ipv4Addr) (mac : Mac) :
    Extends e (e.addStaticNeighbor ip mac).fst := by
  rw [addStaticNeighbor]
  split
  case isTrue => exact .refl e
  rename_i hv
  split
  case isTrue => exact .refl e
  simp only [Bool.or_eq_true, Bool.not_eq_true', beq_iff_eq, not_or, Bool.not_eq_false,
    Bool.not_eq_true] at hv
  obtain ⟨⟨⟨hu, hb⟩, ha⟩, -⟩ := hv
  have hr : e.Remote ip := ⟨hu, ha, hb⟩
  dsimp only
  generalize hd : (if e.neighbors[ip]?.any (changesMac mac) then e.discardQueued else e) = e₁
  have h₁ : Extends e e₁ := by
    rw [← hd]
    split
    case isTrue  => exact discardQueued_extends e
    case isFalse => exact .refl e
  refine h₁.trans (.trans ?_ (releaseResolved_extends _))
  exact ⟨rfl, (Extends.insert (e := e₁) (.inr (hr.of_config h₁.config)) _).keys⟩

theorem addRoute_extends (route : Route) : Extends e (e.addRoute route).fst := by
  rw [addRoute]
  repeat' split
  all_goals try exact .refl e
  exact .trans (.of_aside (routes_aside ..)) (discardQueued_extends _)

theorem setGateway_extends (gateway : Ipv4Addr) : Extends e (e.setGateway gateway).fst := by
  rw [setGateway]
  split
  case h_1 => exact .refl e
  case h_2 => exact addRoute_extends e _

theorem removeRoute_extends (address : Ipv4Addr) (prefixLen : Nat) :
    Extends e (e.removeRoute address prefixLen).fst := by
  rw [removeRoute]
  split
  case h_1 => exact .refl e
  case h_2 removed _ =>
    cases removed
    case false => exact .of_aside (routes_aside ..)
    case true  => exact .trans (.of_aside (routes_aside ..)) (discardQueued_extends _)

theorem removeNeighbor_extends (address : Ipv4Addr) : Extends e (e.removeNeighbor address).fst := by
  rw [removeNeighbor]
  split
  case isTrue  => exact (Extends.erase e address).trans (discardQueued_extends _)
  case isFalse => exact .refl e

theorem resetLink_extends : Extends e e.resetLink :=
  (discardQueued_extends e).trans (.filter ..)

-- Only frames that pass validation are accepted, so their next hops are those of other hosts.
def Sendable (slot : PacketBuf) : Prop :=
  ∀ destination route, destinationOf slot.asSlice = some destination →
    e.broadcast destination = false → e.routes.lookup destination = some route →
    e.Remote (route.nextHop destination)

variable {e}

theorem Sendable.of_config {slot : PacketBuf} (h : e.Sendable slot) (hc : e'.config = e.config)
    (hr : e'.routes = e.routes) : e'.Sendable slot := by
  intro destination route hd hb hl
  rw [broadcast, hc] at hb
  exact (h destination route hd hb (hr ▸ hl)).of_config hc

theorem destinationOf_eq {bytes : List U8} {source destination : Ipv4Addr} {total : Nat}
    (h : ipv4 bytes = some (source, destination, total)) :
    destinationOf bytes = some destination := by
  unfold ipv4 at h
  split at h
  case h_2 => cases h
  dsimp only at h
  repeat' split at h
  all_goals cases h
  rfl

theorem validate_sendable {slot : PacketBuf} (h : e.validate slot = (e, .ok ())) :
    e.Sendable slot := by
  intro d route hd hb hl
  unfold validate at h
  split at h
  case h_1 => cases h
  rename_i destination total heq
  obtain rfl : destination = d := Option.some.inj ((destinationOf_eq heq).symm.trans hd)
  dsimp only at h
  split at h
  case isTrue => cases h
  split at h
  case h_1 => cases h
  rw [if_neg (by simp [hb]), hl] at h
  dsimp only at h
  split at h
  case isTrue => cases h
  rename_i hv
  simp only [Bool.or_eq_true, Bool.not_eq_true', beq_iff_eq, not_or, Bool.not_eq_false,
    Bool.not_eq_true] at hv
  exact ⟨hv.right, hv.left.left, hv.left.right⟩

theorem resolve_extends (h : e.Remote ip) : Extends e (e.resolve ip) := by
  rw [resolve]
  split
  case isTrue  => exact .refl e
  case isFalse => exact .insert (.inr h) _

theorem resolve_routes (e : EthernetIpv4 δ) (ip : Ipv4Addr) : (e.resolve ip).routes = e.routes := by
  rw [resolve]
  split
  case isTrue  => rfl
  case isFalse => rfl

theorem acceptUnicast_extends {serial : Nat} {frame : Ethernet.Roomy} {destination : Ipv4Addr}
    {route : Route} (hr : e.Remote (route.nextHop destination))
    (h : e.acceptUnicast serial frame destination route = .taken e') :
    Extends e e' ∧ e'.routes = e.routes := by
  unfold acceptUnicast at h
  dsimp only at h
  split at h
  case h_1 =>
    cases h
    exact ⟨.of_eq rfl rfl, rfl⟩
  split at h
  case isTrue => cases h
  cases h
  exact ⟨⟨(resolve_extends hr).config, (resolve_extends hr).keys⟩, resolve_routes e _⟩

theorem accept_extends {serial : Nat} {slot : PacketBuf} (hs : e.Sendable slot)
    (h : e.accept serial slot = .taken e') : Extends e e' ∧ e'.routes = e.routes := by
  unfold accept at h
  split at h
  case h_2 => cases h
  rename_i destination frame hd _
  split at h
  case isTrue =>
    cases h
    exact ⟨.of_eq rfl rfl, rfl⟩
  case isFalse hb =>
    split at h
    case h_1 => cases h
    case h_2 hl => exact acceptUnicast_extends (hs _ _ hd (Bool.eq_false_iff.mpr hb) hl) h

theorem acceptAll_extends {slots : List PacketBuf} (hs : ∀ slot ∈ slots, e.Sendable slot)
    (n : Nat) : Extends e (e.acceptAll n slots).fst := by
  induction slots generalizing e n
  case nil => exact .refl e
  case cons slot slots ih =>
    rw [acceptAll]
    split
    case h_1 e' heq =>
      obtain ⟨hhead, htail⟩ := List.forall_mem_cons.mp hs
      obtain ⟨he, hr⟩ := accept_extends hhead heq
      exact he.trans (ih (fun s hm => (htail s hm).of_config he.config hr) (n + 1))
    case h_2 => exact .refl e

theorem send_extends (e : EthernetIpv4 δ) (slots : List PacketBuf) :
    Extends e (e.send slots).fst := by
  have h := sendSlots_sends e slots
  rw [send]
  generalize e.sendSlots slots = o at h
  cases h
  case refused ha => exact .of_aside ha
  case accepted hv ha =>
    have hall := acceptAll_extends (fun slot hm => validate_sendable (hv slot hm)) 0
    exact hall.trans (.of_eq ha.config ha.neighbors)

def Hosted (e : EthernetIpv4 δ) : Prop :=
  ∀ ip ∈ e.neighbors, e.Remote ip

theorem Extends.hosted (h : Extends e e') (hh : Hosted e) : Hosted e' := by
  intro ip hip
  cases h.keys ip hip
  case inl hold => exact (hh ip hold).of_config h.config
  case inr hnew => exact hnew.of_config h.config

theorem hosted_of_empty (h : e.neighbors = ∅) : Hosted e := by
  intro ip hip
  rw [h] at hip
  exact absurd hip TreeMap.not_mem_emptyc

-- The table of an interface with a new address is empty.
theorem configureIpv4_hosted (h : Hosted e) (address : Ipv4Addr) (prefixLen : Nat)
    (gateway : Option Ipv4Addr) : Hosted (e.configureIpv4 address prefixLen gateway).fst := by
  rw [configureIpv4]
  repeat' split
  all_goals first | exact h | exact hosted_of_empty rfl

-- A request for the address of the interface which names the interface itself as its sender. It
-- passes all tests of a received frame, so that the interface learns its own address from it.
def announcesSelf (e : EthernetIpv4 δ) (frame : PacketBuf) : Bool :=
  e.configured && e.config.mac.unicast && e.config.address.unicast &&
  !e.broadcast e.config.address &&
  (Ethernet.parse frame.asSlice).any (fun header =>
    header.source == e.config.mac && header.etherType == Ethernet.ARP &&
    (header.destination == e.config.mac || header.destination == Mac.broadcast)) &&
  (Arp.Packet.parse (frame.asSlice.drop 14)).any fun p =>
    p.operation == .request && p.senderMac == e.config.mac && p.senderIp == e.config.address &&
    p.targetIp == e.config.address

theorem SameSetup.announcesSelf (h : SameSetup e e') (frame : PacketBuf) :
    e'.announcesSelf frame = e.announcesSelf frame := by
  simp only [EthernetIpv4.announcesSelf, EthernetIpv4.broadcast, h.config, h.configured]

theorem Teaches.remote {frame : PacketBuf} {packet : Arp.Packet} (ht : Teaches e frame packet)
    (hc : e.configured = true) (h : e.announcesSelf frame = false) :
    packet.senderIp ∈ e.neighbors ∨ e.Remote packet.senderIp := by
  rcases ht.wanted with hop | ⟨_, _, attempts, nextProbe, expires, _, hs⟩
  case inl =>
    refine .inr ⟨ht.unicast, fun heq => ?_, ht.host⟩
    -- The sender would have the link address of the interface too, and announce itself.
    have ⟨header, hheader, harp, hsource, hdestination⟩ := ht.ethernet
    have hunicast := ht.unicast
    have hmac     := ht.mac
    have hhost    := ht.host
    rw [ht.honest heq] at hsource hmac
    rw [heq] at hunicast hhost
    rw [announcesSelf, hheader, ht.arp] at h
    simp [hc, hmac, hunicast, hhost, hsource, harp, hop, ht.honest heq, heq, ht.target] at h
    exact hdestination.elim h.left h.right
  case inr => exact .inl (TreeMap.mem_iff_isSome_getElem?.mpr (by rw [hs]; rfl))

section

variable [Device δ]

-- Only frames from which the interface does learn its own address are excluded.
theorem receiveFrame_announcesSelf {frame : PacketBuf} (h : e.announcesSelf frame = true) :
    ∃ packet,
      (e.receiveFrame frame).fst = (e.learn e.config.address e.config.mac).replyTo packet := by
  simp only [announcesSelf, Bool.and_eq_true, Option.any_eq_true, beq_iff_eq, Bool.not_eq_true',
    Bool.or_eq_true] at h
  obtain ⟨⟨⟨⟨⟨hc, hm⟩, hu⟩, hb⟩, header, hheader, ⟨hsource, harp⟩, hd⟩, packet, hp,
    ⟨⟨hop, hmac⟩, hip⟩, ht⟩ := h
  refine ⟨packet, ?_⟩
  rcases hd with hd | hd
  all_goals
    simp [receiveFrame, receiveArp, hc, hheader, hsource, hm, hd, harp, hp, hmac, hip, ht, hop, hu,
      hb]

theorem receiveFrame_extends {frame : PacketBuf} (h : e.announcesSelf frame = false) :
    Extends e (e.receiveFrame frame).fst := by
  cases hc : e.configured
  case false =>
    rw [receiveFrame, hc]
    exact .of_aside (ignore_aside e)
  rcases receiveFrame_cases e frame with ha | ⟨packet, ht, ha⟩
  case inl => exact .of_aside ha
  case inr => exact (learn_extends (ht.remote hc h) _).trans (.of_aside ha)

theorem receiveFrames_extends {frames : List PacketBuf}
    (h : ∀ frame ∈ frames, e.announcesSelf frame = false) :
    Extends e (e.receiveFrames frames).fst := by
  induction frames generalizing e
  case nil => exact .refl e
  case cons frame frames ih =>
    have ⟨hhead, htail⟩ := List.forall_mem_cons.mp h
    have hs := receiveFrame_setup e frame
    exact (receiveFrame_extends hhead).trans
      (ih fun frame hm => (hs.announcesSelf frame).trans (htail frame hm))

theorem probe_extends (h : ip ∈ e.neighbors) (attempts : Nat) (expires : Duration) :
    Extends e (e.probe ip attempts expires) := by
  rcases probe_cases e ip attempts expires with ha | ⟨next, ha⟩
  case inl => exact .of_aside ha
  case inr => exact (Extends.insert (.inl h) _).trans (.of_aside ha)

theorem refresh_extends {state : NeighborState} (h : e.neighbors[ip]? = some state) :
    Extends e (e.refresh ip state) := by
  have hmem : ip ∈ e.neighbors := by simp [TreeMap.mem_iff_isSome_getElem?, h]
  unfold refresh
  repeat' split
  all_goals first
    | exact .refl e
    | exact .erase e ip
    | exact timeOut_extends hmem
    | exact probe_extends hmem ..

theorem flush_extends (e : EthernetIpv4 δ) : Extends e e.flush.fst := by
  refine Extends.andThen (.of_aside (flushFront_aside ..)) fun e₁ n _ => ?_
  have hc := Extends.of_aside (submitControl_aside e₁ n)
  dsimp only
  split
  case isTrue => exact hc
  refine hc.trans (Extends.andThen (.of_aside (flushFront_aside ..)) fun e₂ m _ => ?_)
  exact submitData_extends e₂ m

theorem advance_extends (e : EthernetIpv4 δ) (now : Duration) : Extends e (e.advance now).fst := by
  rw [advance]
  split
  case isTrue => exact .refl e
  have ha := ensureSpare_aside { e with now }
  have hs : Extends e (ensureSpare { e with now }) := .of_eq ha.config ha.neighbors
  have ht := runTimers_induction (e := ensureSpare { e with now })
    (fun _ _ _ hn hx => hx.trans (refresh_extends hn)) hs
  exact (ht.trans (releaseResolved_extends _)).trans (flush_extends _)

theorem pollAt_extends (e : EthernetIpv4 δ) (now : Duration) : Extends e (e.pollAt now).fst :=
  Extends.andThen (.of_aside (device_aside e _ e.controlSpare)) fun e₁ _ _ => advance_extends e₁ now

theorem recv_extends {max : Nat} (h : ∀ frames, (Device.recv e.dropSpare max).snd = .ok frames →
    ∀ frame ∈ frames, e.announcesSelf frame = false) : Extends e (e.recv max).fst := by
  have hadvance (e : EthernetIpv4 δ) (packets : List PacketBuf) :
      Extends e (andThen (e.advance e.now) fun e _ => (e, .ok packets)).fst :=
    Extends.andThen (advance_extends e e.now) fun e' _ _ => .refl e'
  rw [recv]
  split
  case isTrue => exact hadvance e []
  refine Extends.andThen (.of_aside (device_aside ..)) fun e₁ frames heq => ?_
  have hs : SameSetup e e₁ := by rw [← (Prod.mk.inj heq).left]; exact ⟨rfl, rfl, rfl⟩
  refine .trans (receiveFrames_extends fun frame hm => ?_) (hadvance ..)
  rw [hs.announcesSelf]
  exact h frames (Prod.mk.inj heq).right frame hm

-- No device returns a frame that looks as if the interface had sent it to itself.
def Op.Genuine (e : EthernetIpv4 δ) : Op δ → Prop
  | .recv max => ∀ frames, (Device.recv e.dropSpare max).snd = .ok frames →
    ∀ frame ∈ frames, e.announcesSelf frame = false
  | _ => True

theorem step_hosted {op : Op δ} (hop : op.Genuine e) (h : Hosted e) : Hosted (e.step op) := by
  cases op
  case send frames             => exact (send_extends e frames).hosted h
  case recv max                => exact (recv_extends hop).hosted h
  case advance now             => exact (advance_extends e now).hosted h
  case pollAt now              => exact (pollAt_extends e now).hosted h
  case addRoute route          => exact (addRoute_extends e route).hosted h
  case setGateway gateway      => exact (setGateway_extends e gateway).hosted h
  case removeRoute ip len      => exact (removeRoute_extends e ip len).hosted h
  case addStaticNeighbor ip m  => exact (addStaticNeighbor_extends e ip m).hosted h
  case removeNeighbor ip       => exact (removeNeighbor_extends e ip).hosted h
  case resetLink               => exact (resetLink_extends e).hosted h
  case configureIpv4 ip len gw => exact configureIpv4_hosted h ip len gw
  case withdrawIpv4            => exact hosted_of_empty rfl
  case alloc                   => exact (Extends.of_aside (alloc_aside e)).hosted h
  case popEvent                => exact Extends.hosted (e := e) ⟨rfl, fun _ => .inl⟩ h
  case deviceMut f             => exact (Extends.of_aside (device_aside ..)).hosted h

-- As long as no received frame claims to come from the interface itself, all neighbors are other
-- hosts.
theorem neighbors_remote {device : δ} {config : InterfaceConfig} {layout : Nat → Nat}
    {e₀ : EthernetIpv4 δ} (h : new device config layout = .ok e₀)
    (hr : Transition.Reachable step (fun e op => op.Genuine e) e₀ e) :
    ∀ ip ∈ e.neighbors, ip.unicast = true ∧ ip ≠ e.config.address ∧ e.broadcast ip = false := by
  have hh : Hosted e :=
    hr.induction (hosted_of_empty (new_fresh h).neighbors) fun _ _ hop hh => step_hosted hop hh
  exact fun ip hip => ⟨(hh ip hip).unicast, (hh ip hip).foreign, (hh ip hip).broadcast⟩

end

-- The sender of a request is learned.
theorem neighbors_remote_loopback : ∃ e₀, overLoopback = .ok e₀ ∧
    let e := (e₀.step (.deviceMut fun d => (d.send [requestFromPeer]).fst)).step (.recv 1)
    0x0a000002#32 ∈ e.neighbors ∧
    ∀ ip ∈ e.neighbors, ip.unicast = true ∧ ip ≠ e.config.address ∧ e.broadcast ip = false := by
  have ⟨e₀, h, hc⟩ := overLoopback_any (p := fun e₀ =>
    let e₁ := e₀.step (.deviceMut fun d => (d.send [requestFromPeer]).fst)
    (Device.recv e₁.dropSpare 1).snd.toOption.any (·.all fun frame => !e₁.announcesSelf frame) &&
    (e₁.step (.recv 1)).neighbors.contains 0x0a000002#32) (by decide +kernel)
  have ⟨hgenuine, hmem⟩ := (Bool.and_eq_true ..).mp hc
  refine ⟨e₀, h, TreeMap.contains_iff_mem.mp hmem,
    neighbors_remote h (.step (.step .init trivial) ?_)⟩
  intro frames hok frame hframe
  rw [hok] at hgenuine
  exact (Bool.not_eq_true' _).mp (List.all_eq_true.mp hgenuine frame hframe)

-- The request that `overLoopback` would send to find out whether another host has its address.
def announcement : PacketBuf where
  memory     :=
    Ethernet.Header.encode ⟨Mac.broadcast, 0x020000000001#48, Ethernet.ARP⟩ ++
    Arp.Packet.encode ⟨.request, 0x020000000001#48, 0x0a000001#32, 0, 0x0a000001#32⟩
  dataOffset := 0
  len        := 42
  idx        := 0
  pool       := none
  bound      := by decide

theorem neighbors_include_self : ∃ e₀, overLoopback = .ok e₀ ∧
    let e := Transition.exec step e₀ [.deviceMut fun d => (d.send [announcement]).fst, .recv 1]
    e.config.address ∈ e.neighbors := by
  have ⟨e₀, h, hc⟩ := overLoopback_any (p := fun e₀ =>
    let e := Transition.exec step e₀ [.deviceMut fun d => (d.send [announcement]).fst, .recv 1]
    e.neighbors.contains e.config.address) (by decide +kernel)
  exact ⟨e₀, h, TreeMap.contains_iff_mem.mp hc⟩

end EthernetIpv4
