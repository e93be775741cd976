import AsyncNetStack.Net.Theorems.Neighbor
import AsyncNetStack.Net.Theorems.Stale

open Std

namespace EthernetIpv4

variable {δ : Type} {e e' : EthernetIpv4 δ} {ip ip' : Ipv4Addr} {mac mac' : Mac}

theorem learn_other (h : ip ≠ ip') (mac : Mac) :
    (e.learn ip mac).neighbors[ip']? = e.neighbors[ip']? := by
  rw [learn]
  repeat' split
  case isTrue          => rfl
  case isFalse.isTrue  => rfl
  case isFalse.isFalse => exact getElem?_insert_other h

theorem learn_static (h : e.neighbors[ip']? = some (.static mac')) (ip : Ipv4Addr) (mac : Mac) :
    (e.learn ip mac).neighbors[ip']? = some (.static mac') := by
  by_cases hip : ip = ip'
  case neg => rw [learn_other hip, h]
  case pos =>
    have hstatic : e.neighbors[ip]?.any (·.isStatic) := by
      rw [hip, h]
      rfl
    rw [learn, if_pos hstatic, h]

theorem mem_learn (h : ip' ∈ e.neighbors) (ip : Ipv4Addr) (mac : Mac) :
    ip' ∈ (e.learn ip mac).neighbors := by
  rw [learn]
  repeat' split
  case isTrue          => exact h
  case isFalse.isTrue  => exact h
  case isFalse.isFalse => exact TreeMap.mem_insert.mpr (.inr h)

theorem mem_of_learn_full (hfull : e.neighbors.size = e.config.neighborCapacity)
    (h : ip' ∈ (e.learn ip mac).neighbors) : ip' ∈ e.neighbors := by
  rw [learn] at h
  repeat' split at h
  case isTrue         => exact h
  case isFalse.isTrue => exact h
  case isFalse.isFalse hroom =>
    have hmem : ip ∈ e.neighbors := by
      rw [hfull, beq_self_eq_true, Bool.and_true, Bool.not_eq_true', Bool.not_eq_false] at hroom
      exact hroom
    rcases TreeMap.mem_insert.mp h with heq | h
    case inl => exact Std.compare_eq_iff_eq.mp heq ▸ hmem
    case inr => exact h

theorem Learns.static (h : Learns e e') (hs : e.neighbors[ip]? = some (.static mac)) :
    e'.neighbors[ip]? = some (.static mac) := by
  cases h
  case nothing ha      => rw [ha.neighbors, hs]
  case neighbor ha     => rw [ha.neighbors, learn_static hs]

theorem Learns.mem (h : Learns e e') (hm : ip ∈ e.neighbors) : ip ∈ e'.neighbors := by
  cases h
  case nothing ha  => rwa [ha.neighbors]
  case neighbor ha =>
    rw [ha.neighbors]
    exact mem_learn hm ..

theorem Learns.mem_of_full (h : Learns e e') (hfull : e.neighbors.size = e.config.neighborCapacity)
    (hm : ip ∈ e'.neighbors) : ip ∈ e.neighbors := by
  cases h
  case nothing ha =>
    rwa [ha.neighbors] at hm
  case neighbor ha =>
    rw [ha.neighbors] at hm
    exact mem_of_learn_full hfull hm

-- A reply for an address that the interface does not wait for.
def Unsolicited (e : EthernetIpv4 δ) (frame : PacketBuf) : Prop :=
  ∃ packet, Arp.Packet.parse (frame.asSlice.drop 14) = some packet ∧ packet.operation = .reply ∧
    ∀ attempts nextProbe expires,
      e.neighbors[packet.senderIp]? = some (.resolving attempts nextProbe expires) → expires ≤ e.now

theorem Aside.unsolicited {frame : PacketBuf} (ha : Aside e e') (h : e.Unsolicited frame) :
    e'.Unsolicited frame := by
  have ⟨packet, hp, hreply, hexpired⟩ := h
  refine ⟨packet, hp, hreply, ?_⟩
  rw [ha.neighbors, ha.now]
  exact hexpired

-- The packets for an address are sent to a next hop, unless they are broadcast.
def nextHop (e : EthernetIpv4 δ) (destination : Ipv4Addr) : Option Ipv4Addr :=
  if e.broadcast destination then none
  else (e.routes.lookup destination).map (·.nextHop destination)

-- The link address to which packets for an address are sent, as soon as there is one.
def linkDestination (e : EthernetIpv4 δ) (destination : Ipv4Addr) : Option Mac :=
  if e.broadcast destination then some Mac.broadcast
  else (e.nextHop destination).bind e.resolved

theorem nextHop_eq {d : Ipv4Addr} (hc : e'.config = e.config) (hr : e'.routes = e.routes) :
    e'.nextHop d = e.nextHop d := by
  rw [nextHop, nextHop, broadcast, broadcast, hc, hr]

theorem linkDestination_eq {d : Ipv4Addr} (hc : e'.config = e.config) (hr : e'.routes = e.routes)
    (h : ∀ ip, e'.resolved ip = e.resolved ip) : e'.linkDestination d = e.linkDestination d := by
  rw [linkDestination, linkDestination, nextHop_eq hc hr, broadcast, broadcast, hc, funext h]

theorem linkDestination_nextHop {d : Ipv4Addr} (hd : e.nextHop d = some ip) :
    e.linkDestination d = e.resolved ip := by
  have hb : ¬e.broadcast d := by
    intro hb
    rw [nextHop, if_pos hb] at hd
    cases hd
  rw [linkDestination, if_neg hb, hd, Option.bind_some]

theorem linkDestination_static {d : Ipv4Addr} (hd : e.nextHop d = some ip)
    (hs : e.neighbors[ip]? = some (.static mac)) : e.linkDestination d = some mac := by
  rw [linkDestination_nextHop hd, resolved, hs]
  rfl

-- An accepted packet is framed for the link destination of its address, or waits until there is
-- one.
theorem accept_ready {serial : Nat} {slot : PacketBuf} (h : e.accept serial slot = .taken e') :
    ∃ d, destinationOf slot.asSlice = some d ∧
      ((∃ mac r, e.linkDestination d = some mac ∧ r.Carries mac ∧ e'.ready = e.ready ++ [r]) ∨
      e.linkDestination d = none ∧ ∃ p, e.nextHop d = some p.nextHop ∧
      e'.pending = e.pending ++ [p]) := by
  rw [accept] at h
  split at h
  case h_2 => cases h
  rename_i d frame hd _
  refine ⟨d, hd, ?_⟩
  split at h
  case isTrue hb =>
    cases h
    refine .inl ⟨Mac.broadcast, _, if_pos hb, ?_, rfl⟩
    rw [Ready.Carries, Ethernet.parse_prepend]
    rfl
  rename_i hb
  split at h
  case h_1 => cases h
  rename_i route hroute
  have hn : e.nextHop d = some (route.nextHop d) := by rw [nextHop, if_neg hb, hroute]; rfl
  rw [linkDestination_nextHop hn]
  unfold acceptUnicast at h
  dsimp only at h
  split at h
  case h_1 mac hmac =>
    cases h
    exact .inl ⟨mac, _, hmac, frameFor_carries .., rfl⟩
  case h_2 hmac =>
    split at h
    case isTrue => cases h
    cases h
    exact .inr ⟨hmac, _, hn, congrArg (· ++ _) (resolve_aside e _).left⟩

-- A waiting packet is released for the link destination that the addresses with its next hop have.
theorem mem_releaseResolved_ready {r : Ready} (h : r ∈ e.releaseResolved.ready) :
    r ∈ e.ready ∨ ∃ p ∈ e.pending, ∀ d, e.nextHop d = some p.nextHop →
      ∃ mac, e.linkDestination d = some mac ∧ r.Carries mac := by
  rw [releaseResolved_eq] at h
  refine (List.mem_append.mp h).imp_right fun hm => ?_
  have ⟨p, hp, hr⟩ := List.mem_filterMap.mp hm
  obtain ⟨mac, hmac, rfl⟩ := Option.map_eq_some_iff.mp hr
  exact ⟨p, hp, fun d hd => ⟨mac, (linkDestination_nextHop hd).trans hmac, frameFor_carries ..⟩⟩

-- The configuration of an interface, which frames do not change.
structure SameSetup (e e' : EthernetIpv4 δ) : Prop where
  config     : e'.config = e.config
  routes     : e'.routes = e.routes
  configured : e'.configured = e.configured

theorem SameSetup.refl (e : EthernetIpv4 δ) : SameSetup e e :=
  ⟨rfl, rfl, rfl⟩

theorem SameSetup.trans {e'' : EthernetIpv4 δ} (h₁ : SameSetup e e') (h₂ : SameSetup e' e'') :
    SameSetup e e'' where
  config     := h₂.config.trans h₁.config
  routes     := h₂.routes.trans h₁.routes
  configured := h₂.configured.trans h₁.configured

theorem learn_setup (e : EthernetIpv4 δ) (ip : Ipv4Addr) (mac : Mac) :
    SameSetup e (e.learn ip mac) := by
  rw [learn]
  repeat' split
  all_goals exact ⟨rfl, rfl, rfl⟩

section

variable [Device δ]

variable (e)

theorem ensureSpare_setup : SameSetup e e.ensureSpare := by
  rw [ensureSpare]
  split
  case h_1 => exact .refl e
  case h_2 => exact ⟨rfl, rfl, rfl⟩

theorem queueArp_setup (packet : Arp.Packet) (destination : Mac) :
    SameSetup e (e.queueArp packet destination).fst := by
  rw [queueArp]
  split
  case isTrue => exact .refl e
  dsimp only
  split
  case h_1 => exact ensureSpare_setup e
  case h_2 => exact (ensureSpare_setup e).trans ⟨rfl, rfl, rfl⟩

theorem replyTo_setup (packet : Arp.Packet) : SameSetup e (e.replyTo packet) := by
  have hq :=
    queueArp_setup e ⟨.reply, e.config.mac, e.config.address, packet.senderMac, packet.senderIp⟩
    packet.senderMac
  rw [replyTo]
  split
  all_goals
    rename_i heq
    rw [heq] at hq
    exact hq.trans ⟨rfl, rfl, rfl⟩

theorem receiveArp_setup (bytes : List U8) (source : Mac) :
    SameSetup e (e.receiveArp bytes source) := by
  rw [receiveArp]
  repeat' split
  all_goals first
    | exact ⟨rfl, rfl, rfl⟩
    | exact replyTo_setup ..
    | exact learn_setup ..
    | exact (learn_setup ..).trans (replyTo_setup ..)

theorem receiveFrame_setup (frame : PacketBuf) : SameSetup e (e.receiveFrame frame).fst := by
  rw [receiveFrame]
  dsimp only
  repeat' split
  all_goals first
    | exact ⟨rfl, rfl, rfl⟩
    | exact receiveArp_setup ..

variable {e}

-- A received frame changes the entry of the sender of a message that teaches it, at most.
theorem receiveFrame_neighbor (frame : PacketBuf)
    (h : (e.receiveFrame frame).fst.neighbors[ip]? ≠ e.neighbors[ip]?) :
    ∃ packet, Teaches e frame packet ∧ packet.senderIp = ip := by
  rcases receiveFrame_cases e frame with ha | ⟨packet, ht, ha⟩
  case inl =>
    rw [ha.neighbors] at h
    exact absurd rfl h
  refine ⟨packet, ht, ?_⟩
  by_contra hne
  rw [ha.neighbors, learn_other hne] at h
  exact h rfl

theorem Unsolicited.aside {frame : PacketBuf} (h : e.Unsolicited frame) :
    Aside e (e.receiveFrame frame).fst := by
  rcases receiveFrame_cases e frame with ha | ⟨packet, ht, _⟩
  case inl => exact ha
  have ⟨packet', hp, hreply, hexpired⟩ := h
  cases hp.symm.trans ht.arp
  rcases ht.wanted with hrequest | ⟨_, _, attempts, nextProbe, expires, hnow, hs⟩
  case inl => cases hreply.symm.trans hrequest
  case inr => exact absurd hnow (Std.not_lt.mpr (hexpired attempts nextProbe expires hs))

theorem receiveFrames_setup (e : EthernetIpv4 δ) (frames : List PacketBuf) :
    SameSetup e (e.receiveFrames frames).fst := by
  induction frames generalizing e
  case nil                  => exact .refl e
  case cons frame frames ih => exact (receiveFrame_setup e frame).trans (ih _)

theorem receiveFrames_unsolicited {frames : List PacketBuf}
    (h : ∀ frame ∈ frames, e.Unsolicited frame) : Aside e (e.receiveFrames frames).fst := by
  induction frames generalizing e
  case nil => exact .refl e
  case cons frame frames ih =>
    have ⟨hhead, htail⟩ := List.forall_mem_cons.mp h
    have ha := hhead.aside
    exact ha.trans (ih fun f hf => ha.unsolicited (htail f hf))

theorem receiveFrames_static (frames : List PacketBuf) (h : e.neighbors[ip]? = some (.static mac)) :
    (e.receiveFrames frames).fst.neighbors[ip]? = some (.static mac) :=
  receiveFrames_induction (fun _ _ hl hs => hl.static hs) frames h

-- What received frames do to the neighbors, and what follows for where packets are sent.
theorem arp_learning_policy (e : EthernetIpv4 δ) (frame : PacketBuf) (frames : List PacketBuf) :
    (∀ ip : Ipv4Addr, (e.receiveFrame frame).fst.neighbors[ip]? ≠ e.neighbors[ip]? →
      ∃ packet, Teaches e frame packet ∧ packet.senderIp = ip) ∧
    (∀ (ip : Ipv4Addr) mac, e.neighbors[ip]? = some (.static mac) →
      (e.receiveFrame frame).fst.neighbors[ip]? = some (.static mac)) ∧
    (∀ ip ∈ e.neighbors, ip ∈ (e.receiveFrame frame).fst.neighbors) ∧
    (e.neighbors.size = e.config.neighborCapacity →
      ∀ ip ∈ (e.receiveFrame frame).fst.neighbors, ip ∈ e.neighbors) ∧
    ((∀ frame ∈ frames, e.Unsolicited frame) →
      ∀ d, (e.receiveFrames frames).fst.linkDestination d = e.linkDestination d) ∧
    ∀ d ip mac, e.nextHop d = some ip → e.neighbors[ip]? = some (.static mac) →
      e.linkDestination d = some mac ∧
      (e.receiveFrames frames).fst.linkDestination d = some mac := by
  have hl := receiveFrame_learns e frame
  have ⟨hc, hr, _⟩ := receiveFrames_setup e frames
  refine ⟨fun ip h => receiveFrame_neighbor frame h, fun ip mac h => hl.static h,
    fun ip h => hl.mem h, fun hfull ip h => hl.mem_of_full hfull h, ?_, ?_⟩
  · intro h d
    exact linkDestination_eq hc hr (receiveFrames_unsolicited h).resolved
  · intro d ip mac hd hs
    refine ⟨linkDestination_static hd hs, ?_⟩
    exact linkDestination_static ((nextHop_eq hc hr).trans hd) (receiveFrames_static frames hs)

end

end EthernetIpv4
