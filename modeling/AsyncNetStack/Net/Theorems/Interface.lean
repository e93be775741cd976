import AsyncNetStack.Device.Loopback
import AsyncNetStack.Lib.Relay
import AsyncNetStack.Lib.Transition
import AsyncNetStack.Net.Interface

open Fallible Relay Std

-- The counters which the accounting of packets is about.
def InterfaceStats.counts (s : InterfaceStats) : Nat × Nat × Nat × Nat :=
  (s.acceptedIp, s.submittedIp, s.timeoutDrops, s.configurationDrops)

namespace EthernetIpv4

variable {δ : Type} {e e' e'' : EthernetIpv4 δ} {ip : Ipv4Addr} {n : Nat}

-- The adapter as a relay whose keys are next hops. A call to `send` only counts the packets it
-- accepts when it returns, and `n` is their number until then.
def relay (e : EthernetIpv4 δ) (n : Nat) : Relay (Option Ipv4Addr) where
  taken   := e.stats.acceptedIp + n
  waiting := e.pending.map Pending.tag
  ready   := e.ready.map Ready.tag
  sent    := e.submitted
  dropped := e.stats.timeoutDrops + e.stats.configurationDrops

theorem load_relay : (e.relay n).load = e.pending.length + e.ready.length := by
  simp [relay, load]

theorem waiting_eq_countP (e : EthernetIpv4 δ) (ip : Ipv4Addr) :
    e.waiting ip = e.pending.countP (·.nextHop == ip) :=
  List.countP_eq_length_filter.symm

theorem backlog_relay : (e.relay n).backlog (some ip) = e.waiting ip := by
  rw [waiting_eq_countP, backlog, ← List.countP_eq_length_filter, relay, List.countP_map]
  exact List.countP_congr fun p _ => by simp [Pending.tag]

-- The operations on frames and events: all packets, neighbors and accounts stay as they are.
structure Aside (e e' : EthernetIpv4 δ) : Prop where
  config    : e'.config = e.config
  neighbors : e'.neighbors = e.neighbors
  pending   : e'.pending = e.pending
  ready     : e'.ready = e.ready
  now       : e'.now = e.now
  submitted : e'.submitted = e.submitted
  counts    : e'.stats.counts = e.stats.counts
  control   : e.control.length ≤ e.config.controlCapacity →
              e'.control.length ≤ e.config.controlCapacity

namespace Aside

theorem refl (e : EthernetIpv4 δ) : Aside e e :=
  ⟨rfl, rfl, rfl, rfl, rfl, rfl, rfl, id⟩

theorem trans (h₁ : Aside e e') (h₂ : Aside e' e'') : Aside e e'' where
  config    := h₂.config.trans h₁.config
  neighbors := h₂.neighbors.trans h₁.neighbors
  pending   := h₂.pending.trans h₁.pending
  ready     := h₂.ready.trans h₁.ready
  now       := h₂.now.trans h₁.now
  submitted := h₂.submitted.trans h₁.submitted
  counts    := h₂.counts.trans h₁.counts
  control h := by
    have := h₂.control
    rw [h₁.config] at this
    exact this (h₁.control h)

theorem relay (h : Aside e e') (n : Nat) : e'.relay n = e.relay n := by
  have hc := h.counts
  simp only [InterfaceStats.counts, Prod.mk.injEq] at hc
  simp only [EthernetIpv4.relay, h.pending, h.ready, h.submitted, hc]

theorem resolved (h : Aside e e') (ip : Ipv4Addr) : e'.resolved ip = e.resolved ip := by
  rw [EthernetIpv4.resolved, EthernetIpv4.resolved, h.neighbors, h.now]

end Aside

theorem event_aside (e : EthernetIpv4 δ) (ev : InterfaceEvent) : Aside e (e.event ev) :=
  ⟨rfl, rfl, rfl, rfl, rfl, rfl, rfl, id⟩

theorem bump_aside {f : InterfaceStats → InterfaceStats}
    (hf : (f e.stats).counts = e.stats.counts) : Aside e (e.bump f) :=
  ⟨rfl, rfl, rfl, rfl, rfl, rfl, hf, id⟩

variable (e)

theorem ignore_aside : Aside e e.ignore :=
  bump_aside rfl

theorem malformed_aside : Aside e e.malformed :=
  bump_aside rfl

theorem delivered_aside : Aside e e.delivered :=
  bump_aside rfl

theorem cancelProbes_aside (ip : Ipv4Addr) : Aside e (e.cancelProbes ip) :=
  ⟨rfl, rfl, rfl, rfl, rfl, rfl, rfl, (List.length_filter_le ..).trans⟩

theorem submitControl_aside (n : Nat) : Aside e (e.submitControl n) := by
  have h : Aside e { e with control := e.control.drop n } :=
    ⟨rfl, rfl, rfl, rfl, rfl, rfl, rfl, (by simp; omega)⟩
  rw [submitControl]
  split
  case isTrue  => exact (h.trans (bump_aside rfl)).trans (event_aside ..)
  case isFalse => exact h.trans (bump_aside rfl)

variable {e}

section

variable [Device δ]

theorem ensureSpare_aside (e : EthernetIpv4 δ) : Aside e e.ensureSpare := by
  rw [ensureSpare]
  split
  case h_1 => exact .refl e
  case h_2 => exact ⟨rfl, rfl, rfl, rfl, rfl, rfl, rfl, id⟩

theorem ensureSpare_control (e : EthernetIpv4 δ) : e.ensureSpare.control = e.control := by
  rw [ensureSpare]
  split <;> rfl

theorem queueArp_aside (e : EthernetIpv4 δ) (packet : Arp.Packet) (destination : Mac) :
    Aside e (e.queueArp packet destination).fst := by
  rw [queueArp]
  by_cases hfull : e.control.length = e.config.controlCapacity
  case pos =>
    rw [if_pos hfull]
    exact .refl e
  case neg =>
    have hspare := e.ensureSpare_aside
    rw [if_neg hfull]
    cases h : e.ensureSpare.controlSpare
    case none =>
      simp only [h]
      exact hspare
    case some spare =>
      simp only [h]
      refine { hspare with control := fun hle => ?_ }
      simp only [ensureSpare_control, List.length_append, List.length_singleton]
      omega

theorem queueArp_aside_of {packet : Arp.Packet} {destination : Mac} {b : Bool}
    (h : e.queueArp packet destination = (e', b)) : Aside e e' := by
  have := queueArp_aside e packet destination
  rwa [h] at this

theorem replyTo_aside (e : EthernetIpv4 δ) (packet : Arp.Packet) : Aside e (e.replyTo packet) := by
  rw [replyTo]
  split
  case h_1 heq => exact (queueArp_aside_of heq).trans (bump_aside rfl)
  case h_2 heq => exact (queueArp_aside_of heq).trans (bump_aside rfl)

theorem flushFront_aside (e : EthernetIpv4 δ) (queue : List PacketBuf) :
    Aside e (e.flushFront queue).fst := by
  cases queue
  case nil  => exact .refl e
  case cons => exact ⟨rfl, rfl, rfl, rfl, rfl, rfl, rfl, id⟩

end

-- What an operation does which accepts no packet: it is a sequence of steps of the relay, and no
-- bounded queue or table grows out of its bound.
structure Quiet (e e' : EthernetIpv4 δ) : Prop where
  config    : e'.config =
    { e.config with address := e'.config.address, prefixLen := e'.config.prefixLen }
  now       : e'.now = e.now
  drains    : ∀ n, Drains (e.relay n) (e'.relay n)
  counted   : e'.stats.submittedIp + e.submitted.length = e.stats.submittedIp + e'.submitted.length
  control   : e.control.length ≤ e.config.controlCapacity →
              e'.control.length ≤ e.config.controlCapacity
  neighbors : e.neighbors.size ≤ e.config.neighborCapacity →
              e'.neighbors.size ≤ e.config.neighborCapacity

namespace Quiet

theorem of_aside (h : Aside e e') : Quiet e e' where
  config    := by rw [h.config]
  now       := h.now
  drains n  := .of_eq (h.relay n)
  counted   := by
    have hc := h.counts
    simp only [InterfaceStats.counts, Prod.mk.injEq] at hc
    rw [h.submitted, hc.right.left]
  control   := h.control
  neighbors := by rw [h.neighbors]; exact id

theorem refl (e : EthernetIpv4 δ) : Quiet e e :=
  of_aside (.refl e)

theorem trans (h₁ : Quiet e e') (h₂ : Quiet e' e'') : Quiet e e'' where
  config := by
    have h := h₂.config
    rw [h₁.config] at h
    exact h
  now := h₂.now.trans h₁.now
  drains n := (h₁.drains n).trans (h₂.drains n)
  counted := by
    have := h₁.counted
    have := h₂.counted
    omega
  control h := by
    have hc : e'.config.controlCapacity = e.config.controlCapacity := by rw [h₁.config]
    exact hc ▸ h₂.control (hc.symm ▸ h₁.control h)
  neighbors h := by
    have hc : e'.config.neighborCapacity = e.config.neighborCapacity := by rw [h₁.config]
    exact hc ▸ h₂.neighbors (hc.symm ▸ h₁.neighbors h)

theorem andThen {α β : Type} {o : EthernetIpv4 δ × IoResult α}
    {f : EthernetIpv4 δ → α → EthernetIpv4 δ × IoResult β}
    (h : Quiet e o.fst) (hf : ∀ e' a, o = (e', .ok a) → Quiet e' (f e' a).fst) :
    Quiet e (andThen o f).fst :=
  andThen_of h fun e' a heq h => h.trans (hf e' a heq)

-- An operation on the table of neighbors alone.
theorem of_neighbors {ns : TreeMap Ipv4Addr NeighborState}
    (h : e.neighbors.size ≤ e.config.neighborCapacity → ns.size ≤ e.config.neighborCapacity) :
    Quiet e { e with neighbors := ns } where
  config    := rfl
  now       := rfl
  drains _  := .of_eq rfl
  counted   := rfl
  control   := id
  neighbors := h

end Quiet

variable (e)

theorem discardQueued_quiet : Quiet e e.discardQueued where
  config      := rfl
  now         := rfl
  drains n    := by
    refine .of_step ?_
    convert Step.clear (e.relay n) using 1
    rw [clear, load_relay]
    simp only [relay, discardQueued, event, List.map_nil, Nat.add_assoc]
  counted     := rfl
  control _   := Nat.zero_le _
  neighbors h := TreeMap.size_filter_le_size.trans h

-- One full turn over the queue takes out what is resolved, and keeps the rest in order.
theorem releaseOne_iterate (l rest : List Pending) (e : EthernetIpv4 δ)
    (h : e.pending = l ++ rest) :
    releaseOne^[l.length] e =
      { e with
        pending := rest ++ l.filter fun p => (e.resolved p.nextHop).isNone
        ready   :=
          e.ready ++ l.filterMap fun p => (e.resolved p.nextHop).map (e.frameFor · p) } := by
  induction l generalizing e rest
  case nil =>
    obtain rfl : e.pending = rest := h
    simp
  case cons p l ih =>
    rw [List.length_cons, Function.iterate_succ_apply, releaseOne, h]
    cases hr : e.resolved p.nextHop
    case some mac =>
      simp only [List.cons_append, hr]
      rw [ih rest _ rfl, List.filter_cons_of_neg (by simp [hr]),
        List.filterMap_cons_some (by rw [hr]; rfl), List.append_cons e.ready _ (l.filterMap _)]
      rfl
    case none =>
      simp only [List.cons_append, hr]
      rw [ih (rest ++ [p]) _ (List.append_assoc ..), List.filter_cons_of_pos (by simp [hr]),
        List.filterMap_cons_none (by rw [hr]; rfl), List.append_cons rest p (l.filter _)]
      rfl

theorem releaseResolved_eq :
    e.releaseResolved =
      { e with
        pending := e.pending.filter fun p => (e.resolved p.nextHop).isNone
        ready   := e.ready ++
          e.pending.filterMap fun p => (e.resolved p.nextHop).map (e.frameFor · p) } := by
  rw [releaseResolved, releaseOne_iterate e.pending [] e (List.append_nil _).symm, List.nil_append]

def unblocked (key : Option Ipv4Addr) : Bool :=
  key.any fun ip => (e.resolved ip).isSome

@[simp]
theorem unblocked_tag (p : Pending) : e.unblocked p.tag.fst = (e.resolved p.nextHop).isSome :=
  rfl

@[simp]
theorem tag_frameFor (mac : Mac) (p : Pending) : (e.frameFor mac p).tag = p.tag :=
  rfl

theorem map_tag_framed (l : List Pending) :
    (l.filterMap fun p => (e.resolved p.nextHop).map (e.frameFor · p)).map Ready.tag =
      (l.map Pending.tag).filter (e.unblocked ·.fst) := by
  induction l
  case nil => rfl
  case cons p l ih =>
    cases hr : e.resolved p.nextHop <;> simp [hr, ih]

theorem map_tag_blocked (l : List Pending) :
    (l.filter fun p => (e.resolved p.nextHop).isNone).map Pending.tag =
      (l.map Pending.tag).filter (!e.unblocked ·.fst) := by
  induction l
  case nil => rfl
  case cons p l ih =>
    cases hr : e.resolved p.nextHop <;> simp [hr, ih]

theorem releaseResolved_relay (n : Nat) :
    e.releaseResolved.relay n = (e.relay n).release e.unblocked := by
  simp only [releaseResolved_eq, relay, release, List.map_append, map_tag_framed, map_tag_blocked]

theorem releaseResolved_quiet : Quiet e e.releaseResolved where
  config    := by rw [releaseResolved_eq]
  now       := by rw [releaseResolved_eq]
  drains n  := .of_step (releaseResolved_relay e n ▸ Step.release ..)
  counted   := by rw [releaseResolved_eq]
  control   := by rw [releaseResolved_eq]; exact id
  neighbors := by rw [releaseResolved_eq]; exact id

theorem erase_quiet (ip : Ipv4Addr) : Quiet e { e with neighbors := e.neighbors.erase ip } :=
  .of_neighbors TreeMap.size_erase_le.trans

variable {e}
variable {state : NeighborState} {config : InterfaceConfig}

-- Replacing an entry of the table.
theorem insert_quiet (state : NeighborState) (h : ip ∈ e.neighbors) :
    Quiet e { e with neighbors := e.neighbors.insert ip state } :=
  .of_neighbors fun hle => by rwa [TreeMap.size_insert, if_pos (TreeMap.contains_iff_mem.mpr h)]

-- There is an entry for the address, or room for one.
def Room (e : EthernetIpv4 δ) (ip : Ipv4Addr) : Prop :=
  ¬(!e.neighbors.contains ip && e.neighbors.size == e.config.neighborCapacity) = true

theorem Room.insert_quiet (h : Room e ip) :
    Quiet e { e with neighbors := e.neighbors.insert ip state } := by
  by_cases hc : ip ∈ e.neighbors
  case pos => exact EthernetIpv4.insert_quiet _ hc
  case neg =>
    have hc := Bool.not_eq_true _ ▸ TreeMap.contains_iff_mem.not.mpr hc
    refine .of_neighbors fun hle => ?_
    simp only [Room, hc, Bool.not_false, Bool.true_and, beq_iff_eq] at h
    rw [TreeMap.size_insert, hc, if_neg Bool.false_ne_true]
    omega

theorem Room.of_mem (h : ip ∈ e.neighbors) : Room e ip := by
  simp [Room, TreeMap.contains_iff_mem.mpr h]

-- Both ways to learn the address of a neighbor end like this.
theorem Room.install_quiet {ev : InterfaceEvent} (h : Room e ip) :
    Quiet e (event { e.cancelProbes ip with neighbors := e.neighbors.insert ip state } ev) := by
  have hroom : Room (e.cancelProbes ip) ip := h
  refine (Quiet.of_aside (cancelProbes_aside e ip)).trans ?_
  exact hroom.insert_quiet.trans (.of_aside (event_aside ..))

theorem learn_quiet (e : EthernetIpv4 δ) (ip : Ipv4Addr) (mac : Mac) :
    Quiet e (e.learn ip mac) := by
  rw [learn]
  split
  case isTrue => exact .refl e
  split
  case isTrue        => exact .refl e
  case isFalse hroom => exact Room.install_quiet hroom

-- Only neighbors that are being resolved are forgotten with the queues.
theorem mem_discardQueued (h : e.neighbors[ip]? = some state)
    (hs : state.isResolving = false) : ip ∈ e.discardQueued.neighbors := by
  rw [TreeMap.mem_iff_isSome_getElem?, discardQueued, event, TreeMap.getElem?_filter', h]
  simp [hs]

theorem changesMac_not_resolving {mac : Mac}
    (h : changesMac mac state = true) : state.isResolving = false := by
  cases state
  case resolving => exact absurd h Bool.false_ne_true
  all_goals rfl

theorem addStaticNeighbor_quiet (e : EthernetIpv4 δ) (ip : Ipv4Addr) (mac : Mac) :
    Quiet e (e.addStaticNeighbor ip mac).fst := by
  rw [addStaticNeighbor]
  split
  case isTrue => exact .refl e
  split
  case isTrue => exact .refl e
  rename_i hroom
  refine Quiet.trans ?_ (releaseResolved_quiet _)
  by_cases hmac : e.neighbors[ip]?.any (changesMac mac)
  case neg =>
    rw [if_neg hmac]
    exact Room.install_quiet hroom
  case pos =>
    rw [if_pos hmac]
    cases hs : e.neighbors[ip]?
    case none => simp [hs] at hmac
    case some state =>
      rw [hs] at hmac
      have hmem := mem_discardQueued hs (changesMac_not_resolving hmac)
      exact (discardQueued_quiet e).trans (Room.of_mem hmem).install_quiet

theorem discardQueued_quiet_of_aside (h : Aside e e') : Quiet e e'.discardQueued :=
  (Quiet.of_aside h).trans (discardQueued_quiet e')

variable (e)

theorem routes_aside (routes : RouteTable) : Aside e { e with routes } :=
  ⟨rfl, rfl, rfl, rfl, rfl, rfl, rfl, id⟩

theorem addRoute_quiet (route : Route) : Quiet e (e.addRoute route).fst := by
  rw [addRoute]
  split
  case isTrue => exact .refl e
  split
  case h_1 => exact .refl e
  case h_2 => exact discardQueued_quiet_of_aside (routes_aside ..)

theorem setGateway_quiet (gateway : Ipv4Addr) : Quiet e (e.setGateway gateway).fst := by
  rw [setGateway]
  split
  case h_1 => exact .refl e
  case h_2 => exact addRoute_quiet e _

theorem removeRoute_quiet (address : Ipv4Addr) (prefixLen : Nat) :
    Quiet e (e.removeRoute address prefixLen).fst := by
  rw [removeRoute]
  split
  case h_1 => exact .refl e
  case h_2 routes removed _ =>
    cases removed
    case false => exact .of_aside (routes_aside e routes)
    case true  => exact discardQueued_quiet_of_aside (routes_aside e routes)

theorem removeNeighbor_quiet (address : Ipv4Addr) : Quiet e (e.removeNeighbor address).fst := by
  rw [removeNeighbor]
  split
  case isTrue  => exact (erase_quiet e address).trans (discardQueued_quiet _)
  case isFalse => exact .refl e

theorem resetLink_quiet : Quiet e e.resetLink :=
  (discardQueued_quiet e).trans (.of_neighbors TreeMap.size_filter_le_size.trans)

-- Without neighbors, and with another address and other routes.
theorem reconfigure_quiet (address : Ipv4Addr) (prefixLen : Nat)
    (routes : RouteTable) (configured : Bool) :
    Quiet e
      { e with
        neighbors  := ∅
        routes     := routes
        config     := { e.config with address := address, prefixLen := prefixLen }
        configured := configured } where
  config      := rfl
  now         := rfl
  drains _    := .of_eq rfl
  counted     := rfl
  control     := id
  neighbors _ := TreeMap.size_emptyc ▸ Nat.zero_le _

theorem withdrawIpv4_quiet : Quiet e e.withdrawIpv4 :=
  (discardQueued_quiet e).trans (reconfigure_quiet e.discardQueued _ _ _ _)

theorem configureIpv4_quiet (address : Ipv4Addr) (prefixLen : Nat)
    (gateway : Option Ipv4Addr) : Quiet e (e.configureIpv4 address prefixLen gateway).fst := by
  rw [configureIpv4]
  repeat' split
  all_goals first
    | exact .refl e
    | exact (discardQueued_quiet e).trans (reconfigure_quiet e.discardQueued _ _ _ _)

theorem map_tag_other (l : List Pending) (ip : Ipv4Addr) :
    (l.filter (·.nextHop != ip)).map Pending.tag =
      (l.map Pending.tag).filter (fun x => !decide (x.fst = some ip)) := by
  rw [List.filter_map]
  exact congrArg _ (List.filter_congr fun p _ => by simp [Pending.tag, bne, beq_eq_decide])

theorem timeOut_relay (ip : Ipv4Addr) (n : Nat) :
    (e.timeOut ip).relay n = (e.relay n).drop (· = some ip) := by
  have hl := length_partition (e.pending.map Pending.tag) (· = some ip)
  rw [← map_tag_other, List.length_map, List.length_map] at hl
  simp only [relay, drop, timeOut, cancelProbes, bump, event, map_tag_other, Relay.mk.injEq,
    true_and]
  omega

variable {e}

theorem timeOut_quiet (h : ip ∈ e.neighbors) : Quiet e (e.timeOut ip) := by
  have hc := insert_quiet (.failed (e.now.saturatingAdd e.config.failedRetryDelay)) h
  exact {
    config    := rfl
    now       := rfl
    drains n  := .of_step (timeOut_relay e ip n ▸ Step.drop ..)
    counted   := rfl
    control   := (cancelProbes_aside e ip).control
    neighbors := hc.neighbors
  }

theorem submitData_relay (e : EthernetIpv4 δ) (k n : Nat) :
    (e.submitData k).relay n = (e.relay n).submit k := by
  rw [submitData]
  split <;> simp [relay, submit, bump, event, List.map_drop, List.map_take]

theorem submitData_quiet (h : n ≤ e.ready.length) : Quiet e (e.submitData n) := by
  have hd k := Drains.of_step (submitData_relay e n k ▸ Step.submit ..)
  rw [submitData] at hd ⊢
  have hcount : e.stats.submittedIp + n + e.submitted.length =
      e.stats.submittedIp + (e.submitted ++ (e.ready.take n).map Ready.tag).length := by
    simp only [List.length_append, List.length_map, List.length_take]
    omega
  split
  case isTrue hn  => exact ⟨rfl, rfl, fun k => by simpa [hn] using hd k, hcount, id, id⟩
  case isFalse hn => exact ⟨rfl, rfl, fun k => by simpa [hn] using hd k, hcount, id, id⟩

theorem device_aside (e : EthernetIpv4 δ) (device : δ) (spare : Option Ethernet.Roomy) :
    Aside e { e with device, controlSpare := spare } :=
  ⟨rfl, rfl, rfl, rfl, rfl, rfl, rfl, id⟩

theorem validate_aside (e : EthernetIpv4 δ) (frame : PacketBuf) :
    Aside e (e.validate frame).fst := by
  unfold validate
  dsimp only
  repeat' split
  all_goals first
    | exact .refl e
    | exact (bump_aside rfl).trans (event_aside ..)

theorem validateAll_aside (e : EthernetIpv4 δ) (frames : List PacketBuf) :
    Aside e (e.validateAll frames).fst := by
  induction frames generalizing e
  case nil => exact .refl e
  case cons frame frames ih =>
    exact andThen_of (validate_aside e frame) fun e₁ _ _ h₁ => h₁.trans (ih e₁)

-- What a received frame does to the neighbors and queues: it adds or replaces one entry at most.
inductive Learns (e e' : EthernetIpv4 δ) : Prop
  | nothing (h : Aside e e')
  | neighbor (ip : Ipv4Addr) (mac : Mac) (h : Aside (e.learn ip mac) e')

theorem Learns.quiet (h : Learns e e') : Quiet e e' := by
  cases h
  case nothing h         => exact .of_aside h
  case neighbor ip mac h => exact (learn_quiet e ip mac).trans (.of_aside h)

-- The messages of others from which a link address is learned: requests to the interface, and the
-- replies which it waits for.
structure Teaches (e : EthernetIpv4 δ) (frame : PacketBuf) (packet : Arp.Packet) : Prop where
  ethernet : ∃ header, Ethernet.parse frame.asSlice = some header ∧
             header.etherType = Ethernet.ARP ∧ header.source = packet.senderMac ∧
             (header.destination = e.config.mac ∨ header.destination = Mac.broadcast)
  arp      : Arp.Packet.parse (frame.asSlice.drop 14) = some packet
  mac      : packet.senderMac.unicast
  target   : packet.targetIp = e.config.address
  honest   : packet.senderIp = e.config.address → packet.senderMac = e.config.mac
  unicast  : packet.senderIp.unicast
  host     : e.broadcast packet.senderIp = false
  wanted   : packet.operation = .request ∨
             packet.operation = .reply ∧ packet.targetMac = e.config.mac ∧
             ∃ attempts nextProbe expires, e.now < expires ∧
             e.neighbors[packet.senderIp]? = some (.resolving attempts nextProbe expires)

theorem exists_resolving_of_awaitsReply (h : e.neighbors[ip]?.any e.awaitsReply) :
    ∃ attempts nextProbe expires, e.now < expires ∧
    e.neighbors[ip]? = some (.resolving attempts nextProbe expires) := by
  have ⟨state, hs, hw⟩ := (Option.any_eq_true ..).mp h
  cases state
  case resolving attempts nextProbe expires =>
    exact ⟨attempts, nextProbe, expires, of_decide_eq_true hw, hs⟩
  all_goals cases hw

section

variable [Device δ]

theorem receiveArp_cases (e : EthernetIpv4 δ) (bytes : List U8) (source : Mac) :
    Aside e (e.receiveArp bytes source) ∨
    ∃ packet, Arp.Packet.parse bytes = some packet ∧ source = packet.senderMac ∧
      packet.targetIp = e.config.address ∧
      (packet.senderIp = e.config.address → packet.senderMac = e.config.mac) ∧
      packet.senderIp.unicast ∧ e.broadcast packet.senderIp = false ∧
      (packet.operation = .request ∨ packet.operation = .reply ∧ packet.targetMac = e.config.mac ∧
        e.neighbors[packet.senderIp]?.any e.awaitsReply) ∧
      Aside (e.learn packet.senderIp packet.senderMac) (e.receiveArp bytes source) := by
  rw [receiveArp]
  cases hp : Arp.Packet.parse bytes
  case none => exact .inl (malformed_aside e)
  case some packet =>
    dsimp only
    split
    case isTrue => exact .inl (malformed_aside e)
    rename_i hsource
    split
    case isTrue => exact .inl ((bump_aside rfl).trans (event_aside ..))
    rename_i hconflict
    split
    case isTrue => exact .inl (ignore_aside e)
    rename_i htarget
    have hmac : packet.senderMac = source := by simpa using hsource
    have hto : packet.targetIp = e.config.address := by simpa using htarget
    have hown : packet.senderIp = e.config.address → packet.senderMac = e.config.mac := by
      simpa using hconflict
    cases hop : packet.operation
    case request =>
      dsimp only
      split
      case isTrue hu =>
        rw [Bool.and_eq_true, Bool.not_eq_true'] at hu
        exact .inr ⟨packet, rfl, hmac.symm, hto, hown, hu.left, hu.right, .inl hop,
          replyTo_aside ..⟩
      split
      case isTrue  => exact .inl (ignore_aside e)
      case isFalse => exact .inl (replyTo_aside ..)
    case reply =>
      dsimp only
      split
      case isTrue hr =>
        rw [Bool.and_eq_true, Bool.and_eq_true, Bool.and_eq_true, beq_iff_eq,
          Bool.not_eq_true'] at hr
        have ⟨⟨⟨hme, hu⟩, hb⟩, hw⟩ := hr
        exact .inr ⟨packet, rfl, hmac.symm, hto, hown, hu, hb, .inr ⟨hop, hme, hw⟩, .refl _⟩
      case isFalse => exact .inl (ignore_aside e)

theorem receiveFrame_cases (e : EthernetIpv4 δ) (frame : PacketBuf) :
    Aside e (e.receiveFrame frame).fst ∨
    ∃ packet, Teaches e frame packet ∧
      Aside (e.learn packet.senderIp packet.senderMac) (e.receiveFrame frame).fst := by
  rw [receiveFrame]
  split
  case isTrue => exact .inl (ignore_aside e)
  cases hheader : Ethernet.parse frame.asSlice
  case none => exact .inl (malformed_aside e)
  case some header =>
    dsimp only
    split
    case isTrue => exact .inl (ignore_aside e)
    rename_i haddr
    split
    case isTrue harp =>
      rcases receiveArp_cases e (frame.asSlice.drop 14) header.source with ha | hl
      case inl => exact .inl ha
      have ⟨packet, hp, hmac, hto, hown, hu, hb, hw, ha⟩ := hl
      have ⟨hsource, hdest⟩ : header.source.unicast ∧
          (header.destination = e.config.mac ∨ header.destination = Mac.broadcast) := by
        simpa [imp_iff_not_or] using haddr
      exact .inr ⟨packet, {
        ethernet := ⟨header, hheader, harp, hmac, hdest⟩
        arp      := hp
        mac      := hmac ▸ hsource
        target   := hto
        honest   := hown
        unicast  := hu
        host     := hb
        wanted   := hw.imp_right fun hr =>
          ⟨hr.left, hr.right.left, exists_resolving_of_awaitsReply hr.right.right⟩
      }, ha⟩
    case isFalse =>
      refine .inl ?_
      repeat' split
      all_goals first
        | exact malformed_aside e
        | exact ignore_aside e
        | exact delivered_aside e

theorem receiveFrame_learns (e : EthernetIpv4 δ) (frame : PacketBuf) :
    Learns e (e.receiveFrame frame).fst := by
  rcases receiveFrame_cases e frame with ha | ⟨packet, _, ha⟩
  case inl => exact .nothing ha
  case inr => exact .neighbor _ _ ha

-- The rule for what any sequence of received frames preserves.
theorem receiveFrames_induction {P : EthernetIpv4 δ → Prop}
    (hs : ∀ e e', Learns e e' → P e → P e') (frames : List PacketBuf) (hi : P e) :
    P (e.receiveFrames frames).fst := by
  induction frames generalizing e
  case nil => exact hi
  case cons frame frames ih => exact ih (hs e _ (receiveFrame_learns e frame) hi)

-- A request is only counted as an attempt if there is room for it.
theorem probe_cases (e : EthernetIpv4 δ) (ip : Ipv4Addr) (attempts : Nat) (expires : Duration) :
    Aside e (e.probe ip attempts expires) ∨
    ∃ next,
      Aside { e with neighbors := e.neighbors.insert ip (.resolving (attempts + 1) next expires) }
      (e.probe ip attempts expires) := by
  rw [probe]
  split
  case h_1 heq => exact .inl (queueArp_aside_of heq)
  case h_2 e' heq =>
    have h := queueArp_aside_of heq
    refine .inr ⟨e'.now.saturatingAdd e'.config.retryInterval, ?_⟩
    refine .trans ?_ ((bump_aside rfl).trans (event_aside ..))
    exact { h with neighbors := by rw [h.neighbors] }

theorem probe_quiet (h : ip ∈ e.neighbors) (attempts : Nat) (expires : Duration) :
    Quiet e (e.probe ip attempts expires) := by
  rcases probe_cases e ip attempts expires with ha | ⟨next, ha⟩
  case inl => exact .of_aside ha
  case inr => exact (insert_quiet _ h).trans (.of_aside ha)

theorem refresh_quiet {state : NeighborState} (h : e.neighbors[ip]? = some state) :
    Quiet e (e.refresh ip state) := by
  have hmem : ip ∈ e.neighbors := by simp [TreeMap.mem_iff_isSome_getElem?, h]
  unfold refresh
  repeat' split
  all_goals first
    | exact .refl e
    | exact erase_quiet e ip
    | exact timeOut_quiet hmem
    | exact probe_quiet hmem ..

-- The timer of one neighbor leaves all others alone.
theorem refresh_other {ip' : Ipv4Addr} {state : NeighborState} (h : ip ≠ ip') :
    (e.refresh ip state).neighbors[ip']? = e.neighbors[ip']? := by
  have hc : compare ip ip' ≠ .eq := Std.compare_eq_iff_eq.not.mpr h
  unfold refresh
  repeat' split
  all_goals try rfl
  · exact (TreeMap.getElem?_erase ..).trans (if_neg hc)
  · exact (TreeMap.getElem?_erase ..).trans (if_neg hc)
  · exact (TreeMap.getElem?_insert ..).trans (if_neg hc)
  · rcases probe_cases e ip _ _ with ha | ⟨next, ha⟩
    case inl => rw [ha.neighbors]
    case inr => rw [ha.neighbors]; exact (TreeMap.getElem?_insert ..).trans (if_neg hc)

-- Each timer runs on the state which its neighbor has at that time, so what all timers preserve
-- follows from what a single one does.
theorem runTimers_induction {P : EthernetIpv4 δ → Prop}
    (hs : ∀ e ip state, e.neighbors[ip]? = some state → P e → P (e.refresh ip state)) (hi : P e) :
    P (e.runTimers e.neighbors.toList) := by
  suffices h : ∀ (work : List (Ipv4Addr × NeighborState)) (e : EthernetIpv4 δ),
      work.Pairwise (fun w w' => ¬compare w.fst w'.fst = .eq) →
      (∀ w ∈ work, e.neighbors[w.fst]? = some w.snd) → P e → P (e.runTimers work) by
    exact h _ e TreeMap.distinct_keys_toList
      (fun w hw => TreeMap.mem_toList_iff_getElem?_eq_some.mp hw) hi
  intro work
  induction work
  case nil => exact fun e _ _ hi => hi
  case cons w work ih =>
    intro e hd ha hi
    obtain ⟨hw, hd⟩ := List.pairwise_cons.mp hd
    obtain ⟨hhead, htail⟩ := List.forall_mem_cons.mp ha
    refine ih _ hd (fun w' hw' => ?_) (hs e w.fst w.snd hhead hi)
    rw [refresh_other (fun heq => hw w' hw' (Std.compare_eq_iff_eq.mpr heq))]
    exact htail w' hw'

theorem runTimers_quiet (e : EthernetIpv4 δ) : Quiet e (e.runTimers e.neighbors.toList) :=
  runTimers_induction (fun _ _ _ h hq => hq.trans (refresh_quiet h)) (.refl e)

theorem alloc_aside (e : EthernetIpv4 δ) : Aside e e.alloc.fst := by
  have h := ensureSpare_aside e
  rw [alloc]
  split
  case h_1 => exact h
  case h_2 => exact { h with }

-- Nothing happens when time goes backwards.
theorem advance_backwards {now : Duration} (h : now < e.now) : (e.advance now).fst = e := by
  rw [advance, if_pos h]

end

section

variable [LawfulDevice δ]

theorem flushFront_le {queue : List PacketBuf} (h : e.flushFront queue = (e', .ok n)) :
    n ≤ queue.length := by
  cases queue
  case nil =>
    cases h
    exact Nat.le_refl _
  case cons frame queue =>
    cases hs : Device.send e.device ((frame :: queue).take (e.front (frame :: queue).length))
    case mk device result =>
      simp only [flushFront, hs] at h
      cases result
      case ok m =>
        cases h
        exact (LawfulDevice.send_le hs).trans (List.length_take_le' ..)
      case error err =>
        simp only [Prod.mk.injEq] at h
        split at h
        case isTrue  => cases h.right; exact Nat.zero_le _
        case isFalse => cases h.right

theorem flush_quiet (e : EthernetIpv4 δ) : Quiet e e.flush.fst := by
  refine Quiet.andThen (.of_aside (flushFront_aside ..)) fun e₁ n _ => ?_
  have hc := Quiet.of_aside (submitControl_aside e₁ n)
  dsimp only
  split
  case isTrue => exact hc
  refine hc.trans (Quiet.andThen (.of_aside (flushFront_aside ..)) fun e₂ m h₂ => ?_)
  have ha := flushFront_aside (e₁.submitControl n) ((e₁.submitControl n).ready.map (·.frame))
  rw [h₂] at ha
  refine submitData_quiet ?_
  rw [ha.ready]
  simpa using flushFront_le h₂

theorem advance_quiet {now : Duration} (h : ¬now < e.now) :
    Quiet { e with now } (e.advance now).fst := by
  rw [advance, if_neg h]
  refine (Quiet.of_aside (ensureSpare_aside _)).trans ?_
  exact ((runTimers_quiet _).trans (releaseResolved_quiet _)).trans (flush_quiet _)

variable (e)

theorem advance_now_quiet : Quiet e (e.advance e.now).fst :=
  advance_quiet (lt_irrefl _)

theorem pollAt_cases (now : Duration) : Aside e (e.pollAt now).fst ∨
    ¬now < e.now ∧ Quiet { e with now } (e.pollAt now).fst := by
  rw [pollAt]
  cases hp : Device.pollAt e.device now
  case mk device result =>
    have ha := device_aside e device e.controlSpare
    cases result
    case error => exact .inl ha
    dsimp only
    by_cases h : now < e.now
    case pos =>
      refine .inl ?_
      rw [andThen_ok, advance_backwards (by exact h)]
      exact ha
    case neg =>
      refine .inr ⟨h, ?_⟩
      rw [andThen_ok]
      refine (Quiet.of_aside (device_aside { e with now } device e.controlSpare)).trans ?_
      exact advance_quiet (e := { e with device }) h

theorem receiveFrames_quiet (frames : List PacketBuf) : Quiet e (e.receiveFrames frames).fst :=
  receiveFrames_induction (fun _ _ hl hq => hq.trans hl.quiet) frames (.refl e)

theorem recv_quiet (max : Nat) : Quiet e (e.recv max).fst := by
  have hadvance (e : EthernetIpv4 δ) (packets : List PacketBuf) :
      Quiet e (andThen (e.advance e.now) fun e _ => (e, .ok packets)).fst :=
    Quiet.andThen (advance_now_quiet e) fun e' _ _ => .refl e'
  rw [recv]
  split
  case isTrue => exact hadvance e []
  refine Quiet.andThen (.of_aside (device_aside ..)) fun e₁ frames _ => ?_
  exact (receiveFrames_quiet e₁ frames).trans (hadvance ..)

end

-- The accounting of all packets, while a call to `send` has accepted `n` so far.
structure Balanced (e : EthernetIpv4 δ) (n : Nat) : Prop where
  conserved : Conserved (e.relay n)
  counted   : e.stats.submittedIp = e.submitted.length
  load      : e.pending.length + e.ready.length ≤ e.config.txCapacity
  control   : e.control.length ≤ e.config.controlCapacity
  neighbors : e.neighbors.size ≤ e.config.neighborCapacity
  waiting   : ∀ ip, e.waiting ip ≤ e.config.perNeighborCapacity

theorem Quiet.balanced (h : Quiet e e') (hb : Balanced e n) : Balanced e' n where
  conserved := (h.drains n).conserved hb.conserved
  counted   := by
    have := h.counted
    have := hb.counted
    omega
  load := by
    have := (h.drains n).load_le
    rw [load_relay, load_relay] at this
    rw [h.config]
    exact this.trans hb.load
  control    := by rw [h.config]; exact h.control hb.control
  neighbors  := by rw [h.config]; exact h.neighbors hb.neighbors
  waiting ip := by
    have := (h.drains n).backlog_le (some ip)
    rw [backlog_relay, backlog_relay] at this
    rw [h.config]
    exact this.trans (hb.waiting ip)

def hold (e : EthernetIpv4 δ) (p : Pending) : EthernetIpv4 δ :=
  { e with pending := e.pending ++ [p] }

-- What accepting a packet does: it is framed if its next hop is resolved or if it has none, and
-- waits behind the resolution of its next hop otherwise.
inductive Accepts (e : EthernetIpv4 δ) (serial : Nat) (e' : EthernetIpv4 δ) : Prop
  | ready (r : Ready) (hs : r.serial = serial)
    (hr : ∀ ip, r.nextHop = some ip → e.resolved ip ≠ none)
      (h : Aside { e with ready := e.ready ++ [r] } e')
  | pending (p : Pending) (hs : p.serial = serial) (hr : e.resolved p.nextHop = none)
      (hw : e.waiting p.nextHop < e.config.perNeighborCapacity) (hroom : Room e p.nextHop)
      (h : Aside (hold (e.resolve p.nextHop) p) e')

theorem acceptUnicast_accepts {serial : Nat} {frame : Ethernet.Roomy} {destination : Ipv4Addr}
    {route : Route} (h : e.acceptUnicast serial frame destination route = .taken e') :
    Accepts e serial e' := by
  unfold acceptUnicast at h
  dsimp only at h
  split at h
  case h_1 mac hmac =>
    cases h
    refine .ready (e.frameFor mac ⟨route.nextHop destination, frame, serial⟩)
      rfl ?_ (event_aside ..)
    intro ip hip
    cases hip
    simp [hmac]
  case h_2 hmac =>
    split at h
    case isTrue => cases h
    rename_i hroom
    cases h
    rw [not_or, Nat.not_le] at hroom
    refine .pending ⟨route.nextHop destination, frame, serial⟩ rfl hmac hroom.left hroom.right ?_
    exact ⟨rfl, rfl, rfl, rfl, rfl, rfl, rfl, id⟩

theorem accept_accepts {serial : Nat} {slot : PacketBuf} (h : e.accept serial slot = .taken e') :
    Accepts e serial e' := by
  unfold accept at h
  split at h
  case h_2 => cases h
  rename_i destination frame _ _
  split at h
  case isTrue =>
    cases h
    exact .ready _ rfl (fun _ hip => by cases hip) (.refl _)
  split at h
  case h_1 => cases h
  exact acceptUnicast_accepts h

theorem resolve_quiet (h : Room e ip) : Quiet e (e.resolve ip) := by
  rw [resolve]
  split
  case isTrue  => exact .refl e
  case isFalse => exact h.insert_quiet

theorem pass_relay {r : Ready} (h : r.serial = e.stats.acceptedIp + n) :
    EthernetIpv4.relay { e with ready := e.ready ++ [r] } (n + 1) = (e.relay n).pass r.nextHop := by
  simp [relay, Relay.pass, Ready.tag, h, Nat.add_assoc]

theorem hold_relay {p : Pending} (h : p.serial = e.stats.acceptedIp + n) :
    (e.hold p).relay (n + 1) = (e.relay n).hold (some p.nextHop) := by
  simp [relay, Relay.hold, hold, Pending.tag, h, Nat.add_assoc]

theorem waiting_hold (e : EthernetIpv4 δ) (p : Pending) (ip : Ipv4Addr) :
    (e.hold p).waiting ip = e.waiting ip + if p.nextHop = ip then 1 else 0 := by
  by_cases h : p.nextHop = ip <;> simp [waiting, hold, List.filter_append, h]

theorem resolve_aside (e : EthernetIpv4 δ) (ip : Ipv4Addr) :
    (e.resolve ip).pending = e.pending ∧ (e.resolve ip).ready = e.ready ∧
    (e.resolve ip).stats = e.stats ∧ (e.resolve ip).config = e.config ∧
    (e.resolve ip).now = e.now := by
  rw [resolve]
  split
  case isTrue  => exact ⟨rfl, rfl, rfl, rfl, rfl⟩
  case isFalse => exact ⟨rfl, rfl, rfl, rfl, rfl⟩

namespace Accepts

variable {serial : Nat}

theorem accepted_eq (h : Accepts e serial e') : e'.stats.acceptedIp = e.stats.acceptedIp := by
  cases h
  case ready h => exact congrArg Prod.fst h.counts
  case pending p _ _ _ _ h =>
    have := congrArg Prod.fst h.counts
    rw [show e'.stats.acceptedIp = _ from this]
    exact congrArg InterfaceStats.acceptedIp (resolve_aside e p.nextHop).right.right.left

theorem config_eq (h : Accepts e serial e') : e'.config = e.config := by
  cases h
  case ready h => exact h.config
  case pending p _ _ _ _ h =>
    exact h.config.trans (resolve_aside e p.nextHop).right.right.right.left

theorem submitted_eq (h : Accepts e serial e') : e'.submitted = e.submitted := by
  cases h
  case ready h => exact h.submitted
  case pending h =>
    refine h.submitted.trans ?_
    rw [hold, resolve]
    split <;> rfl

theorem now_eq (h : Accepts e serial e') : e'.now = e.now := by
  cases h
  case ready h => exact h.now
  case pending p _ _ _ _ h => exact h.now.trans (resolve_aside e p.nextHop).right.right.right.right

theorem load_eq (h : Accepts e serial e') :
    e'.pending.length + e'.ready.length = e.pending.length + e.ready.length + 1 := by
  cases h
  case ready h =>
    rw [h.pending, h.ready, List.length_append, List.length_singleton, Nat.add_assoc]
  case pending p _ _ _ _ h =>
    have hr := resolve_aside e p.nextHop
    rw [h.pending, h.ready, hold, List.length_append, List.length_singleton, hr.left]
    simp only [hr.right.left]
    omega

theorem balanced (h : Accepts e (e.stats.acceptedIp + n) e') (hb : Balanced e n)
    (hl : e.pending.length + e.ready.length < e.config.txCapacity) : Balanced e' (n + 1) := by
  have hload := h.load_eq
  cases h
  case ready r hs hr h =>
    refine (Quiet.of_aside h).balanced { hb with conserved := ?conserved, load := ?load }
    case conserved =>
      rw [pass_relay hs]
      exact hb.conserved.pass _
    case load =>
      rw [h.pending, h.ready] at hload
      rw [hload]
      exact hl
  case pending p hs hr hw hroom h =>
    have ⟨hpending, hready, hstats, hconfig, _⟩ := resolve_aside e p.nextHop
    have hb' := (resolve_quiet hroom).balanced hb
    refine (Quiet.of_aside h).balanced
      { hb' with conserved := ?conserved, load := ?load, waiting := ?waiting }
    case conserved =>
      rw [← hstats] at hs
      rw [hold_relay hs]
      exact hb'.conserved.hold _
    case load =>
      rw [h.pending, h.ready] at hload
      rw [hload, hold, hconfig]
      exact hl
    case waiting =>
      intro ip
      rw [waiting_hold, hold, hconfig]
      have hwait (ip : Ipv4Addr) : (e.resolve p.nextHop).waiting ip = e.waiting ip := by
        rw [waiting, waiting, hpending]
      rw [hwait]
      split
      case isTrue heq => exact heq ▸ hw
      case isFalse    => exact hb.waiting ip

end Accepts

-- The rule for the loop over the validated packets. It starts at `k` accepted packets, and ends
-- where a packet is not accepted.
theorem acceptAll_induction {P : EthernetIpv4 δ → Nat → Prop} {k : Nat} (slots : List PacketBuf)
    (hs : ∀ e e' n, n < k + slots.length →
      Accepts e (e.stats.acceptedIp + n) e' → P e n → P e' (n + 1)) (hi : P e k) :
    P (e.acceptAll k slots).fst (e.acceptAll k slots).snd.snd := by
  induction slots generalizing e k
  case nil => exact hi
  case cons slot slots ih =>
    rw [acceptAll]
    split
    case h_1 e' heq =>
      have hlen : k + (slot :: slots).length = k + 1 + slots.length := by
        rw [List.length_cons]
        omega
      refine ih (fun e e' n hn => hs e e' n (hlen ▸ hn)) (hs e e' k ?_ (accept_accepts heq) hi)
      rw [hlen]
      omega
    case h_2 => exact hi

theorem acceptAll_balanced (slots : List PacketBuf) (hb : Balanced e 0)
    (hl : e.pending.length + e.ready.length + slots.length ≤ e.config.txCapacity) :
    Balanced (e.acceptAll 0 slots).fst (e.acceptAll 0 slots).snd.snd := by
  let P (e' : EthernetIpv4 δ) (n : Nat) : Prop :=
    Balanced e' n ∧ e'.config = e.config ∧
    e'.pending.length + e'.ready.length = e.pending.length + e.ready.length + n
  suffices h : P (e.acceptAll 0 slots).fst (e.acceptAll 0 slots).snd.snd from h.left
  refine acceptAll_induction slots (fun e₁ e₂ n hn ha ⟨hb, hc, hload⟩ => ?_) ⟨hb, rfl, rfl⟩
  refine ⟨ha.balanced hb ?_, ha.config_eq.trans hc, ?_⟩
  · rw [hload, hc]
    omega
  · rw [ha.load_eq, hload, Nat.add_assoc]

-- Validation only changes anything when it fails.
theorem validate_ok {frame : PacketBuf} (h : e.validate frame = (e', .ok ())) : e' = e := by
  unfold validate at h
  dsimp only at h
  repeat' split at h
  all_goals cases h
  all_goals rfl

theorem validateAll_ok {frames : List PacketBuf} (h : e.validateAll frames = (e', .ok ())) :
    e' = e ∧ ∀ frame ∈ frames, e.validate frame = (e, .ok ()) := by
  induction frames generalizing e'
  case nil =>
    cases h
    exact ⟨rfl, List.forall_mem_nil _⟩
  case cons frame frames ih =>
    rw [validateAll] at h
    cases hv : e.validate frame
    case mk e₁ result =>
      cases result
      case error => simp [hv] at h
      obtain rfl := validate_ok hv
      rw [hv, andThen_ok] at h
      have ⟨he, hall⟩ := ih h
      exact ⟨he, List.forall_mem_cons.mpr ⟨hv, hall⟩⟩

-- A batch is refused, or its packets are accepted one after another as far as there is room.
inductive Sends (e : EthernetIpv4 δ) (slots : List PacketBuf) :
    EthernetIpv4 δ × List PacketBuf × IoResult Nat → Prop
  | refused (e₁ : EthernetIpv4 δ) (err : IoError) (h : Aside e e₁) :
      Sends e slots (e₁, slots, .error err)
  | accepted (e₁ : EthernetIpv4 δ) (k : Nat)
      (hk : k = min (e.config.txCapacity - e.pending.length - e.ready.length) slots.length)
      (hv : ∀ slot ∈ slots.take k, e.validate slot = (e, .ok ()))
      (h : Aside (e.acceptAll 0 (slots.take k)).fst e₁) :
      Sends e slots
        (e₁.bump fun s =>
          { s with acceptedIp := s.acceptedIp + (e.acceptAll 0 (slots.take k)).snd.snd },
          (e.acceptAll 0 (slots.take k)).snd.fst ++ slots.drop k,
          .ok (e.acceptAll 0 (slots.take k)).snd.snd)

theorem sendSlots_sends (e : EthernetIpv4 δ) (slots : List PacketBuf) :
    Sends e slots (e.sendSlots slots) := by
  unfold sendSlots
  split
  case isTrue => exact .refused _ _ (.refl e)
  dsimp only
  split
  case h_1 err heq =>
    have h := validateAll_aside e (slots.take (min (e.config.txCapacity - e.pending.length -
      e.ready.length) slots.length))
    rw [heq] at h
    exact .refused _ err h
  case h_2 heq =>
    obtain ⟨rfl, hv⟩ := validateAll_ok heq
    refine .accepted _ _ rfl hv ?_
    split
    case isTrue  => exact (bump_aside rfl).trans (event_aside ..)
    case isFalse => exact .refl _

theorem send_balanced (slots : List PacketBuf) (hb : Balanced e 0) :
    Balanced (e.send slots).fst 0 := by
  have h := sendSlots_sends e slots
  rw [send]
  generalize e.sendSlots slots = o at h
  cases h
  case refused h => exact (Quiet.of_aside h).balanced hb
  case accepted e' k hk hv h =>
    have hlen : (slots.take k).length ≤ k := List.length_take_le ..
    have hl := hb.load
    have := (Quiet.of_aside h).balanced (acceptAll_balanced (slots.take k) hb (by omega))
    exact { this with conserved := this.conserved }

-- The clock is only set by operations which are given a time.
def Op.Sets (now : Duration) : Op δ → Prop
  | .advance t | .pollAt t => t = now
  | _                      => False

theorem step_quiet [LawfulDevice δ] {op : Op δ} (h : ∀ frames, op ≠ .send frames) :
    ∃ now, (now = e.now ∨ op.Sets now) ∧ Quiet { e with now } (e.step op) := by
  have still {e' : EthernetIpv4 δ} (hq : Quiet e e') :
      ∃ now, (now = e.now ∨ op.Sets now) ∧ Quiet { e with now } e' := ⟨e.now, .inl rfl, hq⟩
  cases op
  case send frames => exact absurd rfl (h frames)
  case advance now =>
    by_cases hnow : now < e.now
    case pos =>
      rw [step, advance_backwards hnow]
      exact still (.refl e)
    case neg => exact ⟨now, .inr rfl, advance_quiet hnow⟩
  case pollAt now =>
    rcases pollAt_cases e now with ha | ⟨_, hq⟩
    case inl => exact still (.of_aside ha)
    case inr => exact ⟨now, .inr rfl, hq⟩
  case recv max                => exact still (recv_quiet e max)
  case addRoute route          => exact still (addRoute_quiet e route)
  case setGateway gateway      => exact still (setGateway_quiet e gateway)
  case removeRoute ip len      => exact still (removeRoute_quiet e ip len)
  case addStaticNeighbor ip m  => exact still (addStaticNeighbor_quiet e ip m)
  case removeNeighbor ip       => exact still (removeNeighbor_quiet e ip)
  case resetLink               => exact still (resetLink_quiet e)
  case configureIpv4 ip len gw => exact still (configureIpv4_quiet e ip len gw)
  case withdrawIpv4            => exact still (withdrawIpv4_quiet e)
  case alloc                   => exact still (.of_aside (alloc_aside e))
  case popEvent                => exact still (.of_aside ⟨rfl, rfl, rfl, rfl, rfl, rfl, rfl, id⟩)
  case deviceMut f             => exact still (.of_aside ⟨rfl, rfl, rfl, rfl, rfl, rfl, rfl, id⟩)

theorem send_config_now (e : EthernetIpv4 δ) (slots : List PacketBuf) :
    (e.send slots).fst.config = e.config ∧ (e.send slots).fst.now = e.now := by
  have h := sendSlots_sends e slots
  rw [send]
  generalize e.sendSlots slots = o at h
  cases h
  case refused h => exact ⟨h.config, h.now⟩
  case accepted k _ _ h =>
    have hall :=
      acceptAll_induction (k := 0) (P := fun e' _ => e'.config = e.config ∧ e'.now = e.now)
      (slots.take k)
      (fun _ _ _ _ ha ⟨hc, hn⟩ => ⟨ha.config_eq.trans hc, ha.now_eq.trans hn⟩) ⟨rfl, rfl⟩
    exact ⟨h.config.trans hall.left, h.now.trans hall.right⟩

-- All limits stay as configured, and the accounts are balanced against them.
structure Accounted (config : InterfaceConfig) (e : EthernetIpv4 δ) : Prop where
  limits   : e.config = { config with address := e.config.address, prefixLen := e.config.prefixLen }
  balanced : Balanced e 0

theorem step_accounted [LawfulDevice δ] (op : Op δ)
    (h : Accounted config e) : Accounted config (e.step op) := by
  by_cases hop : ∃ frames, op = .send frames
  case pos =>
    obtain ⟨frames, rfl⟩ := hop
    exact ⟨(send_config_now e frames).left.symm ▸ h.limits, send_balanced frames h.balanced⟩
  case neg =>
    obtain ⟨now, _, hq⟩ := step_quiet (e := e) (not_exists.mp hop)
    refine ⟨?_, hq.balanced { h.balanced with conserved := h.balanced.conserved }⟩
    rw [hq.config]
    dsimp only
    rw [h.limits]

-- A new adapter.
structure Fresh (config : InterfaceConfig) (e : EthernetIpv4 δ) : Prop where
  valid     : config.invalid = false
  config_eq : e.config = config
  neighbors : e.neighbors = ∅
  pending   : e.pending = []
  ready     : e.ready = []
  control   : e.control = []
  now       : e.now = .zero
  stats     : e.stats = {}
  submitted : e.submitted = []

theorem new_fresh [Device δ] {device : δ} {layout : Nat → Nat}
    (h : new device config layout = .ok e) : Fresh config e := by
  unfold new at h
  simp only [bind, Except.bind, pure, Except.pure, throw, throwThe, MonadExceptOf.throw] at h
  by_cases hv : config.invalid = true
  case pos => simp [hv] at h
  case neg =>
    rw [if_neg hv] at h
    repeat' split at h
    all_goals cases h
    exact ⟨Bool.eq_false_iff.mpr hv, rfl, rfl, rfl, rfl, rfl, rfl, rfl, rfl⟩

theorem Fresh.balanced (h : Fresh config e) : Balanced e 0 where
  conserved  := by simp [Conserved, relay, load, h.stats, h.pending, h.ready, h.submitted]
  counted    := by rw [h.stats, h.submitted]; rfl
  load       := by rw [h.pending, h.ready]; exact Nat.zero_le _
  control    := by rw [h.control]; exact Nat.zero_le _
  neighbors  := by rw [h.neighbors, TreeMap.size_emptyc]; exact Nat.zero_le _
  waiting ip := by rw [waiting, h.pending]; exact Nat.zero_le _

-- No packet is lost or counted twice, and no queue or table outgrows its limit.
theorem packet_conservation [LawfulDevice δ] {device : δ}
    {layout : Nat → Nat} {e₀ : EthernetIpv4 δ} (h : new device config layout = .ok e₀)
    (ops : List (Op δ)) :
    let e := Transition.exec step e₀ ops
    e.stats.acceptedIp = e.stats.submittedIp + e.stats.timeoutDrops + e.stats.configurationDrops +
      e.pending.length + e.ready.length ∧
    e.pending.length + e.ready.length ≤ config.txCapacity ∧
    e.control.length ≤ config.controlCapacity ∧
    e.neighbors.size ≤ config.neighborCapacity ∧
    ∀ hop, (e.pending.filter (·.nextHop == hop)).length ≤ config.perNeighborCapacity := by
  have hf := new_fresh h
  have ha : Accounted config (Transition.exec step e₀ ops) :=
    Transition.exec_induction ⟨by rw [hf.config_eq], hf.balanced⟩ fun _ op h => step_accounted op h
  generalize Transition.exec step e₀ ops = e at ha
  have ⟨hl, hb⟩ := ha
  have hload := hb.load
  have hcontrol := hb.control
  have hneighbors := hb.neighbors
  have hwaiting := hb.waiting
  rw [hl] at hload hcontrol hneighbors hwaiting
  refine ⟨?_, hload, hcontrol, hneighbors, hwaiting⟩
  have hc := hb.conserved
  rw [Conserved, load_relay] at hc
  simp only [relay, ← hb.counted] at hc
  omega

-- An adapter over an in-memory device.
def overLoopback : IoResult (EthernetIpv4 LoopbackDevice) :=
  new (.withCapacity 0 4 4) (.new 0x0a000001#32 24 0x020000000001#48) id

theorem overLoopback_any {p : EthernetIpv4 LoopbackDevice → Bool}
    (h : overLoopback.toOption.any p = true) : ∃ e₀, overLoopback = .ok e₀ ∧ p e₀ = true := by
  generalize overLoopback = o at h
  cases o
  case error => cases h
  case ok e₀ => exact ⟨e₀, rfl, h⟩

-- A packet from `overLoopback` to 10.0.0.2.
def datagramToPeer : PacketBuf where
  memory     :=
    List.replicate 14 0 ++ [0x45, 0, 0, 20, 0, 0, 0, 0, 64, 17] ++
    be16 (checksum
      ([0x45, 0, 0, 20, 0, 0, 0, 0, 64, 17, 0, 0] ++ be32 0x0a000001 ++ be32 0x0a000002)) ++
    be32 0x0a000001 ++ be32 0x0a000002 ++ List.replicate 40 0
  dataOffset := 14
  len        := 20
  idx        := 0
  pool       := none
  bound      := by decide

-- A request for the address of `overLoopback` from 10.0.0.2.
def requestFromPeer : PacketBuf where
  memory     :=
    Ethernet.Header.encode ⟨Mac.broadcast, 2#48, Ethernet.ARP⟩ ++
    Arp.Packet.encode ⟨.request, 2#48, 0x0a000002#32, 0, 0x0a000001#32⟩
  dataOffset := 0
  len        := 42
  idx        := 0
  pool       := none
  bound      := by decide

-- Two packets wait for 10.0.0.2, whose request releases them.
def releasedByPeer : List (Op LoopbackDevice) :=
  [.send [datagramToPeer, datagramToPeer], .deviceMut fun d => (d.send [requestFromPeer]).fst,
    .recv 1]

-- One of them is submitted, the other is dropped with the entry, and a third packet waits again.
theorem packet_conservation_loopback : ∃ e₀, overLoopback = .ok e₀ ∧
    let e := Transition.exec step e₀
      (releasedByPeer ++ [.removeNeighbor 0x0a000002#32, .send [datagramToPeer]])
    (e.stats.acceptedIp = 3 ∧ e.stats.submittedIp = 1 ∧ e.stats.configurationDrops = 1 ∧
      e.pending.length = 1) ∧
    e.stats.acceptedIp = e.stats.submittedIp + e.stats.timeoutDrops + e.stats.configurationDrops +
      e.pending.length + e.ready.length ∧
    e.pending.length + e.ready.length ≤ 128 ∧ e.control.length ≤ 8 ∧ e.neighbors.size ≤ 64 ∧
    ∀ hop, (e.pending.filter (·.nextHop == hop)).length ≤ 16 := by
  have ⟨e₀, h, hc⟩ := overLoopback_any (p := fun e₀ =>
    let e := Transition.exec step e₀
      (releasedByPeer ++ [.removeNeighbor 0x0a000002#32, .send [datagramToPeer]])
    e.stats.acceptedIp == 3 && e.stats.submittedIp == 1 && e.stats.configurationDrops == 1 &&
      e.pending.length == 1) (by decide +kernel)
  simp only [Bool.and_eq_true, beq_iff_eq, and_assoc] at hc
  have hall := packet_conservation h
    (releasedByPeer ++ [.removeNeighbor 0x0a000002#32, .send [datagramToPeer]])
  refine ⟨e₀, h, ?_⟩
  generalize Transition.exec step e₀ _ = e at hc hall ⊢
  exact ⟨hc, hall⟩

end EthernetIpv4
