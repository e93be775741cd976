import AsyncNetStack.Net.Theorems.Withdrawn
import AsyncNetStack.Udp.Coordinated
import AsyncNetStack.Udp.Theorems.Outcomes
import AsyncNetStack.Udp.Theorems.Services

open Std Udp

namespace Route

variable {address : Ipv4Addr} {prefixLen : Nat} {gateway : Option Ipv4Addr}

theorem new_ok {route : Route} (h : new address prefixLen gateway = .ok route) :
    route.network = address &&& Ipv4Addr.mask prefixLen ∧ route.prefixLen = prefixLen := by
  rw [new] at h
  split at h
  case isFalse => cases h
  cases h; exact ⟨rfl, rfl⟩

-- A connected route has the prefix of a default route only if it has none.
theorem samePrefix_default {connected default : Route} {ip : Ipv4Addr}
    (hc : new address prefixLen none = .ok connected) (hd : new 0#32 0 (some ip) = .ok default) :
    connected.samePrefix default = (prefixLen == 0) := by
  have ⟨hcn, hcl⟩ := new_ok hc
  have ⟨hdn, hdl⟩ := new_ok hd
  rw [samePrefix, hcl, hdl, hdn, hcn, BitVec.zero_and]
  cases prefixLen
  case zero   => simp [Ipv4Addr.mask]
  case succ n => simp

end Route

namespace RouteTable

variable {t t' : RouteTable} {route connected : Route}

theorem insert_new {capacity : Nat} (h : (new capacity).insert route = .ok t) :
    t.entries = [route] := by
  rw [insert, new] at h
  dsimp only [List.findIdx?_nil] at h
  split at h
  case isTrue => cases h
  cases h; rfl

theorem insert_second (ht : t.entries = [connected]) (h : t.insert route = .ok t') :
    t'.entries = if connected.samePrefix route then [route] else [connected, route] := by
  rw [insert, ht, List.findIdx?_singleton] at h
  split
  case isTrue hs =>
    rw [if_pos hs] at h
    cases h
    rfl
  case isFalse hs =>
    rw [if_neg hs] at h
    dsimp only at h
    split at h
    case isTrue => cases h
    cases h; rfl

end RouteTable

namespace EthernetIpv4

variable {δ : Type} {e e' : EthernetIpv4 δ} {address : Ipv4Addr} {prefixLen : Nat}
  {gateway : Option Ipv4Addr}

def leaseRoutes (routeCapacity : Nat) (gateway : Option Ipv4Addr) (connected : Route) :
    IoResult RouteTable := do
  let routes ← (RouteTable.new routeCapacity).insert connected
  match gateway with
  | none    => return routes
  | some ip => routes.insert (← Route.new 0#32 0 (some ip))

-- The routes of a lease, if it is valid and there is room for them. Nothing else of the adapter's
-- state plays a role.
def plan (routeCapacity : Nat) (address : Ipv4Addr) (prefixLen : Nat) (gateway : Option Ipv4Addr) :
    IoResult RouteTable :=
  if !address.unicast then
    .error (.invalid "invalid local address")
  else
    match Route.new address prefixLen none with
    | .error err     => .error err
    | .ok connected =>
      if isNetworkOrBroadcast connected address then
        .error (.invalid "local address is network/broadcast")
      else if gateway.any fun ip =>
          !ip.unicast || ip == address || !connected.contains ip ||
          isNetworkOrBroadcast connected ip then
        .error (.invalid "gateway must be a distinct on-link unicast address")
      else
        leaseRoutes routeCapacity gateway connected

variable (e)

def holds (address : Ipv4Addr) (prefixLen : Nat) (routes : RouteTable) : Bool :=
  e.configured && e.config.address == address && e.config.prefixLen == prefixLen &&
  e.routes.entries == routes.entries

def adopt (address : Ipv4Addr) (prefixLen : Nat) (routes : RouteTable) : EthernetIpv4 δ :=
  { e.discardQueued with
    neighbors  := ∅
    routes     := routes
    config     := { e.config with address, prefixLen }
    configured := true }

theorem configureIpv4_eq (address : Ipv4Addr) (prefixLen : Nat) (gateway : Option Ipv4Addr) :
    e.configureIpv4 address prefixLen gateway =
      match plan e.config.routeCapacity address prefixLen gateway with
      | .error err => (e, .error err)
      | .ok routes =>
        if e.holds address prefixLen routes then
          (e, .ok false)
        else
          (e.adopt address prefixLen routes, .ok true) := by
  rw [configureIpv4, plan]
  split
  case isTrue => rfl
  cases Route.new address prefixLen none
  case error => rfl
  case ok connected =>
    dsimp only
    split
    case isTrue => rfl
    split
    case isTrue  => rfl
    case isFalse => rfl

-- The entries of the route table for a lease. There is one route for each prefix, so in a network
-- without a prefix the default route replaces the connected one.
inductive Routed (address : Ipv4Addr) : Nat → Option Ipv4Addr → List Route → Prop
  | connected {prefixLen : Nat} {connected : Route}
      (onLink : Route.new address prefixLen none = .ok connected) :
      Routed address prefixLen none [connected]
  | gateway {prefixLen : Nat} {ip : Ipv4Addr} {connected default : Route}
      (onLink  : Route.new address (prefixLen + 1) none = .ok connected)
      (through : Route.new 0#32 0 (some ip) = .ok default) :
      Routed address (prefixLen + 1) (some ip) [connected, default]
  | replaced {ip : Ipv4Addr} {default : Route}
    (through : Route.new 0#32 0 (some ip) = .ok default) :
      Routed address 0 (some ip) [default]

theorem leaseRoutes_routed {capacity : Nat} {connected : Route} {routes : RouteTable}
    (hc : Route.new address prefixLen none = .ok connected)
    (h : leaseRoutes capacity gateway connected = .ok routes) :
    Routed address prefixLen gateway routes.entries := by
  rw [leaseRoutes] at h
  cases ht : (RouteTable.new capacity).insert connected
  case error => rw [ht] at h; cases h
  case ok t =>
    rw [ht] at h
    have ht := RouteTable.insert_new ht
    cases gateway
    case none =>
      cases h
      rw [ht]
      exact .connected hc
    case some ip =>
      cases hd : Route.new 0#32 0 (some ip)
      case error => simp [hd, bind, Except.bind] at h
      case ok default =>
        simp only [hd, bind, Except.bind] at h
        rw [RouteTable.insert_second ht h, Route.samePrefix_default hc hd]
        cases prefixLen
        case zero   => exact .replaced hd
        case succ n => exact .gateway hc hd

theorem plan_routed {capacity : Nat} {routes : RouteTable}
    (h : plan capacity address prefixLen gateway = .ok routes) :
    Routed address prefixLen gateway routes.entries := by
  rw [plan] at h
  split at h
  case isTrue => cases h
  cases hc : Route.new address prefixLen none
  case error => rw [hc] at h; cases h
  case ok connected =>
    rw [hc] at h
    dsimp only at h
    split at h
    case isTrue => cases h
    split at h
    case isTrue => cases h
    exact leaseRoutes_routed hc h

theorem holds_adopt (address : Ipv4Addr) (prefixLen : Nat) (routes : RouteTable) :
    (e.adopt address prefixLen routes).holds address prefixLen routes := by
  simp [holds, adopt]

variable {e}

-- What a lease that is accepted does to the adapter.
inductive Leased (e : EthernetIpv4 δ) (address : Ipv4Addr) (prefixLen : Nat)
    (gateway : Option Ipv4Addr) : EthernetIpv4 δ → Bool → Prop
  | renewed {routes : RouteTable}
      (plan  : plan e.config.routeCapacity address prefixLen gateway = .ok routes)
      (holds : e.holds address prefixLen routes = true) :
      Leased e address prefixLen gateway e false
  | changed {routes : RouteTable}
      (plan : plan e.config.routeCapacity address prefixLen gateway = .ok routes) :
      Leased e address prefixLen gateway (e.adopt address prefixLen routes) true

theorem configureIpv4_leased {changed : Bool}
    (h : e.configureIpv4 address prefixLen gateway = (e', .ok changed)) :
    Leased e address prefixLen gateway e' changed := by
  rw [configureIpv4_eq] at h
  split at h
  case h_1 => cases h
  rename_i hp
  split at h
  case isTrue hh => cases h; exact .renewed hp hh
  case isFalse   => cases h; exact .changed hp

-- The adapter has a lease already.
def Settled (e : EthernetIpv4 δ) (address : Ipv4Addr) (prefixLen : Nat)
    (gateway : Option Ipv4Addr) : Prop :=
  ∃ routes, plan e.config.routeCapacity address prefixLen gateway = .ok routes ∧
    e.holds address prefixLen routes

namespace Settled

theorem routed (h : Settled e address prefixLen gateway) :
    Routed address prefixLen gateway e.routes.entries := by
  have ⟨routes, hp, hh⟩ := h
  have heq : e.routes.entries = routes.entries := by
    rw [holds, Bool.and_eq_true] at hh
    exact eq_of_beq hh.right
  rw [heq]
  exact plan_routed hp

-- A lease is renewed without any effect.
theorem again (h : Settled e address prefixLen gateway) :
    e.configureIpv4 address prefixLen gateway = (e, .ok false) := by
  have ⟨routes, hp, hh⟩ := h
  rw [configureIpv4_eq, hp]
  exact if_pos hh

theorem resetLink (h : Settled e address prefixLen gateway) :
    Settled e.resetLink address prefixLen gateway :=
  h

end Settled

-- The configuration of the adapter has not changed.
structure Kept (e e' : EthernetIpv4 δ) : Prop where
  address    : e'.config.address = e.config.address
  prefixLen  : e'.config.prefixLen = e.config.prefixLen
  routes     : e'.routes.entries = e.routes.entries
  configured : e'.configured = e.configured

theorem resetLink_kept (e : EthernetIpv4 δ) : Kept e e.resetLink :=
  ⟨rfl, rfl, rfl, rfl⟩

-- No packet waits in the adapter, and all neighbors were entered by hand.
structure Purged (e : EthernetIpv4 δ) : Prop where
  pending   : e.pending = []
  ready     : e.ready = []
  control   : e.control = []
  neighbors : ∀ (ip : Ipv4Addr) (state : NeighborState), e.neighbors[ip]? = some state →
    state.isStatic

theorem adopt_purged (e : EthernetIpv4 δ) (address : Ipv4Addr) (prefixLen : Nat)
    (routes : RouteTable) : Purged (e.adopt address prefixLen routes) where
  pending            := rfl
  ready              := rfl
  control            := rfl
  neighbors ip _ hs  := by simp [adopt] at hs

theorem resetLink_purged (e : EthernetIpv4 δ) : Purged e.resetLink where
  pending               := rfl
  ready                 := rfl
  control               := rfl
  neighbors ip state hs := by
    rw [EthernetIpv4.resetLink, TreeMap.getElem?_filter', Option.filter_eq_some_iff] at hs
    exact hs.right

end EthernetIpv4

namespace UdpPool

open EthernetIpv4

variable {δ : Type} {p p' : UdpPool (EthernetIpv4 δ)} {address : Ipv4Addr} {prefixLen : Nat}
  {gateway : Option Ipv4Addr} {services : List Service}

-- What a lease that is accepted does to both layers.
inductive Coordinated (p : UdpPool (EthernetIpv4 δ)) (address : Ipv4Addr) (prefixLen : Nat)
    (gateway : Option Ipv4Addr) (replacement : TreeMap SocketAddr U32) :
    UdpPool (EthernetIpv4 δ) → Prop
  | renewed
      (settled : Settled p.device address prefixLen gateway)
      (serves  : p.servesAlready replacement = true) :
      Coordinated p address prefixLen gateway replacement p
  | services
      (settled : Settled p.device address prefixLen gateway) :
      Coordinated p address prefixLen gateway replacement
        (installServices { p with device := p.device.resetLink } replacement)
  | changed {routes : RouteTable}
      (settled : Settled (p.device.adopt address prefixLen routes) address prefixLen gateway) :
      Coordinated p address prefixLen gateway replacement
        (installServices { p with device := p.device.adopt address prefixLen routes } replacement)

theorem configureIpv4_cases
    (h : p.configureIpv4 address prefixLen gateway services = (p', .ok ())) :
    services.any (·.address.ip != address) = false ∧ ∃ replacement,
    p.validateServices services = .ok replacement ∧
    Coordinated p address prefixLen gateway replacement p' := by
  rw [configureIpv4] at h
  split at h
  case h_1 => cases h
  rename_i replacement hv
  split at h
  case isTrue => cases h
  rename_i hany
  refine ⟨eq_false_of_ne_true hany, replacement, hv, ?_⟩
  split at h
  case h_1 => cases h
  rename_i device changed hd
  have hl := configureIpv4_leased hd
  cases hl
  case renewed hp hh =>
    dsimp only at h
    split at h
    case isTrue     => cases h; exact .services ⟨_, hp, hh⟩
    case isFalse hs => cases h; exact .renewed ⟨_, hp, hh⟩ (by simpa using hs)
  case changed hp => cases h; exact .changed ⟨_, hp, holds_adopt ..⟩

theorem configureIpv4_error_eq {err : IoError}
    (h : (p.configureIpv4 address prefixLen gateway services).snd = .error err) :
    (p.configureIpv4 address prefixLen gateway services).fst = p := by
  revert h
  rw [configureIpv4]
  split
  case h_1 => exact fun _ => rfl
  split
  case isTrue => exact fun _ => rfl
  split
  case h_1 device e hd =>
    have hdev : device = p.device := by
      have heq := configureIpv4_error (e := p.device) (by rw [hd]; rfl)
      rw [hd] at heq
      exact heq
    rw [hdev]
    exact fun _ => rfl
  case h_2 =>
    dsimp only
    split
    all_goals
      intro h
      cases h

theorem replaceServices_error_eq {q : UdpPool δ} {err : IoError}
    (h : (q.replaceServices services).snd = .error err) : (q.replaceServices services).fst = q := by
  revert h
  rw [replaceServices]
  split
  case h_1 => exact fun _ => rfl
  intro h
  cases h

section

variable {replacement : TreeMap SocketAddr U32}

theorem installServices_serves (p : UdpPool δ) (replacement : TreeMap SocketAddr U32) :
    (p.installServices replacement).servesAlready replacement :=
  beq_self_eq_true _

theorem installServices_device (p : UdpPool δ) (replacement : TreeMap SocketAddr U32) :
    (p.installServices replacement).device = p.device :=
  (p.dropAll_sheds ..).device

namespace Coordinated

theorem config (h : Coordinated p address prefixLen gateway replacement p') :
    p'.config = p.config := by
  cases h
  case renewed  => rfl
  case services => exact (dropAll_sheds ..).config
  case changed  => exact (dropAll_sheds ..).config

theorem settled (h : Coordinated p address prefixLen gateway replacement p') :
    Settled p'.device address prefixLen gateway := by
  cases h
  case renewed hs _ => exact hs
  case services hs  => rw [installServices_device]; exact hs.resetLink
  case changed hs   => rw [installServices_device]; exact hs

theorem serves (h : Coordinated p address prefixLen gateway replacement p') :
    p'.servesAlready replacement := by
  cases h
  case renewed hs => exact hs
  case services   => exact installServices_serves ..
  case changed    => exact installServices_serves ..

-- The request is one of the services that are served afterwards, and the other way around.
theorem requested (h : Coordinated p address prefixLen gateway replacement p')
    (hv : p.validateServices services = .ok replacement) (a : SocketAddr) (id : U32) :
    p'.services[a]? = some id ↔ { address := a, id } ∈ services := by
  have hlist : replacement.toList = p'.services.toList := eq_of_beq h.serves
  have heq := (TreeMap.equiv_iff_toList_eq.mpr hlist).getElem?_eq (k := a)
  rw [validateServices] at hv
  split at hv
  case isTrue => cases hv
  rw [← heq, insertServices_ok hv]
  simp

theorem again (h : Coordinated p address prefixLen gateway replacement p')
    (hv : p.validateServices services = .ok replacement)
    (ha : services.any (·.address.ip != address) = false) :
    p'.configureIpv4 address prefixLen gateway services = (p', .ok ()) := by
  have hv' : p'.validateServices services = .ok replacement := by
    rw [validateServices, h.config]
    exact hv
  have hserves := h.serves
  rw [servesAlready] at hserves
  simp [configureIpv4, hv', ha, h.settled.again, servesAlready, hserves]

end Coordinated

end

-- Something that concerns queued traffic is different.
def Changed (p p' : UdpPool (EthernetIpv4 δ)) : Prop :=
  ¬Kept p.device p'.device ∨ ∃ a : SocketAddr, p'.services[a]? ≠ p.services[a]?

-- A lease that was accepted.
structure Reconfigured (p : UdpPool (EthernetIpv4 δ)) (address : Ipv4Addr) (prefixLen : Nat)
    (gateway : Option Ipv4Addr) (services : List Service) (p' : UdpPool (EthernetIpv4 δ)) :
    Prop where
  again    : p'.configureIpv4 address prefixLen gateway services = (p', .ok ())
  services : ∀ (a : SocketAddr) (id : U32), p'.services[a]? = some id ↔
    { address := a, id } ∈ services
  routes   : Routed address prefixLen gateway p'.device.routes.entries
  queue    : Changed p p' → p'.tx.queue = []
  peers    : Changed p p' → p'.peers = ∅
  adapter  : Changed p p' → Purged p'.device
  cleared  : ¬Kept p.device p'.device → p'.device.neighbors = ∅

theorem Coordinated.reconfigured {replacement : TreeMap SocketAddr U32}
    (h : Coordinated p address prefixLen gateway replacement p')
    (hv : p.validateServices services = .ok replacement)
    (ha : services.any (·.address.ip != address) = false) :
    Reconfigured p address prefixLen gateway services p' := by
  have hagain := h.again hv ha
  have hservices := h.requested hv
  have hroutes := h.settled.routed
  cases h
  case renewed =>
    have hkept : Kept p.device p.device := ⟨rfl, rfl, rfl, rfl⟩
    have hchanged : ¬Changed p p := by
      rintro (h | ⟨a, h⟩)
      · exact h hkept
      · exact h rfl
    exact {
      again    := hagain
      services := hservices
      routes   := hroutes
      queue    := (absurd · hchanged)
      peers    := (absurd · hchanged)
      adapter  := (absurd · hchanged)
      cleared  := (absurd hkept ·)
    }
  case services =>
    exact {
      again     := hagain
      services  := hservices
      routes    := hroutes
      queue _   := rfl
      peers _   := rfl
      adapter _ := by rw [installServices_device]; exact resetLink_purged _
      cleared h := by rw [installServices_device] at h; exact absurd (resetLink_kept _) h
    }
  case changed =>
    exact {
      again     := hagain
      services  := hservices
      routes    := hroutes
      queue _   := rfl
      peers _   := rfl
      adapter _ := by rw [installServices_device]; exact adopt_purged ..
      cleared _ := by rw [installServices_device]; rfl
    }

theorem configureIpv4_reconfigured
    (h : p.configureIpv4 address prefixLen gateway services = (p', .ok ())) :
    Reconfigured p address prefixLen gateway services p' :=
  have ⟨ha, _, hv, hc⟩ := configureIpv4_cases h
  hc.reconfigured hv ha

-- After the lease has expired, nothing of it is left in either layer.
theorem withdrawIpv4_purged (p : UdpPool (EthernetIpv4 δ)) :
    p.withdrawIpv4.services = ∅ ∧ p.withdrawIpv4.tx.queue = [] ∧ p.withdrawIpv4.peers = ∅ ∧
    Purged p.withdrawIpv4.device := by
  have hdevice : p.withdrawIpv4.device = p.device.withdrawIpv4 := installServices_device ..
  refine ⟨rfl, rfl, rfl, ?_⟩
  rw [hdevice]
  exact {
    pending           := rfl
    ready             := rfl
    control           := rfl
    neighbors ip _ hs := by simp [EthernetIpv4.withdrawIpv4] at hs
  }

-- A lease or a set of services is either refused as a whole or applied to both layers, and applied
-- only once.
theorem reconfiguration_atomic_idempotent (p : UdpPool (EthernetIpv4 δ)) (address : Ipv4Addr)
    (prefixLen : Nat) (gateway : Option Ipv4Addr) (services : List Service) :
    (∀ err, (p.configureIpv4 address prefixLen gateway services).snd = .error err →
      (p.configureIpv4 address prefixLen gateway services).fst = p) ∧
    (∀ err, (p.replaceServices services).snd = .error err → (p.replaceServices services).fst = p) ∧
    (∀ (e : EthernetIpv4 δ) err, (e.configureIpv4 address prefixLen gateway).snd = .error err →
      (e.configureIpv4 address prefixLen gateway).fst = e) ∧
    ∀ p', p.configureIpv4 address prefixLen gateway services = (p', .ok ()) →
      Reconfigured p address prefixLen gateway services p' :=
  ⟨fun _ => configureIpv4_error_eq, fun _ => replaceServices_error_eq,
    fun _ _ h => configureIpv4_error (by rw [h]; rfl), fun _ => configureIpv4_reconfigured⟩

def overEthernet : IoResult (UdpPool (EthernetIpv4 LoopbackDevice)) := do
  let e ← EthernetIpv4.new (.withCapacity 0 4 4) (.new 0x0a000001#32 24 0x020000000001#48) id
  withConfig e .default

theorem reconfiguration_atomic_idempotent_ethernet : ∃ p p', overEthernet = .ok p ∧
    p.configureIpv4 0x0a000002#32 24 (some 0x0a0000fe#32) [⟨⟨0x0a000002#32, 7⟩, 1⟩] = (p', .ok ()) ∧
    Reconfigured p 0x0a000002#32 24 (some 0x0a0000fe#32) [⟨⟨0x0a000002#32, 7⟩, 1⟩] p' := by
  have hok :
      overEthernet.toOption.any (fun p => (p.configureIpv4 0x0a000002#32 24 (some 0x0a0000fe#32)
      [⟨⟨0x0a000002#32, 7⟩, 1⟩]).snd.isOk) = true := by decide +kernel
  cases hp : overEthernet
  case error => rw [hp] at hok; cases hok
  case ok p =>
    rw [hp] at hok
    change (p.configureIpv4 ..).snd.isOk = true at hok
    revert hok
    rcases h : p.configureIpv4 0x0a000002#32 24 (some 0x0a0000fe#32) [⟨⟨0x0a000002#32, 7⟩, 1⟩] with
      ⟨p', err | _⟩
    case error => exact fun hok => nomatch hok
    intro _
    exact ⟨p, p', rfl, h, (reconfiguration_atomic_idempotent p _ _ _ _).right.right.right p' h⟩

-- With a prefix of no bits, the table does not contain the connected route.
theorem reconfiguration_connected_route_replaced : ∃ p p' connected, overEthernet = .ok p ∧
    p.configureIpv4 0x0a000001#32 0 (some 0x0a0000fe#32) [] = (p', .ok ()) ∧
    Route.new 0x0a000001#32 0 none = .ok connected ∧ connected ∉ p'.device.routes.entries := by
  have hok : overEthernet.toOption.any (fun p =>
      let out := p.configureIpv4 0x0a000001#32 0 (some 0x0a0000fe#32) []
      out.snd.isOk && out.fst.device.routes.entries.all (·.gateway.isSome)) =
        true := by decide +kernel
  cases hp : overEthernet
  case error => rw [hp] at hok; cases hok
  case ok p =>
    rw [hp] at hok
    change (_ && _) = true at hok
    revert hok
    rcases h : p.configureIpv4 0x0a000001#32 0 (some 0x0a0000fe#32) [] with ⟨p', err | _⟩
    case error => exact fun hok => nomatch hok
    intro hok
    refine ⟨p, p', _, rfl, h, rfl, fun hmem => ?_⟩
    have hall := List.all_eq_true.mp hok _ hmem
    cases hall

end UdpPool
