import AsyncNetStack.Device.Theorems.Loopback
import AsyncNetStack.Net.Theorems.Ethernet
import AsyncNetStack.Net.Theorems.Interface
import AsyncNetStack.Simulation.Network
import AsyncNetStack.Xdp.Theorems.Custody

open List

namespace Simulation
namespace Network

variable {s s' : Network} {source : Nat}

-- The fabric consumes frames one after the other. It can find the receiver of a further frame
-- congested.
inductive Consumes (source : Nat) : Network → List PacketBuf → Network → Prop
  | done {s : Network} : Consumes source s [] s
  | congested {s s' : Network} {frame : PacketBuf} :
      s.transmit source frame = .congested s' → Consumes source s [] s'
  | frame {s s₁ s₂ : Network} {frame : PacketBuf} {frames : List PacketBuf} :
      s.transmit source frame = .accepted s₁ → Consumes source s₁ frames s₂ →
      Consumes source s (frame :: frames) s₂

theorem transmitAll_error {slots slots' : List PacketBuf} {k : Nat} {err : IoError}
    (h : s.transmitAll source k slots = (s', slots', .error err)) :
    k = 0 ∧ s' = s ∧ slots' = slots := by
  induction slots generalizing s k slots'
  case nil => cases h
  case cons slot slots ih =>
    rw [transmitAll] at h
    cases ht : s.transmit source slot
    all_goals rw [ht] at h
    case congested => cases h
    case invalid =>
      dsimp only at h
      split at h
      case isTrue => cases h
      rename_i hk
      cases h
      exact ⟨not_not.mp hk, rfl, rfl⟩
    case accepted s₁ =>
      dsimp only at h
      generalize hr : s₁.transmitAll source (k + 1) slots = r at h
      have ⟨s₂, rest, result⟩ := r
      cases h
      cases (ih hr).left

theorem transmitAll_ok {slots slots' : List PacketBuf} {k n : Nat}
    (h : s.transmitAll source k slots = (s', slots', .ok n)) :
    ∃ m, n = k + m ∧ m ≤ slots.length ∧ slots' = List.replicate m .default ++ slots.drop m ∧
      Consumes source s (slots.take m) s' := by
  induction slots generalizing s k slots'
  case nil =>
    cases h
    exact ⟨0, rfl, Nat.le_refl _, rfl, .done⟩
  case cons slot slots ih =>
    rw [transmitAll] at h
    cases ht : s.transmit source slot
    all_goals rw [ht] at h
    case congested =>
      cases h
      exact ⟨0, rfl, Nat.zero_le _, rfl, .congested ht⟩
    case invalid =>
      dsimp only at h
      split at h
      case isFalse => cases h
      cases h
      exact ⟨0, rfl, Nat.zero_le _, rfl, .done⟩
    case accepted s₁ =>
      dsimp only at h
      generalize hr : s₁.transmitAll source (k + 1) slots = r at h
      have ⟨s₂, rest, result⟩ := r
      cases h
      have ⟨m, hn, hm, hs, hc⟩ := ih hr
      refine ⟨m + 1, by omega, Nat.succ_le_succ hm, ?_, .frame ht hc⟩
      rw [hs, replicate_succ, drop_succ_cons, cons_append]

theorem sendSlots_error {id : Nat} {slots slots' : List PacketBuf} {err : IoError}
    (h : s.sendSlots id slots = (s', slots', .error err)) : s' = s ∧ slots' = slots := by
  rw [sendSlots] at h
  split at h
  case isTrue => cases h
  split at h
  case isTrue =>
    cases h
    exact ⟨rfl, rfl⟩
  case isFalse => exact (transmitAll_error h).right

theorem sendSlots_ok {id n : Nat} {slots slots' : List PacketBuf}
    (h : s.sendSlots id slots = (s', slots', .ok n)) :
    n ≤ slots.length ∧ slots' = List.replicate n .default ++ slots.drop n ∧
      Consumes id s (slots.take n) s' := by
  rw [sendSlots] at h
  split at h
  case isTrue =>
    cases h
    exact ⟨Nat.zero_le _, rfl, .done⟩
  split at h
  case isTrue => cases h
  have ⟨m, hn, hrest⟩ := transmitAll_ok h
  rw [Nat.zero_add] at hn
  exact hn ▸ hrest

end Network

namespace SimDevice

-- A fabric consumes the accepted frames, and no one else notices a batch that is refused.
theorem contract : Device.Contract sendSlots (fun _ => True)
    (fun d frames d' => d'.id = d.id ∧ Network.Consumes d.id d.network frames d'.network)
    (fun d d' => d' = d) := by
  have howned (d : SimDevice) (slots : List PacketBuf) :
      PrefixOwned slots (d.sendSlots slots).snd := by
    rw [sendSlots]
    generalize hs : d.network.sendSlots d.id slots = r
    obtain ⟨s', slots', err | n⟩ := r
    · rw [(Network.sendSlots_error hs).right]
      exact .error err
    · have ⟨hn, hslots, _⟩ := Network.sendSlots_ok hs
      rw [hslots]
      exact .ok hn
  constructor
  case owned  => exact howned
  case replay => exact Device.retry_append howned
  case takes =>
    intro d d' slots slots' n _ h
    rw [sendSlots] at h
    generalize hs : d.network.sendSlots d.id slots = r at h
    have ⟨s', slots'', result⟩ := r
    cases h
    exact ⟨rfl, (Network.sendSlots_ok hs).right.right⟩
  case keeps =>
    intro d d' slots slots' err _ h
    rw [sendSlots] at h
    generalize hs : d.network.sendSlots d.id slots = r at h
    have ⟨s', slots'', result⟩ := r
    cases h
    rw [(Network.sendSlots_error hs).left]

end SimDevice
end Simulation

namespace EthernetIpv4

variable {δ : Type} {e e' e'' : EthernetIpv4 δ}
variable {slot : PacketBuf} {serial : Nat} {slots : List PacketBuf}

-- Which frame a buffer is a handle to.
def owner (buf : PacketBuf) : Option PoolId × Nat :=
  (buf.pool, buf.idx)

-- The frames in both queues of data.
def held (e : EthernetIpv4 δ) : List (Option PoolId × Nat) :=
  e.pending.map (fun p => owner p.frame.frame) ++ e.ready.map (fun r => owner r.frame)

-- Frames go to the ends of the queues, and nothing else is lost or changed on the way.
structure Took (e : EthernetIpv4 δ) (frames : List PacketBuf) (e' : EthernetIpv4 δ) : Prop where
  held    : e'.held.Perm (e.held ++ frames.map owner)
  pending : e.pending <+: e'.pending
  ready   : e.ready <+: e'.ready
  routes  : e'.routes = e.routes
  config  : e'.config = e.config
  stats   : e'.stats = e.stats
  device  : e'.device = e.device

namespace Took

theorem refl (e : EthernetIpv4 δ) : Took e [] e where
  held    := by rw [map_nil, append_nil]
  pending := prefix_rfl
  ready   := prefix_rfl
  routes  := rfl
  config  := rfl
  stats   := rfl
  device  := rfl

theorem trans {frames frames' : List PacketBuf} (h₁ : Took e frames e') (h₂ : Took e' frames' e'') :
    Took e (frames ++ frames') e'' where
  held    := by
    rw [map_append, ← append_assoc]
    exact h₂.held.trans (h₁.held.append_right _)
  pending := h₁.pending.trans h₂.pending
  ready   := h₁.ready.trans h₂.ready
  routes  := h₂.routes.trans h₁.routes
  config  := h₂.config.trans h₁.config
  stats   := h₂.stats.trans h₁.stats
  device  := h₂.device.trans h₁.device

end Took

theorem owner_prepend (f : Ethernet.Roomy) (source destination : Mac) (kind : U16) :
    owner (Ethernet.prepend f source destination kind) = owner f.frame := by
  rw [Ethernet.prepend]
  split <;> rfl

theorem took_ready {r : Ready} (h : owner r.frame = owner slot) :
    Took e [slot] { e with ready := e.ready ++ [r] } where
  held    := by
    rw [held, map_append, map_singleton, map_singleton, h, ← append_assoc]
    rfl
  pending := prefix_rfl
  ready   := prefix_append ..
  routes  := rfl
  config  := rfl
  stats   := rfl
  device  := rfl

theorem took_pending {p : Pending} (h : owner p.frame.frame = owner slot) :
    Took e [slot] { e with pending := e.pending ++ [p] } where
  held    := by
    rw [held, map_append, map_singleton, map_singleton, h, held, append_assoc,
      append_assoc]
    exact perm_append_comm.append_left _
  pending := prefix_append ..
  ready   := prefix_rfl
  routes  := rfl
  config  := rfl
  stats   := rfl
  device  := rfl

theorem resolve_took (e : EthernetIpv4 δ) (ip : Ipv4Addr) : Took e [] (e.resolve ip) := by
  rw [resolve]
  split
  case isTrue  => exact .refl e
  case isFalse => exact { Took.refl e with }

theorem acceptUnicast_took {frame : Ethernet.Roomy}
    {destination : Ipv4Addr} {route : Route} (hf : frame.frame = slot)
    (h : e.acceptUnicast serial frame destination route = .taken e') : Took e [slot] e' := by
  rw [acceptUnicast] at h
  dsimp only at h
  split at h
  case h_1 mac _ =>
    cases h
    have hr :=
      took_ready (e := e.event (.routeSelected destination (route.nextHop destination) route))
      (r := (e.event (.routeSelected destination (route.nextHop destination) route)).frameFor mac
        ⟨route.nextHop destination, frame, serial⟩)
      ((owner_prepend ..).trans (congrArg owner hf))
    exact { hr with }
  case h_2 =>
    split at h
    case isTrue => cases h
    cases h
    have hp := (resolve_took e (route.nextHop destination)).trans
      (took_pending (p := ⟨route.nextHop destination, frame, serial⟩) (congrArg owner hf))
    exact { hp with }

theorem accept_took (h : e.accept serial slot = .taken e') : Took e [slot] e' := by
  rw [accept] at h
  split at h
  case h_2 => cases h
  rename_i destination frame _ hframe
  have hf := Ethernet.roomy_frame hframe
  split at h
  case isTrue =>
    cases h
    exact took_ready ((owner_prepend ..).trans (congrArg owner hf))
  split at h
  case h_1 => cases h
  exact acceptUnicast_took hf h

-- The loop over the validated packets takes a prefix of them.
theorem acceptAll_took (e : EthernetIpv4 δ) (k : Nat) (slots : List PacketBuf) :
    ∃ m, (e.acceptAll k slots).snd.snd = k + m ∧ m ≤ slots.length ∧
      (e.acceptAll k slots).snd.fst = List.replicate m .default ++ slots.drop m ∧
      Took e (slots.take m) (e.acceptAll k slots).fst := by
  induction slots generalizing e k
  case nil => exact ⟨0, rfl, Nat.le_refl _, rfl, .refl e⟩
  case cons slot slots ih =>
    rw [acceptAll]
    split
    case h_2 => exact ⟨0, rfl, Nat.zero_le _, rfl, .refl e⟩
    case h_1 e₁ heq =>
      obtain ⟨m, hn, hm, hs, ht⟩ := ih e₁ (k + 1)
      dsimp only
      refine ⟨m + 1, hn.trans (by omega), Nat.succ_le_succ hm, ?_, (accept_took heq).trans ht⟩
      rw [hs, replicate_succ, drop_succ_cons, cons_append]

-- What the second pass relies on: the destination can be read, there is room for a header, and
-- there is a route unless the packet is a broadcast.
def Routable (e : EthernetIpv4 δ) (slot : PacketBuf) : Prop :=
  ∃ destination frame, destinationOf slot.asSlice = some destination ∧
    Ethernet.roomy? slot = some frame ∧
    (e.broadcast destination = true ∨ (e.routes.lookup destination).isSome)

theorem destinationOf_ipv4 {bytes : List U8} {source destination : Ipv4Addr} {total : Nat}
    (h : ipv4 bytes = some (source, destination, total)) :
    destinationOf bytes = some destination := by
  unfold ipv4 at h
  split at h
  case h_2 => cases h
  dsimp only at h
  split at h
  case isTrue => cases h
  split at h
  case isTrue => cases h
  cases h
  rfl

theorem validate_routable (h : e.validate slot = (e, .ok ())) : Routable e slot := by
  rw [validate] at h
  split at h
  case h_1 => cases h
  rename_i source destination total hip
  dsimp only at h
  split at h
  case isTrue => cases h
  split at h
  case h_1 => cases h
  rename_i frame hroom
  refine ⟨destination, frame, destinationOf_ipv4 hip, hroom, ?_⟩
  split at h
  case isTrue hb => exact .inl hb
  split at h
  case h_1 => cases congrArg Prod.snd h
  case h_2 route hroute => exact .inr (by rw [hroute]; rfl)

theorem Routable.congr (h : Routable e slot) (hr : e'.routes = e.routes)
    (hc : e'.config = e.config) : Routable e' slot := by
  have ⟨destination, frame, hd, hf, hb⟩ := h
  refine ⟨destination, frame, hd, hf, ?_⟩
  rw [broadcast, hr, hc]
  exact hb

-- Whether a call to `unwrap` or an assertion fails in the second pass.
def panics (e : EthernetIpv4 δ) (accepted : Nat) : List PacketBuf → Bool
  | []            => false
  | slot :: slots =>
    match e.accept (e.stats.acceptedIp + accepted) slot with
    | .taken e => e.panics (accepted + 1) slots
    | .full    => false
    | .panic   => true

theorem accept_no_panic (h : Routable e slot) : e.accept serial slot ≠ .panic := by
  have ⟨destination, frame, hd, hf, hb⟩ := h
  rw [accept, hd, hf]
  dsimp only
  split
  case isTrue => exact nofun
  rename_i hnb
  cases hb
  case inl hb => exact absurd hb hnb
  case inr hs =>
    have ⟨route, hroute⟩ := Option.isSome_iff_exists.mp hs
    rw [hroute]
    dsimp only
    rw [acceptUnicast]
    dsimp only
    split
    case h_1 => exact nofun
    case h_2 => split <;> exact nofun

theorem not_panics (h : ∀ slot ∈ slots, Routable e slot) (k : Nat) : e.panics k slots = false := by
  induction slots generalizing e k
  case nil => rfl
  case cons slot slots ih =>
    have ⟨hslot, hslots⟩ := forall_mem_cons.mp h
    rw [panics]
    cases ha : e.accept (e.stats.acceptedIp + k) slot
    case full  => rfl
    case panic => exact absurd ha (accept_no_panic hslot)
    case taken e' =>
      have ht := accept_took ha
      exact ih (fun s hm => (hslots s hm).congr ht.routes ht.config) (k + 1)

-- Refused packets only leave a trace in the statistics and events.
theorem validate_error {result : IoResult Unit} (h : e.validate slot = (e', result)) :
    e' = { e with stats := e'.stats, events := e'.events } := by
  unfold validate at h
  dsimp only at h
  repeat' split at h
  all_goals cases h
  all_goals rfl

theorem validateAll_error {result : IoResult Unit} (h : e.validateAll slots = (e', result)) :
    e' = { e with stats := e'.stats, events := e'.events } := by
  induction slots generalizing e
  case nil =>
    cases h
    rfl
  case cons slot slots ih =>
    rw [validateAll] at h
    generalize hv : e.validate slot = r at h
    obtain ⟨e₁, err | _⟩ := r
    · cases h
      exact validate_error hv
    · obtain rfl := validate_ok hv
      exact ih h

-- What a call that accepts frames does to the interface, apart from events and other statistics.
structure Accepted (e : EthernetIpv4 δ) (frames : List PacketBuf) (e' : EthernetIpv4 δ) : Prop where
  held    : e'.held.Perm (e.held ++ frames.map owner)
  pending : e.pending <+: e'.pending
  ready   : e.ready <+: e'.ready
  routes  : e'.routes = e.routes
  count   : e'.stats.acceptedIp = e.stats.acceptedIp + frames.length

theorem sendSlots_error {slots' : List PacketBuf} {err : IoError}
    (h : e.sendSlots slots = (e', slots', .error err)) :
    slots' = slots ∧ e' = { e with stats := e'.stats, events := e'.events } := by
  rw [sendSlots] at h
  split at h
  case isTrue =>
    cases h
    exact ⟨rfl, rfl⟩
  dsimp only at h
  split at h
  case h_2 => cases h
  rename_i hv
  cases h
  exact ⟨rfl, validateAll_error hv⟩

theorem sendSlots_ok {slots' : List PacketBuf} {n : Nat}
    (h : e.sendSlots slots = (e', slots', .ok n)) :
    n ≤ slots.length ∧ slots' = List.replicate n .default ++ slots.drop n ∧
      Accepted e (slots.take n) e' := by
  rw [sendSlots] at h
  split at h
  case isTrue => cases h
  dsimp only at h
  generalize hlimit : min (e.config.txCapacity - e.pending.length - e.ready.length) slots.length =
    limit at h
  split at h
  case h_1 => cases h
  rename_i e₁ hv
  obtain rfl := (validateAll_ok hv).left
  have ⟨m, hn, hm, hs, ht⟩ := acceptAll_took e₁ 0 (slots.take limit)
  rw [Nat.zero_add] at hn
  have hle : m ≤ limit := by
    rw [length_take] at hm
    omega
  have hlen : m ≤ slots.length := by omega
  have htake : (slots.take limit).take m = slots.take m := by
    rw [take_take, Nat.min_eq_left hle]
  have hslots : (slots.take limit).drop m ++ slots.drop limit = slots.drop m := by
    have hdrop : slots.drop limit = (slots.drop m).drop (limit - m) := by
      rw [drop_drop, Nat.add_sub_cancel' hle]
    rw [drop_take, hdrop, take_append_drop]
  rw [htake] at ht
  rw [hs, hn, append_assoc, hslots] at h
  generalize (e₁.acceptAll 0 (slots.take limit)).fst = e₂ at h ht
  cases h
  refine ⟨hlen, rfl, ?_⟩
  split
  all_goals
    exact {
      held    := ht.held
      pending := ht.pending
      ready   := ht.ready
      routes  := ht.routes
      count   := by
        rw [length_take, Nat.min_eq_left hlen, ← ht.stats]
        rfl }

theorem sendSlots_owned (e : EthernetIpv4 δ) (slots : List PacketBuf) :
    PrefixOwned slots (e.sendSlots slots).snd := by
  generalize hs : e.sendSlots slots = r
  obtain ⟨e', slots', err | n⟩ := r
  · rw [(sendSlots_error hs).left]
    exact .error err
  · have ⟨hn, hslots, _⟩ := sendSlots_ok hs
    rw [hslots]
    exact .ok hn

theorem contract : Device.Contract (sendSlots (δ := δ)) (fun _ => True) Accepted
    (fun e e' => e' = { e with stats := e'.stats, events := e'.events }) where
  owned      := sendSlots_owned
  takes _ hs := (sendSlots_ok hs).right.right
  keeps _ hs := (sendSlots_error hs).right
  replay     := Device.retry_append sendSlots_owned

-- Everything that the second pass unwraps is there, since the whole batch was validated before.
theorem second_pass_no_panic (h : e.validateAll slots = (e', .ok ())) :
    e'.panics 0 slots = false := by
  have ⟨heq, hv⟩ := validateAll_ok h
  rw [heq]
  exact not_panics (fun slot hm => validate_routable (hv slot hm)) 0

end EthernetIpv4

namespace Xdp
namespace XdpDevice

variable {d d' d'' : XdpDevice}

-- Frames are submitted: the TX ring gets one descriptor for each of them, and their frames are with
-- the kernel. No other frame is given to the kernel for TX.
structure Submits (d : XdpDevice) (frames : List PacketBuf) (d' : XdpDevice) : Prop where
  producer  : d'.xsk.tx.cachedProducer = d.xsk.tx.cachedProducer + .ofNat 32 frames.length
  published : frames = [] → d'.xsk.tx.ring.producer = d.xsk.tx.ring.producer
  submitted : d'.counters.txSubmitted = d.counters.txSubmitted + frames.length
  states    : d'.state.length = d.state.length
  given     : ∀ buf ∈ frames, buf.idx < d.state.length → d'.state[buf.idx]? = some .txKernel
  only      : ∀ idx, d'.state[idx]? = some .txKernel → d.state[idx]? = some .txKernel ∨
    idx ∈ frames.map (·.idx)

theorem Submits.of_idle {frames : List PacketBuf} (h₁ : Submits d [] d')
    (h₂ : Submits d' frames d'') : Submits d frames d'' where
  producer       := by
    rw [h₂.producer, h₁.producer]
    exact congrArg (· + _) (BitVec.add_zero _)
  published hf   := (h₂.published hf).trans (h₁.published rfl)
  submitted      := by
    rw [h₂.submitted, h₁.submitted]
    rfl
  states         := h₂.states.trans h₁.states
  given buf hm h := h₂.given buf hm (h₁.states ▸ h)
  only idx h     := by
    cases h₂.only idx h
    case inr hm => exact .inr hm
    case inl h =>
      cases h₁.only idx h
      case inl h  => exact .inl h
      case inr hm => cases hm

variable (d)

theorem Submits.refl : Submits d [] d where
  producer       := (BitVec.add_zero _).symm
  published _    := rfl
  submitted      := rfl
  states         := rfl
  given _ hm _   := nomatch hm
  only _ h       := .inl h

-- Reaping completions submits nothing.
theorem reap_idle (addrs : List U64) : Submits d [] (d.reap addrs).fst := by
  induction addrs generalizing d
  case nil => exact .refl d
  case cons addr addrs ih =>
    rw [reap]
    dsimp only
    split
    case isTrue => exact { ih d.invalidDescriptor with }
    have hset : Submits d [] { d with state := d.state.set (d.frameOf addr) .free } := {
      Submits.refl d with
      states := length_set
      given  := fun _ hm => absurd hm not_mem_nil
      only   := by
        intro idx h
        dsimp only at h
        rw [List.getElem?_set] at h
        split at h
        case isTrue =>
          split at h
          all_goals cases h
        case isFalse => exact .inl h }
    exact hset.of_idle (ih _)

theorem drainCq_idle : Submits d [] d.drainCq.fst := by
  rw [drainCq]
  dsimp only
  generalize d.observe.umem.cqPop d.observe.cfg.batchSize = pop
  have hobs : Submits d [] { d.observe with umem := pop.fst } := { Submits.refl d with }
  have hreap := hobs.of_idle (reap_idle _ pop.snd)
  generalize XdpDevice.reap { d.observe with umem := pop.fst } pop.snd = r at hreap ⊢
  exact { hreap with }

theorem reserve_idle (count : Nat) : Submits d [] (d.reserve count).fst := by
  have hd := drainCq_idle d
  have htx (p : Producer (U64 × U32)) (n : Nat) :
      (p.freeSlots n).fst.cachedProducer = p.cachedProducer ∧
      (p.freeSlots n).fst.ring = p.ring := by
    rw [Producer.freeSlots]
    split <;> exact ⟨rfl, rfl⟩
  have hslots := htx d.drainCq.fst.observe.xsk.tx (min count d.drainCq.fst.cfg.batchSize)
  exact {
    producer    := hslots.left.trans hd.producer
    published _ := (congrArg Ring.producer hslots.right).trans (hd.published rfl)
    submitted   := hd.submitted
    states      := hd.states
    given       := hd.given
    only        := hd.only }

-- The states after a batch was submitted.
theorem submits_state (frames : List PacketBuf) (idx : Nat) :
    (frames.foldl submit d).state[idx]? =
      if idx ∈ frames.map (·.idx) ∧ idx < d.state.length then some .txKernel
        else d.state[idx]? := by
  induction frames generalizing d
  case nil => simp
  case cons buf frames ih =>
    have hset : (d.submit buf).state = d.state.set buf.idx .txKernel := rfl
    rw [foldl_cons, ih, hset, length_set, List.getElem?_set]
    by_cases hidx : buf.idx = idx
    · by_cases hlt : idx < d.state.length <;> simp [hidx, hlt]
    · simp [hidx, Ne.symm hidx]

theorem submits_rest (frames : List PacketBuf) :
    (frames.foldl submit d).xsk = d.xsk ∧ (frames.foldl submit d).counters = d.counters ∧
      (frames.foldl submit d).state.length = d.state.length := by
  induction frames generalizing d
  case nil => exact ⟨rfl, rfl, rfl⟩
  case cons buf frames ih =>
    have ⟨hx, hc, hl⟩ := ih (d.submit buf)
    exact ⟨hx, hc, hl.trans length_set⟩

variable {d}

theorem transmit_submits {frames : List PacketBuf} (hf : frames.length ≤ d.xsk.tx.free) :
    Submits d frames (d.transmit frames) := by
  have ⟨hx, hc, hl⟩ := submits_rest d frames
  have hs := submits_state d frames
  have hpush (p : Producer (U64 × U32)) (h : frames.length ≤ p.free) :
      (p.push (frames.map d.describe)).fst.cachedProducer = p.cachedProducer +
      .ofNat 32 frames.length := by
    rw [← length_map (f := d.describe)] at h ⊢
    rw [Producer.push_cachedProducer, Producer.push_of_le h]
  rw [transmit]
  generalize frames.foldl submit d = d₁ at hx hc hl hs ⊢
  have hfree : d₁.observe.xsk.tx.free = d.xsk.tx.free := congrArg (·.tx.free) hx
  have hproducer := hpush d₁.observe.xsk.tx (hfree ▸ hf)
  exact {
    producer    := hproducer.trans (congrArg (·.tx.cachedProducer + _) hx)
    published h := by
      subst h
      exact (Producer.push_nil d₁.observe.xsk.tx).trans (congrArg (·.tx.ring.producer) hx)
    submitted   := congrArg (·.txSubmitted + _) hc
    states      := hl
    given       := by
      intro buf hm hlt
      exact (hs buf.idx).trans (if_pos ⟨mem_map_of_mem hm, hlt⟩)
    only        := by
      intro idx h
      have h := (hs idx).symm.trans h
      split at h
      case isTrue hm => exact .inr hm.left
      case isFalse   => exact .inl h }

theorem sendSlots_error {slots slots' : List PacketBuf} {err : IoError}
    (h : d.sendSlots slots = (d', slots', .error err)) : Submits d [] d' := by
  have hr := reserve_idle d slots.length
  rw [sendSlots] at h
  dsimp only at h
  split at h
  case isFalse => cases h
  cases h
  exact hr

theorem sendSlots_ok {slots slots' : List PacketBuf} {n : Nat}
    (h : d.sendSlots slots = (d', slots', .ok n)) : Submits d (slots.take n) d' := by
  have hr := reserve_idle d slots.length
  have hfree := reserve_free d slots.length
  rw [sendSlots] at h
  dsimp only at h
  split at h
  case isTrue => cases h
  cases h
  apply hr.of_idle
  apply transmit_submits
  rw [length_take]
  omega

theorem contract :
    Device.Contract sendSlots (fun _ => True) Submits (fun d d' => Submits d [] d') where
  owned      := sendSlots_owned
  takes _ hs := sendSlots_ok hs
  keeps _ hs := sendSlots_error hs
  replay     := Device.retry_append sendSlots_owned

end XdpDevice
end Xdp

-- All devices honour the contract of `send`, and the network interface also unwraps nothing in its
-- second pass that is not there.
theorem send_contract {δ : Type} :
    Device.Contract LoopbackDevice.sendSlots LoopbackDevice.Reachable
      (fun d frames d' => d'.queued = d.queued ++ frames.map (·.asSlice)) (fun d d' => d' = d) ∧
    Device.Contract Simulation.SimDevice.sendSlots (fun _ => True)
      (fun d frames d' => d'.id = d.id ∧
        Simulation.Network.Consumes d.id d.network frames d'.network)
      (fun d d' => d' = d) ∧
    Device.Contract (EthernetIpv4.sendSlots (δ := δ)) (fun _ => True) EthernetIpv4.Accepted
      (fun e e' => e' = { e with stats := e'.stats, events := e'.events }) ∧
    (∀ {e e' : EthernetIpv4 δ} {slots : List PacketBuf},
      e.validateAll slots = (e', .ok ()) → e'.panics 0 slots = false) ∧
    Device.Contract Xdp.XdpDevice.sendSlots (fun _ => True) Xdp.XdpDevice.Submits
      (fun d d' => Xdp.XdpDevice.Submits d [] d') :=
  ⟨LoopbackDevice.contract, Simulation.SimDevice.contract, EthernetIpv4.contract,
    EthernetIpv4.second_pass_no_panic, Xdp.XdpDevice.contract⟩
