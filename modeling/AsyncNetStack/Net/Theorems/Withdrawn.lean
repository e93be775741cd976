import AsyncNetStack.Device.Recorder
import AsyncNetStack.Net.Theorems.Interface

open Fallible Std

namespace EthernetIpv4

variable {δ : Type}

-- Without a configuration nothing is queued, and nobody is waited for.
structure Withdrawn (e : EthernetIpv4 δ) : Prop where
  configured : e.configured = false
  pending    : e.pending = []
  ready      : e.ready = []
  control    : e.control = []
  static     : ∀ (ip : Ipv4Addr) (state : NeighborState),
               e.neighbors[ip]? = some state → state.isStatic = true

-- What operations do on a withdrawn interface: it stays so, and the device is offered no frame.
def Silent (e e' : EthernetIpv4 (Recorder δ)) : Prop :=
  Withdrawn e → Withdrawn e' ∧ e'.device.offered = e.device.offered

namespace Silent

variable {e e' e'' : EthernetIpv4 (Recorder δ)}

theorem refl (e : EthernetIpv4 (Recorder δ)) : Silent e e :=
  fun h => ⟨h, rfl⟩

theorem trans (h₁ : Silent e e') (h₂ : Silent e' e'') : Silent e e'' := fun h =>
  have ⟨h', ho⟩ := h₁ h
  ⟨(h₂ h').left, (h₂ h').right.trans ho⟩

theorem andThen {α β : Type} {o : EthernetIpv4 (Recorder δ) × IoResult α}
    {f : EthernetIpv4 (Recorder δ) → α → EthernetIpv4 (Recorder δ) × IoResult β}
    (h : Silent e o.fst) (hf : ∀ e' a, Silent e' (f e' a).fst) : Silent e (andThen o f).fst :=
  andThen_of h fun e' a _ h => h.trans (hf e' a)

-- Operations on fields that neither matter for the queues nor for the device.
theorem of_eq (hc : e'.configured = e.configured) (hp : e'.pending = e.pending)
    (hr : e'.ready = e.ready) (hk : e'.control = e.control) (hn : e'.neighbors = e.neighbors)
    (hd : e'.device.offered = e.device.offered) : Silent e e' := fun h =>
  ⟨⟨hc ▸ h.configured, hp ▸ h.pending, hr ▸ h.ready, hk ▸ h.control, hn ▸ h.static⟩, hd⟩

end Silent

variable {e e' : EthernetIpv4 (Recorder δ)}

variable (e)

theorem discardQueued_silent : Silent e e.discardQueued := by
  refine fun h => ⟨⟨h.configured, rfl, rfl, rfl, fun ip state hs => ?_⟩, rfl⟩
  rw [discardQueued, event, TreeMap.getElem?_filter', Option.filter_eq_some_iff] at hs
  exact h.static ip state hs.left

theorem releaseResolved_silent : Silent e e.releaseResolved := by
  intro h
  rw [releaseResolved, h.pending]
  exact ⟨h, rfl⟩

theorem submitControl_silent (n : Nat) : Silent e (e.submitControl n) := by
  intro h
  rw [submitControl]
  split
  case isTrue  => exact ⟨{ h with control := by simp [bump, event, h.control] }, rfl⟩
  case isFalse => exact ⟨{ h with control := by simp [bump, h.control] }, rfl⟩

theorem submitData_silent (n : Nat) : Silent e (e.submitData n) := by
  intro h
  rw [submitData]
  split
  case isTrue  => exact ⟨{ h with ready := by simp [bump, event, h.ready] }, rfl⟩
  case isFalse => exact ⟨{ h with ready := by simp [bump, h.ready] }, rfl⟩

variable {e}

section

variable [Device δ]

theorem ensureSpare_silent (e : EthernetIpv4 (Recorder δ)) : Silent e e.ensureSpare := by
  rw [ensureSpare]
  split
  case h_1 => exact .refl e
  case h_2 => exact .of_eq rfl rfl rfl rfl rfl rfl

-- An empty queue is not offered to the device at all.
theorem flush_silent (e : EthernetIpv4 (Recorder δ)) : Silent e e.flush.fst := by
  intro h
  have hc := submitControl_silent e 0
  rw [flush, h.control, flushFront, andThen_ok]
  dsimp only
  split
  case isTrue => exact hc h
  rw [(hc h).left.ready, List.map_nil, flushFront, andThen_ok]
  exact hc.trans (submitData_silent (e.submitControl 0) 0) h

theorem refresh_static {ip : Ipv4Addr} {state : NeighborState} (h : state.isStatic = true) :
    e.refresh ip state = e := by
  cases state
  case static => rfl
  all_goals exact absurd h Bool.false_ne_true

variable (e)

theorem runTimers_silent : Silent e (e.runTimers e.neighbors.toList) := by
  intro h
  have heq : e.runTimers e.neighbors.toList = e := by
    refine runTimers_induction (P := (· = e)) (fun e' ip state hs he => ?_) rfl
    subst he
    exact refresh_static (h.static ip state hs)
  rw [heq]
  exact ⟨h, rfl⟩

theorem advance_silent (now : Duration) : Silent e (e.advance now).fst := by
  rw [advance]
  split
  case isTrue => exact .refl e
  have hnow : Silent e { e with now } := .of_eq rfl rfl rfl rfl rfl rfl
  refine (hnow.trans (ensureSpare_silent _)).trans ?_
  exact ((runTimers_silent _).trans (releaseResolved_silent _)).trans (flush_silent _)

theorem pollAt_silent (now : Duration) : Silent e (e.pollAt now).fst :=
  Silent.andThen (.of_eq rfl rfl rfl rfl rfl rfl) fun e' _ => advance_silent e' now

-- Whatever arrives is ignored.
theorem receiveFrames_silent (frames : List PacketBuf) :
    Silent e (e.receiveFrames frames).fst ∧ (Withdrawn e → (e.receiveFrames frames).snd = []) := by
  induction frames generalizing e
  case nil => exact ⟨.refl e, fun _ => rfl⟩
  case cons frame frames ih =>
    have hi : Silent e e.ignore := .of_eq rfl rfl rfl rfl rfl rfl
    have heq (h : Withdrawn e) : e.receiveFrame frame = (e.ignore, none) := by
      simp [receiveFrame, h.configured]
    constructor
    · intro h
      rw [receiveFrames, heq h]
      exact hi.trans (ih e.ignore).left h
    · intro h
      rw [receiveFrames, heq h]
      exact (ih e.ignore).right (hi h).left

theorem dropSpare_recorder :
    e.dropSpare.offered = e.device.offered ∧ e.dropSpare.taken = e.device.taken := by
  rw [dropSpare]
  cases e.controlSpare
  case none => exact ⟨rfl, rfl⟩
  case some => exact ⟨rfl, rfl⟩

theorem recv_silent (max : Nat) : Silent e (e.recv max).fst := by
  have hadvance (e : EthernetIpv4 (Recorder δ)) (packets : List PacketBuf) :
      Silent e (Fallible.andThen (e.advance e.now) fun e _ => (e, .ok packets)).fst :=
    Silent.andThen (advance_silent e e.now) fun e' _ => .refl e'
  rw [recv]
  split
  case isTrue => exact hadvance e []
  have hdrop := (dropSpare_recorder e).left
  refine Silent.andThen (.of_eq rfl rfl rfl rfl rfl hdrop) fun e₁ frames => ?_
  exact (receiveFrames_silent e₁ frames).left.trans (hadvance _ _)

theorem alloc_silent : Silent e e.alloc.fst := by
  have h := ensureSpare_silent e
  rw [alloc]
  split
  case h_1 => exact h
  case h_2 => exact h.trans (.of_eq rfl rfl rfl rfl rfl rfl)

variable {e}

-- The received packets are those of the frames that were not ignored.
theorem recv_withdrawn (h : Withdrawn e) {max : Nat} {packets : List PacketBuf}
    (hr : (e.recv max).snd = .ok packets) : packets = [] := by
  have hadvance {e : EthernetIpv4 (Recorder δ)} {ps : List PacketBuf}
      (h : (andThen (e.advance e.now) fun e _ => (e, .ok ps)).snd = .ok packets) :
          packets = ps := by
    cases ha : e.advance e.now
    case mk e' result =>
      rw [ha] at h
      cases result
      case error => cases h
      case ok    => cases h; rfl
  rw [recv] at hr
  split at hr
  case isTrue => exact hadvance hr
  cases hd : Device.recv e.dropSpare max
  case mk device result =>
    have hw : Withdrawn { e with device, controlSpare := none } := { h with }
    simp only [hd] at hr
    cases result
    case error => cases hr
    case ok frames =>
      have hnil := (receiveFrames_silent { e with device, controlSpare := none } frames).right hw
      rw [← hnil]
      exact hadvance hr

end

theorem withdrawIpv4_withdrawn (e : EthernetIpv4 δ) : Withdrawn e.withdrawIpv4 :=
  ⟨rfl, rfl, rfl, rfl, fun ip state hs => by simp [withdrawIpv4] at hs⟩

theorem sendSlots_withdrawn {e : EthernetIpv4 δ} (h : Withdrawn e) (slots : List PacketBuf) :
    e.sendSlots slots = (e, slots,
      .error { kind := .addrNotAvailable, message := "IPv4 configuration withdrawn" }) := by
  simp [sendSlots, h.configured]

variable (e)

theorem routes_silent (routes : RouteTable) : Silent e { e with routes } :=
  .of_eq rfl rfl rfl rfl rfl rfl

theorem addRoute_silent (route : Route) : Silent e (e.addRoute route).fst := by
  rw [addRoute]
  split
  case isTrue => exact .refl e
  split
  case h_1        => exact .refl e
  case h_2 routes _ => exact (routes_silent e routes).trans (discardQueued_silent _)

theorem setGateway_silent (gateway : Ipv4Addr) : Silent e (e.setGateway gateway).fst := by
  rw [setGateway]
  split
  case h_1 => exact .refl e
  case h_2 => exact addRoute_silent e _

theorem removeRoute_silent (ip : Ipv4Addr) (len : Nat) : Silent e (e.removeRoute ip len).fst := by
  rw [removeRoute]
  split
  case h_1 => exact .refl e
  case h_2 routes removed _ =>
    cases removed
    case false => exact routes_silent e routes
    case true  => exact (routes_silent e routes).trans (discardQueued_silent _)

variable {e}

theorem neighbors_silent {ns : TreeMap Ipv4Addr NeighborState}
    (hn : Withdrawn e → ∀ (ip : Ipv4Addr) (state : NeighborState),
      ns[ip]? = some state → state.isStatic = true) :
    Silent e { e with neighbors := ns } :=
  fun h => ⟨{ h with static := hn h }, rfl⟩

variable (e)

theorem removeNeighbor_silent (ip : Ipv4Addr) : Silent e (e.removeNeighbor ip).fst := by
  rw [removeNeighbor]
  split
  case isFalse => exact .refl e
  refine (neighbors_silent fun h ip' state hs => ?_).trans (discardQueued_silent _)
  rw [TreeMap.getElem?_erase] at hs
  split at hs
  case isTrue => cases hs
  exact h.static ip' state hs

theorem resetLink_silent : Silent e e.resetLink := by
  refine (discardQueued_silent e).trans (neighbors_silent fun h ip state hs => ?_)
  rw [TreeMap.getElem?_filter', Option.filter_eq_some_iff] at hs
  exact h.static ip state hs.left

theorem install_static_silent (ip : Ipv4Addr) (mac : Mac) (ev : InterfaceEvent) :
    Silent e
      (event { e.cancelProbes ip with neighbors := e.neighbors.insert ip (.static mac) } ev) := by
  refine fun h => ⟨{ h with control := ?_, static := fun ip' state hs => ?_ }, rfl⟩
  · simp [event, cancelProbes, h.control]
  · rw [event, TreeMap.getElem?_insert] at hs
    split at hs
    case isTrue  => cases hs; rfl
    case isFalse => exact h.static ip' state hs

theorem addStaticNeighbor_silent (ip : Ipv4Addr) (mac : Mac) :
    Silent e (e.addStaticNeighbor ip mac).fst := by
  rw [addStaticNeighbor]
  split
  case isTrue => exact .refl e
  split
  case isTrue => exact .refl e
  have hd : Silent e (if e.neighbors[ip]?.any (changesMac mac) then e.discardQueued else e) := by
    split
    case isTrue  => exact discardQueued_silent e
    case isFalse => exact .refl e
  exact (hd.trans (install_static_silent _ ip mac _)).trans (releaseResolved_silent _)

theorem configureIpv4_error {e : EthernetIpv4 δ} {ip : Ipv4Addr} {len : Nat}
    {gateway : Option Ipv4Addr} (h : (e.configureIpv4 ip len gateway).snd.isOk = false) :
    (e.configureIpv4 ip len gateway).fst = e := by
  revert h
  rw [configureIpv4]
  repeat' split
  all_goals intro h
  all_goals first | rfl | cases h

-- The interface is not configured again, and the application does not use the device on its own.
def Op.Unconfigured : Op (Recorder δ) → Prop
  | .configureIpv4 ip len gateway => (e.configureIpv4 ip len gateway).snd.isOk = false
  | .deviceMut f                  => ∀ d, (f d).offered = d.offered
  | _                             => True

variable {e}

theorem step_silent [Device δ] {op : Op (Recorder δ)} (hop : op.Unconfigured e) :
    Silent e (e.step op) := by
  cases op
  case send frames =>
    intro h
    rw [step, send, sendSlots_withdrawn h]
    exact ⟨h, rfl⟩
  case configureIpv4 ip len gateway =>
    rw [step, configureIpv4_error hop]
    exact .refl e
  case recv max               => exact recv_silent e max
  case advance now            => exact advance_silent e now
  case pollAt now             => exact pollAt_silent e now
  case addRoute route         => exact addRoute_silent e route
  case setGateway gateway     => exact setGateway_silent e gateway
  case removeRoute ip len     => exact removeRoute_silent e ip len
  case addStaticNeighbor ip m => exact addStaticNeighbor_silent e ip m
  case removeNeighbor ip      => exact removeNeighbor_silent e ip
  case resetLink              => exact resetLink_silent e
  case withdrawIpv4           => exact fun _ => ⟨withdrawIpv4_withdrawn e, rfl⟩
  case alloc                  => exact alloc_silent e
  case popEvent               => exact .of_eq rfl rfl rfl rfl rfl rfl
  case deviceMut f            => exact .of_eq rfl rfl rfl rfl rfl (hop e.device)

-- Whatever happened to the adapter before, from its withdrawal until it is configured again it
-- hands no frame to the device, delivers no packet and accepts none.
theorem withdrawn_silent [Device δ] (e : EthernetIpv4 (Recorder δ)) {e' : EthernetIpv4 (Recorder δ)}
    (h : Transition.Reachable step Op.Unconfigured e.withdrawIpv4 e') :
    e'.device.offered = e.device.offered ∧
    (∀ max packets, (e'.recv max).snd = .ok packets → packets = []) ∧
    ∀ slots, ∃ err, e'.sendSlots slots = (e', slots, .error err) := by
  have hi : Withdrawn e' ∧ e'.device.offered = e.device.offered := by
    refine h.induction (P := fun t => Withdrawn t ∧ t.device.offered = e.device.offered)
      ⟨withdrawIpv4_withdrawn e, rfl⟩ fun t op hop ⟨hw, ho⟩ => ?_
    have ⟨hw', ho'⟩ := step_silent hop hw
    exact ⟨hw', ho'.trans ho⟩
  have ⟨hw, ho⟩ := hi
  exact ⟨ho, fun _ _ hr => recv_withdrawn hw hr, fun slots => ⟨_, sendSlots_withdrawn hw slots⟩⟩

-- An adapter whose device is observed.
def overRecorder : IoResult (EthernetIpv4 (Recorder LoopbackDevice)) :=
  new { device := .withCapacity 0 4 4 } (.new 0x0a000001#32 24 0x020000000001#48) id

theorem withdrawn_silent_recorder : ∃ e, overRecorder = .ok e ∧
    let e' := Transition.exec step e.withdrawIpv4
      [.addStaticNeighbor 0x0a000002#32 2#48, .advance (.fromSecs 1), .recv 8]
    e'.device.offered = e.device.offered ∧
    (∀ max packets, (e'.recv max).snd = .ok packets → packets = []) ∧
    ∀ slots, ∃ err, e'.sendSlots slots = (e', slots, .error err) := by
  have hok : overRecorder.isOk = true := by decide +kernel
  cases h : overRecorder
  case error => rw [h] at hok; cases hok
  case ok e =>
    refine ⟨e, rfl, withdrawn_silent e (Transition.reachable_exec ?_)⟩
    simp [Op.Unconfigured]

end EthernetIpv4
