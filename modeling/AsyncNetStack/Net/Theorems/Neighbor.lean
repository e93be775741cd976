import AsyncNetStack.Net.Theorems.Interface

open Fallible Relay Std List

namespace EthernetIpv4

variable {δ : Type} {e e' e'' : EthernetIpv4 δ} {ip : Ipv4Addr} {n : Nat}
variable {state : NeighborState} {config : InterfaceConfig}

def Resolving (e : EthernetIpv4 δ) (ip : Ipv4Addr) : Prop :=
  e.neighbors[ip]?.any (·.isResolving) = true

-- All packets that wait do so for a resolution that is under way.
def Covered (e : EthernetIpv4 δ) : Prop :=
  ∀ p ∈ e.pending, e.Resolving p.nextHop

-- While frames are received, some packets also wait for the end of the call, which releases them.
def Attended (e : EthernetIpv4 δ) : Prop :=
  ∀ p ∈ e.pending, e.Resolving p.nextHop ∨ (e.resolved p.nextHop).isSome = true

theorem Resolving.not_resolved (h : e.Resolving ip) : e.resolved ip = none := by
  rw [Resolving] at h
  rw [resolved]
  cases hs : e.neighbors[ip]?
  case none => rfl
  case some state =>
    rw [hs] at h
    cases state
    case resolving => rfl
    all_goals exact absurd h Bool.false_ne_true

theorem Resolving.exists_state (h : e.Resolving ip) :
    ∃ attempts nextProbe expires,
      e.neighbors[ip]? = some (.resolving attempts nextProbe expires) := by
  rw [Resolving] at h
  cases hs : e.neighbors[ip]?
  case none => simp [hs] at h
  case some state =>
    rw [hs] at h
    cases state
    case resolving attempts nextProbe expires => exact ⟨attempts, nextProbe, expires, rfl⟩
    all_goals exact absurd h Bool.false_ne_true

theorem Covered.of_nil (h : e.pending = []) : Covered e := by
  simp [Covered, h]

theorem Covered.attended (h : Covered e) : Attended e :=
  fun p hp => .inl (h p hp)

theorem Covered.of_eq (h : Covered e) (hp : e'.pending ⊆ e.pending)
    (hn : e'.neighbors = e.neighbors) : Covered e' := by
  intro p hp'
  rw [Resolving, hn]
  exact h p (hp hp')

theorem Aside.covered (ha : Aside e e') (h : Covered e) : Covered e' :=
  h.of_eq (by rw [ha.pending]; exact List.Subset.refl _) ha.neighbors

theorem Aside.attended (ha : Aside e e') (h : Attended e) : Attended e' := by
  intro p hp
  rw [Resolving, ha.neighbors, ha.resolved]
  exact h p (ha.pending ▸ hp)

-- Only the packets for one next hop are affected by a change to its entry.
theorem Attended.of_other (h : Attended e) (ip : Ipv4Addr) (hp : e'.pending ⊆ e.pending)
    (hnow : e'.now = e.now) (hn : ∀ ip', ip ≠ ip' → e'.neighbors[ip']? = e.neighbors[ip']?)
    (hip : ∀ p ∈ e'.pending, p.nextHop = ip → e'.Resolving ip ∨ (e'.resolved ip).isSome = true) :
    Attended e' := by
  intro p hp'
  by_cases heq : ip = p.nextHop
  case pos => exact heq ▸ hip p hp' heq.symm
  case neg =>
    rw [Resolving, resolved, hn _ heq, hnow]
    exact h p (hp hp')

theorem getElem?_insert_other {ip' : Ipv4Addr} (h : ip ≠ ip') :
    (e.neighbors.insert ip state)[ip']? = e.neighbors[ip']? := by
  rw [TreeMap.getElem?_insert, if_neg (Std.compare_eq_iff_eq.not.mpr h)]

theorem learn_attended (h : Attended e) (ht : e.now.AddFits e.config.neighborTtl)
    (hz : e.config.neighborTtl.isZero = false) (ip : Ipv4Addr) (mac : Mac) :
    Attended (e.learn ip mac) := by
  rw [learn]
  split
  case isTrue => exact h
  split
  case isTrue => exact h
  refine h.of_other ip (List.Subset.refl _) rfl (fun _ hne => getElem?_insert_other hne) ?_
  intro p _ _
  refine .inr ?_
  have hlt := Duration.lt_saturatingAdd ht hz
  simp [resolved, event, cancelProbes, NeighborState.mac, hlt]

theorem timeOut_attended (h : Attended e) (ip : Ipv4Addr) : Attended (e.timeOut ip) := by
  refine h.of_other ip filter_sublist.subset rfl (fun _ hne => getElem?_insert_other hne) ?_
  intro p hp heq
  have := (mem_filter.mp hp).right
  simp [heq] at this

theorem probe_attended [Device δ] (h : Attended e) (ip : Ipv4Addr) (attempts : Nat)
    (expires : Duration) : Attended (e.probe ip attempts expires) := by
  rcases probe_cases e ip attempts expires with ha | ⟨next, ha⟩
  case inl => exact ha.attended h
  refine ha.attended
    (h.of_other ip (List.Subset.refl _) rfl (fun _ hne => getElem?_insert_other hne) ?_)
  intro p _ _
  exact .inl (by simp [Resolving, NeighborState.isResolving])

-- An entry is only removed when it no longer resolves its address.
theorem erase_attended (h : Attended e) (hs : e.neighbors[ip]? = some state)
    (hr : state.isResolving = false) (hm : state.mac e.now = none) :
    Attended { e with neighbors := e.neighbors.erase ip } := by
  refine h.of_other ip (List.Subset.refl _) rfl (fun ip' hne => ?_) ?_
  · exact (TreeMap.getElem?_erase ..).trans (if_neg (Std.compare_eq_iff_eq.not.mpr hne))
  · intro p hp heq
    have := h p hp
    simp [Resolving, resolved, heq, hs, hr, hm] at this

theorem refresh_attended [Device δ] (hs : e.neighbors[ip]? = some state)
    (h : Attended e) : Attended (e.refresh ip state) := by
  cases state
  case static => exact h
  case reachable mac expires =>
    rw [refresh]
    split
    case isTrue hle => exact erase_attended h hs rfl (by simp [NeighborState.mac, hle])
    case isFalse    => exact h
  case failed retryAfter =>
    rw [refresh]
    split
    case isTrue  => exact erase_attended h hs rfl rfl
    case isFalse => exact h
  case resolving attempts nextProbe expires =>
    rw [refresh]
    split
    case isTrue => exact timeOut_attended h ip
    split
    case isTrue  => exact probe_attended h ip attempts expires
    case isFalse => exact h

theorem releaseResolved_covered (h : Attended e) : Covered e.releaseResolved := by
  rw [releaseResolved_eq]
  intro p hp
  have ⟨hp, hr⟩ := mem_filter.mp hp
  refine (h p hp).resolve_right fun hs => ?_
  rw [Option.isNone_iff_eq_none.mp hr] at hs
  exact absurd hs Bool.false_ne_true

theorem submitData_covered (h : Covered e) (n : Nat) : Covered (e.submitData n) := by
  rw [submitData]
  split
  case isTrue  => exact h.of_eq (List.Subset.refl _) rfl
  case isFalse => exact h.of_eq (List.Subset.refl _) rfl

section

variable [Device δ]

theorem flush_covered (h : Covered e) : Covered e.flush.fst := by
  refine andThen_of ((flushFront_aside ..).covered h) fun e₁ n _ h₁ => ?_
  have hc := (submitControl_aside e₁ n).covered h₁
  dsimp only
  split
  case isTrue  => exact hc
  case isFalse => exact andThen_of ((flushFront_aside ..).covered hc) fun _ m _ h₂ =>
    submitData_covered h₂ m

-- The timers leave no packet behind that was attended to at the new time.
theorem advance_covered {now : Duration} (hle : ¬now < e.now) (h : Attended { e with now }) :
    Covered (e.advance now).fst := by
  rw [advance, if_neg hle]
  have hs := (ensureSpare_aside { e with now }).attended h
  refine flush_covered (releaseResolved_covered ?_)
  exact runTimers_induction (fun _ _ _ hn ha => refresh_attended hn ha) hs

end

-- Addresses that are learned now do not expire now.
structure Clock (e : EthernetIpv4 δ) : Prop where
  fits : e.now.AddFits e.config.neighborTtl
  ttl  : e.config.neighborTtl.isZero = false

theorem Quiet.clock (h : Quiet e e') (hc : Clock e) : Clock e' := by
  have ht : e'.config.neighborTtl = e.config.neighborTtl := by rw [h.config]
  exact ⟨by rw [h.now, ht]; exact hc.fits, by rw [ht]; exact hc.ttl⟩

theorem Learns.attended (hl : Learns e e') (hc : Clock e) (h : Attended e) : Attended e' := by
  cases hl
  case nothing ha         => exact ha.attended h
  case neighbor ip mac ha => exact ha.attended (learn_attended h hc.fits hc.ttl ip mac)

theorem receiveFrames_attended [Device δ] (frames : List PacketBuf) (hc : Clock e)
    (h : Attended e) : Attended (e.receiveFrames frames).fst := by
  suffices hi :
      Clock (e.receiveFrames frames).fst ∧ Attended (e.receiveFrames frames).fst from hi.right
  refine receiveFrames_induction (P := fun e => Clock e ∧ Attended e) ?_ frames ⟨hc, h⟩
  exact fun e₁ e₂ hl ⟨hc, h⟩ => ⟨hl.quiet.clock hc, hl.attended hc h⟩

theorem addStaticNeighbor_covered (h : Covered e) (ip : Ipv4Addr) (mac : Mac) :
    Covered (e.addStaticNeighbor ip mac).fst := by
  rw [addStaticNeighbor]
  split
  case isTrue => exact h
  split
  case isTrue => exact h
  dsimp only
  refine releaseResolved_covered ?_
  have hd : Covered (if e.neighbors[ip]?.any (changesMac mac) then e.discardQueued else e) := by
    split
    case isTrue  => exact .of_nil rfl
    case isFalse => exact h
  refine hd.attended.of_other ip (List.Subset.refl _) rfl (fun _ hne => getElem?_insert_other hne)
    ?_
  intro p _ _
  exact .inr (by simp [resolved, event, cancelProbes, NeighborState.mac])

theorem resolve_resolving (e : EthernetIpv4 δ) (ip : Ipv4Addr) : (e.resolve ip).Resolving ip := by
  rw [resolve]
  split
  case isTrue h => exact h
  case isFalse  => simp [Resolving, NeighborState.isResolving]

theorem Resolving.resolve (h : e.Resolving ip) (ip' : Ipv4Addr) : (e.resolve ip').Resolving ip := by
  by_cases heq : ip' = ip
  case pos => exact heq ▸ resolve_resolving e ip'
  case neg =>
    rw [EthernetIpv4.resolve]
    split
    case isTrue => exact h
    rw [Resolving, getElem?_insert_other heq]
    exact h

theorem Accepts.covered {serial : Nat} (ha : Accepts e serial e') (h : Covered e) : Covered e' := by
  cases ha
  case ready ha => exact ha.covered (h.of_eq (List.Subset.refl _) rfl)
  case pending p _ _ _ _ ha =>
    refine ha.covered fun q hq => ?_
    rw [hold, (resolve_aside e p.nextHop).left] at hq
    rcases mem_append.mp hq with hq | hq
    case inl => exact (h q hq).resolve p.nextHop
    rw [mem_singleton.mp hq]
    exact resolve_resolving e p.nextHop

-- A packet is never framed while an earlier one waits for the same next hop.
theorem Accepts.ordered (ha : Accepts e (e.stats.acceptedIp + n) e') (hc : Covered e)
    (h : Ordered (e.relay n)) : Ordered (e'.relay (n + 1)) := by
  cases ha
  case ready r hs hr ha =>
    rw [ha.relay, pass_relay hs]
    refine h.pass fun x hx heq => ?_
    obtain ⟨p, hp, rfl⟩ := mem_map.mp hx
    exact hr p.nextHop heq.symm (hc p hp).not_resolved
  case pending p hs _ hw hroom ha =>
    have ⟨_, _, hstats, _⟩ := resolve_aside e p.nextHop
    rw [ha.relay, hold_relay (hstats.symm ▸ hs)]
    exact (((resolve_quiet hroom).drains n).ordered h).hold _

theorem send_covered (slots : List PacketBuf) (hc : Covered e) (h : Ordered (e.relay 0)) :
    Covered (e.send slots).fst ∧ Ordered ((e.send slots).fst.relay 0) := by
  have hsend := sendSlots_sends e slots
  rw [send]
  generalize e.sendSlots slots = o at hsend
  cases hsend
  case refused ha => exact ⟨ha.covered hc, by rw [ha.relay]; exact h⟩
  case accepted e₁ k _ _ ha =>
    have hall :=
      acceptAll_induction (P := fun e n => Covered e ∧ Ordered (e.relay n)) (slots.take k)
      (fun _ _ _ _ ha h => ⟨ha.covered h.left, ha.ordered h.left h.right⟩) ⟨hc, h⟩
    refine ⟨(ha.covered hall.left).of_eq (List.Subset.refl _) rfl, ?_⟩
    have := hall.right
    rw [← ha.relay] at this
    exact this

-- What the operations on the configuration do to the packets: they leave all of them, or discard
-- all of them together with the resolutions that are under way.
structure Discards (e e' : EthernetIpv4 δ) : Prop where
  config    : e'.config =
    { e.config with address := e'.config.address, prefixLen := e'.config.prefixLen }
  pending   : e'.pending = []
  ready     : e'.ready = []
  now       : e'.now = e.now
  accepted  : e'.stats.acceptedIp = e.stats.acceptedIp
  submitted : e'.submitted = e.submitted
  resolving : ∀ ip, ¬e'.Resolving ip

def Manages (e e' : EthernetIpv4 δ) : Prop :=
  Aside e e' ∨ Discards e e'

theorem not_resolving_filter {m : TreeMap Ipv4Addr NeighborState} {keep : NeighborState → Bool}
    (hm : e.neighbors = m.filter fun _ n => keep n) (h : ∀ n, keep n → n.isResolving = false) :
    ¬e.Resolving ip := by
  rw [Resolving, hm, TreeMap.getElem?_filter, Option.any_eq_true]
  rintro ⟨state, hs, hr⟩
  have ⟨_, hkeep⟩ := Option.pfilter_eq_some_iff.mp hs
  rw [h state hkeep] at hr
  cases hr

variable (e)

theorem discardQueued_discards (routes : RouteTable) (neighbors : TreeMap Ipv4Addr NeighborState) :
    Discards e (discardQueued { e with routes, neighbors }) := by
  refine ⟨rfl, rfl, rfl, rfl, rfl, rfl, fun _ => not_resolving_filter rfl fun _ h => ?_⟩
  rwa [Bool.not_eq_true'] at h

theorem addRoute_manages (route : Route) : Manages e (e.addRoute route).fst := by
  rw [addRoute]
  split
  case isTrue => exact .inl (.refl e)
  split
  case h_1 => exact .inl (.refl e)
  case h_2 => exact .inr (discardQueued_discards e _ _)

theorem setGateway_manages (ip : Ipv4Addr) : Manages e (e.setGateway ip).fst := by
  rw [setGateway]
  split
  case h_1 => exact .inl (.refl e)
  case h_2 => exact addRoute_manages ..

theorem removeRoute_manages (ip : Ipv4Addr) (len : Nat) : Manages e (e.removeRoute ip len).fst := by
  rw [removeRoute]
  split
  case h_1 => exact .inl (.refl e)
  dsimp only
  split
  case isTrue  => exact .inr (discardQueued_discards e _ _)
  case isFalse => exact .inl (routes_aside ..)

theorem removeNeighbor_manages (ip : Ipv4Addr) : Manages e (e.removeNeighbor ip).fst := by
  rw [removeNeighbor]
  split
  case isTrue  => exact .inr (discardQueued_discards e _ _)
  case isFalse => exact .inl (.refl e)

theorem resetLink_discards : Discards e e.resetLink := by
  refine ⟨rfl, rfl, rfl, rfl, rfl, rfl, fun _ => not_resolving_filter rfl fun n h => ?_⟩
  cases n
  case resolving => cases h
  all_goals rfl

-- The table of neighbors is emptied as well.
theorem withdrawIpv4_discards : Discards e e.withdrawIpv4 :=
  ⟨rfl, rfl, rfl, rfl, rfl, rfl, fun _ => by simp [Resolving, withdrawIpv4]⟩

theorem configureIpv4_manages (ip : Ipv4Addr) (len : Nat)
    (gateway : Option Ipv4Addr) : Manages e (e.configureIpv4 ip len gateway).fst := by
  rw [configureIpv4]
  repeat' split
  all_goals first
    | exact .inl (.refl e)
    | exact .inr ⟨rfl, rfl, rfl, rfl, rfl, rfl, fun _ => by simp [Resolving]⟩

variable {e}

theorem Manages.covered (hm : Manages e e') (h : Covered e) : Covered e' := by
  rcases hm with ha | hd
  case inl => exact ha.covered h
  case inr => exact .of_nil hd.pending

theorem andThen_fst {α β : Type} (o : EthernetIpv4 δ × IoResult α) (b : β) :
    (andThen o fun e _ => (e, (.ok b : IoResult β))).fst = o.fst := by
  obtain ⟨e, _ | _⟩ := o
  case error => rfl
  case ok    => rfl

section

variable [Device δ]

variable (e)

-- The state in which an operation runs the timers and the time at which it does, if it does.
def advancing : Op δ → Option (EthernetIpv4 δ × Duration)
  | .advance now => some (e, now)
  | .pollAt now  =>
    let (device, result) := Device.pollAt e.device now
    if result.isOk then some ({ e with device }, now) else none
  | .recv max    =>
    if max = 0 then
      some (e, e.now)
    else
      let (device, result) := Device.recv e.dropSpare max
      result.toOption.map fun frames =>
        ((receiveFrames { e with device, controlSpare := none } frames).fst, e.now)
  | _            => none

-- What an operation can do. All timers run after the frames of the operation are received.
inductive Steps (e : EthernetIpv4 δ) : Op δ → EthernetIpv4 δ → Prop
  | send (slots : List PacketBuf) : Steps e (.send slots) (e.send slots).fst
  | static (ip : Ipv4Addr) (mac : Mac) :
      Steps e (.addStaticNeighbor ip mac) (e.addStaticNeighbor ip mac).fst
  | manages {op : Op δ} {e' : EthernetIpv4 δ} (hnone : e.advancing op = none) (h : Manages e e') :
      Steps e op e'
  | advances {op : Op δ} {e₁ : EthernetIpv4 δ} {t : Duration} (device : δ)
      (spare : Option Ethernet.Roomy) (frames : List PacketBuf)
      (ht : t = e.now ∨ op.Sets t ∧ frames = [])
      (h₁ : e₁ = (receiveFrames { e with device, controlSpare := spare } frames).fst)
      (h : e.advancing op = some (e₁, t)) : Steps e op (e₁.advance t).fst

theorem receiveFrames_now (frames : List PacketBuf) : (e.receiveFrames frames).fst.now = e.now :=
  receiveFrames_induction (P := fun e' => e'.now = e.now) (fun _ _ hl h => hl.quiet.now.trans h)
    frames rfl

theorem pollAt_steps (now : Duration) : Steps e (.pollAt now) (e.pollAt now).fst := by
  rw [pollAt]
  cases hd : Device.pollAt e.device now
  case mk device result =>
    cases result
    case error =>
      refine .manages ?_ (.inl (device_aside ..))
      simp [advancing, hd, Except.isOk, Except.toBool]
    refine .advances (t := now) device e.controlSpare [] (.inr ⟨rfl, rfl⟩) rfl ?_
    simp [advancing, hd, Except.isOk, Except.toBool]

theorem recv_steps (max : Nat) : Steps e (.recv max) (e.recv max).fst := by
  rw [recv]
  split
  case isTrue hmax =>
    rw [andThen_fst]
    exact .advances e.device e.controlSpare [] (.inl rfl) rfl (by simp [advancing, hmax])
  rename_i hmax
  cases hd : Device.recv e.dropSpare max
  case mk device result =>
    cases result
    case error =>
      refine .manages ?_ (.inl (device_aside ..))
      simp [advancing, hmax, hd, Except.toOption]
    case ok frames =>
      dsimp only [andThen_ok]
      rw [andThen_fst, receiveFrames_now]
      exact .advances device none frames (.inl rfl)
        rfl (by simp [advancing, hmax, hd, Except.toOption])

theorem step_steps (op : Op δ) : Steps e op (e.step op) := by
  cases op
  case send slots              => exact .send slots
  case addStaticNeighbor ip m  => exact .static ip m
  case advance now             =>
    exact .advances e.device e.controlSpare [] (.inr ⟨rfl, rfl⟩) rfl rfl
  case pollAt now              => exact pollAt_steps e now
  case recv max                => exact recv_steps e max
  case addRoute route          => exact .manages rfl (addRoute_manages e route)
  case setGateway gateway      => exact .manages rfl (setGateway_manages e gateway)
  case removeRoute ip len      => exact .manages rfl (removeRoute_manages e ip len)
  case removeNeighbor ip       => exact .manages rfl (removeNeighbor_manages e ip)
  case resetLink               => exact .manages rfl (.inr (resetLink_discards e))
  case configureIpv4 ip len gw => exact .manages rfl (configureIpv4_manages e ip len gw)
  case withdrawIpv4            => exact .manages rfl (.inr (withdrawIpv4_discards e))
  case alloc                   => exact .manages rfl (.inl (alloc_aside e))
  case popEvent                => exact .manages rfl (.inl ⟨rfl, rfl, rfl, rfl, rfl, rfl, rfl, id⟩)
  case deviceMut               => exact .manages rfl (.inl ⟨rfl, rfl, rfl, rfl, rfl, rfl, rfl, id⟩)

end

theorem step_covered [Device δ] {op : Op δ} (h : ∀ frames, op ≠ .send frames) (hc : Clock e)
    (hi : Covered e) : Covered (e.step op) := by
  have hs := step_steps e op
  generalize e.step op = e' at hs
  cases hs
  case send slots     => exact absurd rfl (h slots)
  case static ip mac  => exact addStaticNeighbor_covered hi ip mac
  case manages _ hm   => exact hm.covered hi
  case advances e₁ t device spare frames h₁ ht _ =>
    have ha := device_aside e device spare
    rcases ht with hnow | ⟨_, rfl⟩
    case inl =>
      have hatt :=
        receiveFrames_attended frames ((Quiet.of_aside ha).clock hc) (ha.covered hi).attended
      rw [← h₁] at hatt
      obtain rfl : t = e₁.now := by rw [hnow, h₁, receiveFrames_now]
      exact advance_covered (lt_irrefl _) hatt
    have hcov : Covered e₁ := h₁ ▸ ha.covered hi
    by_cases hlt : t < e₁.now
    case pos => rwa [advance_backwards hlt]
    case neg => exact advance_covered hlt (Covered.attended (hcov.of_eq (List.Subset.refl _) rfl))

-- No deadline that is computed from a time of the run saturates.
def Op.Fits (config : InterfaceConfig) (op : Op δ) : Prop :=
  ∀ now, op.Sets now →
    now.AddFits config.neighborTtl ∧ now.AddFits config.retryInterval ∧
    now.AddFits config.resolutionTimeout ∧ now.AddFits config.failedRetryDelay

structure Steady (config : InterfaceConfig) (e : EthernetIpv4 δ) : Prop where
  clock   : Clock e
  ttl     : e.config.neighborTtl = config.neighborTtl
  covered : Covered e
  ordered : Ordered (e.relay 0)

theorem step_steady [LawfulDevice δ] {op : Op δ} (ht : op.Fits config)
    (h : Steady config e) : Steady config (e.step op) := by
  by_cases hop : ∃ frames, op = .send frames
  case pos =>
    obtain ⟨frames, rfl⟩ := hop
    have ⟨hc, hnow⟩ := send_config_now e frames
    have ⟨hcov, hord⟩ := send_covered frames h.covered h.ordered
    exact ⟨⟨by rw [step, hnow, hc]; exact h.clock.fits, by rw [step, hc]; exact h.clock.ttl⟩,
      by rw [step, hc]; exact h.ttl, hcov, hord⟩
  case neg =>
    have hop := not_exists.mp hop
    obtain ⟨now, hnow, hq⟩ := step_quiet (e := e) hop
    have hc : Clock { e with now } := by
      refine ⟨?_, h.clock.ttl⟩
      rcases hnow with rfl | hnow
      case inl => exact h.clock.fits
      case inr => exact h.ttl.symm ▸ (ht now hnow).left
    refine ⟨hq.clock hc, ?_, step_covered hop h.clock h.covered, (hq.drains 0).ordered h.ordered⟩
    rw [hq.config]
    exact h.ttl

theorem Fresh.steady (h : Fresh config e) : Steady config e where
  clock   := by
    have hv := h.valid
    simp only [InterfaceConfig.invalid, Bool.or_eq_false_iff] at hv
    exact ⟨by rw [h.now]; exact Duration.zero_addFits _, by rw [h.config_eq]; tauto⟩
  ttl     := by rw [h.config_eq]
  covered := .of_nil h.pending
  ordered := by
    have hp : (e.relay 0).packets = [] := by simp [packets, relay, h.pending, h.ready, h.submitted]
    exact ⟨by rw [hp]; exact List.Pairwise.nil, by rw [hp]; exact forall_mem_nil _⟩

-- Every waiting packet is waiting for a resolution, which ends with its release or at a deadline,
-- and packets for the same next hop are submitted in the order in which they were accepted.
theorem pending_resolving_and_fifo [LawfulDevice δ] {device : δ}
    {layout : Nat → Nat} {e₀ : EthernetIpv4 δ} (h : new device config layout = .ok e₀)
    (ops : List (Op δ)) (ht : ∀ op ∈ ops, op.Fits config) :
    let e := Transition.exec step e₀ ops
    (∀ p ∈ e.pending, ∃ attempts nextProbe expires,
      e.neighbors[p.nextHop]? = some (.resolving attempts nextProbe expires)) ∧
    e.submitted.Pairwise fun x y => x.fst = y.fst → x.snd < y.snd := by
  have hs : Steady config (Transition.exec step e₀ ops) :=
    Transition.exec_induction_of (new_fresh h).steady (fun _ _ ht h => step_steady ht h) ht
  exact ⟨fun p hp => (hs.covered p hp).exists_state, hs.ordered.sent⟩

-- Both released packets are submitted in their order, and a third packet waits again.
theorem pending_resolving_and_fifo_loopback : ∃ e₀, overLoopback = .ok e₀ ∧
    let e := Transition.exec step e₀ (releasedByPeer ++
      [.advance (.fromSecs 1), .removeNeighbor 0x0a000002#32, .send [datagramToPeer]])
    (e.pending.length = 1 ∧ e.submitted = [(some 0x0a000002#32, 0), (some 0x0a000002#32, 1)]) ∧
    (∀ p ∈ e.pending, ∃ attempts nextProbe expires,
      e.neighbors[p.nextHop]? = some (.resolving attempts nextProbe expires)) ∧
    e.submitted.Pairwise fun x y => x.fst = y.fst → x.snd < y.snd := by
  have ⟨e₀, h, hc⟩ := overLoopback_any (p := fun e₀ =>
    let e := Transition.exec step e₀ (releasedByPeer ++
      [.advance (.fromSecs 1), .removeNeighbor 0x0a000002#32, .send [datagramToPeer]])
    e.pending.length == 1 && e.submitted == [(some 0x0a000002#32, 0), (some 0x0a000002#32, 1)])
    (by decide +kernel)
  simp only [Bool.and_eq_true, beq_iff_eq] at hc
  refine ⟨e₀, h, hc, pending_resolving_and_fifo h _ ?_⟩
  simp only [releasedByPeer, cons_append, nil_append, forall_mem_cons]
  refine ⟨fun _ hnow => hnow.elim, fun _ hnow => hnow.elim, fun _ hnow => hnow.elim, ?_,
    fun _ hnow => hnow.elim, fun _ hnow => hnow.elim, forall_mem_nil _⟩
  rintro now rfl
  decide

end EthernetIpv4
