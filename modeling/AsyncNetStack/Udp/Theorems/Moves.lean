import AsyncNetStack.Udp.Selections
import AsyncNetStack.Udp.Theorems.Wire

open Std Udp Fallible Transition List Option

namespace Udp.Scheduler

variable {s s₁ s₂ s₃ : Scheduler}

-- Schedulers that differ in datagrams that have left the queue. The peers keep their pace.
structure Thins (s₁ s₂ : Scheduler) : Prop where
  queue : s₂.queue.Sublist s₁.queue
  next  : s₂.next = s₁.next
  last  : s₂.last = s₁.last
  pace  : ∀ peer : SocketAddr, s₂.peers[peer]?.map (·.next) = s₁.peers[peer]?.map (·.next)
  size  : s₂.peers.size = s₁.peers.size

namespace Thins

theorem refl (s : Scheduler) : Thins s s :=
  ⟨.refl _, rfl, rfl, fun _ => rfl, rfl⟩

theorem trans (h₁ : Thins s₁ s₂) (h₂ : Thins s₂ s₃) : Thins s₁ s₃ where
  queue     := h₂.queue.trans h₁.queue
  next      := h₂.next.trans h₁.next
  last      := h₂.last.trans h₁.last
  pace peer := (h₂.pace peer).trans (h₁.pace peer)
  size      := h₂.size.trans h₁.size

theorem pace_eq (h : Thins s₁ s₂) {peer : SocketAddr} {b : PeerBudget}
    (hb : s₁.peers[peer]? = some b) : ∃ b', s₂.peers[peer]? = some b' ∧ b'.next = b.next := by
  have hp := h.pace peer
  rw [hb, map_some] at hp
  exact map_eq_some_iff.mp hp

end Thins

theorem remove_thins (s : Scheduler) (index : Fin s.queue.length) :
    Thins s (s.remove index).fst where
  queue     := eraseIdx_sublist ..
  next      := rfl
  last      := rfl
  pace peer := by
    simp only [remove, TreeMap.getElem?_modify, Std.compare_eq_iff_eq]
    split
    case isTrue heq => rw [heq, Option.map_map]; rfl
    case isFalse    => rfl
  size      := TreeMap.size_modify

theorem admission_fst (s : Scheduler) (peer : SocketAddr) (now : Duration) (cfg : UdpConfig) :
    (s.admission peer now cfg).fst = s.retain now := by
  rw [admission]
  split
  case isTrue => rfl
  split
  case h_1 => rfl
  case h_2 => rfl

theorem admission_ok {peer : SocketAddr} {now : Duration} {cfg : UdpConfig}
    (h : (s.admission peer now cfg).snd = .ok ()) :
    (s.retain now).queue.length < cfg.queueCapacity ∧
    (∀ b, (s.retain now).peers[peer]? = some b → b.count < cfg.perPeerCapacity) ∧
    (peer ∉ (s.retain now).peers → (s.retain now).peers.size < cfg.maxTxPeers) := by
  rw [admission] at h
  split at h
  case isTrue => cases h
  rename_i hroom
  refine ⟨Nat.not_le.mp hroom, ?_⟩
  split at h
  case h_1 b hb =>
    split at h
    case isTrue => cases h
    rename_i hshare
    refine ⟨fun b' hb' => ?_, fun hmem => absurd (TreeMap.mem_iff_isSome_getElem?.mpr ?_) hmem⟩
    case refine_1 =>
      cases hb.symm.trans hb'
      exact Nat.not_le.mp hshare
    case refine_2 =>
      rw [hb]
      rfl
  case h_2 hb =>
    split at h
    case isTrue => cases h
    rename_i hslot
    refine ⟨fun b' hb' => ?_, fun _ => Nat.not_le.mp hslot⟩
    cases hb.symm.trans hb'

end Udp.Scheduler

namespace UdpPool

variable {δ η : Type} {p p₁ p₂ p₃ : UdpPool δ}

-- The limits of a valid configuration are positive.
structure Valid (config : UdpConfig) : Prop where
  perPeerCapacity       : 0 < config.perPeerCapacity
  txBudget              : 0 < config.txBudget
  bytesPerSecond        : config.bytesPerSecond ≠ some 0
  perPeerBytesPerSecond : config.perPeerBytesPerSecond ≠ some 0

theorem withConfig_ok {device : δ} {config : UdpConfig} (h : withConfig device config = .ok p) :
    Valid config ∧ p.config = config ∧ p.tx = .new := by
  rw [withConfig] at h
  split at h
  case isTrue => cases h
  rename_i hvalid
  cases h
  simp only [UdpConfig.invalid, Bool.or_eq_true, beq_iff_eq, not_or] at hvalid
  refine ⟨⟨?_, ?_, hvalid.left.left.right, hvalid.left.right⟩, rfl, rfl⟩
  all_goals omega

-- What is left alone when a datagram leaves the queue.
structure Keeps (p₁ p₂ : UdpPool δ) : Prop where
  services : p₂.services = p₁.services
  config   : p₂.config = p₁.config
  nextId   : p₂.nextId = p₁.nextId
  now      : p₂.now = p₁.now

namespace Keeps

theorem refl (p : UdpPool δ) : Keeps p p :=
  ⟨rfl, rfl, rfl, rfl⟩

theorem trans (h₁ : Keeps p₁ p₂) (h₂ : Keeps p₂ p₃) : Keeps p₁ p₃ where
  services := h₂.services.trans h₁.services
  config   := h₂.config.trans h₁.config
  nextId   := h₂.nextId.trans h₁.nextId
  now      := h₂.now.trans h₁.now

end Keeps

-- Pools that do not differ in anything that matters for datagrams.
structure Aside (p₁ p₂ : UdpPool δ) : Prop extends Keeps p₁ p₂ where
  tx        : p₂.tx = p₁.tx
  outcomes  : p₂.outcomes = p₁.outcomes
  submitted : p₂.stats.submitted = p₁.stats.submitted
  dropped   : p₂.stats.dropped = p₁.stats.dropped

namespace Aside

theorem refl (p : UdpPool δ) : Aside p p :=
  ⟨.refl p, rfl, rfl, rfl, rfl⟩

theorem trans (h₁ : Aside p₁ p₂) (h₂ : Aside p₂ p₃) : Aside p₁ p₃ where
  toKeeps   := h₁.toKeeps.trans h₂.toKeeps
  tx        := h₂.tx.trans h₁.tx
  outcomes  := h₂.outcomes.trans h₁.outcomes
  submitted := h₂.submitted.trans h₁.submitted
  dropped   := h₂.dropped.trans h₁.dropped

end Aside

variable (p)
variable {now : Duration} {frame : PacketBuf} {d : Datagram}

theorem device_aside (device : δ) : Aside p { p with device } :=
  ⟨⟨rfl, rfl, rfl, rfl⟩, rfl, rfl, rfl, rfl⟩

theorem peers_aside (peers : TreeMap SocketAddr Peer) : Aside p { p with peers } :=
  ⟨⟨rfl, rfl, rfl, rfl⟩, rfl, rfl, rfl, rfl⟩

theorem bump_aside {f : PoolStats → PoolStats}
    (hs : (f p.stats).submitted = p.stats.submitted) (hd : (f p.stats).dropped = p.stats.dropped) :
    Aside p (p.bump f) :=
  ⟨⟨rfl, rfl, rfl, rfl⟩, rfl, rfl, hs, hd⟩

theorem event_aside (ev : UdpEvent) : Aside p (p.event ev) := by
  rw [event]
  split
  case isTrue => exact .refl p
  split
  case isTrue  => exact ⟨⟨rfl, rfl, rfl, rfl⟩, rfl, rfl, rfl, rfl⟩
  case isFalse => exact ⟨⟨rfl, rfl, rfl, rfl⟩, rfl, rfl, rfl, rfl⟩

theorem rejected_aside (source destination : SocketAddr) (reason : UdpFailure) :
    Aside p (p.rejected source destination reason) :=
  (p.bump_aside rfl rfl).trans (event_aside ..)

theorem receiveAdvert_aside (now : Duration) (source : SocketAddr) (id : U32) :
    Aside p (p.receiveAdvert now source id) := by
  rw [receiveAdvert]
  split
  case isTrue  => exact p.peers_aside _
  case isFalse => exact p.bump_aside rfl rfl

-- A datagram that has left the queue gets its outcome.
theorem finish_keeps (q : Queued) (outcome : UdpOutcome) :
    Keeps p (p.finish q outcome) ∧ (p.finish q outcome).tx = p.tx := by
  cases outcome
  all_goals
    unfold finish
    refine ⟨⟨?_, ?_, ?_, ?_⟩, ?_⟩
    case refine_1 => exact (event_aside ..).services
    case refine_2 => exact (event_aside ..).config
    case refine_3 => exact (event_aside ..).nextId
    case refine_4 => exact (event_aside ..).now
    case refine_5 => exact (event_aside ..).tx

theorem drop_keeps (index : Fin p.tx.queue.length) (reason : UdpFailure) :
    Keeps p (p.drop index reason) ∧ (p.drop index reason).tx = (p.tx.remove index).fst := by
  have h :=
    finish_keeps { p with tx := (p.tx.remove index).fst } (p.tx.queue.get index) (.dropped reason)
  exact ⟨⟨h.left.services, h.left.config, h.left.nextId, h.left.now⟩, h.right⟩

theorem submit_keeps (index : Fin p.tx.queue.length) : Keeps p (p.submit index) ∧
    (p.submit index).tx =
      ((p.tx.accepted (p.tx.queue.get index).destination (p.tx.queue.get index).frame.len
      p.now p.config).remove index).fst := by
  let tx :=
    p.tx.accepted (p.tx.queue.get index).destination (p.tx.queue.get index).frame.len p.now p.config
  have h := finish_keeps { p with tx := (tx.remove index).fst } (p.tx.queue.get index) .submitted
  exact ⟨⟨h.left.services, h.left.config, h.left.nextId, h.left.now⟩, h.right⟩

-- The datagrams before the index have been looked at.
theorem dropWhere_spec (cond : Queued → Bool) (reason : UdpFailure) {i rounds : Nat}
    (h : p.tx.queue.length = i + rounds) :
    Keeps p (p.dropWhere cond reason i rounds) ∧
    Scheduler.Thins p.tx (p.dropWhere cond reason i rounds).tx ∧
    (p.dropWhere cond reason i rounds).tx.queue =
      p.tx.queue.take i ++ (p.tx.queue.drop i).filter (!cond ·) := by
  induction rounds generalizing p i
  case zero =>
    rw [Nat.add_zero] at h
    refine ⟨.refl p, .refl _, ?_⟩
    rw [take_of_length_le h.le, drop_eq_nil_of_le h.le, filter_nil, append_nil]
    rfl
  case succ rounds ih =>
    have hi : i < p.tx.queue.length := by omega
    rw [dropWhere, dif_pos hi]
    split
    case isTrue hcond =>
      have ⟨hkeeps, htx⟩ := p.drop_keeps ⟨i, hi⟩ reason
      have hqueue : (p.drop ⟨i, hi⟩ reason).tx.queue = p.tx.queue.eraseIdx i :=
        congrArg Scheduler.queue htx
      have hlen := length_eraseIdx_add_one hi
      have ⟨h₁, h₂, h₃⟩ := ih (p.drop ⟨i, hi⟩ reason) (i := i) (by rw [hqueue]; omega)
      refine ⟨hkeeps.trans h₁, (htx ▸ p.tx.remove_thins ⟨i, hi⟩ : Scheduler.Thins ..).trans h₂, ?_⟩
      rw [h₃, hqueue, eraseIdx_eq_take_drop_succ, take_left' (by simp; omega),
        drop_left' (by simp; omega), drop_eq_getElem_cons hi, filter_cons_of_neg]
      simp [hcond]
    case isFalse hcond =>
      have ⟨h₁, h₂, h₃⟩ := ih p (i := i + 1) (by omega)
      refine ⟨h₁, h₂, ?_⟩
      rw [h₃, drop_eq_getElem_cons hi, filter_cons_of_pos (by simp [hcond]),
        take_succ_eq_append_getElem hi, append_assoc, singleton_append]

-- The queue keeps what the condition does not hold for, in its order.
structure Sifted (p₁ : UdpPool δ) (cond : Queued → Bool) (p₂ : UdpPool δ) : Prop extends
    Keeps p₁ p₂ where
  thins : Scheduler.Thins p₁.tx p₂.tx
  queue : p₂.tx.queue = p₁.tx.queue.filter (!cond ·)

theorem dropAll_sifted (cond : Queued → Bool) (reason : UdpFailure) :
    Sifted p cond (p.dropAll cond reason) := by
  have ⟨h₁, h₂, h₃⟩ := p.dropWhere_spec cond reason (Nat.zero_add _).symm
  exact ⟨h₁, h₂, h₃⟩

theorem advance_sifted (h : p.now ≤ now) : (p.advance now).snd = .ok () ∧
    Sifted { p with now } (·.deadline.any (· ≤ now)) (p.advance now).fst := by
  rw [advance, if_neg h.not_gt]
  exact ⟨rfl, dropAll_sifted ..⟩

theorem advance_error (h : now < p.now) :
    p.advance now = (p, .error (.invalid "time went backwards")) := by
  rw [advance, if_pos h]

-- The pool while the datagrams of an endpoint are dropped.
def vacated (address : SocketAddr) : UdpPool δ :=
  { p with
    services   := p.services.erase address
    generation := p.generation + 1
    peers      := ∅ }

theorem unbind_sifted {address : SocketAddr} (h : address ∈ p.services) :
    Sifted (p.vacated address) (·.source = address) (p.unbind address).fst := by
  rw [unbind, if_pos (TreeMap.contains_iff_mem.mpr h)]
  exact dropAll_sifted ..

theorem unbind_absent {address : SocketAddr} (h : address ∉ p.services) :
    p.unbind address = (p, false) :=
  if_neg h

-- A frame that holds a packet and nothing else.
def Whole (frame : PacketBuf) : Prop :=
  ∃ h, Wire.totalLen frame.asSlice h = frame.len

-- What the checks of a datagram ensure when it is queued.
structure Admitted (p : UdpPool δ) (source destination : SocketAddr) : Prop where
  bound : source ∈ p.services
  room  : p.tx.queue.length < p.config.queueCapacity
  share : ∀ b, p.tx.peers[destination]? = some b → b.count < p.config.perPeerCapacity
  slot  : destination ∉ p.tx.peers → p.tx.peers.size < p.config.maxTxPeers

-- The pool without idle peers whose pace no longer matters.
def retained : UdpPool δ :=
  { p with tx := p.tx.retain p.now }

-- No queued datagram has expired.
def Fresh : Prop :=
  ∀ q ∈ p.tx.queue, ∀ t ∈ q.deadline, p.now < t

variable {p}

theorem fresh_advance (h : p.now ≤ now) : Fresh (p.advance now).fst := by
  have hsift := (p.advance_sifted h).right
  intro q hq t ht
  rw [hsift.queue, mem_filter] at hq
  rw [hsift.now]
  have := hq.right
  simp only [mem_def] at ht
  simpa [ht] using this

-- The moves that sending and receiving are made of.
inductive Load : UdpPool δ → UdpPool δ → Prop
  | aside {p₁ p₂ : UdpPool δ} : Aside p₁ p₂ → Load p₁ p₂
  | retain (p : UdpPool δ) : Load p p.retained
  | enqueue {p : UdpPool δ} {frame : PacketBuf} {source destination : SocketAddr}
    (options : SendOptions) : Admitted p source destination → Whole frame →
    Load p (p.enqueue frame source destination options).fst

-- The moves that sends, flushes and polls are made of, apart from selections.
inductive Work : UdpPool δ → UdpPool δ → Prop
  | load {p₁ p₂ : UdpPool δ} : Load p₁ p₂ → Work p₁ p₂
  | advance (p : UdpPool δ) (now : Duration) : Work p (p.advance now).fst

-- The services change while the scheduler stays.
inductive Move : UdpPool δ → UdpPool δ → Prop
  | work {p₁ p₂ : UdpPool δ} : Work p₁ p₂ → Move p₁ p₂
  | bind (p : UdpPool δ) (service : Service) : Move p (p.bind service).fst
  | unbind (p : UdpPool δ) (address : SocketAddr) : Move p (p.unbind address).fst

inductive Change : UdpPool δ → UdpPool δ → Prop
  | move {p₁ p₂ : UdpPool δ} : Move p₁ p₂ → Change p₁ p₂
  | install (p : UdpPool δ) (services : TreeMap SocketAddr U32) :
    Change p (p.installServices services)

-- A selection takes place when expired datagrams have been dropped.
structure Selects [Device δ] (p₁ : UdpPool δ) (s : Selection δ) (p₂ : UdpPool δ) : Prop where
  pool   : s.pool = p₁
  fresh  : Fresh p₁
  result : p₂ = s.result

-- Admission forgets peers at most.
theorem admission_cases (p : UdpPool δ) (source destination : SocketAddr) (options : SendOptions) :
    (∃ reason, p.admission source destination options = (p, .error reason)) ∨
    (∃ reason, p.admission source destination options = (p.retained, .error reason)) ∨
    (p.admission source destination options = (p.retained, .ok ()) ∧
      Admitted p.retained source destination) := by
  rw [admission]
  split
  case isTrue => exact .inl ⟨_, rfl⟩
  rename_i hbound
  split
  case isTrue => exact .inl ⟨_, rfl⟩
  split
  case isTrue => exact .inl ⟨_, rfl⟩
  rw [Bool.not_eq_true', Bool.not_eq_false, TreeMap.contains_iff_mem] at hbound
  have hfst := p.tx.admission_fst destination p.now p.config
  have hsnd := @Scheduler.admission_ok p.tx destination p.now p.config
  revert hfst hsnd
  generalize p.tx.admission destination p.now p.config = o
  obtain ⟨tx, result⟩ := o
  rintro rfl hok
  cases result
  case error reason => exact .inr (.inl ⟨reason, rfl⟩)
  have ⟨hroom, hshare, hslot⟩ := hok rfl
  exact .inr (.inr ⟨rfl, hbound, hroom, hshare, hslot⟩)

-- The frames of all datagrams that are queued are whole.
theorem buildIpv4_whole {frame' : PacketBuf} {identification : U16}
    (h : Wire.buildIpv4 frame d identification = .ok frame') : Whole frame' := by
  rw [Wire.buildIpv4] at h
  split at h
  case isFalse => cases h
  rename_i hd
  obtain ⟨frame'', heq, hslice⟩ := Wire.build identification frame hd.left hd.right
  rw [Wire.buildIpv4, dif_pos hd, Except.ok.injEq] at heq
  rw [Except.ok.injEq] at h
  obtain rfl := heq.symm.trans h
  have hlen : 28 ≤ (Wire.encode d identification ++ []).length := by
    rw [append_nil, Wire.encode_length, Wire.total]
    omega
  have htotal := Wire.totalLen_encode identification hd.left [] hlen
  simp only [append_nil] at htotal hlen
  refine ⟨hslice ▸ hlen, ?_⟩
  have hl := congrArg List.length hslice
  rw [PacketBuf.asSlice_length, Wire.encode_length] at hl
  simp only [hslice, htotal, hl]

theorem respond_whole (h : Wire.parseIpv4 frame.asSlice = .ok d) :
    Whole ((Responder.serving d).respond frame).fst := by
  have ⟨hb, ha⟩ := Wire.parseIpv4_ok h
  have hslice : ((Responder.serving d).respond frame).fst.asSlice =
      Responder.echo frame.asSlice d hb := by
    rw [Responder.asSlice_respond, Responder.answer_accepted ha]
  have hlen := Responder.echo_length ha
  have hge := ha.total_ge
  have hr : 28 ≤ (Responder.echo frame.asSlice d hb).length := by omega
  have hl := congrArg List.length hslice
  rw [PacketBuf.asSlice_length, hlen] at hl
  refine ⟨hslice ▸ hr, ?_⟩
  simp only [hslice, Responder.echo_totalLen, hl]

-- Runs without a selection in which no datagram leaves the queue.
def Works (p₁ p₂ : UdpPool δ) : Prop :=
  Relation.ReflTransGen Load p₁ p₂

namespace Works

theorem refl (p : UdpPool δ) : Works p p :=
  Relation.ReflTransGen.refl

theorem trans (h₁ : Works p₁ p₂) (h₂ : Works p₂ p₃) : Works p₁ p₃ :=
  Relation.ReflTransGen.trans h₁ h₂

theorem of_load (h : Load p₁ p₂) : Works p₁ p₂ :=
  Relation.ReflTransGen.single h

theorem aside (h : Aside p₁ p₂) : Works p₁ p₂ :=
  of_load (.aside h)

end Works

theorem echo_works (p : UdpPool δ)
    (hd : Wire.parseIpv4 frame.asSlice = .ok d) : Works p (p.echo d frame).fst := by
  have hr := Works.of_load (Load.retain p)
  have hw := respond_whole hd
  have ha (p : UdpPool δ) (reason : UdpFailure) : Aside p
      ((p.bump fun s => { s with responseDrops := s.responseDrops + 1 }).rejected d.destination
        d.source reason) :=
    (p.bump_aside rfl rfl).trans (rejected_aside ..)
  rw [echo]
  rcases p.admission_cases d.destination d.source {} with
    ⟨reason, heq⟩ | ⟨reason, heq⟩ | ⟨heq, hadm⟩
  case inl =>
    rw [heq]
    exact .aside (ha p reason)
  case inr.inl =>
    rw [heq]
    exact hr.trans (.aside (ha _ reason))
  case inr.inr =>
    rw [heq]
    dsimp only
    split
    case isFalse => exact hr
    case isTrue  => exact hr.trans (.of_load (.enqueue {} hadm hw))

section

variable [Device δ]

theorem Works.trace (h : Works p₁ p₂) : Trace Work Selects p₁ [] p₂ := by
  induction h
  case refl         => exact .refl
  case tail _ hl ih => exact ih.move (.load hl)

variable (p)

theorem sendWithOptions_works (source destination : SocketAddr) (payload : List U8)
    (options : SendOptions) :
    Works p (p.sendWithOptions source destination payload options).fst := by
  have hr := Works.of_load (Load.retain p)
  rw [sendWithOptions]
  rcases p.admission_cases source destination options with
    ⟨reason, heq⟩ | ⟨reason, heq⟩ | ⟨heq, hadm⟩
  case inl =>
    rw [heq]
    exact .aside (rejected_aside ..)
  case inr.inl =>
    rw [heq]
    exact hr.trans (.aside (rejected_aside ..))
  case inr.inr =>
    rw [heq]
    refine hr.trans ?_
    dsimp only
    obtain ⟨device, frame⟩ := Device.alloc p.retained.device
    have hdevice := Works.aside (p.retained.device_aside device)
    refine hdevice.trans ?_
    cases frame
    case none => exact .aside (rejected_aside ..)
    case some frame =>
      dsimp only
      split
      case h_1 => exact .aside (rejected_aside ..)
      case h_2 frame hbuild =>
        have hadm : Admitted { p.retained with device } source destination :=
          ⟨hadm.bound, hadm.room, hadm.share, hadm.slot⟩
        exact .of_load (.enqueue options hadm (buildIpv4_whole hbuild))

theorem sendTo_works (source destination : SocketAddr) (payload : List U8) :
    Works p (p.sendTo source destination payload).fst :=
  p.sendWithOptions_works source destination payload {}

theorem advertise_works (source : SocketAddr) (id : U32)
    (service : SocketAddr × U32) : Works p (p.advertise source id service) := by
  have h := p.sendTo_works service.fst source (ADVERT ++ be32 id)
  rw [advertise]
  split
  case h_1 heq =>
    rw [heq] at h
    exact h
  case h_2 heq =>
    rw [heq] at h
    exact h.trans (.aside (bump_aside _ rfl rfl))

theorem receiveQuery_works (d : Datagram) (id : U32) : Works p (p.receiveQuery d id) := by
  rw [receiveQuery]
  generalize p.services.toList.filter (answers d.destination id) = services
  induction services generalizing p
  case nil               => exact .refl p
  case cons service _ ih => exact (p.advertise_works d.source id service).trans (ih _)

theorem receive_works (now : Duration) (handler : η → Datagram → η × Action) (h : η)
    (frame : PacketBuf) : Works p (p.receive now handler h frame).fst := by
  rw [receive]
  split
  case h_1 =>
    dsimp only
    exact .aside (p.bump_aside rfl rfl)
  case h_2 d hd =>
    have hr : Works p (p.bump fun s => { s with received := s.received + 1 }) :=
      .aside (p.bump_aside rfl rfl)
    refine hr.trans ?_
    generalize p.bump (fun s => { s with received := s.received + 1 }) = p
    dsimp only
    split
    case isTrue => exact p.receiveQuery_works ..
    split
    case isTrue =>
      dsimp only
      exact .aside (p.bump_aside rfl rfl)
    split
    case isTrue =>
      split
      case isTrue  => exact .aside (p.receiveAdvert_aside ..)
      case isFalse => exact .refl p
    split
    case h_1 => exact .refl p
    case h_2 => exact p.echo_works hd

theorem receiveAll_works (now : Duration) (handler : η → Datagram → η × Action) (h : η)
    (frames : List PacketBuf) : Works p (p.receiveAll now handler h frames).fst := by
  induction frames generalizing p h
  case nil => exact .refl p
  case cons frame frames ih =>
    have hr := p.receive_works now handler h frame
    rw [receiveAll]
    split
    case h_1 heq =>
      rw [heq] at hr
      exact hr
    case h_2 heq =>
      rw [heq] at hr
      exact hr.trans (ih ..)

-- The attempts that are possible for a datagram, with the answer of the device.
inductive Attempted (p : UdpPool δ) (index : Fin p.tx.queue.length) : UdpPool δ × Attempt → Prop
  | accepted (device : δ) : Device.send p.device [(p.tx.queue.get index).frame] = (device, .ok 1) →
    Attempted p index (submit { p with device } index, .accepted)
  | blocked (device : δ) : Attempted p index ({ p with device }, .blocked)
  | discarded (device : δ) (err : IoError) : isPermanent err.kind →
    Attempted p index (drop { p with device } index (.device err.kind), .discarded)
  | failed (device : δ) (err : IoError) :
    Device.send p.device [(p.tx.queue.get index).frame] = (device, .error err) →
    Attempted p index ({ p with device }, .failed err)
  | beyond (device : δ) (n : Nat) : 1 < n →
    Device.send p.device [(p.tx.queue.get index).frame] = (device, .ok n) →
    Attempted p index ({ p with device }, .failed beyondSlice)

theorem attempt_attempted (index : Fin p.tx.queue.length) :
    Attempted p index (p.attempt index) := by
  rw [attempt]
  rcases hsend : Device.send p.device [(p.tx.queue.get index).frame] with ⟨device, result⟩
  cases result
  case ok n =>
    rcases n with _ | _ | n
    case zero      => exact .blocked device
    case succ.zero => exact .accepted device hsend
    case succ.succ => exact .beyond device (n + 2) (by omega) hsend
  case error err =>
    dsimp only
    split
    case isTrue => exact .blocked device
    split
    case isTrue h => exact .discarded device err h
    case isFalse  => exact .failed device err hsend

variable {p}

-- What a selection can do, without the answers of the device: nothing, or the datagram that was
-- offered leaves the queue.
inductive Selected (s : Selection δ) : UdpPool δ → Option Queued → Prop
  | idle {p : UdpPool δ} : Aside s.pool p → Selected s p none
  | submitted {p : UdpPool δ} (device : δ) (index : Fin s.pool.tx.queue.length) :
    s.candidate = some index → p = submit { s.pool with device } index →
    Selected s p (some (s.pool.tx.queue.get index))
  | discarded {p : UdpPool δ} (device : δ) (index : Fin s.pool.tx.queue.length)
    (reason : UdpFailure) : s.candidate = some index →
    p = drop { s.pool with device } index reason → Selected s p none

theorem selected (s : Selection δ) : Selected s s.result s.submitted := by
  rw [Selection.result, Selection.submitted]
  cases hc : s.candidate
  case none => exact .idle (.refl _)
  case some index =>
    have ha := s.pool.attempt_attempted index
    rw [bind_some]
    dsimp only
    revert ha
    generalize s.pool.attempt index = o
    intro ha
    cases ha
    case accepted device _      => exact .submitted device index hc rfl
    case blocked device         => exact .idle (s.pool.device_aside device)
    case discarded device err _ => exact .discarded device index _ hc rfl
    case failed device _ _      => exact .idle (s.pool.device_aside device)
    case beyond device _ _ _    => exact .idle (s.pool.device_aside device)

-- A selection takes at most one datagram from the queue.
theorem result_keeps (s : Selection δ) :
    Keeps s.pool s.result ∧ s.result.tx.queue.Sublist s.pool.tx.queue ∧
    s.result.tx.peers.size = s.pool.tx.peers.size := by
  have h := selected s
  revert h
  generalize s.result = p
  generalize s.submitted = o
  intro h
  cases h
  case idle h => exact ⟨h.toKeeps, h.tx ▸ .refl _, h.tx ▸ rfl⟩
  case submitted device index _ hp =>
    obtain ⟨hk, htx⟩ := submit_keeps { s.pool with device } index
    rw [hp, htx]
    refine ⟨(s.pool.device_aside device).toKeeps.trans hk, eraseIdx_sublist .., ?_⟩
    exact TreeMap.size_modify.trans TreeMap.size_modify
  case discarded device index reason _ hp =>
    obtain ⟨hk, htx⟩ := drop_keeps { s.pool with device } index reason
    rw [hp, htx]
    refine ⟨(s.pool.device_aside device).toKeeps.trans hk, eraseIdx_sublist .., ?_⟩
    exact TreeMap.size_modify

theorem submitted_cases {s : Selection δ} {d : Queued} (h : s.submitted = some d) :
    ∃ index, s.candidate = some index ∧ s.pool.tx.queue.get index = d ∧
      s.result.tx.queue = s.pool.tx.queue.eraseIdx index := by
  have hs := selected s
  rw [h] at hs
  generalize s.result = p at hs
  cases hs
  case submitted device index hc hp =>
    refine ⟨index, hc, rfl, ?_⟩
    rw [hp, (submit_keeps ..).right]
    rfl

theorem Fresh.result {s : Selection δ} (h : Fresh s.pool) : Fresh s.result := by
  have ⟨hkeeps, hqueue, _⟩ := result_keeps s
  intro q hq t ht
  rw [hkeeps.now]
  exact h q (hqueue.subset hq) t ht

theorem flushRounds_trace (blockedPeers : List SocketAddr) (accepted rounds : Nat) (h : Fresh p) :
    Trace Work Selects p (p.roundSelections blockedPeers rounds)
      (p.flushRounds blockedPeers accepted rounds).fst := by
  induction rounds generalizing p blockedPeers accepted
  case zero => exact .refl
  case succ rounds ih =>
    rw [flushRounds, roundSelections]
    have hs : Selects p { pool := p, blockedPeers } _ := ⟨rfl, h, rfl⟩
    have hf := h.result (s := { pool := p, blockedPeers })
    revert hs hf
    simp only [Selection.result, Selection.candidate]
    cases p.tx.candidate p.now p.config.fairQueue blockedPeers
    case none => exact fun hs _ => .of_emit hs
    case some index =>
      dsimp only
      obtain ⟨p', attempt⟩ := p.attempt index
      intro hs hf
      cases attempt
      case failed err => exact .of_emit hs
      all_goals exact (Trace.of_emit hs).trans (ih _ _ hf)

theorem flush_trace (p : UdpPool δ) : Trace Work Selects p p.flushSelections p.flush.fst := by
  have ⟨hok, _⟩ := p.advance_sifted (le_rfl : p.now ≤ p.now)
  have hf : Fresh (p.advance p.now).fst := fresh_advance le_rfl
  have hw : Trace Work Selects p [] _ := .of_move (.advance p p.now)
  rw [flush, flushSelections]
  revert hok hf hw
  obtain ⟨p', result⟩ := p.advance p.now
  rintro rfl hf hw
  exact Trace.trans hw (flushRounds_trace [] 0 _ hf)

theorem poll_trace (p : UdpPool δ) (now lease : Duration) (budget : Nat)
    (handler : η → Datagram → η × Action) (h : η) :
    Trace Work Selects p (p.pollSelections now lease) (p.poll now lease budget handler h).fst := by
  rw [poll, collect, pollSelections]
  rcases lt_or_ge now p.now with hnow | hnow
  case inl =>
    rw [if_pos hnow, p.advance_error hnow]
    exact .refl
  have ⟨hok, _⟩ := p.advance_sifted hnow
  have hw : Trace Work Selects p [] _ := .of_move (.advance p now)
  rw [if_neg hnow.not_gt]
  revert hok hw
  obtain ⟨p₁, result⟩ := p.advance now
  rintro rfl hw
  rw [andThen_ok]
  dsimp only
  have hd : Trace Work Selects p₁ [] (p₁.pollDevice now).fst :=
    .of_move (.load (.aside (p₁.device_aside _)))
  revert hd
  obtain ⟨p₂, result⟩ := p₁.pollDevice now
  intro hd
  cases result
  case error err => exact hw.trans hd
  rw [andThen_ok]
  dsimp only
  have he : Trace Work Selects p₂ [] (p₂.expirePeers now lease) :=
    .of_move (.load (.aside (p₂.peers_aside _)))
  have hf := (p₂.expirePeers now lease).flush_trace
  have hw := (hw.trans hd).trans he
  generalize p₂.expirePeers now lease = p₃ at hw hf ⊢
  have hf := Trace.trans hw hf
  revert hf
  obtain ⟨p₄, result⟩ := p₃.flush
  intro hf
  cases result
  case error err => exact hf
  rw [andThen_ok]
  have hd : Trace Work Selects p₄ [] (p₄.recvDevice budget).fst :=
    .of_move (.load (.aside (p₄.device_aside _)))
  revert hd
  obtain ⟨p₅, result⟩ := p₄.recvDevice budget
  intro hd
  have hd := Trace.trans hf hd
  rw [nil_append, append_nil] at hd
  rcases result with err | frames
  case error => exact hd
  have hr := Trace.trans hd (p₅.receiveAll_works now handler h frames).trace
  rw [append_nil] at hr
  exact hr

-- Every operation is a run of moves and selections.
theorem step_trace {op : Op δ} (h : p.replaces op = false) :
    Trace Move Selects p (p.stepSelections op) (p.step op) := by
  have hmove {ls : List (Selection δ)} {p₁ p₂ : UdpPool δ} (h : Trace Work Selects p₁ ls p₂) :
      Trace Move Selects p₁ ls p₂ := h.mono fun _ _ => .work
  cases op
  case bind service                            => exact .of_move (.bind p service)
  case unbind address                          => exact .of_move (.unbind p address)
  case send source destination payload options => exact hmove (p.sendWithOptions_works ..).trace
  case discover source seed serviceId          => exact hmove (p.sendTo_works ..).trace
  case advance now                             => exact hmove (.of_move (.advance p now))
  case flush                                   => exact hmove p.flush_trace
  case poll now lease budget handler           => exact hmove (p.poll_trace ..)
  case popEvent =>
    exact .of_move (.work (.load (.aside ⟨⟨rfl, rfl, rfl, rfl⟩, rfl, rfl, rfl, rfl⟩)))
  case deviceMut f => exact .of_move (.work (.load (.aside (p.device_aside _))))
  case replaceServices services =>
    rw [replaces] at h
    rw [step, replaceServices]
    revert h
    cases p.validateServices services
    case error err => exact fun _ => .refl
    case ok replacement =>
      intro h
      dsimp only at h ⊢
      rw [if_pos (by simpa using h)]
      exact .refl

theorem step_install {op : Op δ} (h : p.replaces op = true) :
    p.stepSelections op = [] ∧ ∃ services, p.step op = p.installServices services := by
  cases op
  case replaceServices services =>
    rw [replaces] at h
    refine ⟨rfl, ?_⟩
    rw [step, replaceServices]
    revert h
    cases p.validateServices services
    case error err => exact nofun
    case ok replacement =>
      intro h
      dsimp only at h ⊢
      rw [if_neg (by simpa using h)]
      exact ⟨replacement, rfl⟩
  all_goals cases h

theorem selections_undisturbed {ops : List (Op δ)} (h : p.Undisturbed ops) :
    Trace Move Selects p (p.selections ops) (exec step p ops) :=
  .of_along (fun _ _ => step_trace) h

theorem step_changes (p : UdpPool δ) (op : Op δ) :
    Trace Change Selects p (p.stepSelections op) (p.step op) := by
  cases h : p.replaces op
  case false => exact (step_trace h).mono fun _ _ => .move
  case true  =>
    have ⟨hnone, services, heq⟩ := step_install h
    rw [hnone, heq]
    exact .of_move (.install p services)

theorem selections_trace (p : UdpPool δ) (ops : List (Op δ)) :
    Trace Change Selects p (p.selections ops) (exec step p ops) :=
  .of_exec step_changes

end

end UdpPool
