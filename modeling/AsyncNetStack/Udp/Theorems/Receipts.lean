import AsyncNetStack.Net.Theorems.Deliveries
import AsyncNetStack.Udp.Theorems.Moves

open Fallible Std Transition Udp

namespace UdpPool

variable {δ η : Type} {p p' p'' : UdpPool (EthernetIpv4 δ)}

-- The packets that were examined, valid or not.
def examinedCount (p : UdpPool (EthernetIpv4 δ)) : Nat :=
  p.stats.received + p.stats.invalid

-- No packet is examined, and the adapter receives none.
structure Unread (p p' : UdpPool (EthernetIpv4 δ)) : Prop where
  examined : p'.examinedCount = p.examinedCount
  adapter  : p.device.Unread p'.device

namespace Unread

theorem refl (p : UdpPool (EthernetIpv4 δ)) : Unread p p :=
  ⟨rfl, rfl⟩

theorem trans (h₁ : Unread p p') (h₂ : Unread p' p'') : Unread p p'' :=
  ⟨h₂.examined.trans h₁.examined, h₁.adapter.trans h₂.adapter⟩

-- Other changes before a step make no difference.
theorem after (h : Unread p' p'') (he : p'.examinedCount = p.examinedCount)
    (hd : p.device.Unread p'.device) : Unread p p'' :=
  trans ⟨he, hd⟩ h

theorem andThen {α β : Type} {o : UdpPool (EthernetIpv4 δ) × IoResult α}
    {f : UdpPool (EthernetIpv4 δ) → α → UdpPool (EthernetIpv4 δ) × IoResult β} (h : Unread p o.fst)
    (hf : ∀ p' a, Unread p' (f p' a).fst) : Unread p (andThen o f).fst :=
  andThen_of (P := Unread p) h fun p' a _ h => h.trans (hf p' a)

end Unread

variable (p)

theorem bump_unread {f : PoolStats → PoolStats}
    (h : (f p.stats).received + (f p.stats).invalid = p.examinedCount) : Unread p (p.bump f) :=
  ⟨h, rfl⟩

theorem event_unread (ev : UdpEvent) : Unread p (p.event ev) := by
  rw [event]
  repeat' split
  all_goals exact ⟨rfl, rfl⟩

theorem rejected_unread (source destination : SocketAddr)
    (reason : UdpFailure) : Unread p (p.rejected source destination reason) :=
  (event_unread ..).after rfl rfl

theorem finish_unread (q : Queued) (outcome : UdpOutcome) : Unread p (p.finish q outcome) := by
  cases outcome
  all_goals exact (event_unread ..).after rfl rfl

theorem drop_unread (index : Fin p.tx.queue.length) (reason : UdpFailure) :
    Unread p (p.drop index reason) := by
  rw [drop]
  exact (finish_unread ..).after rfl rfl

theorem dropWhere_unread (cond : Queued → Bool) (reason : UdpFailure)
    (i rounds : Nat) : Unread p (p.dropWhere cond reason i rounds) := by
  induction rounds generalizing p i
  case zero => exact .refl p
  case succ rounds ih =>
    rw [dropWhere]
    repeat' split
    case isTrue.isTrue  => exact (drop_unread ..).trans (ih ..)
    case isTrue.isFalse => exact ih ..
    case isFalse        => exact .refl p

theorem dropAll_unread (cond : Queued → Bool) (reason : UdpFailure) :
    Unread p (p.dropAll cond reason) :=
  dropWhere_unread ..

theorem advance_unread (now : Duration) : Unread p (p.advance now).fst := by
  rw [advance]
  split
  case isTrue  => exact .refl p
  case isFalse => exact (dropAll_unread ..).after rfl rfl

theorem unbind_unread (address : SocketAddr) : Unread p (p.unbind address).fst := by
  rw [unbind]
  split
  case isTrue  => exact (dropAll_unread ..).after rfl rfl
  case isFalse => exact .refl p

theorem replaceServices_unread (services : List Service) :
    Unread p (p.replaceServices services).fst := by
  rw [replaceServices]
  split
  case h_1 => exact .refl p
  split
  case isTrue  => exact .refl p
  case isFalse => exact (dropAll_unread ..).trans ⟨rfl, rfl⟩

theorem bind_unread (service : Service) : Unread p (p.bind service).fst := by
  rw [bind]
  repeat' split
  all_goals exact ⟨rfl, rfl⟩

theorem admission_unread (source destination : SocketAddr)
    (options : SendOptions) : Unread p (p.admission source destination options).fst := by
  rw [admission]
  repeat' split
  all_goals exact ⟨rfl, rfl⟩

theorem enqueue_unread (frame : PacketBuf) (source destination : SocketAddr)
    (options : SendOptions) : Unread p (p.enqueue frame source destination options).fst := by
  rw [enqueue]
  split <;> exact ⟨rfl, rfl⟩

theorem receiveAdvert_unread (now : Duration) (source : SocketAddr)
    (id : U32) : Unread p (p.receiveAdvert now source id) := by
  rw [receiveAdvert]
  split <;> exact ⟨rfl, rfl⟩

theorem submit_unread (index : Fin p.tx.queue.length) : Unread p (p.submit index) := by
  rw [submit]
  refine Unread.trans ?_ (bump_unread _ rfl)
  exact (finish_unread ..).after rfl rfl

theorem echo_unread (d : Datagram) (frame : PacketBuf) : Unread p (p.echo d frame).fst := by
  have ha := admission_unread p d.destination d.source {}
  rw [echo]
  generalize p.admission d.destination d.source {} = o at ha
  obtain ⟨p₁, _ | _⟩ := o
  case error => exact ha.trans ((rejected_unread ..).after rfl rfl)
  dsimp only
  split
  case isTrue  => exact ha.trans (enqueue_unread ..)
  case isFalse => exact ha

variable {p}

-- The identifiers that are in use once the queue is full.
def idCeiling (p : UdpPool δ) : Nat :=
  p.nextId + (p.config.queueCapacity - p.tx.queue.length)

theorem Works.idCeiling_le {p p' : UdpPool δ} (h : Works p p') : p'.idCeiling ≤ p.idCeiling := by
  induction h
  case refl => exact le_rfl
  case tail p₁ p₂ _ hl ih =>
    refine Nat.le_trans ?_ ih
    cases hl
    case aside ha => rw [idCeiling, idCeiling, ha.nextId, ha.config, ha.tx]
    case retain   => exact le_rfl
    case enqueue hadm _ =>
      have hroom := hadm.room
      rw [enqueue]
      split
      case isFalse => exact le_rfl
      simp only [idCeiling, Scheduler.push, List.length_append, List.length_singleton]
      omega

-- An answer has an identifier if there are enough of them for the whole queue.
theorem echo_ok {p : UdpPool δ} (h : p.idCeiling < 2 ^ 64) (d : Datagram) (frame : PacketBuf) :
    (p.echo d frame).snd = .ok () := by
  rw [echo]
  rcases p.admission_cases d.destination d.source {} with ⟨_, heq⟩ | ⟨_, heq⟩ | ⟨heq, hadm⟩
  case inl     => rw [heq]
  case inr.inl => rw [heq]
  case inr.inr =>
    have hid : p.retained.nextId + 1 < 2 ^ 64 := by
      have hroom := hadm.room
      change p.retained.idCeiling < _ at h
      rw [idCeiling] at h
      omega
    rw [heq]
    dsimp only
    split
    case isTrue  => rw [enqueue, if_pos hid]; rfl
    case isFalse => rfl

-- The identifiers and the limits stay as they are.
def SameIds (p p' : UdpPool δ) : Prop :=
  p'.nextId = p.nextId ∧ p'.config = p.config

theorem advance_sameIds (p : UdpPool δ) (now : Duration) : SameIds p (p.advance now).fst := by
  rcases lt_or_ge now p.now with h | h
  case inl =>
    rw [p.advance_error h]
    exact ⟨rfl, rfl⟩
  case inr => exact ⟨(p.advance_sifted h).right.nextId, (p.advance_sifted h).right.config⟩

section

variable [Device δ]

variable (p)

theorem sendWithOptions_unread (source destination : SocketAddr)
    (payload : List U8) (options : SendOptions) :
    Unread p (p.sendWithOptions source destination payload options).fst := by
  have ha := admission_unread p source destination options
  rw [sendWithOptions]
  generalize p.admission source destination options = o at ha
  obtain ⟨p₁, _ | _⟩ := o
  case error => exact ha.trans (rejected_unread ..)
  have hd : p₁.device.Unread (Device.alloc p₁.device).fst :=
    (EthernetIpv4.alloc_aloof p₁.device).received
  dsimp only
  generalize Device.alloc p₁.device = o at hd
  obtain ⟨device, _ | frame⟩ := o
  case none => exact ha.trans ((rejected_unread ..).after rfl hd)
  dsimp only
  split
  case h_1 => exact ha.trans ((rejected_unread ..).after rfl hd)
  case h_2 => exact ha.trans ((enqueue_unread ..).after rfl hd)

theorem advertise_unread (source : SocketAddr) (id : U32)
    (service : SocketAddr × U32) : Unread p (p.advertise source id service) := by
  have hs := sendWithOptions_unread p service.fst source (ADVERT ++ be32 id) {}
  rw [advertise, sendTo]
  generalize p.sendWithOptions service.fst source (ADVERT ++ be32 id) {} = o at hs
  obtain ⟨p₁, _ | _⟩ := o
  case error => exact hs.trans ⟨rfl, rfl⟩
  case ok    => exact hs

theorem receiveQuery_unread (d : Datagram) (id : U32) : Unread p (p.receiveQuery d id) := by
  rw [receiveQuery]
  generalize p.services.toList.filter _ = services
  induction services generalizing p
  case nil                      => exact .refl p
  case cons service services ih => exact (advertise_unread ..).trans (ih _)

theorem attempt_unread (index : Fin p.tx.queue.length) : Unread p (p.attempt index).fst := by
  have hd : p.device.Unread (Device.send p.device [(p.tx.queue.get index).frame]).fst :=
    (EthernetIpv4.send_aloof p.device _).received
  rw [attempt]
  generalize Device.send p.device [(p.tx.queue.get index).frame] = o at hd
  repeat' split
  all_goals first
    | exact ⟨rfl, hd⟩
    | exact (submit_unread ..).after rfl hd
    | exact (drop_unread ..).after rfl hd

theorem flushRounds_unread (blockedPeers : List SocketAddr)
    (accepted rounds : Nat) : Unread p (p.flushRounds blockedPeers accepted rounds).fst := by
  induction rounds generalizing p blockedPeers accepted
  case zero => exact .refl p
  case succ rounds ih =>
    rw [flushRounds]
    split
    case h_1 => exact .refl p
    case h_2 index _ =>
      have ha := attempt_unread p index
      split
      all_goals
        rename_i heq
        rw [heq] at ha
      case h_3 => exact ha
      all_goals exact ha.trans (ih ..)

theorem flush_unread : Unread p p.flush.fst :=
  (advance_unread p p.now).andThen fun p' _ => flushRounds_unread p' ..

-- Each frame is examined once.
theorem receive_counts (now : Duration)
    (handler : η → Datagram → η × Action) (h : η) (frame : PacketBuf) :
    (p.receive now handler h frame).fst.examinedCount = p.examinedCount + 1 ∧
    p.device.Unread (p.receive now handler h frame).fst.device := by
  have hinvalid (p : UdpPool (EthernetIpv4 δ)) :
      examinedCount (p.bump fun s => { s with invalid := s.invalid + 1 }) = p.examinedCount + 1 :=
    (Nat.add_assoc ..).symm
  have hreceived (p : UdpPool (EthernetIpv4 δ)) :
      examinedCount (p.bump fun s => { s with received := s.received + 1 }) = p.examinedCount + 1 :=
    Nat.add_right_comm ..
  have hlater {p' : UdpPool (EthernetIpv4 δ)}
      (hu : Unread (p.bump fun s => { s with received := s.received + 1 }) p') :
      p'.examinedCount = p.examinedCount + 1 ∧ p.device.Unread p'.device :=
    ⟨hu.examined.trans (hreceived p), hu.adapter⟩
  rw [receive]
  split
  case h_1 => exact ⟨hinvalid p, rfl⟩
  dsimp only
  repeat' split
  all_goals first
    | exact hlater ⟨rfl, rfl⟩
    | exact hlater (receiveQuery_unread ..)
    | exact hlater (receiveAdvert_unread ..)
    | exact hlater (echo_unread ..)

-- The frames of a batch that are examined. An error ends the loop.
def handled (p : UdpPool (EthernetIpv4 δ)) (now : Duration) (handler : η → Datagram → η × Action)
    (h : η) :
    List PacketBuf → List PacketBuf
  | []              => []
  | frame :: frames =>
    match p.receive now handler h frame with
    | (_, _, .error _) => [frame]
    | (p, h, .ok ())   => frame :: p.handled now handler h frames

theorem receiveAll_counts (now : Duration)
    (handler : η → Datagram → η × Action) (h : η) (frames : List PacketBuf) :
    (p.receiveAll now handler h frames).fst.examinedCount =
      p.examinedCount + (p.handled now handler h frames).length ∧
    p.device.Unread (p.receiveAll now handler h frames).fst.device := by
  induction frames generalizing p h
  case nil => exact ⟨rfl, rfl⟩
  case cons frame frames ih =>
    obtain ⟨hcount, hdevice⟩ := receive_counts p now handler h frame
    rw [receiveAll, handled]
    generalize p.receive now handler h frame = o at hcount hdevice
    obtain ⟨p₁, h₁, _ | _⟩ := o
    case error => exact ⟨hcount, hdevice⟩
    obtain ⟨hrest, hrestDevice⟩ := ih p₁ h₁
    refine ⟨hrest.trans ?_, hdevice.trans hrestDevice⟩
    rw [show p₁.examinedCount = _ from hcount, List.length_cons]
    omega

theorem receive_ok {p : UdpPool δ} (hp : p.idCeiling < 2 ^ 64) (now : Duration)
    (handler : η → Datagram → η × Action) (h : η) (frame : PacketBuf) :
    (p.receive now handler h frame).snd.snd = .ok () := by
  rw [receive]
  dsimp only
  repeat' split
  all_goals first
    | rfl
    | exact echo_ok (p := p.bump _) hp ..

theorem handled_eq {p : UdpPool (EthernetIpv4 δ)} (hp : p.idCeiling < 2 ^ 64) (now : Duration)
    (handler : η → Datagram → η × Action) (h : η) (frames : List PacketBuf) :
    p.handled now handler h frames = frames := by
  induction frames generalizing p h
  case nil => rfl
  case cons frame frames ih =>
    have hok := receive_ok hp now handler h frame
    have hworks := (p.receive_works now handler h frame).idCeiling_le
    rw [handled]
    generalize p.receive now handler h frame = o at hok hworks
    obtain ⟨p₁, h₁, _ | _⟩ := o
    case error => cases hok
    case ok    => exact congrArg (frame :: ·) (ih (hworks.trans_lt hp) h₁)

theorem flush_sameIds (p : UdpPool δ) : SameIds p p.flush.fst := by
  have hrounds (p : UdpPool δ) (blockedPeers : List SocketAddr) (accepted rounds : Nat) :
      Keeps p (p.flushRounds blockedPeers accepted rounds).fst := by
    induction rounds generalizing p blockedPeers accepted
    case zero => exact .refl p
    case succ rounds ih =>
      have hk := (result_keeps { pool := p, blockedPeers }).left
      rw [flushRounds]
      simp only [Selection.result, Selection.candidate] at hk
      cases hc : p.tx.candidate p.now p.config.fairQueue blockedPeers
      case none => exact .refl p
      case some index =>
        simp only [hc] at hk
        dsimp only
        generalize p.attempt index = o at hk
        obtain ⟨p', attempt⟩ := o
        cases attempt
        case failed => exact hk
        all_goals exact hk.trans (ih ..)
  refine andThen_of (P := SameIds p) (advance_sameIds p p.now) fun p₁ _ _ h => ?_
  have hk := hrounds p₁ [] 0 p₁.config.txBudget
  exact ⟨hk.nextId.trans h.left, hk.config.trans h.right⟩

-- What a call to `poll` does before it receives.
def approach (now lease : Duration) : UdpPool (EthernetIpv4 δ) × IoResult Unit :=
  if now < p.now then
    (p, .error (.invalid "time went backwards"))
  else
    andThen (p.advance now) fun p _ =>
    andThen (p.pollDevice now) fun p _ =>
    andThen (p.expirePeers now lease).flush fun p _ => (p, .ok ())

theorem collect_eq (now lease : Duration) (budget : Nat) :
    p.collect now lease budget = andThen (p.approach now lease) fun p _ => p.recvDevice budget := by
  rw [collect, approach]
  split
  case isTrue => rfl
  obtain ⟨p₁, _ | _⟩ := p.advance now
  case error => rfl
  dsimp only [andThen_ok]
  obtain ⟨p₂, _ | _⟩ := p₁.pollDevice now
  case error => rfl
  dsimp only [andThen_ok]
  obtain ⟨p₃, _ | _⟩ := (p₂.expirePeers now lease).flush
  case error => rfl
  case ok    => rfl

theorem approach_unread (now lease : Duration) : Unread p (p.approach now lease).fst := by
  rw [approach]
  split
  case isTrue => exact .refl p
  have hpoll (p : UdpPool (EthernetIpv4 δ)) : Unread p (p.pollDevice now).fst :=
    ⟨rfl, EthernetIpv4.pollAt_unread p.device now⟩
  have hflush (p : UdpPool (EthernetIpv4 δ)) : Unread p (p.expirePeers now lease).flush.fst :=
    (flush_unread _).after rfl rfl
  exact (advance_unread p now).andThen fun p₁ _ =>
    (hpoll p₁).andThen fun p₂ _ => (hflush p₂).andThen fun p₃ _ => .refl p₃

variable {p}

theorem approach_idCeiling {p₁ : UdpPool (EthernetIpv4 δ)} {now lease : Duration}
    (h : p.approach now lease = (p₁, .ok ())) :
    p₁.idCeiling ≤ p.nextId + p.config.queueCapacity := by
  have hsame : SameIds p (p.approach now lease).fst := by
    rw [approach]
    split
    case isTrue => exact ⟨rfl, rfl⟩
    refine andThen_of (P := SameIds p) (advance_sameIds p now) fun p₁ _ _ h₁ => ?_
    refine andThen_of (P := SameIds p) h₁ fun p₂ _ _ h₂ => ?_
    refine andThen_of (P := SameIds p) ?_ fun _ _ _ h₃ => h₃
    have hf := flush_sameIds (p₂.expirePeers now lease)
    exact ⟨hf.left.trans h₂.left, hf.right.trans h₂.right⟩
  rw [h] at hsame
  rw [idCeiling, ← hsame.left, ← hsame.right]
  exact Nat.add_le_add_left (Nat.sub_le ..) _

-- The packets that the adapter receives in an operation.
def arrived (p : UdpPool (EthernetIpv4 δ)) : Op (EthernetIpv4 δ) → List PacketBuf
  | .poll now lease budget _ =>
    match p.approach now lease with
    | (_, .error _) => []
    | (p, .ok ())   => p.device.recvPackets (min budget p.config.queueCapacity)
  | _ => []

-- The packets that are examined in an operation.
def examined (p : UdpPool (EthernetIpv4 δ)) : Op (EthernetIpv4 δ) → List PacketBuf
  | .poll now lease budget handler =>
    match p.collect now lease budget with
    | (_, .error _)    => []
    | (p, .ok packets) => p.handled now (fun n d => (n + 1, handler n d)) 0 packets
  | _ => []

-- When the adapter sends its queues at the end of a poll, the device does not fail, and there are
-- identifiers for all answers. Only polls receive packets.
def Op.Reads (p : UdpPool (EthernetIpv4 δ)) : Op (EthernetIpv4 δ) → Prop
  | .poll now lease budget _ =>
    p.nextId + p.config.queueCapacity < 2 ^ 64 ∧
    ∀ p₁ e, p.approach now lease = (p₁, .ok ()) →
      p₁.device.sending (.recv (min budget p₁.config.queueCapacity)) = some e → e.Unfailing
  | .deviceMut f => p.device.Unread (f p.device)
  | _            => True

theorem poll_counts (p : UdpPool (EthernetIpv4 δ)) (now lease : Duration) (budget : Nat)
    (handler : Nat → Datagram → Action) :
    let op := .poll now lease budget handler
    (p.step op).examinedCount = p.examinedCount + (p.examined op).length ∧
    (p.step op).device.stats.receivedIp = p.device.stats.receivedIp + (p.arrived op).length := by
  have ha := approach_unread p now lease
  dsimp only
  rw [step, examined, arrived, poll, collect_eq]
  generalize p.approach now lease = o at ha
  obtain ⟨p₁, _ | _⟩ := o
  case error => exact ⟨ha.examined, ha.adapter⟩
  have hrecv := EthernetIpv4.recv_counts p₁.device (min budget p₁.config.queueCapacity)
  dsimp only [andThen_ok]
  rw [recvDevice, ← show p₁.device.stats.receivedIp = p.device.stats.receivedIp from ha.adapter,
    ← hrecv]
  change _ ∧ _ = (Device.recv p₁.device _).fst.stats.receivedIp
  generalize Device.recv p₁.device _ = o
  obtain ⟨device, _ | packets⟩ := o
  case error => exact ⟨ha.examined, rfl⟩
  obtain ⟨hcount, hdevice⟩ := receiveAll_counts { p₁ with device } now
    (fun n d => (n + 1, handler n d)) 0 packets
  exact ⟨hcount.trans (congrArg (· + _) ha.examined), hdevice⟩

theorem step_counts {op : Op (EthernetIpv4 δ)} (h : op.Reads p) :
    (p.step op).examinedCount = p.examinedCount + (p.examined op).length ∧
    (p.step op).device.stats.receivedIp = p.device.stats.receivedIp + (p.arrived op).length := by
  have hunread {p' : UdpPool (EthernetIpv4 δ)} (hu : Unread p p') :
      p'.examinedCount = p.examinedCount + 0 ∧
      p'.device.stats.receivedIp = p.device.stats.receivedIp + 0 :=
    ⟨hu.examined, hu.adapter⟩
  cases op
  case poll now lease budget handler => exact poll_counts p now lease budget handler
  case bind service                  => exact hunread (bind_unread p service)
  case unbind address                => exact hunread (unbind_unread p address)
  case replaceServices services      => exact hunread (replaceServices_unread p services)
  case send s d payload options      => exact hunread (sendWithOptions_unread p s d payload options)
  case discover s seed id            =>
    exact hunread (sendWithOptions_unread p s seed (QUERY ++ be32 id) {})
  case advance now                   => exact hunread (advance_unread p now)
  case flush                         => exact hunread (flush_unread p)
  case popEvent                      => exact hunread ⟨rfl, rfl⟩
  case deviceMut f                   => exact hunread ⟨rfl, h⟩

-- A poll examines all packets that it receives.
theorem examined_eq {op : Op (EthernetIpv4 δ)} (h : op.Reads p) : p.examined op = p.arrived op := by
  cases op
  case poll now lease budget handler =>
    obtain ⟨hids, hsending⟩ := h
    rw [examined, arrived, collect_eq]
    cases ha : p.approach now lease
    case mk p₁ result =>
      cases result
      case error => rfl
      have hfailed := EthernetIpv4.recv_failed (hsending p₁ · ha)
      dsimp only [andThen_ok]
      rw [recvDevice]
      cases hrecv : Device.recv p₁.device (min budget p₁.config.queueCapacity)
      case mk device result =>
        cases result
        case error => exact (hfailed (congrArg (·.snd.isOk) hrecv)).symm
        case ok packets =>
          have hceiling := (approach_idCeiling ha).trans_lt hids
          rw [← EthernetIpv4.recv_packets hrecv]
          exact handled_eq (p := { p₁ with device }) hceiling ..
  all_goals rfl

-- All packets that the adapter receives are examined, each of them once and in the order of
-- arrival, as long as the device does not fail when the adapter sends its queues after it has
-- received packets.
theorem received_examined (p₀ : UdpPool (EthernetIpv4 δ)) {ops : List (Op (EthernetIpv4 δ))}
    (h : Along step (fun p op => op.Reads p) p₀ ops) :
    let p := exec step p₀ ops
    logs step examined p₀ ops = logs step arrived p₀ ops ∧
    p.stats.received + p.stats.invalid =
      p₀.stats.received + p₀.stats.invalid + (logs step examined p₀ ops).length ∧
    p.device.stats.receivedIp = p₀.device.stats.receivedIp + (logs step arrived p₀ ops).length := by
  induction ops generalizing p₀
  case nil => exact ⟨rfl, rfl, rfl⟩
  case cons op ops ih =>
    have ⟨hop, hrest⟩ := h
    have ⟨hexamined, hreceived⟩ := step_counts hop
    have ⟨hlogs, hexaminedRest, hreceivedRest⟩ := ih (p₀.step op) hrest
    rw [logs, logs, examined_eq hop, hlogs]
    rw [examined_eq hop] at hexamined
    rw [hlogs] at hexaminedRest
    refine ⟨rfl, hexaminedRest.trans ?_, hreceivedRest.trans ?_⟩
    case refine_1 =>
      rw [show (p₀.step op).stats.received + (p₀.step op).stats.invalid = _ from hexamined,
        List.length_append, Nat.add_assoc]
      rfl
    case refine_2 => rw [hreceived, List.length_append, Nat.add_assoc]

end

-- A UDP datagram from 10.0.0.2 to 10.0.0.1.
def datagramFromPeer : PacketBuf where
  memory     :=
    Ethernet.Header.encode ⟨0x020000000001#48, 2#48, Ethernet.IPV4⟩ ++
    [0x45, 0, 0, 28, 0, 0, 0, 0, 64, 17] ++
    be16 (checksum
      ([0x45, 0, 0, 28, 0, 0, 0, 0, 64, 17, 0, 0] ++ be32 0x0a000002 ++ be32 0x0a000001)) ++
    be32 0x0a000002 ++ be32 0x0a000001 ++ [0, 7, 0, 7, 0, 8, 0, 0]
  dataOffset := 0
  len        := 42
  idx        := 0
  pool       := none
  bound      := by decide

-- A device that receives a request for the link address of 10.0.0.1 and a datagram in every call.
def requesting (sent : IoResult Nat) : Device.Script where
  polled    := .ok ()
  received  := .ok [EthernetIpv4.requestFromPeer, datagramFromPeer]
  sent      := sent
  allocated := some {
    memory     := List.replicate 2048 0
    dataOffset := 0
    len        := 0
    idx        := 0
    pool       := none
    bound      := Nat.zero_le _
  }

def overScript (sent : IoResult Nat) : IoResult (UdpPool (EthernetIpv4 Device.Script)) := do
  let device ← EthernetIpv4.new (requesting sent) (.new 0x0a000001#32 24 0x020000000001#48) id
  withConfig device .default

theorem overScript_any (sent : IoResult Nat) {c : UdpPool (EthernetIpv4 Device.Script) → Bool}
    (h : (overScript sent).toOption.any c = true) :
    ∃ p₀, overScript sent = .ok p₀ ∧ c p₀ = true := by
  generalize overScript sent = o at h
  cases o
  case error => cases h
  case ok p₀ => exact ⟨p₀, rfl, h⟩

theorem script_unfailing {e : EthernetIpv4 Device.Script} (h : e.device.sent.isOk = true) :
    e.Unfailing := by
  have hdefers {e : EthernetIpv4 Device.Script} {queue : List PacketBuf}
      (h : e.device.sent.isOk = true) : e.Defers queue := by
    intro err _ hsent
    rw [show e.device.sent = .error err from hsent] at h
    cases h
  refine ⟨hdefers h, fun e' n heq _ => hdefers ?_⟩
  have hdevice : (e.flushFront e.control).fst.device = e.device := by
    cases e.control <;> rfl
  rw [heq] at hdevice
  rw [EthernetIpv4.submitControl_device, show e'.device = _ from hdevice]
  exact h

theorem received_examined_script : ∃ p₀, overScript (.ok 1) = .ok p₀ ∧
    let ops := [.poll (.fromSecs 1) (.fromSecs 1) 4 fun _ _ => .ignore]
    let p := exec step p₀ ops
    (logs step arrived p₀ ops).length = 1 ∧
    logs step examined p₀ ops = logs step arrived p₀ ops ∧
    p.stats.received + p.stats.invalid =
      p₀.stats.received + p₀.stats.invalid + (logs step examined p₀ ops).length ∧
    p.device.stats.receivedIp = p₀.device.stats.receivedIp + (logs step arrived p₀ ops).length := by
  have ⟨p₀, h, hc⟩ := overScript_any (.ok 1) (c := fun p₀ =>
    let p := (p₀.approach (.fromSecs 1) (.fromSecs 1)).fst
    (p₀.arrived (.poll (.fromSecs 1) (.fromSecs 1) 4 fun _ _ => .ignore)).length == 1 &&
    p₀.nextId + p₀.config.queueCapacity < 2 ^ 64 &&
    (p.device.sending (.recv (min 4 p.config.queueCapacity))).all (·.device.sent.isOk))
    (by decide +kernel)
  simp only [Bool.and_eq_true, beq_iff_eq, decide_eq_true_eq] at hc
  obtain ⟨⟨hlen, hids⟩, hsent⟩ := hc
  refine ⟨p₀, h, ?_, received_examined p₀ ⟨⟨hids, fun p₁ e ha he => script_unfailing ?_⟩, trivial⟩⟩
  · rw [logs, logs, List.append_nil]
    exact hlen
  · rw [ha, show p₁.device.sending _ = some e from he] at hsent
    exact hsent

-- The answer to the request cannot be sent in the first call. In the second one the device is idle.
def lossyPolls : List (Op (EthernetIpv4 Device.Script)) :=
  [.poll (.fromSecs 1) (.fromSecs 1) 4 fun _ _ => .ignore,
    .deviceMut fun e => { e with device := { e.device with received := .ok [], sent := .ok 1 } },
    .poll (.fromSecs 2) (.fromSecs 1) 4 fun _ _ => .ignore]

theorem received_lost : ∃ p₀, overScript (.error { kind := .other 0, message := "" }) = .ok p₀ ∧
    let p := exec step p₀ lossyPolls
    p.device.stats.receivedIp = 1 ∧ p.stats.received + p.stats.invalid = 0 ∧
    p.device.control = [] ∧ p.now = .fromSecs 2 := by
  have ⟨p₀, h, hc⟩ := overScript_any (.error { kind := .other 0, message := "" })
    (c := fun p₀ =>
      let p := exec step p₀ lossyPolls
      p.device.stats.receivedIp == 1 && p.stats.received + p.stats.invalid == 0 &&
      p.device.control == [] && p.now == .fromSecs 2) (by decide +kernel)
  simp only [Bool.and_eq_true, beq_iff_eq] at hc
  obtain ⟨⟨⟨hreceived, hexamined⟩, hcontrol⟩, hnow⟩ := hc
  exact ⟨p₀, h, hreceived, hexamined, hcontrol, hnow⟩

end UdpPool
