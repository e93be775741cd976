import AsyncNetStack.Tcp.Theorems.Input
import AsyncNetStack.Tcp.Theorems.Pool
import AsyncNetStack.Tcp.Theorems.Transmit

open Tcp Fallible

namespace Connection

-- What a pool does to one of its connections, apart from handing it out.
inductive Turn (cfg : TcpConfig) (c : Connection) : Connection → Prop
  | input (segment : Segment) (now : Duration) : Turn cfg c (c.input segment now cfg)
  | tick (now : Duration) : Turn cfg c (c.tick now cfg)
  | transmit (now : Duration) (outcome : Submission) :
    Turn cfg c (c.transmitted now cfg outcome).fst
  | write (bytes : List U8) : Turn cfg c (c.write bytes cfg).fst
  | read (size : Nat) : Turn cfg c (c.read size).fst
  | close (now : Duration) : Turn cfg c (c.close now cfg).fst
  | fail (state : TcpState) (localError : Option ErrorKind) : state.isFailure →
    Turn cfg c { c.fail state with localError }
  | report (reported : Option (TcpState × TcpWait × Nat)) (reportedFlow : Option FlowStatus)
      (reportedAt : Duration) :
    Turn cfg c { c with reported, reportedFlow, reportedAt }

-- The addresses of a connection, and whether it was handed out.
def identity (c : Connection) : SocketAddr × SocketAddr × Bool :=
  (c.localAddr, c.remoteAddr, c.accepted)

section Identity

variable (c : Connection) (segment : Segment) (now : Duration) (cfg : TcpConfig)

theorem identity_updateWindow : (c.updateWindow segment).identity = c.identity := by
  unfold updateWindow
  split <;> rfl

theorem identity_updateRto (sample : Duration) :
    (c.updateRto sample cfg).identity = c.identity := by
  unfold updateRto
  split
  rfl

theorem identity_growCwnd (flags : U8) (n : Nat) :
    (c.growCwnd flags n cfg).identity = c.identity := by
  unfold growCwnd
  dsimp only
  repeat' split
  all_goals rfl

theorem identity_finAcknowledged : (c.finAcknowledged now cfg).identity = c.identity := by
  unfold finAcknowledged
  split <;> rfl

theorem identity_progress (ack : U32) : (c.progress ack now cfg).identity = c.identity := by
  unfold progress
  dsimp only
  have hrestart (c : Connection) : (c.restartTimer now).identity = c.identity := rfl
  split
  case isTrue => rfl
  split
  · rw [identity_finAcknowledged, identity_growCwnd, hrestart]
    split
    · exact identity_updateRto ..
    · rfl
  · rw [identity_growCwnd, hrestart]
    split
    · exact identity_updateRto ..
    · rfl

theorem identity_acknowledge : (c.acknowledge segment now cfg).identity = c.identity := by
  unfold acknowledge
  dsimp only
  split
  · rfl
  split
  · exact identity_updateWindow ..
  · rw [identity_progress, identity_updateWindow]

theorem identity_receiveData : (c.receiveData segment now cfg).identity = c.identity := by
  have hfin (c : Connection) : (c.finReceived now cfg).identity = c.identity := by
    unfold finReceived
    dsimp only
    split <;> rfl
  rcases c.receiveData_cases segment now cfg with h | h | ⟨_, -, h⟩ | ⟨_, -, h⟩ <;> rw [h]
  case inr.inr.inr => exact hfin _
  all_goals rfl

theorem identity_input : (c.input segment now cfg).identity = c.identity := by
  have h := c.input_cases segment now cfg
  generalize c.input segment now cfg = c' at h
  cases h
  case ignored  => rfl
  case quiet hq =>
    rw [hq.frame]
    rfl
  case reset    => rfl
  case opened   => exact (identity_receiveData ..).trans (identity_acknowledge ..)
  case answered =>
    split
    · exact identity_acknowledge ..
    · exact (identity_receiveData ..).trans (identity_acknowledge ..)
  case accepted =>
    split
    · exact identity_acknowledge ..
    · exact (identity_receiveData ..).trans (identity_acknowledge ..)

theorem identity_stage : (c.stage now cfg).fst.identity = c.identity := by
  have hprepare : (c.prepare now cfg).identity = c.identity := by
    unfold prepare prepareData prepareFin restartIdle
    dsimp only
    repeat' split
    all_goals rfl
  have hrecheck (c : Connection) (i : Nat) : (c.recheck i now).fst.identity = c.identity := by
    unfold recheck trim
    dsimp only
    repeat' split
    all_goals rfl
  unfold stage
  dsimp only
  split
  · exact (hrecheck _ _).trans hprepare
  · exact hprepare

theorem identity_record (index : Option Nat) :
    (c.record index now cfg).fst.identity = c.identity := by
  have hflight (i : Nat) : (c.recordFlight i now cfg).fst.identity = c.identity := by
    unfold recordFlight retransmit
    dsimp only
    repeat' split
    all_goals rfl
  unfold record
  dsimp only
  repeat' split
  all_goals first | rfl | exact hflight _

theorem identity_transmitted (outcome : Submission) :
    (c.transmitted now cfg outcome).fst.identity = c.identity := by
  unfold transmitted
  dsimp only
  split
  · rfl
  split
  · exact identity_stage ..
  split
  · exact identity_stage ..
  · exact identity_stage ..
  · exact (identity_record ..).trans (identity_stage ..)

end Identity

namespace Turn

variable {cfg : TcpConfig} {c c' : Connection}

theorem identity_eq (h : Turn cfg c c') : c'.identity = c.identity := by
  cases h
  case input    => exact identity_input ..
  case tick now => rcases c.tick_cases now cfg with h | ⟨-, h⟩ | ⟨-, h⟩ <;> rw [h] <;> rfl
  case transmit => exact identity_transmitted ..
  case write bytes =>
    rcases c.write_cases bytes cfg with ⟨_, h⟩ | h | ⟨_, -, -, -, h⟩ <;> simp only [h, identity]
  case read size =>
    rcases c.read_cases size with ⟨_, h⟩ | ⟨h, -⟩ | ⟨_, h, -⟩ <;> simp only [h, identity]
  case close now =>
    rcases c.close_cases now cfg with ⟨-, h⟩ | ⟨_, h⟩ | ⟨-, _, h⟩ <;> simp only [h, identity]
  case fail     => rfl
  case report   => rfl

-- A connection does not come back to life.
theorem terminal (h : Turn cfg c c') (ht : c.state.isTerminal) : c'.state.isTerminal := by
  cases h
  case input    => rwa [Connection.input, if_pos ht]
  case tick     => rwa [tick_terminal ht]
  case transmit => rwa [transmitted, if_pos ht]
  case write    => exact (congrArg (fun f : Fate => f.state.isTerminal) (fate_write ..)).trans ht
  case read     => exact (congrArg (fun f : Fate => f.state.isTerminal) (fate_read ..)).trans ht
  case close    => exact (congrArg (fun f : Fate => f.state.isTerminal) (fate_close ..)).trans ht
  case fail h   => exact TcpState.isTerminal_of_isFailure h
  case report   => exact ht

theorem inv (h : Turn cfg c c') (hv : cfg.Valid) (hi : c.Inv cfg) : c'.Inv cfg := by
  cases h
  case input segment now     => exact input_inv hv hi segment now
  case tick now              => exact tick_inv hi now
  case transmit now outcome  => exact transmitted_inv hv hi now outcome
  case write bytes           => exact write_inv hi bytes
  case read size             => exact read_inv hi size
  case close now             => exact close_inv hi now
  case fail h                => exact { fail_inv hi h with }
  case report                => exact { hi with }

end Turn

-- Any number of turns.
def Turns (cfg : TcpConfig) : Connection → Connection → Prop :=
  Relation.ReflTransGen (Turn cfg)

namespace Turns

variable {cfg : TcpConfig} {c c' : Connection}

theorem refl (c : Connection) : Turns cfg c c :=
  Relation.ReflTransGen.refl

theorem of_turn (h : Turn cfg c c') : Turns cfg c c' :=
  Relation.ReflTransGen.single h

-- The invariant rule for turns.
theorem induction {P : Connection → Prop} (h : Turns cfg c c') (hi : P c)
    (ht : ∀ c c', Turn cfg c c' → P c → P c') : P c' := by
  induction h
  case refl => exact hi
  case tail h ih => exact ht _ _ h ih

theorem identity_eq (h : Turns cfg c c') : c'.identity = c.identity :=
  h.induction (P := fun c' => c'.identity = c.identity) rfl fun _ _ ht h => ht.identity_eq.trans h

theorem terminal (h : Turns cfg c c') (ht : c.state.isTerminal) : c'.state.isTerminal :=
  h.induction ht fun _ _ ht h => ht.terminal h

end Turns

end Connection

namespace TcpPool

variable {δ : Type}

-- What the calls of a pool consist of.
-- * `aside`: nothing happens to the tables
-- * `turns`: some connections have a turn
-- * `release`: some connections are dropped
-- * `open`: a connection comes into being, with addresses that no live connection uses
inductive Act (p : TcpPool δ) : TcpPool δ → Prop
  | aside (device : δ) (now : Duration) (stats : TcpStats) (outputs : List Output) :
    Act p { p with device, now, stats, outputs }
  | turns {connections : Std.TreeMap ConnectionId Connection} :
    (∀ id : ConnectionId,
      Option.Rel (Connection.Turns p.config) p.connections[id]? connections[id]?) →
    Act p { p with connections }
  | release {connections : Std.TreeMap ConnectionId Connection} :
    (∀ (id : ConnectionId) c, connections[id]? = some c → p.connections[id]? = some c) →
    Act p { p with connections }
  | active {localAddr remoteAddr : SocketAddr} (iss : U32) :
    (validateAddress localAddr).isOk → (validateAddress remoteAddr).isOk →
    p.find localAddr remoteAddr = none → p.connections.size ≠ p.config.maxConnections →
    Act p {
      p with
      nextId      := p.nextId + 1
      connections := p.connections.insert p.nextId (.active localAddr remoteAddr iss p.now p.config)
    }
  | passive {syn : Segment} (iss : U32) :
    (validateAddress syn.source).isOk → (validateAddress syn.destination).isOk →
    p.find syn.destination syn.source = none → p.connections.size ≠ p.config.maxConnections →
    syn.destination ∈ p.listeners →
    Act p {
      p with
      nextId      := p.nextId + 1
      connections := p.connections.insert p.nextId (.passive syn iss p.now p.config)
    }
  | accept {id : ConnectionId} {c : Connection} : p.connections[id]? = some c →
    Act p { p with connections := p.connections.insert id { c with accepted := true } }
  | listen (address : SocketAddr) : p.listeners.size ≠ p.config.maxListeners →
    Act p { p with listeners := p.listeners.insert address }
  | unlisten (address : SocketAddr) :
    Act p (p.unlisten address)
  | queue (reset : Reset) : p.resets.length ≠ p.config.controlCapacity →
    Act p { p with resets := p.resets ++ [reset] }
  | flush {reset : Reset} {resets : List Reset} : p.resets = reset :: resets →
    Act p { p with resets }
  | event (e : TcpEvent) : p.config.verboseState →
    Act p { p with
      events :=
      (if p.events.length = p.config.eventCapacity then p.events.tail else p.events) ++ [e] }
  | popEvent :
    Act p { p with events := p.events.tail }

def Acts : TcpPool δ → TcpPool δ → Prop :=
  Relation.ReflTransGen Act

variable {p p' p'' : TcpPool δ} {id i : ConnectionId} {c c' : Connection}

namespace Acts

theorem refl (p : TcpPool δ) : Acts p p :=
  Relation.ReflTransGen.refl

theorem trans (h₁ : Acts p p') (h₂ : Acts p' p'') : Acts p p'' :=
  Relation.ReflTransGen.trans h₁ h₂

theorem of_act (h : Act p p') : Acts p p' :=
  Relation.ReflTransGen.single h

theorem unchanged {cfg : TcpConfig} (o : Option Connection) :
    Option.Rel (Connection.Turns cfg) o o := by
  cases o
  case none   => exact .none
  case some c => exact .some (.refl c)

theorem aside (device : δ) (now : Duration) (stats : TcpStats) (outputs : List Output) :
    Acts p { p with device, now, stats, outputs } :=
  of_act (.aside device now stats outputs)

theorem turns (hc : p.connections[id]? = some c) (h : Connection.Turns p.config c c') :
    Acts p { p with connections := p.connections.insert id c' } := by
  refine of_act (.turns fun i => ?_)
  rw [Std.TreeMap.getElem?_insert]
  split
  case isFalse => exact unchanged _
  case isTrue he =>
    obtain rfl := Std.LawfulEqOrd.eq_of_compare he
    rw [hc]
    exact .some h

theorem turn (hc : p.connections[id]? = some c) (h : c.Turn p.config c') :
    Acts p { p with connections := p.connections.insert id c' } :=
  turns hc (.of_turn h)

theorem andThen {α β : Type} {o : TcpPool δ × IoResult α}
    {f : TcpPool δ → α → TcpPool δ × IoResult β} (ho : Acts p o.fst)
    (hf : ∀ s a, Acts s (f s a).fst) : Acts p (andThen o f).fst :=
  andThen_of (P := Acts p) ho fun s a _ hs => hs.trans (hf s a)

end Acts

theorem reportState_acts (hv : p.config.verboseState) (id : ConnectionId) :
    Acts p (p.reportState id) := by
  unfold reportState
  split
  case h_1 => exact .refl p
  case h_2 c hc =>
    dsimp only
    split
    · exact .refl p
    · let status := c.status p.config
      let key := (status.state, status.flow.wait, status.flow.timeoutRetransmissions)
      refine (Acts.turn hc (.report (some key) (some status.flow) p.now)).trans ?_
      refine Acts.trans (Acts.of_act (.event ⟨p.now, id, status⟩ hv)) ?_
      exact Acts.aside ..

variable (p)

theorem reportState_config (id : ConnectionId) : (p.reportState id).config = p.config := by
  unfold reportState
  split
  · rfl
  · dsimp only
    split <;> rfl

theorem reportStates_acts : Acts p p.reportStates := by
  unfold reportStates
  split
  case isFalse => exact .refl p
  case isTrue hv =>
    generalize p.connections.keys = ids
    induction ids generalizing p
    case nil => exact .refl p
    case cons id ids ih =>
      exact (reportState_acts hv id).trans (ih _ ((p.reportState_config id).symm ▸ hv))

theorem onConnection_acts {α : Type} (p : TcpPool δ) (id : ConnectionId)
    {f : Connection → Connection × IoResult α} (hf : ∀ c : Connection, c.Turn p.config (f c).fst) :
    Acts p (p.onConnection id f).fst := by
  unfold onConnection
  split
  case h_1 => exact .refl p
  case h_2 c hc => exact .turn hc (hf c)

theorem queueReset_acts (origin : Option ConnectionId) (reset : Reset) :
    Acts p (p.queueReset origin reset) := by
  unfold queueReset
  split
  case isTrue => exact .aside ..
  case isFalse h => exact (Acts.of_act (.queue reset h)).trans (.aside ..)

-- A connection is opened with addresses that are free, or nothing happens.
theorem connect_cases (localAddr remoteAddr : SocketAddr) (sequence : IoResult U32) :
    (∃ e, p.connect localAddr remoteAddr sequence = (p, .error e)) ∨
    ∃ iss, (validateAddress localAddr).isOk ∧ (validateAddress remoteAddr).isOk ∧
      p.find localAddr remoteAddr = none ∧ p.connections.size ≠ p.config.maxConnections ∧
      p.connect localAddr remoteAddr sequence = ({
        p with
        nextId      := p.nextId + 1
        connections :=
          p.connections.insert p.nextId (.active localAddr remoteAddr iss p.now p.config)
      }, .ok p.nextId) := by
  unfold connect
  cases hl : validateAddress localAddr
  case error => exact .inl ⟨_, rfl⟩
  cases hr : validateAddress remoteAddr
  case error => exact .inl ⟨_, rfl⟩
  dsimp only [andThen_ok]
  split
  · exact .inl ⟨_, rfl⟩
  split
  · exact .inl ⟨_, rfl⟩
  split
  · exact .inl ⟨_, rfl⟩
  case isFalse hne hs hf =>
    cases sequence
    case error => exact .inl ⟨_, rfl⟩
    case ok iss =>
      simp only [register, allocateId]
      split
      case isFalse => exact .inl ⟨_, rfl⟩
      case isTrue => exact .inr ⟨iss, rfl, rfl, by simpa using hf, hs, rfl⟩

theorem connect_acts (localAddr remoteAddr : SocketAddr) (sequence : IoResult U32) :
    Acts p (p.connect localAddr remoteAddr sequence).fst := by
  rcases p.connect_cases localAddr remoteAddr sequence with ⟨e, h⟩ | ⟨iss, hl, hr, hf, hs, h⟩
    <;> rw [h]
  · exact .refl p
  · exact .of_act (.active iss hl hr hf hs)

-- A connection that was not handed out before is handed out, or nothing happens.
theorem accept_cases (address : SocketAddr) :
    (∃ e, p.accept address = (p, .error e)) ∨ p.accept address = (p, .ok none) ∨
    ∃ id c, address ∈ p.listeners ∧ p.connections[id]? = some c ∧ c.localAddr = address ∧
      c.accepted = false ∧ p.accept address =
        ({ p with connections := p.connections.insert id { c with accepted := true } },
          .ok (some id)) := by
  unfold accept
  split
  case isTrue => exact .inl ⟨_, rfl⟩
  case isFalse hl =>
  split
  case h_2 => exact .inr (.inl rfl)
  case h_1 id c hf =>
    have hp := List.find?_some hf
    have hm := Std.TreeMap.mem_toList_iff_getElem?_eq_some.mp (List.mem_of_find?_eq_some hf)
    simp only [Bool.and_eq_true, beq_iff_eq, Bool.not_eq_true', Bool.not_eq_false] at hp hl
    exact .inr (.inr
      ⟨id, c, Std.TreeSet.contains_iff_mem.mp hl, hm, hp.left.left, hp.left.right, rfl⟩)

theorem accept_acts (address : SocketAddr) : Acts p (p.accept address).fst := by
  rcases p.accept_cases address with ⟨e, h⟩ | h | ⟨id, c, -, hc, -, -, h⟩ <;> rw [h]
  · exact .refl p
  · exact .refl p
  · exact .of_act (.accept hc)

theorem abort_acts (id : ConnectionId) : Acts p (p.abort id).fst := by
  unfold abort
  split
  case h_1 => exact .refl p
  case h_2 c hc =>
    have h := Acts.turn hc (.fail .reset none rfl)
    exact (h.trans (queueReset_acts ..)).trans (reportStates_acts _)

theorem remove_acts (id : ConnectionId) : Acts p (p.remove id).fst := by
  unfold remove
  split
  case h_1 => exact .refl p
  split
  case isTrue => exact .refl p
  refine (reportStates_acts p).trans (.of_act (.release fun i c hc => ?_))
  rw [Std.TreeMap.getElem?_erase] at hc
  split at hc
  · cases hc
  · exact hc

theorem input_acts (segment : Segment) (sequence : ConnectionId → IoResult U32) :
    Acts p (p.input segment sequence).fst := by
  unfold input
  split
  case isTrue => exact .aside ..
  case isFalse hvalid =>
  simp only [Bool.or_eq_true, decide_eq_true_eq, not_or, Bool.not_eq_false] at hvalid
  split
  case h_1 id hi =>
    have ⟨c, hc, _⟩ := find_live hi
    refine .of_act (.turns fun i => ?_)
    rw [Std.TreeMap.getElem?_modify]
    split
    case isFalse => exact Acts.unchanged _
    case isTrue he =>
      obtain rfl := Std.LawfulEqOrd.eq_of_compare he
      rw [hc]
      exact .some (.of_turn (.input segment p.now))
  case h_2 hfind =>
  split
  case isTrue => exact .aside ..
  split
  case isTrue => exact .refl p
  split
  case isFalse => exact queueReset_acts ..
  case isTrue hlisten =>
  split
  case isTrue => exact .aside ..
  rename_i hs
  simp only [register]
  cases sequence p.nextId
  case error => exact .refl p
  case ok iss =>
    simp only [allocateId]
    split
    case isFalse => exact .refl p
    simp only [Bool.and_eq_true] at hlisten
    exact .of_act (.passive iss hvalid.left.left hvalid.left.right hfind hs
      (Std.TreeSet.contains_iff_mem.mp hlisten.left))

theorem receive_acts (sequence : ConnectionId → IoResult U32)
    (frames : List PacketBuf) : Acts p (p.receive sequence frames).fst := by
  induction frames generalizing p
  case nil => exact .refl p
  case cons frame frames ih =>
    have stats (stats : TcpStats) : Acts p { p with stats } := .aside ..
    unfold receive
    dsimp only
    split
    case isTrue => exact (stats _).trans (ih _)
    split
    case h_1 => exact (stats _).trans (.andThen (input_acts ..) fun s _ => ih s)
    case h_2 => exact (stats _).trans (ih _)

theorem tick_acts (now : Duration) : Acts p (p.tick now) := by
  refine .trans ?_ (reportStates_acts _)
  refine (Acts.aside p.device now p.stats p.outputs).trans (.of_act (.turns fun i => ?_))
  rw [Std.TreeMap.getElem?_map]
  cases hc : p.connections[i]?
  case none   => exact .none
  case some c => exact .some (.of_turn (.tick now))

theorem filter_acts (k : Connection → Bool) :
    Acts p { p with connections := p.connections.filter fun _ c => k c } := by
  refine .of_act (.release fun i c hc => ?_)
  rw [Std.TreeMap.getElem?_filter', Option.filter_eq_some_iff] at hc
  exact hc.left

variable {p}

theorem new_ok {device : δ} {cfg : TcpConfig} (h : new device cfg = .ok p) :
    cfg.rejected = false ∧ p = init device cfg := by
  unfold new at h
  split at h
  case isTrue => cases h
  rename_i hr
  cases h
  exact ⟨by simpa using hr, rfl⟩

section Device

variable [Device δ]

variable (p)

theorem flushReset_acts : Acts p p.flushReset.fst := by
  unfold flushReset
  split
  case h_1 => exact .refl p
  case h_2 reset resets hr =>
    have flush := Acts.of_act (Act.flush hr)
    repeat' split
    all_goals first | exact .aside .. | exact flush.trans (.aside ..)

theorem transmit_turn (c : Connection) (device : δ) (now : Duration) (cfg : TcpConfig) :
    c.Turn cfg (c.transmit device now cfg).snd.fst := by
  unfold Connection.transmit
  split
  · exact .transmit now .blocked
  · exact .transmit now _

theorem transmitOne_acts (id : ConnectionId) (now : Duration) :
    Acts p (p.transmitOne id now).fst := by
  unfold transmitOne
  split
  case h_1 => exact .refl p
  case h_2 c hc =>
    have ht := transmit_turn c p.device now p.config
    split
    case h_1 device c' e he =>
      rw [he] at ht
      split
      case isFalse => exact (Acts.turn hc ht).trans (.aside ..)
      -- The connection fails after its turn.
      have hf := (Connection.Turns.of_turn ht).tail (.fail .failed (some e.kind) rfl)
      exact (Acts.turns hc hf).trans (.aside ..)
    case h_2 device c' sent retransmitted he =>
      rw [he] at ht
      exact (Acts.turn hc ht).trans (.aside ..)

theorem transmitBurst_acts (id : ConnectionId) (now : Duration) (n : Nat) :
    Acts p (p.transmitBurst id now n).fst := by
  induction n generalizing p
  case zero => exact .refl p
  case succ n ih =>
    refine .andThen (transmitOne_acts p id now) fun s sent => ?_
    split
    · exact ih s
    · exact .refl s

theorem transmitAll_acts (now : Duration) (ids : List ConnectionId) :
    Acts p (p.transmitAll now ids).fst := by
  induction ids generalizing p
  case nil => exact .refl p
  case cons id ids ih => exact .andThen (transmitBurst_acts p id now _) fun s _ => ih s

theorem poll_acts (now : Duration) (budget : Nat)
    (sequence : ConnectionId → IoResult U32) : Acts p (p.poll now budget sequence).fst := by
  have poll (p : TcpPool δ) : Acts p (p.pollDevice now).fst := .aside ..
  unfold TcpPool.poll
  split
  case isTrue => exact .refl p
  refine .andThen (((tick_acts p now).trans (filter_acts ..)).trans (poll _)) fun p _ => ?_
  refine .andThen (.aside ..) fun p frames => ?_
  refine .andThen (receive_acts p sequence frames) fun p _ => ?_
  refine .andThen (flushReset_acts p) fun p _ => ?_
  refine .andThen (transmitAll_acts p now _) fun p _ => ?_
  exact .andThen ((reportStates_acts p).trans (poll _)) fun p _ => .refl p

-- Every call of a pool is made of the acts above.
theorem step_acts (op : Op δ) : Acts p (p.step op) := by
  cases op
  case listen address =>
    simp only [step, listen]
    split
    · exact .refl p
    split
    · exact .refl p
    split
    · exact .refl p
    case isFalse h => exact .of_act (.listen address h)
  case unlisten address => exact .of_act (.unlisten address)
  case connect => exact connect_acts ..
  case accept => exact accept_acts ..
  case write bytes => exact onConnection_acts p _ fun _ => .write bytes
  case read size => exact onConnection_acts p _ fun _ => .read size
  case close => exact onConnection_acts p _ fun _ => .close p.now
  case abort => exact abort_acts ..
  case remove => exact remove_acts ..
  case poll => exact poll_acts ..
  case popEvent => exact .of_act .popEvent
  case deviceMut => exact .aside ..

end Device

-- A property which every connection of a pool has from the start, and keeps.
structure Preserved (cfg : TcpConfig) (P : Connection → Prop) : Prop where
  active  : ∀ {localAddr remoteAddr : SocketAddr} (iss : U32) (now : Duration),
    (validateAddress localAddr).isOk → (validateAddress remoteAddr).isOk →
    P (.active localAddr remoteAddr iss now cfg)
  passive : ∀ {syn : Segment} (iss : U32) (now : Duration),
    (validateAddress syn.source).isOk → (validateAddress syn.destination).isOk →
    P (.passive syn iss now cfg)
  turn    : ∀ {c c' : Connection}, c.Turn cfg c' → P c → P c'
  accept  : ∀ {c : Connection}, P c → P { c with accepted := true }

def All (P : Connection → Prop) (p : TcpPool δ) : Prop :=
  ∀ (id : ConnectionId) (c : Connection), p.connections[id]? = some c → P c

theorem getElem?_insert_cases (h : (p.connections.insert id c)[i]? = some c') :
    i = id ∧ c' = c ∨ p.connections[i]? = some c' := by
  rw [Std.TreeMap.getElem?_insert] at h
  split at h
  case isTrue he => exact .inl ⟨(Std.LawfulEqOrd.eq_of_compare he).symm, (Option.some.inj h).symm⟩
  case isFalse   => exact .inr h

theorem Act.config_eq (h : Act p p') : p'.config = p.config := by
  cases h <;> rfl

theorem Preserved.act {P : Connection → Prop} (hp : Preserved p.config P) (h : Act p p')
    (ha : All P p) : All P p' := by
  have insert {id : ConnectionId} {c : Connection} (hc : P c) (i : ConnectionId) (c' : Connection)
      (h : (p.connections.insert id c)[i]? = some c') : P c' := by
    rcases getElem?_insert_cases h with ⟨-, rfl⟩ | h
    · exact hc
    · exact ha i c' h
  cases h
  case turns h =>
    intro i c' hc'
    have hi := h i
    rw [show _ = some c' from hc'] at hi
    cases hc : p.connections[i]? <;> rw [hc] at hi <;> cases hi
    case some c h => exact h.induction (ha i c hc) fun _ _ => hp.turn
  case release h => exact fun i c hc => ha i c (h i c hc)
  case active iss hl hr _ _ => exact insert (hp.active iss p.now hl hr)
  case passive iss hs hd _ _ _ => exact insert (hp.passive iss p.now hs hd)
  case accept hc => exact insert (hp.accept (ha _ _ hc))
  case unlisten address =>
    intro i c hc
    rw [unlisten, Std.TreeMap.getElem?_filter', Option.filter_eq_some_iff] at hc
    exact ha i c hc.left
  all_goals exact ha

-- The invariant rule for the connections of a pool.
theorem Preserved.reachable [Device δ] {device : δ} {cfg : TcpConfig} {p₀ : TcpPool δ}
    {P : Connection → Prop} (hp : Preserved cfg P) (hn : new device cfg = .ok p₀)
    (ops : List (Op δ)) : All P (Transition.exec step p₀ ops) := by
  have ⟨_, h₀⟩ := new_ok hn
  have h : (Transition.exec step p₀ ops).config = cfg ∧ All P (Transition.exec step p₀ ops) := by
    refine Transition.exec_induction (P := fun p : TcpPool δ => p.config = cfg ∧ All P p) ?_ ?_
    · subst h₀
      exact ⟨rfl, by simp [All, init]⟩
    · intro p op h
      refine Relation.ReflTransGen.rec (motive := fun p' _ => p'.config = cfg ∧ All P p') h ?_
        (p.step_acts op)
      rintro p' p'' - hact ⟨rfl, ha⟩
      exact ⟨hact.config_eq, hp.act hact ha⟩
  exact h.right

end TcpPool
