import AsyncNetStack.Lib.Transition
import AsyncNetStack.Tcp.Pool

open Tcp Fallible List Option

-- What matters about a connection at the end of its life.
structure Fate where
  state      : TcpState
  localError : Option ErrorKind
  accepted   : Bool
  localAddr  : SocketAddr
  deriving DecidableEq

namespace Connection

def fate (c : Connection) : Fate :=
  { c with }

variable {c : Connection}

theorem tick_terminal (h : c.state.isTerminal) (now : Duration) (cfg : TcpConfig) :
    c.tick now cfg = c :=
  if_pos h

theorem transmit_terminal {δ : Type} [Device δ] (h : c.state.isTerminal) (device : δ)
    (now : Duration) (cfg : TcpConfig) :
    c.transmit device now cfg = (device, c, .ok (false, false)) := by
  simp [transmit, emission, transmitted, h]

theorem fate_write (c : Connection) (bytes : List U8) (cfg : TcpConfig) :
    (c.write bytes cfg).fst.fate = c.fate := by
  unfold write
  split
  · rfl
  split
  · rfl
  · dsimp only
    split <;> rfl

theorem fate_read (c : Connection) (size : Nat) : (c.read size).fst.fate = c.fate := by
  unfold read
  split
  · rfl
  split
  · rfl
  · dsimp only
    repeat' split
    all_goals rfl

theorem fate_close (c : Connection) (now : Duration) (cfg : TcpConfig) :
    (c.close now cfg).fst.fate = c.fate := by
  unfold close
  split
  · rfl
  · split <;> rfl

end Connection

namespace TcpPool

variable {δ : Type} {p p' : TcpPool δ} {id i : ConnectionId} {c : Connection}
variable {R : ConnectionId → Fate → Prop}

def fate (p : TcpPool δ) (id : ConnectionId) : Option Fate :=
  p.connections[id]?.map (·.fate)

-- The identifier was issued, and its connection is terminal or was released.
structure Over (p : TcpPool δ) (id : ConnectionId) : Prop where
  issued   : id < p.nextId
  terminal : ∀ f ∈ p.fate id, f.state.isTerminal

-- From `p` to `p'`, nothing happens to the connections that are over, and nothing is sent on their
-- behalf. They may only be released, if they meet the condition `R`.
structure Rests (R : ConnectionId → Fate → Prop) (p p' : TcpPool δ) : Prop where
  issued  : p.nextId ≤ p'.nextId
  fresh   : ∀ i ∈ p'.connections, i ∈ p.connections ∨ i < p'.nextId
  fate    : ∀ id, Over p id → p'.fate id = p.fate id ∨ p'.fate id = none ∧ ∀ f ∈ p.fate id, R id f
  outputs : ∃ new, p'.outputs = p.outputs ++ new ∧ ∀ o ∈ new, ¬Over p o.id

namespace Rests

variable {p'' : TcpPool δ}

theorem preserves_over (h : Rests R p p') (ho : Over p id) : Over p' id where
  issued   := Nat.lt_of_lt_of_le ho.issued h.issued
  terminal := by
    rcases h.fate id ho with hf | ⟨hf, -⟩ <;> rw [hf]
    · exact ho.terminal
    · exact nofun

theorem trans (h₁ : Rests R p p') (h₂ : Rests R p' p'') : Rests R p p'' where
  issued      := h₁.issued.trans h₂.issued
  fresh i hi  := by
    rcases h₂.fresh i hi with hi | hi
    · exact (h₁.fresh i hi).imp_right (Nat.lt_of_lt_of_le · h₂.issued)
    · exact .inr hi
  fate id ho  := by
    rcases h₁.fate id ho with h | ⟨h, hn⟩ <;>
      rcases h₂.fate id (h₁.preserves_over ho) with h' | ⟨h', hn'⟩
    · exact .inl (h'.trans h)
    · exact .inr ⟨h', h ▸ hn'⟩
    · exact .inr ⟨h'.trans h, hn⟩
    · exact .inr ⟨h', hn⟩
  outputs     := by
    obtain ⟨o₁, he₁, hn₁⟩ := h₁.outputs
    obtain ⟨o₂, he₂, hn₂⟩ := h₂.outputs
    refine ⟨o₁ ++ o₂, by rw [he₂, he₁, append_assoc], fun o hm ho => ?_⟩
    rcases mem_append.mp hm with hm | hm
    · exact hn₁ o hm ho
    · exact hn₂ o hm (h₁.preserves_over ho)

-- No connection is added, and nothing is sent.
theorem of_fate (hi : p'.nextId = p.nextId) (ho : p'.outputs = p.outputs)
    (hm : ∀ i ∈ p'.connections, i ∈ p.connections)
    (hf : ∀ i, Over p i → p'.fate i = p.fate i ∨ p'.fate i = none ∧ ∀ f ∈ p.fate i, R i f) :
    Rests R p p' where
  issued    := Nat.le_of_eq hi.symm
  fresh i h := .inl (hm i h)
  fate      := hf
  outputs   := ⟨[], by rw [ho, append_nil], nofun⟩

theorem of_eq (hi : p'.nextId = p.nextId) (hc : p'.connections = p.connections)
    (ho : p'.outputs = p.outputs) : Rests R p p' :=
  of_fate hi ho (fun _ => (hc ▸ ·)) fun _ _ => .inl (by rw [TcpPool.fate, hc]; rfl)

theorem refl (p : TcpPool δ) : Rests R p p :=
  of_eq rfl rfl rfl

-- A connection is added or replaced, and something may be sent.
theorem insert {new : List Output} (hi : p.nextId ≤ p'.nextId)
    (hc : p'.connections = p.connections.insert i c) (hm : i ∈ p.connections ∨ i < p'.nextId)
    (hf : Over p i → p.fate i = some c.fate) (ho : p'.outputs = p.outputs ++ new)
    (hn : ∀ o ∈ new, ¬Over p o.id) : Rests R p p' where
  issued     := hi
  fresh j h  := by
    rw [hc, Std.TreeMap.mem_insert] at h
    rcases h with h | h
    · rwa [← Std.LawfulEqOrd.eq_of_compare h]
    · exact .inl h
  fate j h   := by
    refine .inl ?_
    rw [TcpPool.fate, hc, Std.TreeMap.getElem?_insert]
    split
    case isTrue he =>
      obtain rfl := Std.LawfulEqOrd.eq_of_compare he
      rw [hf h]
      rfl
    case isFalse => rfl
  outputs    := ⟨new, ho, hn⟩

-- A connection is replaced, and nothing is sent.
theorem replace (hm : i ∈ p.connections) (hf : Over p i → p.fate i = some c.fate)
    (hi : p'.nextId = p.nextId) (hc : p'.connections = p.connections.insert i c)
    (ho : p'.outputs = p.outputs) : Rests R p p' :=
  .insert (Nat.le_of_eq hi.symm) hc (.inl hm) hf (ho.trans (append_nil _).symm)
    nofun

theorem andThen {α β : Type} {o : TcpPool δ × IoResult α}
    {f : TcpPool δ → α → TcpPool δ × IoResult β} (ho : Rests R p o.fst)
    (hf : ∀ s a, Rests R s (f s a).fst) : Rests R p (andThen o f).fst :=
  andThen_of (P := Rests R p) ho fun s a _ hs => hs.trans (hf s a)

end Rests

theorem mem_of_getElem? (h : p.connections[i]? = some c) : i ∈ p.connections :=
  Std.TreeMap.mem_iff_isSome_getElem?.mpr (by rw [h]; rfl)

theorem fate_of_getElem? (h : p.connections[i]? = some c) : p.fate i = some c.fate := by
  rw [fate, h]
  rfl

theorem Over.state_terminal (h : Over p i) (hc : p.connections[i]? = some c) : c.state.isTerminal :=
  h.terminal c.fate (fate_of_getElem? hc)

variable (p)

theorem reportState_rests (i : ConnectionId) : Rests R p (p.reportState i) := by
  unfold reportState
  split
  case h_1 => exact .refl p
  case h_2 c hc =>
    dsimp only
    split
    · exact .refl p
    · refine .replace (mem_of_getElem? hc) (fun _ => ?_) rfl rfl rfl
      exact show p.fate i = some c.fate from fate_of_getElem? hc

theorem reportStates_rests : Rests R p p.reportStates := by
  unfold reportStates
  split
  case isFalse => exact .refl p
  case isTrue h =>
    clear h
    generalize p.connections.keys = ids
    induction ids generalizing p
    case nil         => exact .refl p
    case cons i _ ih => exact (p.reportState_rests i).trans (ih _)

theorem register_rests (sequence : IoResult U32) (f : U32 → Connection) :
    Rests R p (p.register sequence f).fst := by
  unfold register
  split
  case h_1 => exact .refl p
  case h_2 iss =>
    unfold allocateId
    split
    case isFalse => exact .refl p
    -- The new identifier has not been issued before.
    exact .insert (Nat.le_succ _) rfl (.inr (Nat.lt_succ_self _))
      (fun h => absurd h.issued (Nat.lt_irrefl _)) (append_nil _).symm nofun

theorem onConnection_rests {α : Type} (p : TcpPool δ) (i : ConnectionId)
    {f : Connection → Connection × IoResult α} (hf : ∀ c, (f c).fst.fate = c.fate) :
    Rests R p (p.onConnection i f).fst := by
  unfold onConnection
  split
  case h_1 => exact .refl p
  case h_2 c hc =>
    refine .replace (mem_of_getElem? hc) (fun _ => ?_) rfl rfl rfl
    rw [hf, fate_of_getElem? hc]

theorem queueReset_rests (reset : Reset) : Rests R p (p.queueReset none reset) := by
  unfold queueReset
  split
  · exact .of_eq rfl rfl rfl
  · exact .of_eq rfl rfl (append_nil _)

theorem connect_rests (localAddr remoteAddr : SocketAddr) (sequence : IoResult U32) :
    Rests R p (p.connect localAddr remoteAddr sequence).fst := by
  refine .andThen (.refl p) fun p _ => .andThen (.refl p) fun p _ => ?_
  split
  · exact .refl p
  split
  · exact .refl p
  split
  · exact .refl p
  · exact register_rests ..

theorem listen_rests (address : SocketAddr) : Rests R p (p.listen address).fst := by
  unfold listen
  repeat' split
  all_goals exact .of_eq rfl rfl rfl

theorem accept_rests (address : SocketAddr) : Rests R p (p.accept address).fst := by
  unfold accept
  split
  case isTrue => exact .refl p
  split
  case h_2 => exact .refl p
  case h_1 i c hf =>
    have hc := Std.TreeMap.mem_toList_iff_getElem?_eq_some.mp (mem_of_find?_eq_some hf)
    have ho := List.find?_some hf
    simp only [Bool.and_eq_true] at ho
    refine .replace (mem_of_getElem? hc) (fun h => ?_) rfl rfl rfl
    have ht := h.state_terminal hc
    cases hs : c.state <;> simp [hs, TcpState.isOpen, TcpState.isTerminal] at ho ht

theorem abort_rests (i : ConnectionId)
    (h : ∀ c ∈ p.connections[i]?, c.state.isTerminal = false) : Rests R p (p.abort i).fst := by
  unfold abort
  split
  case h_1 => exact .refl p
  case h_2 c hc =>
    have hl : ¬Over p i := fun ho => by simpa [ho.state_terminal hc] using h c hc
    refine .trans ?_ (reportStates_rests _)
    have hm := mem_of_getElem? hc
    unfold queueReset
    split
    case isTrue => exact .replace hm (absurd · hl) rfl rfl rfl
    refine .insert (Nat.le_refl _) rfl (.inl hm) (absurd · hl) rfl fun o ho => ?_
    rw [mem_singleton.mp ho]
    exact hl

variable {p}

-- Segments go to live connections only.
theorem find_live {localAddr remoteAddr : SocketAddr} (h : p.find localAddr remoteAddr = some i) :
    ∃ c, p.connections[i]? = some c ∧ c.state.isTerminal = false := by
  obtain ⟨⟨j, c⟩, hc, rfl⟩ := map_eq_some_iff.mp h
  have hm := Std.TreeMap.mem_toList_iff_getElem?_eq_some.mp (mem_of_find?_eq_some hc)
  have hp := List.find?_some hc
  simp only [Bool.and_eq_true, Bool.not_eq_true'] at hp
  exact ⟨c, hm, hp.right⟩

theorem input_rests (p : TcpPool δ) (segment : Segment) (sequence : ConnectionId → IoResult U32) :
    Rests R p (p.input segment sequence).fst := by
  unfold input
  split
  case isTrue => exact .of_eq rfl rfl rfl
  split
  case h_1 i hi =>
    obtain ⟨c, hc, ht⟩ := find_live hi
    refine .of_fate rfl rfl (fun j hj => ?_) fun j hj => .inl ?_
    · exact Std.TreeMap.mem_modify.mp hj
    · simp only [fate, Std.TreeMap.getElem?_modify]
      split
      case isFalse => rfl
      case isTrue he =>
        obtain rfl := Std.LawfulEqOrd.eq_of_compare he
        simp [hj.state_terminal hc] at ht
  split
  case isTrue => exact .of_eq rfl rfl rfl
  split
  case isTrue => exact .refl p
  split
  case isTrue =>
    split
    · exact .of_eq rfl rfl rfl
    · exact .andThen (register_rests ..) fun s _ => .refl s
  case isFalse => exact queueReset_rests p _

theorem receive_rests (p : TcpPool δ) (sequence : ConnectionId → IoResult U32)
    (frames : List PacketBuf) : Rests R p (p.receive sequence frames).fst := by
  induction frames generalizing p
  case nil => exact .refl p
  case cons frame frames ih =>
    have stats (stats : TcpStats) : Rests R p { p with stats } := .of_eq rfl rfl rfl
    unfold receive
    dsimp only
    split
    case isTrue => exact (stats _).trans (ih _)
    split
    case h_1 => exact (stats _).trans (.andThen (input_rests ..) fun s _ => ih s)
    case h_2 => exact (stats _).trans (ih _)

theorem tick_rests (p : TcpPool δ) (now : Duration) : Rests R p (p.tick now) := by
  refine .trans ?_ (reportStates_rests _)
  refine .of_fate rfl rfl (fun i hi => ?_) fun i hi => .inl ?_
  · exact Std.TreeMap.mem_map.mp hi
  · simp only [fate, Std.TreeMap.getElem?_map, Option.map_map]
    cases hc : p.connections[i]?
    case none => rfl
    case some c =>
      rw [Option.map_some, Option.map_some, Function.comp,
        Connection.tick_terminal (hi.state_terminal hc)]

-- Connections are released only if they do not meet the condition `k`.
theorem filter_rests (p : TcpPool δ) (k : Connection → Bool)
    (h : ∀ i c, c.state.isTerminal → k c = false → R i c.fate) :
    Rests R p { p with connections := p.connections.filter fun _ c => k c } := by
  refine .of_fate rfl rfl (fun i hi => ?_) fun i hi => ?_
  · exact Std.TreeMap.mem_of_mem_filter hi
  · simp only [fate, Std.TreeMap.getElem?_filter']
    cases hc : p.connections[i]?
    case none => exact .inl rfl
    case some c =>
      rw [filter_some]
      split
      case isTrue => exact .inl rfl
      case isFalse hk =>
        refine .inr ⟨rfl, fun f hf => ?_⟩
        obtain rfl := Option.some.inj hf
        exact h i c (hi.state_terminal hc) (by simpa using hk)

section Device

variable [Device δ]

variable (p)

theorem flushReset_rests : Rests R p p.flushReset.fst := by
  unfold flushReset
  repeat' split
  all_goals exact .of_eq rfl rfl rfl

theorem transmitOne_rests (i : ConnectionId) (now : Duration) :
    Rests R p (p.transmitOne i now).fst := by
  unfold transmitOne
  split
  case h_1 => exact .refl p
  case h_2 c hc =>
    have hm := mem_of_getElem? hc
    cases ht : c.state.isTerminal
    case true =>
      rw [Connection.transmit_terminal ht]
      exact .replace hm (fun _ => fate_of_getElem? hc) rfl rfl rfl
    case false =>
      have hl : ¬Over p i := fun ho => by simp [ho.state_terminal hc] at ht
      split
      case h_1 => split <;> exact .replace hm (absurd · hl) rfl rfl rfl
      case h_2 sent _ _ =>
        cases sent
        case false => exact .replace hm (absurd · hl) rfl rfl rfl
        case true =>
          refine .insert (Nat.le_refl _) rfl (.inl hm) (absurd · hl) rfl fun o ho => ?_
          obtain ⟨s, -, rfl⟩ : ∃ s, c.emission now p.config = some s ∧ Output.segment i s = o := by
            simpa using ho
          exact hl

theorem transmitBurst_rests (i : ConnectionId) (now : Duration) (n : Nat) :
    Rests R p (p.transmitBurst i now n).fst := by
  induction n generalizing p
  case zero => exact .refl p
  case succ n ih =>
    refine .andThen (transmitOne_rests p i now) fun s sent => ?_
    split
    · exact ih s
    · exact .refl s

theorem transmitAll_rests (now : Duration) (ids : List ConnectionId) :
    Rests R p (p.transmitAll now ids).fst := by
  induction ids generalizing p
  case nil => exact .refl p
  case cons i ids ih => exact .andThen (transmitBurst_rests p i now _) fun s _ => ih s

theorem poll_rests (now : Duration) (budget : Nat)
    (sequence : ConnectionId → IoResult U32) (h : ∀ i f, f.accepted = false → R i f) :
    Rests R p (p.poll now budget sequence).fst := by
  have poll (p : TcpPool δ) : Rests R p (p.pollDevice now).fst := .of_eq rfl rfl rfl
  unfold TcpPool.poll
  split
  case isTrue => exact .refl p
  have release : Rests R (p.tick now) (p.tick now).release :=
    filter_rests _ _ fun i c ht hk => h i c.fate (show c.accepted = false by simpa [ht] using hk)
  refine .andThen (((tick_rests p now).trans release).trans (poll _)) fun p _ => ?_
  refine .andThen (.of_eq rfl rfl rfl) fun p frames => ?_
  refine .andThen (receive_rests p sequence frames) fun p _ => ?_
  refine .andThen (flushReset_rests p) fun p _ => ?_
  refine .andThen (transmitAll_rests p now _) fun p _ => ?_
  exact .andThen ((reportStates_rests p).trans (poll _)) fun p _ => .refl p

-- The connections that an operation is meant to release.
def Op.Releases : Op δ → ConnectionId → Fate → Prop
  | .remove i, id, _         => id = i
  | .unlisten address, _, f  => f.accepted = false ∧ f.localAddr = address
  | .poll .., _, f           => f.accepted = false
  | _, _, _                  => False

-- The operation does not abort a connection that is terminal already.
def Proper : Op δ → Prop
  | .abort i => ∀ c ∈ p.connections[i]?, c.state.isTerminal = false
  | _        => True

theorem step_rests {op : Op δ} (h : p.Proper op) : Rests op.Releases p (p.step op) := by
  cases op
  case listen address => exact listen_rests ..
  case unlisten address =>
    have := filter_rests (R := (Op.unlisten address : Op δ).Releases) p
      (fun c => c.accepted || c.localAddr != address) fun i c _ hk =>
        show c.accepted = false ∧ c.localAddr = address by simpa using hk
    exact this.trans (.of_eq rfl rfl rfl)
  case connect => exact connect_rests ..
  case accept => exact accept_rests ..
  case write bytes => exact onConnection_rests p _ fun c => c.fate_write bytes p.config
  case read size => exact onConnection_rests p _ fun c => c.fate_read size
  case close => exact onConnection_rests p _ fun c => c.fate_close p.now p.config
  case abort i => exact abort_rests p i h
  case remove i =>
    simp only [step, remove]
    split
    case h_1 => exact .refl p
    split
    case isTrue => exact .refl p
    refine (reportStates_rests p).trans ?_
    refine .of_fate rfl rfl (fun j hj => Std.TreeMap.mem_of_mem_erase hj) fun j _ => ?_
    simp only [fate, Std.TreeMap.getElem?_erase]
    split
    case isTrue he => exact .inr ⟨rfl, fun _ _ => (Std.LawfulEqOrd.eq_of_compare he).symm⟩
    case isFalse => exact .inl rfl
  case poll => exact poll_rests p _ _ _ fun _ _ => id
  case popEvent => exact .of_eq rfl rfl rfl
  case deviceMut => exact .of_eq rfl rfl rfl

-- An operation leaves every terminal connection with its state and its error, unless it is meant to
-- release it, and nothing is sent on behalf of it.
def Absorbs (op : Op δ) : Prop :=
  ∀ id c, p.connections[id]? = some c → c.state.isTerminal →
    ((∃ c', (p.step op).connections[id]? = some c' ∧ c'.state = c.state ∧
        c'.localError = c.localError) ∨
      op.Releases id c.fate ∧ (p.step op).connections[id]? = none) ∧
    ∃ new, (p.step op).outputs = p.outputs ++ new ∧ ∀ o ∈ new, o.id ≠ id

variable {p}

theorem Rests.absorbs {op : Op δ} (h : Rests op.Releases p (p.step op))
    (hi : ∀ i ∈ p.connections, i < p.nextId) : p.Absorbs op := by
  intro id c hc ht
  have hf := fate_of_getElem? hc
  have ho : Over p id := ⟨hi id (mem_of_getElem? hc), by rw [hf]; rintro _ ⟨⟩; exact ht⟩
  constructor
  case left =>
    rcases h.fate id ho with hf' | ⟨hf', hr⟩
    case inl =>
      obtain ⟨c', hc', he⟩ := map_eq_some_iff.mp (hf'.trans hf)
      exact .inl ⟨c', hc', congrArg Fate.state he, congrArg Fate.localError he⟩
    case inr => exact .inr ⟨hr c.fate hf, map_eq_none_iff.mp hf'⟩
  case right =>
    obtain ⟨new, he, hn⟩ := h.outputs
    exact ⟨new, he, fun o hm hid => hn o hm (hid ▸ ho)⟩

theorem issued_of_reachable {device : δ} {cfg : TcpConfig} {p₀ : TcpPool δ}
    (hn : new device cfg = .ok p₀) (hp : Transition.Reachable step Proper p₀ p) :
    ∀ i ∈ p.connections, i < p.nextId := by
  refine hp.induction (P := fun p => ∀ i ∈ p.connections, i < p.nextId) ?_ fun p op hg hi i hm => ?_
  case refine_1 =>
    unfold new at hn
    split at hn
    · cases hn
    · cases hn
      exact fun i hi => absurd hi Std.TreeMap.not_mem_emptyc
  case refine_2 =>
    have h := p.step_rests hg
    rcases h.fresh i hm with hm | hm
    · exact Nat.lt_of_lt_of_le (hi i hm) h.issued
    · exact hm

theorem terminal_absorbing {device : δ} {cfg : TcpConfig} {p₀ : TcpPool δ}
    (hn : new device cfg = .ok p₀) (hp : Transition.Reachable step Proper p₀ p) (op : Op δ)
    (ho : p.Proper op) : p.Absorbs op :=
  (p.step_rests ho).absorbs (issued_of_reachable hn hp)

end Device

-- A device that has nothing to receive and no frames to send.
def idle : Device.Script where
  polled    := .ok ()
  received  := .ok []
  sent      := .ok 0
  allocated := none

def clientAddr : SocketAddr :=
  { ip := 0x0a000001, port := 1000 }

def serverAddr : SocketAddr :=
  { ip := 0x0a000002, port := 80 }

-- The first connection times out during the handshake, and the second one takes over its addresses.
def reconnect : List (Op Device.Script) := [
  .connect clientAddr serverAddr (.ok 7),
  .poll (.fromSecs 30) 0 fun _ => .ok 0,
  .connect clientAddr serverAddr (.ok 9)
]

-- The second connection is live when it is aborted.
theorem terminal_absorbing_reconnect :
    let p := step (Transition.exec step (init idle .default) reconnect) (.abort 2)
    p.fate 1 = some ⟨.timedOut, none, true, clientAddr⟩ ∧
    p.fate 2 = some ⟨.reset, none, true, clientAddr⟩ ∧ p.Absorbs (.close 1) := by
  have hn : new idle .default = .ok (init idle .default) :=
    if_neg (by simp [TcpConfig.default_not_rejected])
  have hr : Transition.Reachable step Proper (init idle .default)
      (Transition.exec step (init idle .default) reconnect) :=
    Transition.reachable_exec (by simp [reconnect, Proper])
  have hlive : (Transition.exec step (init idle .default) reconnect).connections[2]?.all
      (!·.state.isTerminal) = true := by decide +kernel
  refine ⟨by decide +kernel, by decide +kernel,
    terminal_absorbing hn (hr.step ?_) (.close 1) trivial⟩
  intro c hc
  rw [hc] at hlive
  exact (Bool.not_eq_true' _).mp hlive

-- An abort of the first connection changes its state, and queues a reset for the addresses which
-- the second one uses now.
theorem abort_disturbs_terminal :
    new idle .default = .ok (init idle .default) ∧
    (step (Transition.exec step (init idle .default) reconnect) (.abort 1)).outputs =
      [.reset 1 ⟨clientAddr, serverAddr, 7, 0, RST ||| ACK⟩] ∧
    ¬(Transition.exec step (init idle .default) reconnect).Absorbs (.abort 1) := by
  refine ⟨if_neg (by simp [TcpConfig.default_not_rejected]), by decide +kernel, ?_⟩
  have before : (Transition.exec step (init idle .default) reconnect).fate 1 =
      some ⟨.timedOut, none, true, clientAddr⟩ := by decide +kernel
  have after : (step (Transition.exec step (init idle .default) reconnect) (.abort 1)).fate 1 =
      some ⟨.reset, none, true, clientAddr⟩ := by decide +kernel
  intro h
  obtain ⟨c, hc, hf⟩ := map_eq_some_iff.mp before
  obtain ⟨c', hc', hf'⟩ := map_eq_some_iff.mp after
  have hs : c.state = .timedOut := congrArg Fate.state hf
  have hs' : c'.state = .reset := congrArg Fate.state hf'
  rcases (h 1 c hc (by rw [hs]; rfl)).left with ⟨_, hk, hks, -⟩ | ⟨hr, -⟩
  · obtain rfl := Option.some.inj (hc'.symm.trans hk)
    simp [hs, hs'] at hks
  · exact hr

end TcpPool
