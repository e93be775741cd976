import AsyncNetStack.Tcp.Theorems.Input
import AsyncNetStack.Tcp.Theorems.Transmit

open Serial Tcp List

namespace TcpState

-- The number of control flags of this end (SYN and FIN) which the peer has acknowledged.
def controlAcked : TcpState → Nat
  | synSent | synReceived        => 0
  | finWait2 | timeWait | closed => 2
  | _                            => 1

end TcpState

namespace Connection

variable {cfg : TcpConfig} {c c' c'' : Connection} {now : Duration} {segment : Segment}

-- What the processing of a segment keeps on the sending side.
structure SenderKept (c c' : Connection) : Prop where
  queued : c'.queued = c.queued
  suffix : c'.outstanding <:+ c.outstanding
  next   : c'.sendNext = c.sendNext
  closed : c'.writeClosed = c.writeClosed
  fin    : c'.state.finQueued = c.state.finQueued
  open_  : c'.state.isHandshake → c.state.isHandshake
  mss    : c.state.isHandshake ∨ c'.peerMss = c.peerMss

namespace SenderKept

theorem refl (c : Connection) : SenderKept c c :=
  ⟨rfl, suffix_refl _, rfl, rfl, rfl, id, .inr rfl⟩

theorem trans (h₁ : SenderKept c c') (h₂ : SenderKept c' c'') : SenderKept c c'' where
  queued := h₂.queued.trans h₁.queued
  suffix := h₂.suffix.trans h₁.suffix
  next   := h₂.next.trans h₁.next
  closed := h₂.closed.trans h₁.closed
  fin    := h₂.fin.trans h₁.fin
  open_  := h₁.open_ ∘ h₂.open_
  mss    := h₁.mss.elim .inl fun h => h₂.mss.imp h₁.open_ (·.trans h)

theorem of_quiet (h : Quiet cfg c c') : SenderKept c c' where
  queued := by rw [h.frame]; rfl
  suffix := by rw [outstanding, h.flights.payload_eq]; exact suffix_refl _
  next   := by rw [h.frame]; rfl
  closed := by rw [h.frame]; rfl
  fin    := by rw [h.frame]; rfl
  open_  := by rw [h.frame]; exact id
  mss    := .inr (by rw [h.frame]; rfl)

theorem of_ackEffect (h : AckEffect c c') : SenderKept c c' where
  queued := by rw [h.frame]; rfl
  suffix := h.suffix
  next   := by rw [h.frame]; rfl
  closed := by rw [h.frame]; rfl
  fin    := by
    rcases h.state with h | ⟨h, h'⟩ | ⟨h, h'⟩ | ⟨h, h'⟩
    · rw [h]
    all_goals rw [h, h']; rfl
  open_  := by
    rcases h.state with h | ⟨h, h'⟩ | ⟨h, h'⟩ | ⟨h, h'⟩
    · rw [h]; exact id
    all_goals rw [h']; nofun
  mss    := .inr (by rw [h.frame]; rfl)

theorem finReceived (c : Connection) (now : Duration) (cfg : TcpConfig) :
    SenderKept c (c.finReceived now cfg) := by
  unfold Connection.finReceived
  cases hs : c.state <;> refine ⟨?_, ?_, ?_, ?_, ?_, ?_, ?_⟩
  all_goals simp [enterTimeWait, outstanding, hs, TcpState.finQueued, TcpState.isHandshake]

theorem receiveData (c : Connection) (segment : Segment) (now : Duration) (cfg : TcpConfig) :
    SenderKept c (c.receiveData segment now cfg) := by
  have deliver (bytes : List U8) : SenderKept c (c.deliver bytes) :=
    ⟨rfl, suffix_refl _, rfl, rfl, rfl, id, .inr rfl⟩
  rcases c.receiveData_cases segment now cfg with h | h | ⟨bytes, -, h⟩ | ⟨bytes, -, h⟩ <;> rw [h]
  · exact .refl c
  · exact ⟨rfl, suffix_refl _, rfl, rfl, rfl, id, .inr rfl⟩
  · exact deliver bytes
  · exact (deliver bytes).trans (.finReceived ..)

end SenderKept

theorem input_sender (hv : cfg.Valid) (hi : c.Inv cfg) (segment : Segment) (now : Duration) :
    c.input segment now cfg = c.fail .reset ∨ SenderKept c (c.input segment now cfg) := by
  have h := c.input_cases segment now cfg
  generalize c.input segment now cfg = c' at h
  cases h
  case ignored => exact .inr (.refl c)
  case quiet h => exact .inr (.of_quiet h)
  case reset => exact .inl rfl
  case opened hs ha hn _ _ =>
    right
    obtain ⟨-, flags, hack⟩ := opened_acked hv hi hs ha hn now
    have hfin : (c.opened segment now cfg).state.finQueued = c.state.finQueued := by rw [hs]; rfl
    have hkept := SenderKept.of_ackEffect hack.ackEffect
    have hopened : SenderKept c (c.opened segment now cfg) :=
      ⟨hkept.queued, hkept.suffix, hkept.next, hkept.closed, hfin, nofun, .inl (by rw [hs]; rfl)⟩
    exact hopened.trans (.receiveData ..)
  case answered hs _ ha hn =>
    right
    obtain ⟨-, flags, hack⟩ := answered_acked hv hi hs ha hn now
    have hest : SenderKept c c.establish :=
      ⟨rfl, suffix_refl _, rfl, rfl, by rw [hs]; rfl, nofun, .inr rfl⟩
    have hkept := hest.trans (.of_ackEffect hack.ackEffect)
    split
    · exact hkept
    · exact hkept.trans (.receiveData ..)
  case accepted _ _ ha =>
    right
    have hkept := SenderKept.of_ackEffect
      (acknowledge_effect hv hi.toCore hi.phase.proper ha now)
    split
    · exact hkept
    · exact hkept.trans (.receiveData ..)

theorem receiveData_sent (c : Connection) (segment : Segment) (now : Duration) (cfg : TcpConfig) :
    (c.receiveData segment now cfg).sendSent = c.sendSent := by
  rw [receiveData_frame]
  rfl

-- The processing of a segment does not send anything.
theorem input_sent (hv : cfg.Valid) (hi : c.Inv cfg) (segment : Segment) (now : Duration) :
    (c.input segment now cfg).sendSent = c.sendSent := by
  have h := c.input_cases segment now cfg
  generalize c.input segment now cfg = c' at h
  cases h
  case ignored => rfl
  case quiet h => rw [h.frame]; rfl
  case reset => rfl
  case opened hs ha hn _ _ =>
    have ⟨_, flags, hack⟩ := opened_acked hv hi hs ha hn now
    rw [receiveData_sent]
    show ((c.synAccepted segment).acknowledge segment now cfg).sendSent = _
    rw [hack.frame]
    rfl
  case answered hs _ ha hn =>
    have ⟨_, flags, hack⟩ := answered_acked hv hi hs ha hn now
    have hsent : (c.establish.acknowledge segment now cfg).sendSent = c.sendSent := by
      rw [hack.frame]
      rfl
    split
    · exact hsent
    · rwa [receiveData_sent]
  case accepted _ _ ha =>
    have he := acknowledge_effect hv hi.toCore hi.phase.proper ha now
    have hsent : (c.acknowledge segment now cfg).sendSent = c.sendSent := by
      rw [he.frame]
      rfl
    split
    · exact hsent
    · rwa [receiveData_sent]

-- The flights cover the outstanding bytes and those control flags that are not yet acknowledged.
theorem sizes_flights (hi : c.Inv cfg) (hs : c.state.isFailure = false) :
    sizes c.flights + c.state.controlAcked =
      c.outstanding.length + 1 + c.state.finQueued.toNat := by
  have hp := hi.phase
  rw [outstanding]
  cases hst : c.state <;> simp only [hst, Phase, TcpState.isFailure, Bool.true_eq_false] at hp hs
  case synSent | synReceived =>
    obtain ⟨-, f, hf, hsyn, -⟩ := hp
    simp [hf, hsyn.size_eq, hsyn.payload, TcpState.controlAcked, TcpState.finQueued]
  case established | closeWait =>
    simp only [TcpState.controlAcked, TcpState.finQueued, Bool.toNat_false,
      Nat.add_right_cancel_iff, Nat.add_zero]
    exact sizes_data hp
  case finWait1 | closing | lastAck =>
    obtain ⟨-, f, hf, hfin⟩ := hp
    simp [hf, hfin.size_eq, hfin.payload, TcpState.controlAcked, TcpState.finQueued]
  all_goals simp [hp.right, TcpState.controlAcked, TcpState.finQueued]

end Connection

namespace Endpoint

variable {cfg : TcpConfig} {e : Endpoint} {s : Segment}

-- A segment that was emitted at some time of the run, relative to the written stream.
structure Emitted (cfg : TcpConfig) (e : Endpoint) (s : Segment) : Prop where
  data : s.payload ≠ [] →
    ∃ pre, pre ++ s.payload <+: e.written ∧ s.sequence = e.iss + 1 + BitVec.ofNat 32 pre.length
  syn  : has s.flags SYN → s.payload = [] ∧ s.sequence = e.iss
  fin  : has s.flags FIN → s.payload = [] ∧ e.closed ∧ e.acked = e.written ∧ e.conn.queued = [] ∧
    s.sequence = e.iss + 1 + BitVec.ofNat 32 e.written.length
  mss  : s.payload.length ≤ e.conn.sendMss cfg
  mtu  : (Wire.encode s).length ≤ cfg.mtu

-- The history of the sending side.
structure Sender (cfg : TcpConfig) (e : Endpoint) : Prop where
  inv     : e.conn.Inv cfg
  closed  : e.closed = e.conn.writeClosed
  fresh   : e.conn.state.isHandshake → e.written = []
  stream  : e.conn.state.isFailure = false →
    e.acked ++ e.conn.outstanding ++ e.conn.queued = e.written
  acked   : e.acked <+: e.written
  una     : e.conn.state.isFailure = false →
    e.conn.sendUna = e.iss + BitVec.ofNat 32 (e.conn.state.controlAcked + e.acked.length)
  emitted : ∀ s ∈ e.emitted, e.Emitted cfg s

-- What all operations have in common, with regard to the segments emitted before.
structure Later (cfg : TcpConfig) (e e' : Endpoint) : Prop where
  iss     : e'.iss = e.iss
  written : e.written <+: e'.written
  closed  : e.closed → e'.closed ∧ e'.written = e.written
  fin     : e.closed → e.acked = e.written → e.conn.queued = [] →
    e'.acked = e'.written ∧ e'.conn.queued = []
  mss     : e.written = [] ∨ e'.conn.peerMss = e.conn.peerMss

theorem Emitted.later {e' : Endpoint} (h : Emitted cfg e s) (hl : Later cfg e e') :
    Emitted cfg e' s where
  data hp := by
    obtain ⟨pre, hw, hs⟩ := h.data hp
    exact ⟨pre, hw.trans hl.written, by rw [hs, hl.iss]⟩
  syn hf := by rw [hl.iss]; exact h.syn hf
  fin hf := by
    obtain ⟨hp, hc, ha, hq, hs⟩ := h.fin hf
    obtain ⟨hc', hw⟩ := hl.closed hc
    obtain ⟨ha', hq'⟩ := hl.fin hc ha hq
    exact ⟨hp, hc', ha', hq', by rw [hs, hl.iss, hw]⟩
  mss := by
    rcases hl.mss with hw | hm
    case inl =>
      -- Nothing was written, and so nothing was sent.
      by_cases hp : s.payload = []
      case pos => simp [hp]
      case neg =>
        obtain ⟨pre, hpre, -⟩ := h.data hp
        simp [hw, hp] at hpre
    case inr => simpa [Connection.sendMss, hm] using h.mss
  mtu := h.mtu

theorem input_of_failure {now : Duration} (h : (e.conn.input s now cfg).state.isFailure) :
    e.input s now cfg = { e with conn := e.conn.input s now cfg } :=
  if_pos h

theorem input_of_not_failure {now : Duration}
    (h : (e.conn.input s now cfg).state.isFailure = false) :
    e.input s now cfg = {
      e with
      conn     := e.conn.input s now cfg
      irs      :=
        if e.conn.state = .synSent ∧ (e.conn.input s now cfg).state ≠ .synSent then s.sequence
        else e.irs
      acked    := e.acked ++ e.conn.outstanding.take
        (e.conn.outstanding.length - (e.conn.input s now cfg).outstanding.length)
      appended := e.appended ++ (e.conn.input s now cfg).received.drop e.conn.received.length
    } :=
  if_neg (by simp [h])

-- A failed connection stays as it is.
theorem not_failure_of_input {now : Duration}
    (h : (e.conn.input s now cfg).state.isFailure = false) : e.conn.state.isFailure = false := by
  by_contra hn
  have ht := TcpState.isTerminal_of_isFailure (by simpa using hn)
  rw [Connection.input, if_pos ht] at h
  exact hn h

namespace Sender

variable {now : Duration}

theorem outstanding_nil (h : Sender cfg e) (hs : e.conn.state.isFailure = false)
    (ha : e.acked = e.written) : e.conn.outstanding = [] ∧ e.conn.queued = [] := by
  have := congrArg List.length (h.stream hs)
  simp only [length_append, ha] at this
  exact ⟨eq_nil_of_length_eq_zero (by omega), eq_nil_of_length_eq_zero (by omega)⟩

-- The position of `sendNext` in the stream follows from that of `sendUna`, and vice versa.
theorem next_iff {c : Connection} (hi : c.Inv cfg) (hs : c.state.isFailure = false) {iss : U32}
    {n : Nat} :
    c.sendUna = iss + BitVec.ofNat 32 (c.state.controlAcked + n) ↔
    c.sendNext = iss +
      BitVec.ofNat 32 (1 + n + c.outstanding.length + c.state.finQueued.toNat) := by
  have hz := Connection.sizes_flights hi hs
  have hn := hi.window.contiguous.eq_add
  have hsum : 1 + n + c.outstanding.length + c.state.finQueued.toNat =
      c.state.controlAcked + n + sizes c.flights := by omega
  rw [hn, hsum, BitVec.ofNat_add (x := c.state.controlAcked + n), ← BitVec.add_assoc,
    BitVec.add_left_inj]

-- An operation that changes the connection, but not the history of the sending side.
theorem conn {e' : Endpoint} (h : Sender cfg e) (hl : Later cfg e e') (hi : e'.conn.Inv cfg)
    (hc : e'.closed = e'.conn.writeClosed)
    (hw : e'.written = e.written) (ha : e'.acked = e.acked)
    (hm : ∀ s ∈ e'.emitted, s ∈ e.emitted ∨ e'.Emitted cfg s)
    (hh : e'.conn.state.isHandshake → e.conn.state.isHandshake)
    (hk : e'.conn.state.isFailure = false → e.conn.state.isFailure = false ∧
      e'.conn.outstanding ++ e'.conn.queued = e.conn.outstanding ++ e.conn.queued ∧
      e'.conn.sendUna = e.conn.sendUna ∧
      e'.conn.state.controlAcked = e.conn.state.controlAcked) : Sender cfg e' where
  inv      := hi
  closed   := hc
  fresh h' := hw.trans (h.fresh (hh h'))
  stream h' := by
    obtain ⟨hf, hq, -, -⟩ := hk h'
    rw [ha, hw, append_assoc, hq, ← append_assoc, h.stream hf]
  acked    := by rw [ha, hw]; exact h.acked
  una h'   := by
    obtain ⟨hf, -, hu, hc⟩ := hk h'
    rw [hu, h.una hf, hl.iss, hc, ha]
  emitted s hs := (hm s hs).elim (fun hs => (h.emitted s hs).later hl) id

theorem «open» (hv : cfg.Valid) (o : Opening) : Sender cfg (Endpoint.open cfg o) where
  inv     := by
    cases o
    case active  => exact Connection.active_inv hv ..
    case passive => exact Connection.passive_inv hv ..
  closed  := by cases o <;> rfl
  fresh   := by cases o <;> exact fun _ => rfl
  stream  := by cases o <;> exact fun _ => rfl
  acked   := by cases o <;> exact prefix_refl _
  una     := by cases o <;> exact fun _ => (BitVec.add_zero _).symm
  emitted := by cases o <;> exact fun _ hs => absurd hs not_mem_nil

theorem write (h : Sender cfg e) (bytes : List U8) : Sender cfg (e.write bytes cfg) := by
  have hi := Connection.write_inv h.inv bytes
  unfold Endpoint.write
  rcases e.conn.write_cases bytes cfg with ⟨err, hw⟩ | hw | ⟨n, -, hc, ho, hw⟩
  case inl => simpa only [hw] using h
  case inr.inl => simpa only [hw, take_zero, append_nil] using h
  case inr.inr =>
    simp only [hw] at hi ⊢
    have hc : e.closed = false := h.closed.trans hc
    have hl : Later cfg e { e with
        conn    := { e.conn with queued := e.conn.queued ++ bytes.take n }
        written := e.written ++ bytes.take n } := {
      iss     := rfl
      written := prefix_append ..
      closed  := by simp [hc]
      fin     := by simp [hc]
      mss     := .inr rfl
    }
    exact {
      inv       := hi
      closed    := h.closed
      fresh hh  := by
        have := Connection.isHandshake_of_isOpen ho
        simp [this] at hh
      stream hf := by
        have := h.stream hf
        simp only [← this, Connection.outstanding, append_assoc]
      acked     := h.acked.trans (prefix_append ..)
      una       := h.una
      emitted s hs := (h.emitted s hs).later hl
    }

theorem read (h : Sender cfg e) (size : Nat) : Sender cfg (e.read size) := by
  have hi := Connection.read_inv h.inv size
  unfold Endpoint.read
  rcases e.conn.read_cases size with ⟨err, hr⟩ | ⟨hr, -⟩ | ⟨n, hr, -, -⟩
  case inl => simpa only [hr] using h
  case inr.inl => simpa only [hr, append_nil] using h
  case inr.inr =>
    simp only [hr] at hi ⊢
    exact h.conn ⟨rfl, prefix_refl _, fun hc => ⟨hc, rfl⟩, fun _ ha hq => ⟨ha, hq⟩, .inr rfl⟩ hi
      h.closed rfl rfl (fun _ => .inl) id (fun hf => ⟨hf, rfl, rfl, rfl⟩)

theorem close (h : Sender cfg e) (now : Duration) : Sender cfg (e.close now cfg) := by
  have hi := Connection.close_inv h.inv now
  unfold Endpoint.close
  rcases e.conn.close_cases now cfg with ⟨hw, hc⟩ | ⟨err, hc⟩ | ⟨-, d, hc⟩
  case inr.inl => simpa only [hc] using h
  all_goals
    simp only [hc] at hi ⊢
    exact h.conn ⟨rfl, prefix_refl _, fun _ => ⟨rfl, rfl⟩, fun _ ha hq => ⟨ha, hq⟩, .inr rfl⟩ hi
      (by simp_all) rfl rfl (fun _ => .inl) id (fun hf => ⟨hf, rfl, rfl, rfl⟩)

theorem fail (h : Sender cfg e) {s : TcpState} (hs : s.isFailure) :
    Sender cfg { e with conn := e.conn.fail s } :=
  h.conn ⟨rfl, prefix_refl _, fun hc => ⟨hc, rfl⟩, fun _ ha _ => ⟨ha, rfl⟩, .inr rfl⟩
    (Connection.fail_inv h.inv hs) h.closed rfl rfl (fun _ => .inl)
    (fun hh => by cases s <;> simp_all [Connection.fail, TcpState.isFailure, TcpState.isHandshake])
    (fun hf => absurd hs (by simpa [Connection.fail] using hf))

theorem tick (h : Sender cfg e) (now : Duration) :
    Sender cfg { e with conn := e.conn.tick now cfg } := by
  have hi := Connection.tick_inv h.inv now
  rcases e.conn.tick_cases now cfg with ht | ⟨hs, ht⟩ | ⟨-, ht⟩ <;> rw [ht] at hi ⊢
  case inl => exact h
  case inr.inl =>
    refine h.conn ⟨rfl, prefix_refl _, fun hc => ⟨hc, rfl⟩, fun _ ha hq => ⟨ha, hq⟩, .inr rfl⟩ hi
      h.closed rfl rfl (fun _ => .inl) nofun fun _ => ?_
    rw [hs]
    exact ⟨rfl, rfl, rfl, rfl⟩
  case inr.inr => exact h.fail rfl

theorem input (hv : cfg.Valid) (h : Sender cfg e) (segment : Segment) (now : Duration) :
    Sender cfg (e.input segment now cfg) := by
  have hi := Connection.input_inv hv h.inv segment now
  rcases Connection.input_sender hv h.inv segment now with hr | hk
  case inl =>
    rw [input_of_failure (by rw [hr]; rfl), hr]
    exact h.fail rfl
  have hm : e.written = [] ∨ (e.conn.input segment now cfg).peerMss = e.conn.peerMss :=
    hk.mss.imp_left h.fresh
  cases hf : (e.conn.input segment now cfg).state.isFailure
  case true =>
    rw [input_of_failure hf]
    refine h.conn ⟨rfl, prefix_refl _, fun hc => ⟨hc, rfl⟩, ?_, hm⟩ hi
      (h.closed.trans hk.closed.symm) rfl rfl (fun _ => .inl) hk.open_ (by simp [hf])
    exact fun _ ha hq => ⟨ha, hk.queued.trans hq⟩
  case false =>
    have hf' : e.conn.state.isFailure = false := not_failure_of_input hf
    have hst := h.stream hf'
    -- Exactly the bytes that are no longer outstanding have been acknowledged.
    obtain ⟨t, ht⟩ := hk.suffix
    rw [input_of_not_failure hf, ← ht, length_append, Nat.add_sub_cancel, take_left]
    generalize e.conn.input segment now cfg = c at *
    have hl : Later cfg e { e with conn := c, acked := e.acked ++ t } := {
      iss      := rfl
      written  := prefix_refl _
      closed c := ⟨c, rfl⟩
      fin _ ha hq := by
        have := (h.outstanding_nil hf' ha).left
        simp only [← ht, append_eq_nil_iff] at this
        exact ⟨by simp [this.left, ha], hk.queued.trans hq⟩
      mss      := hm
    }
    have hst' : e.acked ++ t ++ c.outstanding ++ c.queued = e.written := by
      rw [hk.queued, append_assoc e.acked, ht, hst]
    exact {
      inv      := hi
      closed   := h.closed.trans hk.closed.symm
      fresh hh := h.fresh (hk.open_ hh)
      stream _ := hst'
      acked    := ⟨c.outstanding ++ c.queued, by simpa using hst'⟩
      una _    := by
        have hn := (next_iff h.inv hf').mp (h.una hf')
        refine (next_iff hi hf).mpr ?_
        rw [hk.next, hn, hk.fin, ← ht]
        simp only [length_append, Nat.add_assoc]
      emitted s hs := (h.emitted s hs).later ⟨hl.iss, hl.written, hl.closed, hl.fin, hl.mss⟩
    }

-- A flight with data carries the bytes of the stream at its offset.
theorem flight_data (h : Sender cfg e) (ho : e.conn.state.isOpen) {f : Flight}
    (hf : f ∈ e.conn.flights) :
    ∃ pre, pre ++ f.payload <+: e.written ∧
    f.sequence = e.iss + 1 + BitVec.ofNat 32 pre.length := by
  have hs : e.conn.state.isFailure = false ∧ e.conn.state.controlAcked = 1 := by
    cases hst : e.conn.state <;>
      simp_all [TcpState.isOpen, TcpState.isFailure, TcpState.controlAcked]
  have hd := (Connection.Phase.of_isOpen ho).mp h.inv.phase
  obtain ⟨l, r, hlr⟩ := append_of_mem hf
  have hc := h.inv.window.contiguous
  have hst := h.stream hs.left
  rw [hlr] at hc hd
  obtain ⟨m, hl, rfl, -⟩ := Contiguous.append_iff.mp hc
  refine ⟨e.acked ++ l.flatMap (·.payload), ?_, ?_⟩
  · refine ⟨r.flatMap (·.payload) ++ e.conn.queued, ?_⟩
    simp [← hst, Connection.outstanding, hlr]
  · rw [hl.eq_add, h.una hs.left, hs.right, sizes_data fun g hg => hd g (by simp [hg])]
    simp only [length_append, BitVec.ofNat_add, BitVec.add_assoc]
    rfl

theorem outgoing_emitted (hv : cfg.Valid) (h : Sender cfg e) {index : Option Nat}
    (hx : e.conn.Indexed index) : e.Emitted cfg (e.conn.outgoing index cfg) := by
  have hmtu := hv.mtu_ge
  cases index
  case none =>
    have hf : (e.conn.outgoing none cfg).flags = ACK := rfl
    have ht : Wire.total (e.conn.outgoing none cfg) = 40 := rfl
    refine ⟨fun hp => absurd rfl hp, ?_, ?_, Nat.zero_le _, by rw [Wire.encode_length]; omega⟩
    all_goals
      rw [hf]
      exact fun hs => absurd hs (by decide)
  case some i =>
    obtain ⟨f, hf⟩ := hx i rfl
    have hm := mem_of_getElem? hf
    have hp := h.inv.phase
    have hmss := h.inv.mss f hm
    have hmss' := hv.mss_le_mtu
    have hle := e.conn.sendMss_le cfg
    cases hst : e.conn.state <;> simp only [hst, Connection.Phase] at hp
    case synSent | synReceived =>
      obtain ⟨-, g, hg, hsyn, -⟩ := hp
      obtain rfl : f = g := by simpa [hg] using hm
      have ha : e.acked = [] := prefix_nil.mp (h.fresh (by rw [hst]; rfl) ▸ h.acked)
      have hu := h.una (by rw [hst]; rfl)
      have hq : f.sequence = e.iss := by
        have := h.inv.window.contiguous
        rw [hg] at this
        rw [this.left, hu, ha, hst]
        simp [TcpState.controlAcked]
      refine ⟨?_, ?_, ?_, ?_, ?_⟩
      all_goals simp [Connection.outgoing, hf, hsyn.payload, hsyn.has_syn, hsyn.not_has_fin, hq,
        Wire.total, Wire.headerLen, Wire.mssOption, be16]
      omega
    case established | closeWait =>
      have hd := hp f hm
      refine ⟨?_, ?_, ?_, ?_, ?_⟩
      case refine_1 =>
        have := h.flight_data (by rw [hst]; rfl) hm
        simpa [Connection.outgoing, hf] using fun _ => this
      all_goals simp [Connection.outgoing, hf, hd.not_has_syn, hd.not_has_fin, Wire.total,
        Wire.headerLen, Wire.mssOption, hmss]
      omega
    case finWait1 | closing | lastAck =>
      obtain ⟨hqu, g, hg, hfin⟩ := hp
      obtain rfl : f = g := by simpa [hg] using hm
      have hnf : e.conn.state.isFailure = false := by rw [hst]; rfl
      have hst' := h.stream hnf
      have ha : e.acked = e.written := by
        simpa [Connection.outstanding, hg, hfin.payload, hqu] using hst'
      have hq : f.sequence = e.iss + 1 + BitVec.ofNat 32 e.written.length := by
        have := h.inv.window.contiguous
        rw [hg] at this
        rw [this.left, h.una hnf, ha, hst]
        simp only [TcpState.controlAcked, BitVec.ofNat_add, BitVec.add_assoc]
        rfl
      have hc : e.closed := h.closed.trans (h.inv.closing.closed (by rw [hst]; rfl))
      refine ⟨?_, ?_, ?_, ?_, ?_⟩
      all_goals simp [Connection.outgoing, hf, hfin.payload, hfin.has_fin, hfin.not_has_syn, hq, hc,
        ha, hqu, Wire.total, Wire.headerLen, Wire.mssOption]
      omega
    all_goals simp [hp.right] at hm

-- A call of `transmit` that does not get a segment accepted.
theorem staged (h : Sender cfg e) {c : Connection} (he : Connection.StageEffect e.conn c)
    (hi : c.Inv cfg) : Sender cfg { e with conn := c } := by
  have hc : c.writeClosed = e.conn.writeClosed := by rw [he.frame]; rfl
  have hm : c.peerMss = e.conn.peerMss := by rw [he.frame]; rfl
  have hu : c.sendUna = e.conn.sendUna := by rw [he.frame]; rfl
  have hs : c.state.isFailure = e.conn.state.isFailure ∧
      c.state.isHandshake = e.conn.state.isHandshake ∧
      c.state.controlAcked = e.conn.state.controlAcked := by
    rcases he.state with hs | ⟨-, ⟨hs, hs'⟩ | ⟨hs, hs'⟩⟩
    · simp [hs]
    all_goals rw [hs, hs']; exact ⟨rfl, rfl, rfl⟩
  refine h.conn ⟨rfl, prefix_refl _, fun hc => ⟨hc, rfl⟩, fun _ ha hq => ⟨ha, ?_⟩, .inr hm⟩ hi
    (h.closed.trans hc.symm) rfl rfl (fun _ => .inl) (hs.right.left ▸ id)
    (fun hf => ⟨hs.left ▸ hf, he.stream, hu, hs.right.right⟩)
  cases hf : e.conn.state.isFailure
  case false =>
    have := he.stream
    rw [(h.outstanding_nil hf ha).left, hq] at this
    exact (append_eq_nil_iff.mp this).right
  case true =>
    have hp := hi.phase
    have hf := hs.left.trans hf
    cases hst : c.state <;> simp_all [TcpState.isFailure, Connection.Phase]

-- A call of `transmit` whose segment the device accepts.
theorem recorded (h : Sender cfg e) {c : Connection} (he : Connection.RecordEffect e.conn c)
    (hi : c.Inv cfg) (hs : e.Emitted cfg s) (promised : Option Nat) :
    Sender cfg { e with conn := c, emitted := e.emitted ++ [s], promised } := by
  have hst : c.state = e.conn.state := by rw [he.frame]; rfl
  have hc : c.writeClosed = e.conn.writeClosed := by rw [he.frame]; rfl
  have hm : c.peerMss = e.conn.peerMss := by rw [he.frame]; rfl
  have hu : c.sendUna = e.conn.sendUna := by rw [he.frame]; rfl
  have hq : c.queued = e.conn.queued := by rw [he.frame]; rfl
  have hl : Later cfg e { e with conn := c, emitted := e.emitted ++ [s], promised } :=
    ⟨rfl, prefix_refl _, fun hc => ⟨hc, rfl⟩, fun _ ha hn => ⟨ha, hq.trans hn⟩, .inr hm⟩
  refine h.conn hl hi (h.closed.trans hc.symm) rfl rfl ?_ (hst ▸ id)
    (fun hf => ⟨hst ▸ hf, by rw [he.outstanding, hq], hu, by rw [hst]⟩)
  intro s' hs'
  rcases mem_append.mp hs' with hs' | hs'
  · exact .inl hs'
  · obtain rfl := mem_singleton.mp hs'
    exact .inr (hs.later hl)

end Sender

-- A call of `transmit` either stages at most, or emits what is staged.
theorem transmit_cases (hv : cfg.Valid) (hi : e.conn.Inv cfg) (now : Duration)
    (outcome : Submission) :
    (∃ c, e.transmit now outcome cfg = { e with conn := c } ∧
      Connection.StageEffect e.conn c ∧ c.Inv cfg) ∨
    (e.conn.emission now cfg = some
        ((e.conn.stage now cfg).fst.outgoing (e.conn.stage now cfg).snd cfg) ∧
      outcome = .accepted ∧ e.transmit now outcome cfg = {
        e with
        conn     :=
          ((e.conn.stage now cfg).fst.record (e.conn.stage now cfg).snd now cfg).fst
        emitted  := e.emitted ++
          [(e.conn.stage now cfg).fst.outgoing (e.conn.stage now cfg).snd cfg]
        promised := some (e.receiveOffset +
          ((e.conn.stage now cfg).fst.advertisedWindow cfg).toNat) }) := by
  have staged (h : e.conn.emission now cfg = none ∨ outcome ≠ .accepted) :=
    Connection.transmitted_staged hv hi now h
  unfold transmit
  cases hs : e.conn.emission now cfg
  case none => exact .inl ⟨_, rfl, staged (.inl hs)⟩
  case some segment =>
    cases outcome
    case accepted =>
      obtain ⟨rfl, ht⟩ := Connection.transmitted_accepted hs
      exact .inr ⟨rfl, rfl, by rw [ht]; rfl⟩
    all_goals exact .inl ⟨_, rfl, staged (.inr nofun)⟩

namespace Sender

theorem transmit (hv : cfg.Valid) (h : Sender cfg e) (now : Duration) (outcome : Submission) :
    Sender cfg (e.transmit now outcome cfg) := by
  rcases transmit_cases hv h.inv now outcome with ⟨c, he, hs, hi⟩ | ⟨-, -, he⟩ <;> rw [he]
  case inl => exact h.staged hs hi
  have hi := Connection.stage_inv hv h.inv now
  have hx := Connection.stage_indexed hv h.inv now
  have hst := h.staged (Connection.stage_effect hv h.inv now) hi
  exact hst.recorded (Connection.record_effect hv hi hx now) (Connection.record_inv hv hi hx now)
    (hst.outgoing_emitted hv hx) _

theorem step (hv : cfg.Valid) (h : Sender cfg e) (op : Op) : Sender cfg (e.step cfg op) := by
  cases op
  case call c =>
    cases c
    case write bytes => exact h.write bytes
    case read size => exact h.read size
    case close now => exact h.close now
    case tick now => exact h.tick now
    case transmit now outcome => exact h.transmit hv now outcome
  case input segment now => exact h.input hv segment now
  case fail state => exact h.fail state.property

theorem run (hv : cfg.Valid) (o : Opening) (ops : List Op) : Sender cfg (Endpoint.run cfg o ops) :=
  Transition.exec_induction («open» hv o) fun _ op h => h.step hv op

end Sender
end Endpoint
