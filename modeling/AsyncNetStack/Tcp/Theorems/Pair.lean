import AsyncNetStack.Tcp.Pair
import AsyncNetStack.Tcp.Theorems.Receiver

open Serial Tcp List Option

namespace Connection

variable {cfg : TcpConfig} {c : Connection} {segment : Segment} {now : Duration}

theorem receiveData_una (c : Connection) (segment : Segment) (now : Duration) (cfg : TcpConfig) :
    (c.receiveData segment now cfg).sendUna = c.sendUna := by
  rw [receiveData_frame]
  rfl

theorem finAcknowledged_una (c : Connection) (now : Duration) (cfg : TcpConfig) :
    (c.finAcknowledged now cfg).sendUna = c.sendUna := by
  unfold finAcknowledged
  cases c.state <;> rfl

theorem acknowledge_una (hv : cfg.Valid) (hi : c.Inv cfg)
    (hs : before c.sendSent segment.acknowledgment = false) (now : Duration) :
    (c.acknowledge segment now cfg).sendUna = c.sendUna ∨
    (c.acknowledge segment now cfg).sendUna = segment.acknowledgment := by
  rcases acknowledge_cases hv hi.toCore hi.phase.proper hs now with ⟨hr, -⟩ | ⟨c', flags, ha, he⟩
  case inl => exact .inl (by rw [hr.frame]; rfl)
  refine .inr ?_
  rw [he]
  split
  · exact (finAcknowledged_una ..).trans ha.una
  · exact ha.una

-- The acknowledged part of the stream only grows up to what a segment acknowledges.
theorem input_una (hv : cfg.Valid) (hi : c.Inv cfg) (segment : Segment) (now : Duration)
    (hf : (c.input segment now cfg).state.isFailure = false) :
    (c.input segment now cfg).sendUna = c.sendUna ∨
    has segment.flags ACK ∧ (c.input segment now cfg).sendUna = segment.acknowledgment := by
  have h := c.input_cases segment now cfg
  generalize c.input segment now cfg = c' at h hf
  cases h
  case ignored => exact .inl rfl
  case quiet h => exact .inl (by rw [h.frame]; rfl)
  case reset => simp [fail, TcpState.isFailure] at hf
  case opened flag hs ha hn _ _ =>
    obtain ⟨-, flags, hack⟩ := opened_acked hv hi hs ha hn now
    exact .inr ⟨flag, (receiveData_una ..).trans (hack.una.trans ha.symm)⟩
  case answered flag hs _ ha hn =>
    obtain ⟨-, flags, hack⟩ := answered_acked hv hi hs ha hn now
    refine .inr ⟨flag, ?_⟩
    split
    · exact hack.una.trans ha.symm
    · exact (receiveData_una ..).trans (hack.una.trans ha.symm)
  case accepted flag hs _ ha =>
    have hu := (acknowledge_una hv hi ha now).imp_right (And.intro flag)
    split
    · exact hu
    · rwa [receiveData_una]

-- A connection which waits for the answer to its SYN has nothing to acknowledge.
def Silent (c : Connection) : Prop :=
  c.state = .synSent → c.ackPending = false ∧ c.probePending = false

-- A segment that does not end the wait for the answer to a SYN changes nothing.
theorem input_synSent (hv : cfg.Valid) (hi : c.Inv cfg)
    (hs : (c.input segment now cfg).state = .synSent) : c.input segment now cfg = c := by
  have hk := input_sender hv hi segment now
  have h := c.input_cases segment now cfg
  generalize c.input segment now cfg = c' at h hk hs
  cases h
  case ignored => rfl
  case quiet hne h => exact absurd (by rw [h.frame] at hs; exact hs) hne
  case reset => simp [fail] at hs
  case opened =>
    have := (SenderKept.receiveData (c.opened segment now cfg) (synData segment) now cfg).open_
      (by rw [hs]; rfl)
    simp [opened, establish, TcpState.isHandshake] at this
  case answered hsr _ ha hn =>
    obtain ⟨-, flags, hack⟩ := answered_acked hv hi hsr ha hn now
    have hk := SenderKept.of_ackEffect hack.ackEffect
    have ho : c.establish.state.isHandshake := by
      split at hs
      · exact hk.open_ (by rw [hs]; rfl)
      · exact (hk.trans (.receiveData ..)).open_ (by rw [hs]; rfl)
    simp [establish, TcpState.isHandshake] at ho
  case accepted hsr _ ha =>
    have hk := hk.resolve_left fun hf => by simp [hf, fail] at hs
    simp [hk.open_ (by rw [hs]; rfl)] at hsr

theorem Silent.input (h : c.Silent) (hv : cfg.Valid) (hi : c.Inv cfg) (segment : Segment)
    (now : Duration) : (c.input segment now cfg).Silent := by
  intro hs
  have he := input_synSent hv hi hs
  rw [he] at hs ⊢
  exact h hs

-- A segment is submitted for a flight, for an acknowledgment or for a probe.
theorem emission_some {g : Segment} (h : c.emission now cfg = some g) :
    c.state.isTerminal = false ∧ ((c.stage now cfg).snd = none →
      (c.stage now cfg).fst.ackPending ∨ (c.stage now cfg).fst.probePending) := by
  unfold emission at h
  split at h
  case isTrue => simp at h
  rename_i ht
  dsimp only at h
  split at h
  case isTrue => simp at h
  case isFalse hn =>
    refine ⟨by simpa using ht, fun hs => ?_⟩
    simp only [hs, isNone_none, Bool.true_and, Bool.and_eq_true, Bool.not_eq_true',
      not_and, Bool.not_eq_false] at hn
    cases ha : (c.stage now cfg).fst.ackPending
    case true => exact .inl rfl
    case false => exact .inr (hn ha)

theorem StageEffect.silent {c' : Connection} (he : StageEffect c c') (h : c.Silent) :
    c'.Silent := by
  intro hs
  have hs : c.state = .synSent := by
    rcases he.state with hs' | ⟨-, ⟨-, hs'⟩ | ⟨-, hs'⟩⟩
    · exact hs'.symm.trans hs
    all_goals simp [hs'] at hs
  refine ⟨?_, (he.probe (by rw [hs]; rfl)).trans (h hs).right⟩
  rw [he.frame]
  exact (h hs).left

theorem Silent.transmitted (h : c.Silent) (hv : cfg.Valid) (hi : c.Inv cfg) (now : Duration)
    (outcome : Submission) : (c.transmitted now cfg outcome).fst.Silent := by
  have staged (h' : c.emission now cfg = none ∨ outcome ≠ .accepted) :=
    (transmitted_staged hv hi now h').left.silent h
  cases he : c.emission now cfg
  case none => exact staged (.inl he)
  case some segment =>
    cases outcome
    case blocked | failed => exact staged (.inr nofun)
    case accepted =>
      have hr := record_effect hv (stage_inv hv hi now) (stage_indexed hv hi now) now
      rw [(transmitted_accepted he).right]
      intro hs
      have hq := (stage_effect hv hi now).silent h (by rw [hr.frame] at hs; exact hs)
      refine ⟨Bool.eq_false_iff.mpr fun ha => ?_, Bool.eq_false_iff.mpr fun hp => ?_⟩
      · simpa [hq.left] using hr.ack ha
      · simpa [hq.right] using hr.probe hp

-- The SYN of an active connection carries no acknowledgment.
theorem emission_ack (hv : cfg.Valid) (hi : c.Inv cfg) (h : c.Silent) {g : Segment}
    (hg : c.emission now cfg = some g)
    (hf : has ((c.stage now cfg).fst.outgoing (c.stage now cfg).snd cfg).flags ACK) :
    c.state ≠ .synSent := by
  intro hs
  have he := stage_effect hv hi now
  have hs' : (c.stage now cfg).fst.state = .synSent := by
    rcases he.state with hs' | ⟨-, ⟨hs', -⟩ | ⟨hs', -⟩⟩
    · exact hs'.trans hs
    all_goals simp [hs'] at hs
  cases hx : (c.stage now cfg).snd
  case none =>
    have hp := (emission_some hg).right hx
    simp [he.silent h hs'] at hp
  case some i =>
    obtain ⟨f, hi'⟩ := stage_indexed hv hi now i hx
    have hp := (stage_inv hv hi now).phase
    simp only [hs', Phase] at hp
    obtain ⟨-, f', hf', -, hflags⟩ := hp
    have hm : f = f' := by simpa [hf'] using mem_of_getElem? hi'
    have hflags : (((c.stage now cfg).fst.outgoing (some i) cfg)).flags = SYN := by
      simp [outgoing, hi', hm, hflags]
    rw [hx, hflags] at hf
    exact absurd hf (by decide)

end Connection

namespace Endpoint

variable {cfg : TcpConfig} {e e' : Endpoint}

-- What a call does, as far as it concerns the other end.
structure Called (e e' : Endpoint) : Prop where
  iss      : e'.iss = e.iss
  irs      : e'.irs = e.irs
  acked    : e'.acked = e.acked
  appended : e'.appended = e.appended
  eof      : e'.conn.peerEof = e.conn.peerEof
  written  : e.written <+: e'.written
  closed   : e.closed → e'.closed ∧ e'.written = e.written
  synSent  : e.conn.state = .synSent → e'.conn.state = .synSent ∨ e'.conn.state.isFailure
  failure  : e'.conn.state.isFailure = false → e.conn.state.isFailure = false
  sound    : e.conn.state ≠ .failed → e'.conn.state ≠ .failed
  una      : e'.conn.state.isFailure = false → e'.conn.sendUna = e.conn.sendUna
  silent   : e.conn.Silent → e'.conn.Silent
  emitted  : ∀ g ∈ e'.emitted, g ∈ e.emitted ∨ (has g.flags ACK → e.conn.state.isFailure = false ∧
    e.conn.state ≠ .synSent ∧ g.acknowledgment = e.conn.receiveNext)

namespace Called

theorem refl (e : Endpoint) : Called e e where
  iss      := rfl
  irs      := rfl
  acked    := rfl
  appended := rfl
  eof      := rfl
  written  := prefix_refl _
  closed h := ⟨h, rfl⟩
  synSent  := .inl
  failure  := id
  sound    := id
  una _    := rfl
  silent   := id
  emitted _ h := .inl h

theorem write (h : Sender cfg e) (bytes : List U8) : Called e (e.write bytes cfg) := by
  unfold Endpoint.write
  rcases e.conn.write_cases bytes cfg with ⟨err, hw⟩ | hw | ⟨n, -, hc, -, hw⟩ <;> simp only [hw]
  case inl => exact .refl e
  case inr.inl => simpa only [take_zero, append_nil] using .refl e
  case inr.inr =>
    have hc : e.closed = false := h.closed.trans hc
    exact {
      Called.refl e with
      written := prefix_append ..
      closed  := by simp [hc]
    }

theorem read (h : Receiver e) (size : Nat) : Called e (e.read size) := by
  unfold Endpoint.read
  rcases e.conn.read_cases size with ⟨err, hr⟩ | ⟨hr, -⟩ | ⟨n, hr, hpos, hle⟩ <;> simp only [hr]
  case inl => exact .refl e
  case inr.inl => simpa only [append_nil] using .refl e
  case inr.inr =>
    -- Nothing can be read before the handshake is over.
    have hn : e.conn.state ≠ .synSent := by
      intro hs
      have hb := h.buffer (by rw [hs]; rfl)
      rw [h.fresh (by rw [hs]; rfl)] at hb
      simp [(append_eq_nil_iff.mp hb).right] at hle
      omega
    exact { Called.refl e with silent := fun _ hs => absurd hs hn }

theorem close (e : Endpoint) (now : Duration) (cfg : TcpConfig) : Called e (e.close now cfg) := by
  unfold Endpoint.close
  rcases e.conn.close_cases now cfg with ⟨hw, hc⟩ | ⟨err, hc⟩ | ⟨-, d, hc⟩ <;> simp only [hc]
  case inr.inl => exact .refl e
  all_goals exact { Called.refl e with closed := fun _ => ⟨rfl, rfl⟩ }

theorem tick (e : Endpoint) (now : Duration) (cfg : TcpConfig) :
    Called e { e with conn := e.conn.tick now cfg } := by
  rcases e.conn.tick_cases now cfg with ht | ⟨hs, ht⟩ | ⟨-, ht⟩ <;> rw [ht]
  case inl => exact .refl e
  case inr.inl =>
    exact {
      Called.refl e with
      synSent h := by simp [hs] at h
      failure   := by rw [hs]; exact id
      sound _   := nofun
      una _     := rfl
      silent    := nofun
    }
  case inr.inr =>
    exact {
      Called.refl e with
      synSent   := fun _ => .inr rfl
      failure   := nofun
      sound _   := nofun
      una       := nofun
      silent    := nofun
    }

theorem staged {c : Connection} (he : Connection.StageEffect e.conn c) :
    Called e { e with conn := c } := by
  have hs : (e.conn.state = .synSent → c.state = .synSent) ∧
      c.state.isFailure = e.conn.state.isFailure ∧
      (e.conn.state ≠ .failed → c.state ≠ .failed) := by
    rcases he.state with hs | ⟨-, ⟨hs, hs'⟩ | ⟨hs, hs'⟩⟩
    · simp [hs]
    all_goals rw [hs, hs']; exact ⟨nofun, rfl, nofun⟩
  exact {
    Called.refl e with
    eof     := by rw [he.frame]; rfl
    synSent := .inl ∘ hs.left
    failure := by rw [hs.right.left]; exact id
    sound   := hs.right.right
    una _   := by rw [he.frame]; rfl
    silent  := he.silent
  }

theorem transmit (hv : cfg.Valid) (hi : e.conn.Inv cfg) (hq : e.conn.Silent) (now : Duration)
    (outcome : Submission) : Called e (e.transmit now outcome cfg) := by
  rcases transmit_cases hv hi now outcome with ⟨c, he, hs, -⟩ | ⟨hg, -, he⟩ <;> rw [he]
  case inl => exact staged hs
  have hst := Connection.stage_effect hv hi now
  have hr := Connection.record_effect hv (Connection.stage_inv hv hi now)
    (Connection.stage_indexed hv hi now) now
  have h := staged hst
  have hs : ((e.conn.stage now cfg).fst.record (e.conn.stage now cfg).snd now cfg).fst.state =
      (e.conn.stage now cfg).fst.state := by
    rw [hr.frame]; rfl
  exact {
    h with
    eof       := by rw [hr.frame]; exact h.eof
    synSent   := by rw [hs]; exact h.synSent
    failure   := by rw [hs]; exact h.failure
    sound     := by rw [hs]; exact h.sound
    una       := by rw [hs, hr.frame]; exact h.una
    silent hq := by
      have hq' := hq.transmitted hv hi now .accepted
      rwa [(Connection.transmitted_accepted hg).right] at hq'
    emitted g hm := by
      rcases mem_append.mp hm with hm | hm
      · exact .inl hm
      obtain rfl := mem_singleton.mp hm
      refine .inr fun hf => ⟨?_, Connection.emission_ack hv hi hq hg hf, ?_⟩
      · have ht := (Connection.emission_some hg).left
        by_contra hf
        simp [TcpState.isTerminal_of_isFailure (by simpa using hf)] at ht
      · show (e.conn.stage now cfg).fst.receiveNext = _
        rw [hst.frame]; rfl
  }

theorem call (hv : cfg.Valid) (hs : Sender cfg e) (hr : Receiver e) (hq : e.conn.Silent)
    (call : Call) : Called e (e.call cfg call) := by
  cases call
  case write bytes          => exact write hs bytes
  case read size            => exact read hr size
  case close now            => exact close e now cfg
  case tick now             => exact tick e now cfg
  case transmit now outcome => exact transmit hv hs.inv hq now outcome

end Called

-- The stream from one end to the other, as both of them see it.
structure Link (s r : Endpoint) : Prop where
  irs      : r.conn.state.isFailure = false → r.conn.state ≠ .synSent → r.irs = s.iss
  silent   : r.conn.Silent
  sound    : r.conn.state ≠ .failed
  appended : r.appended <+: s.written
  eof      : r.conn.peerEof → s.closed ∧ r.appended = s.written
  una      : s.conn.state.isFailure = false →
    ∃ n ≤ 1 + r.receiveOffset, s.conn.sendUna = s.iss + BitVec.ofNat 32 n
  acked    : s.acked.length ≤ r.appended.length
  acks     : ∀ g ∈ r.emitted, has g.flags ACK →
    ∃ n ≤ r.receiveOffset, g.acknowledgment = s.iss + 1 + BitVec.ofNat 32 n

namespace Link

variable {s s' r r' : Endpoint}

theorem receiveOffset_le (h : Link s r) : r.receiveOffset ≤ s.written.length + 1 := by
  have := h.appended.length_le
  have := r.conn.peerEof.toNat_le
  rw [receiveOffset]
  omega

-- What the receiver has returned and what it holds is a part of the stream.
theorem delivered (h : Link s r) (hr : Receiver r) :
    r.returned ++ r.conn.received <+: s.written := by
  cases hf : r.conn.state.isFailure
  case true =>
    rw [hr.cleared hf, append_nil]
    exact hr.returned.trans h.appended
  case false => exact hr.buffer hf ▸ h.appended

-- The end of the stream is reported only after all of it was returned.
theorem eof_read (h : Link s r) (hr : Receiver r) (hi : r.conn.Inv cfg) {size : Nat} (hs : 0 < size)
    (he : (r.conn.read size).snd = .ok []) : s.closed ∧ r.returned = s.written := by
  rcases r.conn.read_cases size with ⟨err, hc⟩ | ⟨-, hc⟩ | ⟨n, hc, hpos, hle⟩
  case inl => simp [hc] at he
  case inr.inl =>
    obtain ⟨hnil, heof, -, hreset, htimeout⟩ := hc.resolve_left (Nat.ne_of_gt hs)
    have hf : r.conn.state.isFailure = false := by
      have := h.sound
      cases hst : r.conn.state <;> simp_all [TcpState.isFailure]
    have heof : r.conn.peerEof := by
      rcases heof with heof | hst
      · exact heof
      · rw [hi.closing.eof hf, hst]; rfl
    obtain ⟨hcl, ha⟩ := h.eof heof
    have hb := hr.buffer hf
    rw [hnil, append_nil] at hb
    exact ⟨hcl, hb.trans ha⟩
  case inr.inr =>
    have he : n = 0 ∨ r.conn.received = [] := by simpa [hc] using he
    rcases he with rfl | he
    · simp at hpos
    · simp [he] at hle
      omega

theorem call_sender (h : Link s r) (hc : Called s s') : Link s' r where
  irs      := by rw [hc.iss]; exact h.irs
  silent   := h.silent
  sound    := h.sound
  appended := h.appended.trans hc.written
  eof he   := by
    obtain ⟨hs, ha⟩ := h.eof he
    obtain ⟨hs', hw⟩ := hc.closed hs
    exact ⟨hs', ha.trans hw.symm⟩
  una hf   := by
    rw [hc.una hf, hc.iss]
    exact h.una (hc.failure hf)
  acked    := by rw [hc.acked]; exact h.acked
  acks     := by rw [hc.iss]; exact h.acks

theorem receiveOffset_call (hc : Called r r') : r'.receiveOffset = r.receiveOffset := by
  rw [receiveOffset, receiveOffset, hc.appended, hc.eof]

theorem call_receiver (h : Link s r) (hr : Receiver r) (hc : Called r r') : Link s r' where
  irs hf hs := by
    rw [hc.irs]
    refine h.irs (hc.failure hf) fun hs' => ?_
    rcases hc.synSent hs' with hs' | hf'
    · exact hs hs'
    · simp [hf] at hf'
  silent   := hc.silent h.silent
  sound    := hc.sound h.sound
  appended := by rw [hc.appended]; exact h.appended
  eof      := by rw [hc.eof, hc.appended]; exact h.eof
  una      := by rw [receiveOffset_call hc]; exact h.una
  acked    := by rw [hc.appended]; exact h.acked
  acks g hg hf := by
    rw [receiveOffset_call hc]
    rcases hc.emitted g hg with hg | hg
    case inl => exact h.acks g hg hf
    obtain ⟨hnf, hns, ha⟩ := hg hf
    refine ⟨r.receiveOffset, Nat.le_refl _, ?_⟩
    rw [ha, hr.next hnf hns, h.irs hnf hns]

-- The sender's first unacknowledged position bounds what it regards as acknowledged.
theorem acked_le (h : Link s r) (hs : Sender cfg s') (hf : s'.conn.state.isFailure = false)
    (hw : s.written.length < 2 ^ 31) (hw' : s'.written = s.written) {n : Nat}
    (hn : n ≤ 1 + r.receiveOffset) (hu : s'.conn.sendUna = s'.iss + BitVec.ofNat 32 n) :
    s'.acked.length ≤ r.appended.length := by
  have hle : s'.acked.length ≤ s.written.length := hw' ▸ hs.acked.length_le
  have ho := h.receiveOffset_le
  have hc : s'.conn.state.controlAcked ≤ 2 := by
    cases s'.conn.state <;> simp [TcpState.controlAcked]
  have heq : n = s'.conn.state.controlAcked + s'.acked.length :=
    offset_inj s'.iss (by omega) (by omega) (hu.symm.trans (hs.una hf))
  cases he : r.conn.peerEof
  case true => rwa [(h.eof he).right]
  case false =>
    cases hh : s'.conn.state.isHandshake
    case true =>
      have := hs.acked
      rw [hs.fresh hh] at this
      simp [prefix_nil.mp this]
    case false =>
      have hpos : 1 ≤ s'.conn.state.controlAcked := by
        cases hst : s'.conn.state <;> simp_all [TcpState.controlAcked, TcpState.isHandshake]
      simp only [receiveOffset, he, Bool.toNat_false] at hn
      omega

-- A segment of the receiver takes bytes off the flights only if the receiver has them.
theorem acknowledge (h : Link s r) (hv : cfg.Valid) (hs : Sender cfg s)
    (hw : s.written.length < 2 ^ 31) {g : Segment} (hg : g ∈ r.emitted) (now : Duration) :
    Link (s.input g now cfg) r := by
  have hs' := hs.input hv g now
  cases hf : (s.conn.input g now cfg).state.isFailure
  case true =>
    rw [input_of_failure hf]
    exact { h with una := fun hf' => absurd hf (by simp [hf']) }
  case false =>
    have hu : ∃ n ≤ 1 + r.receiveOffset,
        (s.conn.input g now cfg).sendUna = s.iss + BitVec.ofNat 32 n := by
      rcases Connection.input_una hv hs.inv g now hf with hu | ⟨ha, hu⟩
      case inl => rw [hu]; exact h.una (not_failure_of_input hf)
      obtain ⟨n, hn, hack⟩ := h.acks g hg ha
      refine ⟨1 + n, Nat.add_le_add_left hn 1, ?_⟩
      rw [hu, hack, BitVec.ofNat_add, BitVec.add_assoc]
      rfl
    rw [input_of_not_failure hf] at hs' ⊢
    obtain ⟨n, hn, hun⟩ := hu
    exact { h with una := fun _ => ⟨n, hn, hun⟩, acked := h.acked_le hs' hf hw rfl hn hun }

-- What a segment of the sender contributes continues the stream.
theorem contributes (h : Link s r) (hw : s.written.length < 2 ^ 31) {g : Segment}
    (hg : Emitted cfg s g) {bytes : List U8} {fin : Nat}
    (hn : r.conn.receiveNext = s.iss + 1 + BitVec.ofNat 32 r.appended.length)
    (hc : r.conn.Contributes g bytes fin) :
    r.appended ++ bytes <+: s.written ∧ (fin ≠ 0 → s.closed ∧ r.appended ++ bytes = s.written) := by
  have hl := h.appended.length_le
  by_cases hp : g.payload = []
  case pos =>
    have hb : bytes = [] := by simpa [hp] using hc.part
    subst hb
    rw [append_nil]
    refine ⟨h.appended, fun hf => ?_⟩
    obtain ⟨hfin, hseq⟩ := hc.last.resolve_left hf
    obtain ⟨-, hcl, -, -, hq⟩ := hg.fin hfin
    have heq : s.written.length = r.appended.length := by
      apply offset_inj (s.iss + 1) (by omega) (by omega)
      simpa [hp, hq, hn] using hseq
    exact ⟨hcl, h.appended.eq_of_length heq.symm⟩
  case neg =>
    obtain ⟨pre, hpre, hq⟩ := hg.data hp
    have hpl := hpre.length_le
    have hk := hc.skip_le
    have hpart := hc.part
    rw [length_append] at hpl
    rw [hq, hn] at hk hpart
    have hskip := add_dist_offsets (s.iss + 1) (x := pre.length) (y := r.appended.length)
      (by omega) (by omega)
    generalize Serial.dist _ _ = k at hk hpart hskip
    have heq : r.appended = pre ++ g.payload.take k := by
      have hpre' : pre ++ g.payload.take k <+: s.written :=
        ((prefix_append_right_inj pre).mpr (List.take_prefix ..)).trans hpre
      refine List.IsPrefix.eq_of_length (prefix_of_prefix_length_le h.appended hpre' ?_) ?_
      all_goals
        rw [length_append, length_take]
        omega
    refine ⟨?_, fun hf => ?_⟩
    · refine List.IsPrefix.trans ?_ hpre
      rw [heq, append_assoc, prefix_append_right_inj]
      refine List.IsPrefix.trans ((prefix_append_right_inj _).mpr hpart) ?_
      rw [take_append_drop]
    · obtain ⟨hfin, -⟩ := hc.last.resolve_left hf
      exact absurd (hg.fin hfin).left hp

-- A step of the receiver that takes `bytes` and `fin` FINs.
theorem taken (h : Link s r) {bytes : List U8} {fin : Nat} (ha : r'.appended = r.appended ++ bytes)
    (he : r'.conn.peerEof.toNat = r.conn.peerEof.toNat + fin) (hm : r'.emitted = r.emitted)
    (hq : r'.conn.Silent) (hs : r'.conn.state ≠ .failed)
    (hirs : r'.conn.state.isFailure = false → r'.conn.state ≠ .synSent → r'.irs = s.iss)
    (hc : bytes = [] ∧ fin = 0 ∨ r.appended ++ bytes <+: s.written ∧
      (fin ≠ 0 → s.closed ∧ r.appended ++ bytes = s.written) ∧ r.conn.peerEof = false) :
    Link s r' := by
  have hle : r.receiveOffset ≤ r'.receiveOffset := by
    rw [receiveOffset, receiveOffset, ha, he, length_append]
    omega
  exact {
    irs      := hirs
    silent   := hq
    sound    := hs
    appended := by
      rw [ha]
      rcases hc with ⟨rfl, -⟩ | ⟨hp, -⟩
      · simpa using h.appended
      · exact hp
    eof he'  := by
      rw [ha]
      rw [he', Bool.toNat_true] at he
      rcases hc with ⟨rfl, rfl⟩ | ⟨-, hfin, hne⟩
      · rw [append_nil]
        refine h.eof ?_
        cases hne : r.conn.peerEof <;> simp [hne] at he ⊢
      · refine hfin ?_
        rintro rfl
        simp [hne] at he
    una hf   := by
      obtain ⟨n, hn, hu⟩ := h.una hf
      exact ⟨n, by omega, hu⟩
    acked    := by
      rw [ha, length_append]
      exact Nat.le_add_right_of_le h.acked
    acks     := by
      rw [hm]
      intro g hg hf
      obtain ⟨n, hn, hack⟩ := h.acks g hg hf
      exact ⟨n, hn.trans hle, hack⟩
  }

theorem receive (h : Link s r) (hv : cfg.Valid) (hr : Receiver r) (hi : r.conn.Inv cfg)
    {cfg' : TcpConfig} (hw : s.written.length < 2 ^ 31) {g : Segment} (hg : Emitted cfg' s g)
    (now : Duration) : Link s (r.input g now cfg) := by
  have hq := h.silent.input hv hi g now
  have hsound : (r.conn.input g now cfg).state ≠ .failed := by
    intro hf
    cases hf' : r.conn.state.isFailure
    case true =>
      rw [Connection.input, if_pos (TcpState.isTerminal_of_isFailure hf')] at hf
      exact h.sound hf
    case false =>
      rcases Connection.input_receiver hv hi g now with hr | hr | ⟨-, _, _, ht⟩ | ⟨hs, _, _, ht, -⟩
      · simp [hr, Connection.fail] at hf
      · exact h.sound (hr ▸ hf)
      all_goals
        have := ht.failure.trans hf'
        simp [hf, TcpState.isFailure] at this
  -- Nothing happens to the stream, or the connection fails.
  have same (he : (r.conn.input g now cfg).peerEof = r.conn.peerEof)
      (hs : (r.conn.input g now cfg).state.isFailure ∨ r.conn.input g now cfg = r.conn) :
      Link s (r.input g now cfg) := by
    cases hf : (r.conn.input g now cfg).state.isFailure
    case true =>
      rw [input_of_failure hf]
      exact h.taken (append_nil _).symm (by rw [he]; rfl) rfl hq hsound (by simp [hf])
        (.inl ⟨rfl, rfl⟩)
    case false =>
      have hs := hs.resolve_left (by simp [hf])
      rw [input_of_not_failure hf]
      have happ : r.appended ++ (r.conn.input g now cfg).received.drop r.conn.received.length =
          r.appended ++ [] := by simp [hs]
      refine h.taken happ (by rw [he]; rfl) rfl hq hsound ?_ (.inl ⟨rfl, rfl⟩)
      rw [hs]
      intro hf hne
      rw [if_neg (fun h => hne h.left)]
      exact h.irs hf hne
  cases hf : r.conn.state.isFailure
  case true =>
    have hr : r.conn.input g now cfg = r.conn := by
      rw [Connection.input, if_pos (TcpState.isTerminal_of_isFailure hf)]
    exact same (by rw [hr]) (.inr hr)
  rcases Connection.input_receiver hv hi g now with hr | hr | ⟨hne, bytes, fin, ht⟩ |
    ⟨hs, bytes, fin, ht, hsyn, hfin, hne⟩
  case inl => exact same (by rw [hr]; rfl) (.inl (by rw [hr]; rfl))
  case inr.inl => exact same (by rw [hr]) (.inr hr)
  all_goals
    have hf' := ht.failure.trans hf
    have happ : (r.conn.input g now cfg).received.drop r.conn.received.length = bytes := by
      rw [ht.received]
      exact drop_left
    rw [input_of_not_failure hf', happ]
  case inr.inr.inl =>
    have hirs := h.irs hf hne
    refine h.taken rfl ht.eof rfl hq hsound ?_ (ht.origin.imp_right fun hc => ?_)
    · rw [if_neg (fun h => hne h.left)]
      exact fun _ _ => hirs
    · have hn := hr.next hf hne
      rw [hirs, receiveOffset, hc.not_eof] at hn
      have := h.contributes hw hg hn hc
      exact ⟨this.left, this.right, hc.not_eof⟩
  case inr.inr.inr =>
    -- A SYN carries nothing else.
    obtain ⟨hp, hseq⟩ := hg.syn hsyn
    refine h.taken rfl ht.eof rfl hq hsound ?_ (.inl ?_)
    · rw [if_pos ⟨hs, hne⟩]
      exact fun _ _ => hseq
    · rcases ht.origin with ho | ho
      · exact ho
      have hb := ho.part
      have hl := ho.last
      rw [Connection.has_synData_fin] at hl
      simp only [Connection.synData, hp, drop_nil, prefix_nil] at hb
      exact ⟨hb, by simpa [hfin] using hl⟩

end Link

theorem written_call (e : Endpoint) (cfg : TcpConfig) (call : Call) :
    e.written <+: (e.call cfg call).written := by
  cases call
  case write bytes =>
    simp only [Endpoint.call, Endpoint.write]
    split
    · exact prefix_append ..
    · exact prefix_refl _
  case read =>
    simp only [Endpoint.call, Endpoint.read]
    split <;> exact prefix_refl _
  case close =>
    simp only [Endpoint.call, Endpoint.close]
    split <;> exact prefix_refl _
  case tick => exact prefix_refl _
  case transmit =>
    simp only [Endpoint.call, Endpoint.transmit]
    split <;> exact prefix_refl _

@[simp]
theorem written_input (e : Endpoint) (g : Segment) (now : Duration) (cfg : TcpConfig) :
    (e.input g now cfg).written = e.written := by
  simp only [input]
  split <;> rfl

@[simp]
theorem emitted_input (e : Endpoint) (g : Segment) (now : Duration) (cfg : TcpConfig) :
    (e.input g now cfg).emitted = e.emitted := by
  simp only [input]
  split <;> rfl

end Endpoint

namespace Pair

open Endpoint

variable {cfg : Configs} {p : Pair}

-- Half of the sequence space is enough for what was written.
def Bounded (p : Pair) : Prop :=
  ∀ side, (p.written side).length < 2 ^ 31

-- Both directions of the stream.
structure Linked (cfg : Configs) (a b : Endpoint) : Prop where
  active  : History cfg.active a
  passive : History cfg.passive b
  forth   : Link a b
  back    : Link b a

-- As long as there is no passive end, it could still choose any initial sequence number.
structure Waiting (cfg : Configs) (a : Endpoint) : Prop where
  active : History cfg.active a
  silent : a.conn.Silent
  acked  : a.acked = []
  una    : a.conn.state.isFailure = false → a.conn.sendUna = a.iss
  back   : ∀ syn iss now, Link (.open cfg.passive (.passive syn iss now)) a

def Inv (cfg : Configs) (p : Pair) : Prop :=
  p.passive.elim (Waiting cfg p.active) (Linked cfg p.active)

theorem open_inv (ha : cfg.active.Valid) (localAddr remoteAddr : SocketAddr) (iss : U32)
    (now : Duration) : Inv cfg («open» cfg localAddr remoteAddr iss now) where
  active := .open ha (.active localAddr remoteAddr iss now)
  silent _ := ⟨rfl, rfl⟩
  acked  := rfl
  una _  := rfl
  back _ _ _ := {
    irs      := fun _ h => absurd rfl h
    silent _ := ⟨rfl, rfl⟩
    sound    := nofun
    appended := prefix_refl _
    eof      := nofun
    una _    := ⟨0, Nat.zero_le _, (BitVec.add_zero _).symm⟩
    acked    := Nat.le_refl _
    acks     := nofun
  }

namespace Waiting

variable {a : Endpoint}

theorem call (h : Waiting cfg a) (ha : cfg.active.Valid) (call : Call) :
    Waiting cfg (a.call cfg.active call) := by
  have hc := Called.call ha h.active.sender h.active.receiver h.silent call
  exact {
    active := h.active.step ha (.call call)
    silent := hc.silent h.silent
    acked  := hc.acked.trans h.acked
    una hf := (hc.una hf).trans ((h.una (hc.failure hf)).trans hc.iss.symm)
    back syn iss now := (h.back syn iss now).call_receiver h.active.receiver hc
  }

theorem accept (h : Waiting cfg a) (hb : cfg.passive.Valid) {syn : Segment}
    (hm : syn ∈ a.emitted) (hs : has syn.flags SYN) (iss : U32) (now : Duration) :
    Linked cfg a (.open cfg.passive (.passive syn iss now)) where
  active  := h.active
  passive := .open hb _
  forth   := {
    irs _ _  := ((h.active.sender.emitted syn hm).syn hs).right
    silent   := nofun
    sound    := nofun
    appended := nil_prefix
    eof      := nofun
    una hf   := ⟨0, Nat.zero_le _, (h.una hf).trans (BitVec.add_zero _).symm⟩
    acked    := by rw [h.acked]; exact Nat.le_refl _
    acks     := nofun
  }
  back    := h.back syn iss now

end Waiting

namespace Linked

variable {a b : Endpoint}

theorem call_active (h : Linked cfg a b) (ha : cfg.active.Valid) (call : Call) :
    Linked cfg (a.call cfg.active call) b := by
  have hc := Called.call ha h.active.sender h.active.receiver h.back.silent call
  exact {
    active  := h.active.step ha (.call call)
    passive := h.passive
    forth   := h.forth.call_sender hc
    back    := h.back.call_receiver h.active.receiver hc
  }

theorem call_passive (h : Linked cfg a b) (hb : cfg.passive.Valid) (call : Call) :
    Linked cfg a (b.call cfg.passive call) := by
  have hc := Called.call hb h.passive.sender h.passive.receiver h.forth.silent call
  exact {
    active  := h.active
    passive := h.passive.step hb (.call call)
    forth   := h.forth.call_receiver h.passive.receiver hc
    back    := h.back.call_sender hc
  }

theorem deliver_active (h : Linked cfg a b) (ha : cfg.active.Valid)
    (hwa : a.written.length < 2 ^ 31) (hwb : b.written.length < 2 ^ 31) {g : Segment}
    (hg : g ∈ b.emitted) (now : Duration) : Linked cfg (a.input g now cfg.active) b where
  active  := h.active.step ha (.input g now)
  passive := h.passive
  forth   := h.forth.acknowledge ha h.active.sender hwa hg now
  back    :=
    h.back.receive ha h.active.receiver h.active.sender.inv hwb (h.passive.sender.emitted g hg) now

theorem deliver_passive (h : Linked cfg a b) (hb : cfg.passive.Valid)
    (hwa : a.written.length < 2 ^ 31) (hwb : b.written.length < 2 ^ 31) {g : Segment}
    (hg : g ∈ a.emitted) (now : Duration) : Linked cfg a (b.input g now cfg.passive) where
  active  := h.active
  passive := h.passive.step hb (.input g now)
  forth   :=
    h.forth.receive hb h.passive.receiver h.passive.sender.inv hwa (h.active.sender.emitted g hg)
      now
  back    := h.back.acknowledge hb h.passive.sender hwb hg now

end Linked

theorem written_step (p : Pair) (event : Event) (side : Side) :
    p.written side <+: (p.step cfg event).written side := by
  obtain ⟨a, b⟩ := p
  cases event
  case call s call =>
    cases s <;> cases side <;> cases b
    case active.active.none | active.active.some | passive.passive.some => exact written_call ..
    all_goals exact prefix_refl _
  case accept index iss now =>
    simp only [step, accept]
    split
    case h_2 => exact prefix_refl _
    split
    · cases side <;> exact prefix_refl _
    · exact prefix_refl _
  case deliver s index now =>
    cases s <;> simp only [step, deliver] <;> split
    all_goals cases side <;> cases b <;> simp [written, endpoint]

theorem step_inv (ha : cfg.active.Valid) (hb : cfg.passive.Valid) (hw : p.Bounded) (h : p.Inv cfg)
    (event : Event) : (p.step cfg event).Inv cfg := by
  obtain ⟨a, b⟩ := p
  have hwa : a.written.length < 2 ^ 31 := hw .active
  cases event
  case call side call =>
    cases side <;> cases b
    case active.none  => exact Waiting.call h ha call
    case active.some  => exact Linked.call_active h ha call
    case passive.none => exact h
    case passive.some => exact Linked.call_passive h hb call
  case accept index iss now =>
    simp only [step, accept]
    split
    case h_2 => exact h
    case h_1 hg =>
      split
      · exact Waiting.accept h hb (mem_of_getElem? hg) ‹_› iss now
      · exact h
  case deliver side index now =>
    cases b
    case none =>
      cases side <;> simp only [step, deliver, bind_none, map_none]
      · exact h
      · split <;> exact h
    case some b =>
      have hwb : b.written.length < 2 ^ 31 := hw .passive
      cases side <;> simp only [step, deliver, bind_some, map_some]
      all_goals
        split
        case h_2 => exact h
      · exact Linked.deliver_active h ha hwa hwb (mem_of_getElem? ‹_›) now
      · exact Linked.deliver_passive h hb hwa hwb (mem_of_getElem? ‹_›) now

theorem bounded_of_step {event : Event} (h : (p.step cfg event).Bounded) : p.Bounded :=
  fun side => Nat.lt_of_le_of_lt (p.written_step event side).length_le (h side)

theorem run_inv (ha : cfg.active.Valid) (hb : cfg.passive.Valid) (localAddr remoteAddr : SocketAddr)
    (iss : U32) (now : Duration) (events : List Event)
    (hw : (run cfg localAddr remoteAddr iss now events).Bounded) :
    (run cfg localAddr remoteAddr iss now events).Inv cfg := by
  have hopen := open_inv ha localAddr remoteAddr iss now
  have hstep (p : Pair) (event : Event) (h : p.Bounded → p.Inv cfg)
      (hw : (p.step cfg event).Bounded) : (p.step cfg event).Inv cfg :=
    step_inv ha hb (bounded_of_step hw) (h (bounded_of_step hw)) event
  exact Transition.exec_induction (P := fun p : Pair => p.Bounded → p.Inv cfg) (fun _ => hopen)
    hstep hw

-- What holds at an end of the pair, with regard to the other end:
-- * what `read` has returned and what it can still return is a prefix of what the other end wrote
-- * `read` reports the end of the stream only if the other end has closed it and all of it was
--   returned
-- * acknowledgments take off only bytes that the other end has appended to its receive buffer
structure Intact (p : Pair) (side : Side) (e : Endpoint) : Prop where
  stream : e.returned ++ e.conn.received <+: p.written side.other
  eof    : ∀ size > 0, (e.conn.read size).snd = .ok [] →
    ∃ peer, p.endpoint side.other = some peer ∧ peer.closed ∧ e.returned = peer.written
  acked  : e.acked <+: (p.endpoint side.other).elim [] (·.appended)

theorem Linked.intact {a b : Endpoint} (h : Linked cfg a b) (side : Side) :
    ∀ e ∈ endpoint ⟨a, b⟩ side, Intact ⟨a, b⟩ side e := by
  intro e he
  cases side <;> obtain rfl := Option.some.inj he
  case active =>
    exact {
      stream := h.back.delivered h.active.receiver
      eof size hs hr := ⟨b, rfl, h.back.eof_read h.active.receiver h.active.sender.inv hs hr⟩
      acked  := prefix_of_prefix_length_le h.active.sender.acked h.forth.appended h.forth.acked
    }
  case passive =>
    exact {
      stream := h.forth.delivered h.passive.receiver
      eof size hs hr := ⟨a, rfl, h.forth.eof_read h.passive.receiver h.passive.sender.inv hs hr⟩
      acked  := prefix_of_prefix_length_le h.passive.sender.acked h.back.appended h.back.acked
    }

theorem Waiting.intact {a : Endpoint} (h : Waiting cfg a) : Intact ⟨a, none⟩ .active a := by
  -- Whichever passive end there will be, nothing has been received from it.
  have hl := h.back (a.conn.outgoing none cfg.active) 0 .zero
  exact {
    stream := hl.delivered h.active.receiver
    eof size hs hr := by
      have := (hl.eof_read h.active.receiver h.active.sender.inv hs hr).left
      simp [Endpoint.open, Endpoint.open.init] at this
    acked  := by rw [h.acked]; exact nil_prefix
  }

theorem stream_integrity (ha : cfg.active.rejected = false) (hb : cfg.passive.rejected = false)
    (localAddr remoteAddr : SocketAddr) (iss : U32) (now : Duration) (events : List Event)
    (hw : ∀ side, ((run cfg localAddr remoteAddr iss now events).written side).length < 2 ^ 31)
    (side : Side) :
    ∀ e ∈ (run cfg localAddr remoteAddr iss now events).endpoint side,
      Intact (run cfg localAddr remoteAddr iss now events) side e := by
  have hi :=
    run_inv (.of_not_rejected ha) (.of_not_rejected hb) localAddr remoteAddr iss now events hw
  generalize run cfg localAddr remoteAddr iss now events = p at hi
  obtain ⟨a, b⟩ := p
  cases b
  case some b => exact Linked.intact hi side
  case none =>
    intro e he
    cases side
    case active =>
      obtain rfl := Option.some.inj he
      exact Waiting.intact hi
    case passive => cases he

-- A run in which three bytes and a FIN get to the passive end, and two of the bytes are read there.
-- The segment with the bytes arrives twice.
def exchange : Pair :=
  run ⟨.default, .default⟩ { ip := 0x0a000001, port := 1000 } { ip := 0x0a000002, port := 80 }
    7 .zero [
    .call .active (.transmit .zero .accepted),
    .accept 0 500 .zero,
    .call .passive (.transmit .zero .accepted),
    .deliver .active 0 .zero,
    .call .active (.write [1, 2, 3]),
    .call .active (.transmit .zero .accepted),
    .deliver .passive 1 .zero,
    .deliver .passive 1 .zero,
    .call .passive (.read 2),
    .call .passive (.transmit .zero .accepted),
    .deliver .active 1 .zero,
    .call .active (.close .zero),
    .call .active (.transmit .zero .accepted),
    .deliver .passive 2 .zero
  ]

theorem stream_integrity_exchange :
    exchange.active.acked = [1, 2, 3] ∧
    (exchange.passive.map fun b => (b.returned, b.conn.received, b.conn.peerEof)) =
      some ([1, 2], [3], true) ∧
    ∀ side, ∀ e ∈ exchange.endpoint side, Intact exchange side e := by
  refine ⟨by decide, by decide, stream_integrity TcpConfig.default_not_rejected
    TcpConfig.default_not_rejected _ _ _ _ _ fun side => ?_⟩
  cases side <;> decide

end Pair
