import AsyncNetStack.Tcp.Theorems.Sender

open Serial Tcp List Bool

namespace Connection

variable {cfg : TcpConfig} {c c' c'' : Connection} {now : Duration} {segment : Segment}

-- A segment contributes a part of its payload that starts at the next expected byte, and its FIN
-- only if nothing of the payload is left out.
structure Contributes (c : Connection) (segment : Segment) (bytes : List U8) (fin : Nat) :
    Prop where
  not_eof : c.peerEof = false
  skip_le : Serial.dist segment.sequence c.receiveNext ≤ segment.payload.length
  part    : bytes <+: segment.payload.drop (Serial.dist segment.sequence c.receiveNext)
  last    : fin = 0 ∨ has segment.flags FIN ∧
    segment.sequence + BitVec.ofNat 32 segment.payload.length =
      c.receiveNext + BitVec.ofNat 32 bytes.length

theorem Delivery.contributes {bytes : List U8} (h : Delivery cfg c segment bytes) :
    Contributes c segment bytes 0 :=
  ⟨h.not_eof, h.skip_le, h.bytes_eq ▸ take_prefix .., .inl rfl⟩

theorem FinDelivery.contributes {bytes : List U8} (h : FinDelivery cfg c segment bytes) :
    Contributes c segment bytes 1 :=
  { h.toDelivery.contributes with last := .inr ⟨h.fin, h.sequence⟩ }

-- The receiving side gets `bytes`, and `fin` FINs.
structure Taken (cfg : TcpConfig) (c c' : Connection) (segment : Segment) (bytes : List U8)
    (fin : Nat) : Prop where
  origin   : bytes = [] ∧ fin = 0 ∨ Contributes c segment bytes fin
  received : c'.received = c.received ++ bytes
  fits     : bytes.length ≤ (c.advertisedWindow cfg).toNat
  eof      : c'.peerEof.toNat = c.peerEof.toNat + fin
  next     : c'.receiveNext = c.receiveNext + BitVec.ofNat 32 (bytes.length + fin)
  failure  : c'.state.isFailure = c.state.isFailure
  opening  : c'.state.isHandshake → c.state.isHandshake ∧ bytes = []

namespace Taken

theorem none (hr : c'.received = c.received) (he : c'.peerEof = c.peerEof)
    (hn : c'.receiveNext = c.receiveNext) (hf : c'.state.isFailure = c.state.isFailure)
    (ho : c'.state.isHandshake → c.state.isHandshake) : Taken cfg c c' segment [] 0 :=
  ⟨.inl ⟨rfl, rfl⟩, by simp [hr], Nat.zero_le _, by simp [he], by simp [hn], hf,
    fun h => ⟨ho h, rfl⟩⟩

theorem of_ackEffect {bytes : List U8} {fin : Nat} (h : AckEffect c c')
    (ht : Taken cfg c' c'' segment bytes fin) : Taken cfg c c'' segment bytes fin := by
  obtain ⟨hc, hr, hf, he, hn, hs, ho⟩ := ht
  have hc : bytes = [] ∧ fin = 0 ∨ Contributes c segment bytes fin := by
    refine hc.imp_right fun hc => ?_
    rw [h.frame] at hc
    exact ⟨hc.not_eof, hc.skip_le, hc.part, hc.last⟩
  rw [h.frame] at hr hf he hn
  exact ⟨hc, hr, hf, he, hn, hs.trans h.failure,
    fun hh => ⟨(SenderKept.of_ackEffect h).open_ (ho hh).left, (ho hh).right⟩⟩

theorem receiveData (c : Connection) (segment : Segment) (now : Duration) (cfg : TcpConfig) :
    ∃ bytes fin, Taken cfg c (c.receiveData segment now cfg) segment bytes fin := by
  rcases c.receiveData_cases segment now cfg with h | h | ⟨bytes, hd, h⟩ | ⟨bytes, hd, h⟩ <;> rw [h]
  · exact ⟨[], 0, .none rfl rfl rfl rfl id⟩
  · exact ⟨[], 0, .none rfl rfl rfl rfl id⟩
  · refine ⟨bytes, 0, .inr hd.contributes, rfl, hd.length_le, rfl, rfl, rfl, fun hh => ?_⟩
    have := hd.receiving
    simp only [deliver] at hh
    cases hs : c.state <;> simp_all [TcpState.isReceiving, TcpState.isHandshake]
  · have hr := hd.receiving
    refine ⟨bytes, 1, .inr hd.contributes, ?_, hd.length_le, ?_, ?_, ?_, ?_⟩
    all_goals
      unfold finReceived
      cases hs : c.state <;> simp only [hs, TcpState.isReceiving, false_eq_true] at hr
    all_goals
      simp [deliver, enterTimeWait, hd.not_eof, BitVec.ofNat_add, BitVec.add_assoc, hs,
        TcpState.isFailure, TcpState.isHandshake]

end Taken

-- What the processing of a segment does to the receiving side.
theorem input_receiver (hv : cfg.Valid) (hi : c.Inv cfg) (segment : Segment) (now : Duration) :
    c.input segment now cfg = c.fail .reset ∨
    c.input segment now cfg = c ∨
    (c.state ≠ .synSent ∧ ∃ bytes fin, Taken cfg c (c.input segment now cfg) segment bytes fin) ∨
    (c.state = .synSent ∧ ∃ bytes fin,
      Taken cfg (c.synAccepted segment) (c.input segment now cfg) (synData segment) bytes fin ∧
      has segment.flags SYN ∧ has segment.flags FIN = false ∧
      (c.input segment now cfg).state ≠ .synSent) := by
  have h := c.input_cases segment now cfg
  generalize c.input segment now cfg = c' at h
  cases h
  case ignored => exact .inr (.inl rfl)
  case quiet hs h =>
    refine .inr (.inr (.inl ⟨hs, [], 0, ?_⟩))
    rw [h.frame]
    exact .none rfl rfl rfl rfl id
  case reset => exact .inl rfl
  case opened hs ha hn hsyn hfin =>
    obtain ⟨-, flags, hack⟩ := opened_acked hv hi hs ha hn now
    obtain ⟨bytes, fin, ht⟩ :=
      Taken.receiveData (c.opened segment now cfg) (synData segment) now cfg
    have hkept := SenderKept.receiveData (c.opened segment now cfg) (synData segment) now cfg
    refine .inr (.inr (.inr ⟨hs, bytes, fin, .of_ackEffect hack.ackEffect ?_, hsyn, hfin, ?_⟩))
    · exact ⟨ht.origin.imp_right fun h => ⟨h.not_eof, h.skip_le, h.part, h.last⟩, ht.received,
        ht.fits, ht.eof, ht.next, ht.failure.trans
          (by rw [hack.state_eq, show (c.synAccepted segment).state = _ from hs]; rfl),
        fun hh => absurd (ht.opening hh).left false_ne_true⟩
    · intro hst
      have := hkept.open_ (by rw [hst]; rfl)
      simp [opened, establish, TcpState.isHandshake] at this
  case answered hs _ ha hn =>
    obtain ⟨-, flags, hack⟩ := answered_acked hv hi hs ha hn now
    have he := hack.ackEffect
    refine .inr (.inr (.inl ⟨by rw [hs]; decide, ?_⟩))
    split
    · refine ⟨[], 0, .none ?_ ?_ ?_ (he.failure.trans (by rw [hs]; rfl)) fun _ => by rw [hs]; rfl⟩
      all_goals rw [he.frame]; rfl
    · obtain ⟨bytes, fin, ht⟩ :=
        Taken.receiveData (c.establish.acknowledge segment now cfg) segment now cfg
      obtain ⟨hc, hr, hf, he, hn, hst, ho⟩ := ht.of_ackEffect he
      exact ⟨bytes, fin, hc.imp_right fun h => ⟨h.not_eof, h.skip_le, h.part, h.last⟩, hr, hf, he,
        hn, hst.trans (by rw [hs]; rfl), fun hh => absurd (ho hh).left false_ne_true⟩
  case accepted hs _ ha =>
    have he := acknowledge_effect hv hi.toCore hi.phase.proper ha now
    have hne : c.state ≠ .synSent := by
      intro h
      simp [h, TcpState.isHandshake] at hs
    refine .inr (.inr (.inl ⟨hne, ?_⟩))
    split
    · refine ⟨[], 0, .none ?_ ?_ ?_ he.failure (SenderKept.of_ackEffect he).open_⟩
      all_goals rw [he.frame]; rfl
    · obtain ⟨bytes, fin, ht⟩ := Taken.receiveData (c.acknowledge segment now cfg) segment now cfg
      exact ⟨bytes, fin, ht.of_ackEffect he⟩

-- A segment that continues the stream and fits into the window is taken as a whole.
theorem receiveData_in_order (hr : c.state.isReceiving) (he : c.peerEof = false)
    (hq : segment.sequence = c.receiveNext)
    (hl : segment.payload.length ≤ (c.advertisedWindow cfg).toNat) (now : Duration) :
    (c.receiveData segment now cfg).received = c.received ++ segment.payload ∧
    (c.receiveData segment now cfg).receiveNext = c.receiveNext +
      BitVec.ofNat 32 (segment.payload.length + (c.receiveData segment now cfg).peerEof.toNat) := by
  by_cases hn : segment.payload.isEmpty && !has segment.flags FIN
  case pos =>
    simp only [receiveData, if_pos hn]
    simp only [and_eq_true, List.isEmpty_iff] at hn
    simp [hn.left, he]
  case neg =>
    have hd : Delivery cfg c segment segment.payload := {
      receiving := hr
      not_eof   := he
      order     := by simp [hq]
      skip_le   := by simp [hq]
      bytes_eq  := by simp [hq, List.take_of_length_le hl]
    }
    rw [receiveData_of_delivery hn hd]
    split
    case isFalse => simp [deliver, he]
    unfold finReceived
    cases hs : c.state <;> simp only [hs, TcpState.isReceiving, false_eq_true] at hr
    all_goals simp [deliver, enterTimeWait, hs, BitVec.ofNat_add, BitVec.add_assoc]

theorem sequenceLen_toNat (hs : has segment.flags SYN = false)
    (hl : segment.payload.length ≤ 65535) :
    segment.sequenceLen.toNat = segment.payload.length + (has segment.flags FIN).toNat := by
  rw [Segment.sequenceLen, seqLen, hs]
  cases has segment.flags FIN <;> simp <;> omega

-- An in-order segment that fits is refused only if it consists of a FIN and the window is closed.
theorem acceptable_in_order (hq : segment.sequence = c.receiveNext)
    (hs : has segment.flags SYN = false)
    (hl : segment.payload.length ≤ (c.advertisedWindow cfg).toNat) :
    c.acceptable segment cfg ∨ segment.payload = [] := by
  have hw := (c.advertisedWindow cfg).isLt
  have hsl := sequenceLen_toNat hs (by omega)
  by_cases hp : segment.payload = []
  case pos => exact .inr hp
  case neg =>
    have := length_pos_of_ne_nil hp
    have hz : (segment.sequence - c.receiveNext).toInt = 0 := by simp [hq]
    refine .inl ?_
    simp only [acceptable, hz, hsl]
    rw [if_neg (by omega)]
    simp only [and_eq_true, decide_eq_true_eq]
    omega

theorem input_in_order (hv : cfg.Valid) (hi : c.Inv cfg) (hr : c.state.isReceiving)
    (hq : segment.sequence = c.receiveNext) (ha : has segment.flags ACK)
    (hs : has segment.flags SYN = false) (hrst : has segment.flags RST = false)
    (hack : before c.sendSent segment.acknowledgment = false)
    (hl : segment.payload.length ≤ (c.advertisedWindow cfg).toNat) (now : Duration) :
    (c.input segment now cfg).received = c.received ++ segment.payload ∧
    (c.input segment now cfg).receiveNext = c.receiveNext +
      BitVec.ofNat 32 (segment.payload.length + (c.input segment now cfg).peerEof.toNat) := by
  have hst : c.state.isTerminal = false ∧ c.state ≠ .synSent ∧ c.state ≠ .timeWait ∧
      c.state ≠ .synReceived ∧ c.state.isFailure = false ∧ c.state.peerClosed = false := by
    cases hst : c.state <;>
      simp_all [TcpState.isReceiving, TcpState.isTerminal, TcpState.isFailure, TcpState.peerClosed]
  obtain ⟨ht, hss, htw, hsr, hf, hpc⟩ := hst
  have he : c.peerEof = false := (hi.closing.eof hf).trans hpc
  rw [input, if_neg (by simp [ht]), if_neg hss, if_neg htw, if_neg (by simp [hsr])]
  by_cases hacc : c.acceptable segment cfg
  case neg =>
    have hp := (acceptable_in_order hq hs hl).resolve_left hacc
    rw [if_pos (by simpa using hacc), if_neg (by simp [hrst])]
    simp [hp, he]
  case pos =>
    rw [if_neg (by simp [hacc]), if_neg (by simp [hrst]), if_neg (by simp [hs]),
      if_neg (by simp [ha]), if_neg (by simp [hack]), if_neg (by simp [hsr])]
    simp only [hsr, if_false]
    have hack := acknowledge_effect hv hi.toCore hi.phase.proper hack now
    have hr' : (c.acknowledge segment now cfg).state.isReceiving ∧
        (c.acknowledge segment now cfg).state.isTerminal = false := by
      rcases hack.state with h | ⟨h, h'⟩ | ⟨h, h'⟩ | ⟨h, h'⟩
      · rw [h]; exact ⟨hr, ht⟩
      · rw [h']; exact ⟨rfl, rfl⟩
      all_goals simp [h, TcpState.isReceiving] at hr
    have hrec : (c.acknowledge segment now cfg).received = c.received := by rw [hack.frame]; rfl
    have hnext : (c.acknowledge segment now cfg).receiveNext = c.receiveNext := by
      rw [hack.frame]; rfl
    have heof : (c.acknowledge segment now cfg).peerEof = false := by rw [hack.frame]; exact he
    rw [if_neg (by simp [hr'.right]), ← hrec, ← hnext]
    exact receiveData_in_order hr'.left heof (hq.trans hnext.symm)
      (advertisedWindow_congr hrec ▸ hl) now

end Connection

namespace Endpoint

variable {cfg : TcpConfig} {e e' : Endpoint}

-- The history of the receiving side.
structure Receiver (e : Endpoint) : Prop where
  buffer   : e.conn.state.isFailure = false → e.returned ++ e.conn.received = e.appended
  returned : e.returned <+: e.appended
  cleared  : e.conn.state.isFailure → e.conn.received = []
  fresh    : e.conn.state.isHandshake → e.appended = []
  next     : e.conn.state.isFailure = false → e.conn.state ≠ .synSent →
    e.conn.receiveNext = e.irs + 1 + BitVec.ofNat 32 e.receiveOffset

-- A step that leads to `e'` and does not retract the window.
structure Receives (cfg : TcpConfig) (e e' : Endpoint) : Prop extends Receiver e' where
  edge : e.rightEdge cfg ≤ e'.rightEdge cfg

theorem rightEdge_eq (e : Endpoint) (cfg : TcpConfig) :
    e.rightEdge cfg = e.appended.length + e.conn.peerEof.toNat +
      min (cfg.receiveCapacity - e.conn.received.length) cfg.receiveWindowLimit.toNat := by
  rw [rightEdge, receiveOffset, Connection.advertisedWindow_toNat]

-- The window is not retracted, as long as the buffer does not grow by more than what was received.
theorem rightEdge_le {n : Nat} (ha : e'.appended.length = e.appended.length + n)
    (he : e.conn.peerEof.toNat ≤ e'.conn.peerEof.toNat)
    (hr : e'.conn.received.length ≤ e.conn.received.length + n) :
    e.rightEdge cfg ≤ e'.rightEdge cfg := by
  rw [rightEdge_eq, rightEdge_eq]
  omega

namespace Receiver

-- An operation that leaves the receiving side alone, or fails.
theorem conn (h : Receiver e) (hret : e'.returned = e.returned) (happ : e'.appended = e.appended)
    (hirs : e'.irs = e.irs)
    (hr : e'.conn.received = e.conn.received ∧ e'.conn.state.isFailure = e.conn.state.isFailure ∨
      e'.conn.received = [] ∧ e'.conn.state.isFailure)
    (he : e'.conn.peerEof = e.conn.peerEof) (hn : e'.conn.receiveNext = e.conn.receiveNext)
    (hh : e'.conn.state.isHandshake → e.conn.state.isHandshake)
    (hs : e.conn.state = .synSent → e'.conn.state = .synSent ∨ e'.conn.state.isFailure) :
    Receives cfg e e' where
  buffer h' := by
    have hr := hr.resolve_right fun hr => by simp [hr.right] at h'
    rw [hret, happ, hr.left]
    exact h.buffer (hr.right ▸ h')
  returned := by rw [hret, happ]; exact h.returned
  cleared h' := hr.elim (fun hr => hr.left.trans (h.cleared (hr.right ▸ h'))) And.left
  fresh h' := happ.trans (h.fresh (hh h'))
  next h' hne := by
    have hr := hr.resolve_right fun hr => by simp [hr.right] at h'
    rw [hn, h.next (hr.right ▸ h') fun h => ?_, receiveOffset, receiveOffset, he, happ, hirs]
    rcases hs h with hs | hs
    · exact hne hs
    · simp [hs] at h'
  edge := by
    refine rightEdge_le (n := 0) (by rw [happ]; rfl) (by rw [he]) ?_
    rcases hr with ⟨hr, -⟩ | ⟨hr, -⟩ <;> simp [hr]

-- An operation that does not touch the connection.
theorem same (h : Receiver e) (hc : e'.conn = e.conn) (hret : e'.returned = e.returned)
    (happ : e'.appended = e.appended) (hirs : e'.irs = e.irs) : Receives cfg e e' :=
  h.conn hret happ hirs (.inl (by rw [hc]; exact ⟨rfl, rfl⟩)) (by rw [hc]) (by rw [hc])
    (by rw [hc]; exact id) (by rw [hc]; exact .inl)

theorem «open» (cfg : TcpConfig) (o : Opening) : Receiver (Endpoint.open cfg o) where
  buffer   := by cases o <;> exact fun _ => rfl
  returned := by cases o <;> exact prefix_refl _
  cleared  := by cases o <;> exact fun _ => rfl
  fresh    := by cases o <;> exact fun _ => rfl
  next     := by
    cases o
    case active  => exact fun _ h => absurd rfl h
    case passive => exact fun _ _ => (BitVec.add_zero _).symm

theorem write (h : Receiver e) (bytes : List U8) : Receives cfg e (e.write bytes cfg) := by
  unfold Endpoint.write
  rcases e.conn.write_cases bytes cfg with ⟨err, hw⟩ | hw | ⟨n, -, -, -, hw⟩ <;> simp only [hw]
  all_goals exact h.conn rfl rfl rfl (.inl ⟨rfl, rfl⟩) rfl rfl id .inl

theorem read (h : Receiver e) (size : Nat) : Receives cfg e (e.read size) := by
  unfold Endpoint.read
  rcases e.conn.read_cases size with ⟨err, hr⟩ | ⟨hr, -⟩ | ⟨n, hr, hpos, hle⟩ <;> simp only [hr]
  case inl => exact h.same rfl rfl rfl rfl
  case inr.inl => exact h.same rfl (append_nil _) rfl rfl
  case inr.inr =>
    have hf : e.conn.state.isFailure = false := by
      by_contra hf
      simp [h.cleared (by simpa using hf)] at hle
      omega
    have hb := h.buffer hf
    have hb' : e.returned ++ e.conn.received.take n ++ e.conn.received.drop n = e.appended := by
      rw [append_assoc, take_append_drop, hb]
    exact {
      buffer _   := hb'
      returned   := ⟨_, hb'⟩
      cleared h' := by simp [hf] at h'
      fresh      := h.fresh
      next       := h.next
      edge       := rightEdge_le (n := 0) rfl (Nat.le_refl _) (by simp)
    }

theorem close (h : Receiver e) (now : Duration) : Receives cfg e (e.close now cfg) := by
  unfold Endpoint.close
  rcases e.conn.close_cases now cfg with ⟨-, hc⟩ | ⟨err, hc⟩ | ⟨-, d, hc⟩ <;> simp only [hc]
  all_goals exact h.conn rfl rfl rfl (.inl ⟨rfl, rfl⟩) rfl rfl id .inl

theorem fail (h : Receiver e) {s : TcpState} (hs : s.isFailure) :
    Receives cfg e { e with conn := e.conn.fail s } :=
  h.conn rfl rfl rfl (.inr ⟨rfl, hs⟩) rfl rfl
    (fun hh => by cases s <;> simp_all [Connection.fail, TcpState.isFailure, TcpState.isHandshake])
    (fun _ => .inr hs)

theorem tick (h : Receiver e) (now : Duration) :
    Receives cfg e { e with conn := e.conn.tick now cfg } := by
  rcases e.conn.tick_cases now cfg with ht | ⟨hs, ht⟩ | ⟨-, ht⟩ <;> rw [ht]
  case inl => exact h.same rfl rfl rfl rfl
  case inr.inl =>
    exact h.conn rfl rfl rfl (.inl ⟨rfl, by rw [hs]; rfl⟩) rfl rfl nofun (by rw [hs]; nofun)
  case inr.inr => exact h.fail rfl

theorem input (hv : cfg.Valid) (hi : e.conn.Inv cfg) (h : Receiver e) (segment : Segment)
    (now : Duration) : Receives cfg e (e.input segment now cfg) := by
  -- The segment is ignored.
  have same (hr : e.conn.input segment now cfg = e.conn) :
      Receives cfg e (e.input segment now cfg) := by
    cases hf : (e.conn.input segment now cfg).state.isFailure
    case true =>
      rw [input_of_failure hf]
      exact h.same hr rfl rfl rfl
    case false =>
      rw [input_of_not_failure hf]
      refine h.same hr rfl ?_ (if_neg fun hs => hs.right (by rw [hr]; exact hs.left))
      simp [hr]
  cases hf : e.conn.state.isFailure
  case true =>
    exact same (by rw [Connection.input, if_pos (TcpState.isTerminal_of_isFailure hf)])
  rcases Connection.input_receiver hv hi segment now with hr | hr | ⟨hne, bytes, fin, ht⟩ |
    ⟨hs, bytes, fin, ht, -, -, hne⟩
  case inl =>
    rw [input_of_failure (by rw [hr]; rfl), hr]
    exact h.fail rfl
  case inr.inl => exact same hr
  all_goals
    have hb := h.buffer hf
    have hf' := ht.failure.trans hf
    have happ : (e.conn.input segment now cfg).received.drop e.conn.received.length = bytes := by
      rw [ht.received]
      exact drop_left
  case inr.inr.inl =>
    rw [input_of_not_failure hf', happ]
    exact {
      buffer _    := by rw [ht.received, ← append_assoc, hb]
      returned    := h.returned.trans (prefix_append ..)
      cleared h'  := by simp [hf'] at h'
      fresh h'    := by
        obtain ⟨hh, rfl⟩ := ht.opening h'
        rw [h.fresh hh, append_nil]
      next _ _    := by
        rw [ht.next, h.next hf hne, if_neg (fun hs => hne hs.left), receiveOffset, receiveOffset,
          length_append, ht.eof, BitVec.add_assoc, ← BitVec.ofNat_add]
        congr 2
        omega
      edge        := rightEdge_le (n := bytes.length) (by simp) (by rw [ht.eof]; omega)
        (by rw [ht.received]; simp)
    }
  case inr.inr.inr =>
    rw [input_of_not_failure hf', happ]
    have ha : e.appended = [] := h.fresh (by rw [hs]; rfl)
    have he : e.conn.peerEof = false := (hi.closing.eof hf).trans (by rw [hs]; rfl)
    have heof : (e.conn.input segment now cfg).peerEof.toNat = fin := by
      rw [ht.eof, show (e.conn.synAccepted segment).peerEof = false from he]
      exact Nat.zero_add _
    exact {
      buffer _    := by
        rw [ht.received, ← append_assoc]
        exact congrArg (· ++ bytes) hb
      returned    := h.returned.trans (prefix_append ..)
      cleared h'  := by simp [hf'] at h'
      fresh h'    := by
        obtain ⟨-, rfl⟩ := ht.opening h'
        rw [ha, append_nil]
      next _ _    := by
        rw [ht.next, if_pos ⟨hs, hne⟩, receiveOffset, heof]
        simp [ha, Connection.synAccepted]
      edge        := rightEdge_le (n := bytes.length) (by simp) (by rw [he]; exact Nat.zero_le _)
        (by rw [ht.received]; simp [Connection.synAccepted])
    }

theorem transmit (hv : cfg.Valid) (hi : e.conn.Inv cfg) (h : Receiver e) (now : Duration)
    (outcome : Submission) : Receives cfg e (e.transmit now outcome cfg) := by
  have staged {c : Connection} (hs : Connection.StageEffect e.conn c) :
      Receives cfg e { e with conn := c } := by
    have hst : c.state.isFailure = e.conn.state.isFailure ∧
        c.state.isHandshake = e.conn.state.isHandshake ∧
        (e.conn.state = .synSent → c.state = .synSent) := by
      rcases hs.state with hs | ⟨-, ⟨hs, hs'⟩ | ⟨hs, hs'⟩⟩
      · simp [hs]
      all_goals rw [hs, hs']; exact ⟨rfl, rfl, nofun⟩
    exact h.conn rfl rfl rfl (.inl ⟨by rw [hs.frame]; rfl, hst.left⟩) (by rw [hs.frame]; rfl)
      (by rw [hs.frame]; rfl) (hst.right.left ▸ id) (.inl ∘ hst.right.right)
  rcases transmit_cases hv hi now outcome with ⟨c, he, hs, -⟩ | ⟨-, -, he⟩ <;> rw [he]
  case inl => exact staged hs
  have hi' := Connection.stage_inv hv hi now
  have hr := Connection.record_effect hv hi' (Connection.stage_indexed hv hi now) now
  have hst := staged (Connection.stage_effect hv hi now)
  have hrec : Receives cfg { e with conn := (e.conn.stage now cfg).fst } { e with
      conn     := ((e.conn.stage now cfg).fst.record (e.conn.stage now cfg).snd now cfg).fst
      emitted  := e.emitted ++ [(e.conn.stage now cfg).fst.outgoing (e.conn.stage now cfg).snd cfg]
      promised := some (e.receiveOffset +
        ((e.conn.stage now cfg).fst.advertisedWindow cfg).toNat) } :=
    hst.toReceiver.conn rfl rfl rfl (.inl ⟨by rw [hr.frame]; rfl, by rw [hr.frame]; rfl⟩)
      (by rw [hr.frame]; rfl) (by rw [hr.frame]; rfl) (by rw [hr.frame]; exact id)
      (by rw [hr.frame]; exact .inl)
  exact { hrec with edge := hst.edge.trans hrec.edge }

theorem step (hv : cfg.Valid) (hi : e.conn.Inv cfg) (h : Receiver e) (op : Op) :
    Receives cfg e (e.step cfg op) := by
  cases op
  case call c =>
    cases c
    case write bytes => exact h.write bytes
    case read size => exact h.read size
    case close now => exact h.close now
    case tick now => exact h.tick now
    case transmit now outcome => exact h.transmit hv hi now outcome
  case input segment now => exact h.input hv hi segment now
  case fail state => exact h.fail state.property

end Receiver

-- The last emitted window ends at the right edge of its time.
theorem promised_step (hv : cfg.Valid) (hi : e.conn.Inv cfg) (op : Op) :
    (e.step cfg op).promised = e.promised ∨
    (e.step cfg op).promised = some ((e.step cfg op).rightEdge cfg) := by
  cases op
  case fail => exact .inl rfl
  case input segment now =>
    refine .inl ?_
    simp only [step, input]
    split <;> rfl
  case call c =>
    cases c
    case tick => exact .inl rfl
    case transmit now outcome =>
      simp only [step, call]
      rcases transmit_cases hv hi now outcome with ⟨c, he, -, -⟩ | ⟨-, -, he⟩ <;> rw [he]
      case inl => exact .inl rfl
      have hs := Connection.stage_effect hv hi now
      have hr := Connection.record_effect hv (Connection.stage_inv hv hi now)
        (Connection.stage_indexed hv hi now) now
      refine .inr ?_
      rw [rightEdge, receiveOffset, receiveOffset, hr.frame, hs.frame]
      rfl
    all_goals
      refine .inl ?_
      simp only [step, call, write, read, close]
      split <;> rfl

-- Both sides of a connection over a whole run.
structure History (cfg : TcpConfig) (e : Endpoint) : Prop where
  sender   : Sender cfg e
  receiver : Receiver e
  promised : ∀ p ∈ e.promised, p ≤ e.rightEdge cfg

theorem History.open (hv : cfg.Valid) (o : Opening) : History cfg (Endpoint.open cfg o) where
  sender   := .open hv o
  receiver := .open cfg o
  promised := by cases o <;> exact nofun

theorem History.step (hv : cfg.Valid) (h : History cfg e) (op : Op) :
    History cfg (e.step cfg op) := by
  have hr := h.receiver.step hv h.sender.inv op
  refine ⟨h.sender.step hv op, hr.toReceiver, fun p hp => ?_⟩
  rcases promised_step hv h.sender.inv op with hs | hs <;> rw [hs] at hp
  · exact (h.promised p hp).trans hr.edge
  · exact Nat.le_of_eq (Option.some.inj hp).symm

theorem History.run (hv : cfg.Valid) (o : Opening) (ops : List Op) :
    History cfg (Endpoint.run cfg o ops) :=
  Transition.exec_induction (.open hv o) fun _ op h => h.step hv op

end Endpoint
