import AsyncNetStack.Tcp.Theorems.Acknowledge

open Serial Tcp List

namespace Connection

variable {cfg : TcpConfig} {c c' : Connection} {now : Duration} {segment : Segment}
  {bytes : List U8}

theorem advertisedWindow_toNat (c : Connection) (cfg : TcpConfig) :
    (c.advertisedWindow cfg).toNat =
      min (cfg.receiveCapacity - c.received.length) cfg.receiveWindowLimit.toNat := by
  have := cfg.receiveWindowLimit.isLt
  rw [advertisedWindow, BitVec.toNat_ofNat, Nat.mod_eq_of_lt (by omega)]

theorem advertisedWindow_congr {c c' : Connection} (h : c'.received = c.received) :
    c'.advertisedWindow cfg = c.advertisedWindow cfg := by
  rw [advertisedWindow, h, advertisedWindow]

-- Puts bytes into the receive buffer.
def deliver (c : Connection) (bytes : List U8) : Connection :=
  { c with
    ackPending  := true
    received    := c.received ++ bytes
    receiveNext := c.receiveNext + BitVec.ofNat 32 bytes.length }

-- The bytes of a segment that are put into the receive buffer: it overlaps with the next expected
-- byte, and everything from there on is taken, up to the end of the window.
structure Delivery (cfg : TcpConfig) (c : Connection) (segment : Segment) (bytes : List U8) :
    Prop where
  receiving : c.state.isReceiving
  not_eof   : c.peerEof = false
  order     : before c.receiveNext segment.sequence = false
  skip_le   : dist segment.sequence c.receiveNext ≤ segment.payload.length
  bytes_eq  : bytes = (segment.payload.drop (dist segment.sequence c.receiveNext)).take
    (c.advertisedWindow cfg).toNat

theorem Delivery.length_le (h : Delivery cfg c segment bytes) :
    bytes.length ≤ (c.advertisedWindow cfg).toNat := by
  rw [h.bytes_eq, length_take]
  exact Nat.min_le_left ..

-- The condition under which the FIN of a segment is taken together with its bytes.
structure FinDelivery (cfg : TcpConfig) (c : Connection) (segment : Segment) (bytes : List U8) :
    Prop extends Delivery cfg c segment bytes where
  fin      : has segment.flags FIN
  sequence : segment.sequence + BitVec.ofNat 32 segment.payload.length =
    c.receiveNext + BitVec.ofNat 32 bytes.length

theorem Delivery.count_eq (h : Delivery cfg c segment bytes) :
    min (segment.payload.length - (c.receiveNext - segment.sequence).toNat)
      (c.advertisedWindow cfg).toNat = bytes.length := by
  rw [h.bytes_eq, length_take, length_drop, Nat.min_comm]
  rfl

theorem receiveData_of_delivery (hn : ¬(segment.payload.isEmpty && !has segment.flags FIN))
    (hd : Delivery cfg c segment bytes) (now : Duration) :
    c.receiveData segment now cfg =
      if has segment.flags FIN
          && segment.sequence + BitVec.ofNat 32 segment.payload.length ==
            (c.deliver bytes).receiveNext
          && bytes.length < (c.advertisedWindow cfg).toNat then
        (c.deliver bytes).finReceived now cfg
      else
        c.deliver bytes := by
  have hs :
      ¬(c.peerEof || !(c.state = .established || c.state = .finWait1 || c.state = .finWait2)) := by
    have := hd.receiving
    cases hst : c.state <;> simp_all [TcpState.isReceiving, hd.not_eof]
  have hb : (segment.payload.drop (c.receiveNext - segment.sequence).toNat).take bytes.length =
      bytes := by
    have ht (l : List U8) (n : Nat) : l.take (l.take n).length = l.take n := by
      simp [take_eq_take_iff]
    rw [hd.bytes_eq]
    exact ht ..
  have hk : ¬(c.receiveNext - segment.sequence).toNat > segment.payload.length :=
    Nat.not_lt.mpr hd.skip_le
  rw [receiveData, if_neg hn]
  dsimp only
  rw [if_neg hs, if_neg (by simp [hd.order]), if_neg hk]
  have hw : advertisedWindow { c with ackPending := true } cfg = c.advertisedWindow cfg :=
    advertisedWindow_congr rfl
  simp only [hw, hd.count_eq, hb]
  rfl

theorem receiveData_cases (c : Connection) (segment : Segment) (now : Duration) (cfg : TcpConfig) :
    c.receiveData segment now cfg = c ∨
    c.receiveData segment now cfg = { c with ackPending := true } ∨
    (∃ bytes, Delivery cfg c segment bytes ∧ c.receiveData segment now cfg = c.deliver bytes) ∨
    (∃ bytes, FinDelivery cfg c segment bytes ∧
      c.receiveData segment now cfg = (c.deliver bytes).finReceived now cfg) := by
  by_cases hn : segment.payload.isEmpty && !has segment.flags FIN
  case pos => exact .inl (by rw [receiveData, if_pos hn])
  by_cases hd : ∃ bytes, Delivery cfg c segment bytes
  case pos =>
    obtain ⟨bytes, hd⟩ := hd
    rw [receiveData_of_delivery hn hd]
    split
    case isFalse => exact .inr (.inr (.inl ⟨bytes, hd, rfl⟩))
    case isTrue hf =>
      simp only [Bool.and_eq_true, beq_iff_eq] at hf
      exact .inr (.inr (.inr ⟨bytes, ⟨hd, hf.left.left, hf.left.right⟩, rfl⟩))
  case neg =>
    -- One of the conditions for a delivery is not met.
    refine .inr (.inl ?_)
    rw [receiveData, if_neg hn]
    dsimp only
    split
    case isTrue => rfl
    case isFalse hs =>
      split
      case isTrue => rfl
      case isFalse ho =>
        refine if_pos (Nat.lt_of_not_le fun hk => hd ⟨_, ?_, ?_, by simpa using ho, hk, rfl⟩)
        all_goals
          simp only [Bool.or_eq_true, Bool.not_eq_true', not_or] at hs
          cases hst : c.state <;> simp_all [TcpState.isReceiving]

-- Takes everything from `t` that the receipt of data can change.
def receiveStep (c t : Connection) : Connection :=
  { c with
    state         := t.state
    received      := t.received
    receiveNext   := t.receiveNext
    ackPending    := t.ackPending
    peerEof       := t.peerEof
    phaseDeadline := t.phaseDeadline
    closeDeadline := t.closeDeadline }

theorem receiveData_frame (c : Connection) (segment : Segment) (now : Duration) (cfg : TcpConfig) :
    c.receiveData segment now cfg = c.receiveStep (c.receiveData segment now cfg) := by
  rcases c.receiveData_cases segment now cfg with h | h | ⟨bytes, -, h⟩ | ⟨bytes, -, h⟩ <;> rw [h]
  case inl | inr.inl | inr.inr.inl => rfl
  case inr.inr.inr =>
    unfold finReceived
    cases (c.deliver bytes).state <;> rfl

theorem receiveData_nothing (hp : segment.payload = []) (hf : has segment.flags FIN = false) :
    c.receiveData segment now cfg = c := by
  simp [receiveData, hp, hf]

theorem deliver_inv (hi : c.Inv cfg) (hl : bytes.length ≤ (c.advertisedWindow cfg).toNat) :
    (c.deliver bytes).Inv cfg := by
  have := hi.received
  rw [advertisedWindow_toNat] at hl
  exact { hi with
    received := by
      simp only [deliver, length_append]
      omega }

theorem finReceived_inv (hi : c.Inv cfg) (hr : c.state.isReceiving) (now : Duration) :
    (c.finReceived now cfg).Inv cfg := by
  obtain ⟨-, hw, hp, hd⟩ := hi.closing
  have hph := hi.phase
  cases hs : c.state <;> simp only [hs, TcpState.isReceiving, Bool.false_eq_true] at hr
  all_goals
    rw [hs] at hw hp hd hph
    simp only [finReceived, enterTimeWait, hs]
    refine { hi with phase := hph, closing := ⟨fun _ => rfl, ?_, ?_, ?_⟩ }
  all_goals simp_all [TcpState.isTimed, TcpState.isOver, TcpState.finQueued]

theorem receiveData_inv (hi : c.Inv cfg) (segment : Segment) (now : Duration) :
    (c.receiveData segment now cfg).Inv cfg := by
  rcases c.receiveData_cases segment now cfg with h | h | ⟨bytes, hd, h⟩ | ⟨bytes, hd, h⟩ <;> rw [h]
  · exact hi
  · exact { hi with }
  · exact deliver_inv hi hd.length_le
  · exact finReceived_inv (deliver_inv hi hd.length_le) hd.receiving now

-- The connection right before a SYN-ACK's acknowledgment is processed.
def synAccepted (c : Connection) (segment : Segment) : Connection :=
  { c with
    receiveNext    := segment.sequence + 1
    peerWindow     := segment.window
    peerMss        := segment.mss.getD 536
    windowSequence := segment.sequence
    windowAck      := segment.acknowledgment }

def establish (c : Connection) : Connection :=
  { c with state := .established, phaseDeadline := none }

-- The connection right after a SYN-ACK was processed, up to its data.
def opened (c : Connection) (segment : Segment) (now : Duration) (cfg : TcpConfig) : Connection :=
  { ((c.synAccepted segment).acknowledge segment now cfg).establish with ackPending := true }

-- The data of a segment that also carries a SYN.
def synData (segment : Segment) : Segment :=
  { segment with sequence := segment.sequence + 1, flags := segment.flags &&& ~~~SYN }

-- A step that leaves everything but timers and the pending acknowledgment as it is.
structure Quiet (cfg : TcpConfig) (c c' : Connection) : Prop where
  frame    : c' =
    { c.retime c' with ackPending := c'.ackPending, phaseDeadline := c'.phaseDeadline }
  deadline : c'.phaseDeadline = c.phaseDeadline ∨ c.state = .timeWait ∧ c'.phaseDeadline.isSome
  flights  : SameShape c'.flights c.flights
  limits   : Limits cfg c.cwnd c.rto c.flights → Limits cfg c'.cwnd c'.rto c'.flights

-- All ways in which a segment can be processed.
inductive Input (cfg : TcpConfig) (c : Connection) (segment : Segment) (now : Duration) :
    Connection → Prop
  | ignored :
    Input cfg c segment now c
  | quiet {c' : Connection} (state : c.state ≠ .synSent) (quiet : Quiet cfg c c') :
    Input cfg c segment now c'
  | reset (state : c.state.isTerminal = false) :
    Input cfg c segment now (c.fail .reset)
  | opened
      (flag : has segment.flags ACK)
      (state : c.state = .synSent)
      (ack : segment.acknowledgment = c.sendSent)
      (sent : c.sendSent ≠ c.sendUna)
      (syn : has segment.flags SYN)
      (fin : has segment.flags FIN = false) :
    Input cfg c segment now ((c.opened segment now cfg).receiveData (synData segment) now cfg)
  | answered
      (flag : has segment.flags ACK)
      (state : c.state = .synReceived)
      (syn : has segment.flags SYN = false)
      (ack : segment.acknowledgment = c.sendSent)
      (sent : c.sendSent ≠ c.sendUna) :
    Input cfg c segment now
      (if (c.establish.acknowledge segment now cfg).state.isTerminal then
        c.establish.acknowledge segment now cfg
      else
        (c.establish.acknowledge segment now cfg).receiveData segment now cfg)
  | accepted
      (flag : has segment.flags ACK)
      (state : c.state.isHandshake = false)
      (syn : has segment.flags SYN = false)
      (ack : before c.sendSent segment.acknowledgment = false) :
    Input cfg c segment now
      (if (c.acknowledge segment now cfg).state.isTerminal then
        c.acknowledge segment now cfg
      else
        (c.acknowledge segment now cfg).receiveData segment now cfg)

theorem has_synData_fin (segment : Segment) :
    has (synData segment).flags FIN = has segment.flags FIN := by
  have : (~~~SYN &&& FIN : U8) = FIN := by decide
  simp only [has, synData, BitVec.and_assoc, this]

theorem synSent_cases (hs : c.state = .synSent) (segment : Segment) (now : Duration) :
    Input cfg c segment now (c.synSent segment now cfg) := by
  have ht : c.state.isTerminal = false := by rw [hs]; rfl
  unfold synSent
  dsimp only
  split
  case isTrue =>
    split
    · exact .reset ht
    · exact .ignored
  split
  case isTrue => exact .ignored
  rename_i h
  simp only [Bool.or_eq_true, Bool.not_eq_true', Bool.and_eq_false_iff, not_or,
    Bool.not_eq_true, Bool.not_eq_false, bne_iff_ne, beq_iff_eq] at h
  obtain ⟨⟨⟨⟨hack, ha⟩, hn⟩, hsyn⟩, hfin⟩ := h
  have hopen : Input cfg c segment now
      ((c.opened segment now cfg).receiveData (synData segment) now cfg) :=
    .opened hack hs ha hn hsyn hfin
  split
  case isFalse => exact hopen
  case isTrue he =>
    have he : (synData segment).payload = [] := isEmpty_iff.mp he
    rwa [receiveData_nothing he ((has_synData_fin _).trans hfin)] at hopen

theorem Quiet.modifyHead : Quiet cfg c
    { c with flights := c.flights.modifyHead ({ · with lastSent := none }) } where
  frame    := rfl
  deadline := .inl rfl
  flights  := .modifyHead fun _ => rfl
  limits h := {
    h with
    flights := by
      have := h.flights
      cases hl : c.flights
      case nil       => simp
      case cons g gs => simpa [hl] using this
  }

-- A case analysis of `input`, up to what happens in SYN-SENT and to an acceptable acknowledgment.
theorem input_elim (c : Connection) (segment : Segment) (now : Duration) (cfg : TcpConfig)
    {P : Connection → Prop}
    (same : P c)
    (pending : ∀ deadline, c.state ≠ .synSent →
      (deadline = c.phaseDeadline ∨ c.state = .timeWait ∧ deadline.isSome) →
      P { c with ackPending := true, phaseDeadline := deadline })
    (repeated : c.state = .synReceived →
      P { c with flights := c.flights.modifyHead ({ · with lastSent := none }) })
    (reset : c.state.isTerminal = false → P (c.fail .reset))
    (synSent : c.state = .synSent → P (c.synSent segment now cfg))
    (acked : has segment.flags ACK → has segment.flags SYN = false → c.state ≠ .synSent →
      before c.sendSent segment.acknowledgment = false →
      (c.state = .synReceived → segment.acknowledgment = c.sendSent ∧ c.sendSent ≠ c.sendUna) →
      P (
        let c := if c.state = .synReceived then c.establish else c
        let c := c.acknowledge segment now cfg
        if c.state.isTerminal then c else c.receiveData segment now cfg)) :
    P (c.input segment now cfg) := by
  unfold input
  by_cases ht : c.state.isTerminal
  case pos => rw [if_pos ht]; exact same
  rw [if_neg ht]
  by_cases hs : c.state = .synSent
  case pos => rw [if_pos hs]; exact synSent hs
  have pending' : P { c with ackPending := true } := pending c.phaseDeadline hs (.inl rfl)
  rw [if_neg hs]
  by_cases hw : c.state = .timeWait
  case pos =>
    rw [if_pos hw]
    split
    · exact same
    split
    · exact pending _ hs (.inr ⟨hw, rfl⟩)
    · exact pending'
  rw [if_neg hw]
  by_cases hd : c.state = .synReceived
      && segment.flags &&& (SYN ||| ACK ||| RST) == SYN
      && segment.sequence + 1 == c.receiveNext
  case pos =>
    rw [if_pos hd]
    simp only [Bool.and_eq_true, decide_eq_true_eq] at hd
    exact repeated hd.left.left
  rw [if_neg hd]
  by_cases ha : !c.acceptable segment cfg
  case pos =>
    rw [if_pos ha]
    split
    · exact same
    · exact pending'
  rw [if_neg ha]
  by_cases hr : has segment.flags RST
  case pos =>
    rw [if_pos hr]
    split
    · exact reset (by simpa using ht)
    · exact pending'
  rw [if_neg hr]
  by_cases hsyn : has segment.flags SYN
  case pos => rw [if_pos hsyn]; exact pending'
  rw [if_neg hsyn]
  by_cases hack : !has segment.flags ACK
  case pos => rw [if_pos hack]; exact same
  rw [if_neg hack]
  by_cases hb : before c.sendSent segment.acknowledgment
  case pos => rw [if_pos hb]; exact pending'
  rw [if_neg hb]
  by_cases hv : c.state = .synReceived
      && (segment.acknowledgment != c.sendSent || c.sendSent == c.sendUna)
  case pos => rw [if_pos hv]; exact same
  rw [if_neg hv]
  refine acked (by simpa using hack) (by simpa using hsyn) hs (by simpa using hb) fun hsr => ?_
  simpa [hsr] using hv

theorem input_cases (c : Connection) (segment : Segment) (now : Duration) (cfg : TcpConfig) :
    Input cfg c segment now (c.input segment now cfg) := by
  apply input_elim
  case same => exact .ignored
  case pending =>
    intro deadline hs hd
    exact .quiet hs ⟨rfl, hd, .refl _, id⟩
  case repeated =>
    intro hs
    exact .quiet (by simp [hs]) .modifyHead
  case reset => exact .reset
  case synSent =>
    intro hs
    exact synSent_cases hs segment now
  case acked =>
    intro hack hsyn hs hb hv
    by_cases hsr : c.state = .synReceived
    case pos =>
      have ⟨ha, hn⟩ := hv hsr
      simp only [hsr, if_true]
      exact .answered hack hsr hsyn ha hn
    case neg =>
      simp only [hsr, if_false]
      refine .accepted hack ?_ hsyn hb
      cases hst : c.state <;> simp_all [TcpState.isHandshake]

theorem Quiet.inv (h : Quiet cfg c c') (hi : c.Inv cfg) : c'.Inv cfg := by
  have hr : Retimed cfg c (c.retime c') := ⟨rfl, h.flights, h.limits⟩
  have hi' := hr.inv hi
  have hd := h.deadline
  rw [h.frame]
  refine { hi' with closing := { hi'.closing with phase_deadline := ?_ } }
  rcases hd with hd | ⟨hs, hd⟩
  · exact (congrArg _ hd).trans hi.closing.phase_deadline
  · exact hd.trans (by rw [show (c.retime c').state = .timeWait from hs]; rfl)

theorem Closing.establish {state : TcpState} {writeClosed peerEof : Bool} {p d : Option Duration}
    (h : Closing state writeClosed peerEof p d) (hs : state.isHandshake) :
    Closing .established writeClosed peerEof none d := by
  obtain ⟨he, -, -, hd⟩ := h
  cases state <;> simp only [TcpState.isHandshake, Bool.false_eq_true] at hs
  all_goals exact ⟨fun _ => he rfl, by rintro ⟨⟩, rfl, hd⟩

theorem Inv.syn_flight (hi : c.Inv cfg) (hs : c.state.isHandshake) :
    ∃ f, c.flights = [f] ∧ f.IsSyn := by
  have hp := hi.phase
  cases hst : c.state <;> simp only [hst, TcpState.isHandshake, Bool.false_eq_true, Phase] at hs hp
  all_goals
    obtain ⟨-, f, hf, hsyn, -⟩ := hp
    exact ⟨f, hf, hsyn⟩

theorem synAccepted_core (hi : c.Inv cfg) (hs : c.state = .synSent) (segment : Segment) :
    (c.synAccepted segment).Core cfg := by
  obtain ⟨f, hf, hsyn⟩ := hi.syn_flight (by rw [hs]; rfl)
  -- The segment size may change, but there is no payload yet.
  exact { hi with mss := by simp [synAccepted, hf, hsyn.payload] }

-- The acknowledgment in a SYN-ACK takes the SYN off the flights.
theorem opened_acked (hv : cfg.Valid) (hi : c.Inv cfg) (hs : c.state = .synSent)
    (ha : segment.acknowledgment = c.sendSent) (hn : c.sendSent ≠ c.sendUna) (now : Duration) :
    ((c.synAccepted segment).acknowledge segment now cfg).flights = [] ∧
    ∃ flags, Acked cfg (c.synAccepted segment)
      ((c.synAccepted segment).acknowledge segment now cfg) c.sendSent flags := by
  obtain ⟨f, hf, hsyn⟩ := hi.syn_flight (by rw [hs]; rfl)
  have h := acknowledge_syn hv (synAccepted_core hi hs segment) hf hsyn ha hn now
  exact ⟨h.left, _, h.right⟩

-- The acknowledgment of a SYN-ACK does likewise on the other side.
theorem answered_acked (hv : cfg.Valid) (hi : c.Inv cfg) (hs : c.state = .synReceived)
    (ha : segment.acknowledgment = c.sendSent) (hn : c.sendSent ≠ c.sendUna) (now : Duration) :
    (c.establish.acknowledge segment now cfg).flights = [] ∧
    ∃ flags, Acked cfg c.establish (c.establish.acknowledge segment now cfg) c.sendSent flags := by
  obtain ⟨f, hf, hsyn⟩ := hi.syn_flight (by rw [hs]; rfl)
  have hc : c.establish.Core cfg := { hi with }
  have h := acknowledge_syn hv hc hf hsyn ha hn now
  exact ⟨h.left, _, h.right⟩

theorem opened_inv (hv : cfg.Valid) (hi : c.Inv cfg) (hs : c.state = .synSent)
    (ha : segment.acknowledgment = c.sendSent) (hn : c.sendSent ≠ c.sendUna) (now : Duration) :
    (c.opened segment now cfg).Inv cfg := by
  obtain ⟨hn, flags, hack⟩ := opened_acked hv hi hs ha hn now
  exact {
    toCore  := { hack.core (synAccepted_core hi hs segment) with }
    phase   := show ∀ f ∈ ((c.synAccepted segment).acknowledge segment now cfg).flights, f.IsData by
      simp [hn]
    closing := by
      rw [opened, hack.frame]
      exact hi.closing.establish (by rw [hs]; rfl)
  }

theorem answered_inv (hv : cfg.Valid) (hi : c.Inv cfg) (hs : c.state = .synReceived)
    (ha : segment.acknowledgment = c.sendSent) (hn : c.sendSent ≠ c.sendUna) (now : Duration) :
    (c.establish.acknowledge segment now cfg).Inv cfg := by
  obtain ⟨hn, flags, hack⟩ := answered_acked hv hi hs ha hn now
  exact {
    toCore  := hack.core { hi with }
    phase   := by
      rw [hack.state_eq, hn]
      exact fun f hf => absurd hf not_mem_nil
    closing := by
      rw [hack.frame]
      exact hi.closing.establish (by rw [hs]; rfl)
  }

theorem input_inv (hv : cfg.Valid) (hi : c.Inv cfg) (segment : Segment) (now : Duration) :
    (c.input segment now cfg).Inv cfg := by
  have h := c.input_cases segment now cfg
  generalize c.input segment now cfg = c' at h
  cases h
  case ignored => exact hi
  case quiet hq => exact hq.inv hi
  case reset => exact fail_inv hi rfl
  case opened hs ha hn _ _ => exact receiveData_inv (opened_inv hv hi hs ha hn now) _ now
  case answered hs _ ha hn =>
    have h := answered_inv hv hi hs ha hn now
    split
    · exact h
    · exact receiveData_inv h segment now
  case accepted hs _ ha =>
    have h := acknowledge_inv hv hi hs ha now
    split
    · exact h
    · exact receiveData_inv h segment now

end Connection
