import AsyncNetStack.Tcp.Theorems.Acts
import AsyncNetStack.Tcp.Theorems.Pair
import AsyncNetStack.Transport.Theorems.Tcp

open Serial Tcp

namespace Connection

variable {cfg : TcpConfig} {c c' : Connection} {now : Duration} {segment s : Segment}

-- What holds of every connection of a pool, as far as it concerns what it sends.
structure Speaking (cfg : TcpConfig) (c : Connection) : Prop where
  inv    : c.Inv cfg
  silent : c.Silent
  empty  : c.state = .synSent → c.received = []
  source : (TcpPool.validateAddress c.localAddr).isOk
  target : (TcpPool.validateAddress c.remoteAddr).isOk

-- What a call of `transmit` keeps, and how it can change the state.
structure TransmitEffect (c c' : Connection) : Prop where
  una      : c'.sendUna = c.sendUna
  next     : c'.receiveNext = c.receiveNext
  received : c'.received = c.received
  state    : c'.state = c.state ∨
    c.writeClosed ∧ (c.state = .established ∧ c'.state = .finWait1 ∨
      c.state = .closeWait ∧ c'.state = .lastAck)

theorem transmitted_effect (hv : cfg.Valid) (hi : c.Inv cfg) (now : Duration)
    (outcome : Submission) : TransmitEffect c (c.transmitted now cfg outcome).fst := by
  have of_stage {c' : Connection} (h : StageEffect c c') : TransmitEffect c c' :=
    ⟨by rw [h.frame]; rfl, by rw [h.frame]; rfl, by rw [h.frame]; rfl, h.state⟩
  have staged (h : c.emission now cfg = none ∨ outcome ≠ .accepted) :=
    of_stage (transmitted_staged hv hi now h).left
  cases he : c.emission now cfg
  case none => exact staged (.inl he)
  case some segment =>
    cases outcome
    case blocked | failed => exact staged (.inr nofun)
    case accepted =>
      have hs := of_stage (stage_effect hv hi now)
      have hr := record_effect hv (stage_inv hv hi now) (stage_indexed hv hi now) now
      rw [(transmitted_accepted he).right, hr.frame]
      exact ⟨hs.una, hs.next, hs.received, hs.state⟩

theorem TransmitEffect.synSent_iff (h : TransmitEffect c c') :
    c'.state = .synSent ↔ c.state = .synSent := by
  rcases h.state with hs | ⟨-, ⟨hs, hs'⟩ | ⟨hs, hs'⟩⟩
  · rw [hs]
  · simp [hs, hs']
  · simp [hs, hs']

theorem Turn.speaking (ht : Turn cfg c c') (hv : cfg.Valid) (h : Speaking cfg c) :
    Speaking cfg c' := by
  have hid := ht.identity_eq
  simp only [identity, Prod.mk.injEq] at hid
  have hi' := ht.inv hv h.inv
  suffices hq : c'.Silent ∧ (c'.state = .synSent → c'.received = []) from
    ⟨hi', hq.left, hq.right, hid.left ▸ h.source, hid.right.left ▸ h.target⟩
  cases ht
  case input segment now =>
    refine ⟨h.silent.input hv h.inv segment now, fun hs => ?_⟩
    have he := input_synSent hv h.inv hs
    rw [he] at hs ⊢
    exact h.empty hs
  case transmit now outcome =>
    have he := transmitted_effect hv h.inv now outcome
    refine ⟨h.silent.transmitted hv h.inv now outcome, fun hs => ?_⟩
    rw [he.received]
    exact h.empty (he.synSent_iff.mp hs)
  case tick now =>
    rcases c.tick_cases now cfg with ht | ⟨-, ht⟩ | ⟨-, ht⟩ <;> rw [ht]
    · exact ⟨h.silent, h.empty⟩
    · exact ⟨by rintro ⟨⟩, by rintro ⟨⟩⟩
    · exact ⟨by rintro ⟨⟩, by rintro ⟨⟩⟩
  case write bytes =>
    rcases c.write_cases bytes cfg with ⟨_, hw⟩ | hw | ⟨_, -, -, -, hw⟩ <;> rw [hw]
    all_goals exact ⟨h.silent, h.empty⟩
  case read size =>
    rcases c.read_cases size with ⟨_, hr⟩ | ⟨hr, -⟩ | ⟨n, hr, hpos, hle⟩ <;> rw [hr]
    case inr.inr =>
      -- There is nothing to read before the handshake is over.
      have hs : c.state ≠ .synSent := fun hs => by
        rw [h.empty hs, List.length_nil] at hle
        omega
      exact ⟨fun h => absurd h hs, fun h => absurd h hs⟩
    all_goals exact ⟨h.silent, h.empty⟩
  case close now =>
    rcases c.close_cases now cfg with ⟨-, hc⟩ | ⟨_, hc⟩ | ⟨-, _, hc⟩ <;> rw [hc]
    all_goals exact ⟨h.silent, h.empty⟩
  case fail state error hf =>
    have hs : state ≠ .synSent := by
      rintro rfl
      cases hf
    exact ⟨fun h => absurd h hs, fun h => absurd h hs⟩
  case report => exact ⟨h.silent, h.empty⟩

theorem Speaking.preserved (hv : cfg.Valid) : TcpPool.Preserved cfg (Speaking cfg) where
  active _ _ hl hr  := ⟨active_inv hv .., fun _ => ⟨rfl, rfl⟩, fun _ => rfl, hl, hr⟩
  passive _ _ hs hd := ⟨passive_inv hv .., nofun, nofun, hd, hs⟩
  turn ht h         := ht.speaking hv h
  accept h          := { h with inv := { h.inv with } }

-- A reset with the next expected sequence number is accepted, even if the window is closed.
theorem input_reset_exact (ht : c.state.isTerminal = false) (hs : c.state ≠ .synSent)
    (hw : c.state ≠ .timeWait) (hf : segment.flags = RST) (hp : segment.payload = [])
    (hq : segment.sequence = c.receiveNext) (now : Duration) :
    c.input segment now cfg = c.fail .reset := by
  have hlen : segment.sequenceLen = 0 := by
    rw [Segment.sequenceLen, hf, hp]
    decide
  have hacc : c.acceptable segment cfg := by simp [acceptable, hq, hlen]
  have hdup : (RST &&& (SYN ||| ACK ||| RST) == SYN) = false := by decide
  have hrst : has RST RST := by decide
  simp [input, ht, hs, hw, hacc, hf, hdup, hrst, hq]

-- A reset that acknowledges the SYN is accepted.
theorem input_reset_synSent (hs : c.state = .synSent) (hf : segment.flags = RST ||| ACK)
    (ha : segment.acknowledgment = c.sendSent) (hn : c.sendSent ≠ c.sendUna) (now : Duration) :
    c.input segment now cfg = c.fail .reset := by
  have hrst : has (RST ||| ACK) RST := by decide
  have hack : has (RST ||| ACK) ACK := by decide
  simp [input, synSent, hs, TcpState.isTerminal, hf, hrst, hack, ha, hn]

-- A single flight that is sent leaves nothing to be sent.
theorem recordFlight_single {f : Flight} (hv : cfg.Valid) (hi : c.Inv cfg) (hf : c.flights = [f])
    (now : Duration) : (c.recordFlight 0 now cfg).fst.sendSent = c.sendNext := by
  have hf₀ : c.flights[0]? = some f := by rw [hf]; rfl
  by_cases hu : f.transmissions = 0
  case pos => rw [recordFlight_first hi.toCore (hi.phase.proper f (by simp [hf])) hf₀ hu]
  case neg =>
    rw [(recordFlight_again hv hi.toCore hf₀ hu now).frame]
    exact (hi.window.sent_eq_next (by simpa [hf] using hu)).left

-- The only segment of a connection which waits for the answer to its SYN is that SYN.
theorem emission_synSent (hv : cfg.Valid) (hi : c.Inv cfg) (hq : c.Silent) (hs : c.state = .synSent)
    (he : c.emission now cfg = some s) :
    s.flags = SYN ∧ s.payload = [] ∧
    (c.transmitted now cfg .accepted).fst.sendUna = s.sequence ∧
    (c.transmitted now cfg .accepted).fst.sendSent = s.sequence + 1 := by
  have hi₁ := stage_inv hv hi now
  have hx := stage_indexed hv hi now
  have hst := stage_effect hv hi now
  have hinv := transmitted_inv hv hi now .accepted
  have hlive := (emission_some he).right
  obtain ⟨hseg, htr⟩ := transmitted_accepted he
  rw [htr] at hinv ⊢
  generalize c.stage now cfg = r at *
  obtain ⟨c₁, index⟩ := r
  have hs₁ : c₁.state = .synSent := by
    rcases hst.state with h | ⟨-, ⟨h, -⟩ | ⟨h, -⟩⟩
    · exact h.trans hs
    all_goals simp [h] at hs
  have hphase := hi₁.phase
  simp only [hs₁, Phase] at hphase
  obtain ⟨_, f, hf, hsyn, hflags⟩ := hphase
  cases index
  case none =>
    obtain ⟨ha, hp⟩ := hst.silent hq hs₁
    dsimp only at ha hp
    simp [ha, hp] at hlive
  case some i =>
    obtain ⟨g, hg⟩ := hx i rfl
    obtain rfl : g = f := by simpa [hf] using List.mem_of_getElem? hg
    obtain rfl : i = 0 := by
      have := (List.getElem?_eq_some_iff.mp hg).fst
      simpa [hf] using this
    have hseq : s.sequence = g.sequence ∧ s.flags = g.flags ∧ s.payload = g.payload := by
      simp [hseg, outgoing, hg]
    refine ⟨hseq.right.left.trans hflags, hseq.right.right.trans hsyn.payload, ?_⟩
    have hcont := hi₁.window.contiguous
    rw [hf] at hcont
    have hend : c₁.sendNext = g.sequence + 1 := by
      rw [← hcont.right, g.end_eq, hsyn.size_eq]
      rfl
    rw [record_some, hseq.left]
    have hr := recordFlight_effect hv hi₁ hg now
    refine ⟨?_, (recordFlight_single hv hi₁ hf now).trans hend⟩
    show (c₁.recordFlight 0 now cfg).fst.sendUna = _
    rw [hr.frame]
    exact hcont.left.symm

-- Every other segment carries an acknowledgment.
theorem emission_flags (hv : cfg.Valid) (hi : c.Inv cfg) (hs : c.state ≠ .synSent)
    (he : c.emission now cfg = some s) :
    has s.flags ACK ∧ (has s.flags URG = false ∧ has s.flags RST = false) ∧
      s.acknowledgment = c.receiveNext := by
  have hi₁ := stage_inv hv hi now
  have hst := stage_effect hv hi now
  have hx := stage_indexed hv hi now
  have hseg := (transmitted_accepted he).left
  have hack : s.acknowledgment = c.receiveNext := by
    rw [hseg]
    show (c.stage now cfg).fst.receiveNext = _
    rw [hst.frame]
    rfl
  suffices hf : has s.flags ACK ∧ has s.flags URG = false ∧ has s.flags RST = false from
    ⟨hf.left, hf.right, hack⟩
  rw [hseg]
  cases hindex : (c.stage now cfg).snd
  case none =>
    show has ACK ACK ∧ has ACK URG = false ∧ has ACK RST = false
    decide
  case some i =>
    obtain ⟨f, hf⟩ := hx i hindex
    have hm := List.mem_of_getElem? hf
    have hflags : ((c.stage now cfg).fst.outgoing (some i) cfg).flags = f.flags := by
      simp [outgoing, hf]
    rw [hflags]
    have hphase := hi₁.phase
    have hs₁ : (c.stage now cfg).fst.state ≠ .synSent := by
      rcases hst.state with h | ⟨-, ⟨-, h⟩ | ⟨-, h⟩⟩
      · rwa [h]
      all_goals simp [h]
    cases hstate : (c.stage now cfg).fst.state <;> simp only [hstate, Phase] at hphase
    case synSent => exact absurd hstate hs₁
    case synReceived =>
      obtain ⟨_, g, hg, _, hl⟩ := hphase
      obtain rfl : f = g := by simpa [hg] using hm
      rw [hl]
      decide
    case established | closeWait =>
      rw [(hphase f hm).flags]
      decide
    case finWait1 | closing | lastAck =>
      obtain ⟨_, g, hg, hl⟩ := hphase
      obtain rfl : f = g := by simpa [hg] using hm
      rw [hl.flags]
      decide
    all_goals simp [hphase.right] at hm

-- The answer to a segment that belongs to no connection gets through to the connection that sent
-- it.
theorem Speaking.reset (h : Speaking cfg c) (hv : cfg.Valid) (hw : c.state ≠ .timeWait)
    (he : c.emission now cfg = some s) (now' : Duration) :
    (c.transmitted now cfg .accepted).fst.input (TcpPool.resetSegment (TcpPool.resetFor s))
      now' cfg =
      (c.transmitted now cfg .accepted).fst.fail .reset := by
  have heff := transmitted_effect hv h.inv now .accepted
  have ht := (emission_some he).left
  by_cases hs : c.state = .synSent
  case pos =>
    obtain ⟨hflags, hp, hu, hsent⟩ := emission_synSent hv h.inv h.silent hs he
    have hnack : has SYN ACK = false := by decide
    have hlen : seqLen SYN 0 = 1 := by decide
    have hr : TcpPool.resetFor s =
        ⟨s.destination, s.source, 0, s.sequence + s.sequenceLen, RST ||| ACK⟩ := by
      simp [TcpPool.resetFor, hflags, hnack]
    rw [hr]
    refine input_reset_synSent (heff.synSent_iff.mpr hs) rfl ?_ ?_ now'
    · rw [hsent]
      simp [TcpPool.resetSegment, Segment.sequenceLen, hflags, hp, hlen]
    · rw [hsent, hu]
      bv_omega
  case neg =>
    obtain ⟨hack, _, ha⟩ := emission_flags hv h.inv hs he
    have hr : TcpPool.resetFor s = ⟨s.destination, s.source, s.acknowledgment, 0, RST⟩ := by
      simp [TcpPool.resetFor, hack]
    have hst : (c.transmitted now cfg .accepted).fst.state.isTerminal = false ∧
        (c.transmitted now cfg .accepted).fst.state ≠ .timeWait := by
      rcases heff.state with hs | ⟨-, ⟨-, hs⟩ | ⟨-, hs⟩⟩
      · rw [hs]
        exact ⟨ht, hw⟩
      all_goals simp [hs, TcpState.isTerminal]
    rw [hr]
    apply input_reset_exact hst.left (mt heff.synSent_iff.mp hs) hst.right rfl rfl
    exact ha.trans heff.next.symm

end Connection

namespace TcpPool

variable {δ ε : Type}

-- A segment that belongs to no connection and to no listener is answered by a reset.
theorem input_unknown {q : TcpPool ε} {s : Segment}
    (hsource : (validateAddress s.source).isOk) (htarget : (validateAddress s.destination).isOk)
    (hurg : has s.flags URG = false) (hrst : has s.flags RST = false)
    (huse : q.listeners.toList.any (·.ip == s.destination.ip)
      || q.connections.values.any (·.localAddr.ip == s.destination.ip))
    (hfind : q.find s.destination s.source = none)
    (hlisten : ¬(s.destination ∈ q.listeners ∧ s.flags &&& (SYN ||| ACK ||| FIN) = SYN))
    (hroom : q.resets.length < q.config.controlCapacity) (sequence : ConnectionId → IoResult U32) :
    (q.input s sequence).fst.resets = q.resets ++ [resetFor s] := by
  have hvalid :
      ¬((validateAddress s.source).isOk = false || (validateAddress s.destination).isOk = false
      || has s.flags URG) := by simp [hsource, htarget, hurg]
  have hused : ¬(!q.listeners.toList.any (·.ip == s.destination.ip)
      && !q.connections.values.any (·.localAddr.ip == s.destination.ip)) := by
    simpa [or_iff_not_imp_left] using huse
  have hnone : ¬(q.listeners.contains s.destination &&
      s.flags &&& (SYN ||| ACK ||| FIN) == SYN) := by simpa using hlisten
  rw [input, if_neg hvalid, hfind]
  dsimp only
  rw [if_neg hused, if_neg (by simp [hrst]), if_neg hnone, queueReset,
    if_neg (Nat.ne_of_lt hroom)]

variable [Device δ]

theorem reset_agreement {device : δ} {cfg : TcpConfig} {p₀ : TcpPool δ}
    (hn : new device cfg = .ok p₀) (ops : List (Op δ)) {id : ConnectionId} {c : Connection}
    (hc : (Transition.exec step p₀ ops).connections[id]? = some c)
    (hw : c.state ≠ .timeWait) {now : Duration} {s : Segment} (he : c.emission now cfg = some s)
    -- The pool which the segment reaches.
    (q : TcpPool ε)
    (huse : q.listeners.toList.any (·.ip == s.destination.ip)
      || q.connections.values.any (·.localAddr.ip == s.destination.ip))
    (hfind : q.find s.destination s.source = none)
    (hlisten : ¬(s.destination ∈ q.listeners ∧ s.flags &&& (SYN ||| ACK ||| FIN) = SYN))
    (hroom : q.resets.length < q.config.controlCapacity) (sequence : ConnectionId → IoResult U32)
    -- The frame in which the reset goes back.
    (frame : PacketBuf) (hframe : 40 ≤ frame.tailCapacity) (now' : Duration) :
    ∃ reset frame' segment,
      (q.input s sequence).fst.resets = q.resets ++ [reset] ∧
      Slices.buildIpv4 frame (resetSegment reset) = some (frame', .ok ()) ∧
      Slices.parseIpv4 frame'.asSlice = some (.ok segment) ∧
      ((c.transmitted now cfg .accepted).fst.input segment now' cfg).state = .reset := by
  have hv := TcpConfig.Valid.of_not_rejected (new_ok hn).left
  have h := (Connection.Speaking.preserved hv).reachable hn ops id c hc
  have hq : has s.flags URG = false ∧ has s.flags RST = false := by
    by_cases hs : c.state = .synSent
    case pos =>
      rw [(Connection.emission_synSent hv h.inv h.silent hs he).left]
      decide
    case neg => exact (Connection.emission_flags hv h.inv hs he).right.left
  have haddr : s.source = c.localAddr ∧ s.destination = c.remoteAddr := by
    rw [(Connection.transmitted_accepted he).left]
    show (c.stage now cfg).fst.localAddr = _ ∧ (c.stage now cfg).fst.remoteAddr = _
    rw [(Connection.stage_effect hv h.inv now).frame]
    exact ⟨rfl, rfl⟩
  have hbuild : Buildable frame (resetSegment (resetFor s)) :=
    ⟨⟨nofun, show 40 ≤ 65535 by decide⟩, hframe⟩
  have ⟨frame', hb, hp⟩ := hbuild.round_trip
  have hp := hp []
  rw [List.append_nil] at hp
  refine ⟨resetFor s, frame', _, ?_, hb, hp, ?_⟩
  · exact input_unknown (haddr.left ▸ h.source) (haddr.right ▸ h.target) hq.left hq.right huse hfind
      hlisten hroom sequence
  · rw [h.reset hv hw he now']
    rfl

-- A client that has sent its SYN, and a server that listens at another port.
def client : Connection :=
  .active clientAddr serverAddr 7 .zero .default

def clientSyn : Segment where
  source         := clientAddr
  destination    := serverAddr
  sequence       := 7
  acknowledgment := 0
  flags          := SYN
  window         := 16384
  mss            := some 536
  payload        := []

def server : TcpPool Device.Script :=
  ((init idle .default).listen { serverAddr with port := 81 }).fst

def blank : PacketBuf where
  memory     := List.replicate 40 0
  dataOffset := 0
  len        := 0
  idx        := 0
  pool       := none
  bound      := Nat.zero_le _

theorem reset_agreement_closed_port :
    client.emission .zero .default = some clientSyn ∧
    ∃ reset frame' segment,
      (server.input clientSyn fun _ => .ok 0).fst.resets = server.resets ++ [reset] ∧
      Slices.buildIpv4 blank (resetSegment reset) = some (frame', .ok ()) ∧
      Slices.parseIpv4 frame'.asSlice = some (.ok segment) ∧
      ((client.transmitted .zero .default .accepted).fst.input segment .zero .default).state =
        .reset := by
  have hn : new idle .default = .ok (init idle .default) :=
    if_neg (by simp [TcpConfig.default_not_rejected])
  have hc : (Transition.exec step (init idle .default)
      [.connect clientAddr serverAddr (.ok 7)]).connections[1]? = some client := rfl
  have he : client.emission .zero .default = some clientSyn := by decide
  exact ⟨he, reset_agreement hn _ hc nofun he server (by decide +kernel) (by decide +kernel)
    (by decide +kernel) (by decide +kernel) _ blank (by decide) .zero⟩

end TcpPool
