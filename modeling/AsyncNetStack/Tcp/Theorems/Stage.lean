import AsyncNetStack.Tcp.Theorems.Invariant

open Serial Tcp List

namespace Connection

variable {cfg : TcpConfig} {c c' : Connection} {now : Duration} {f : Flight} {i : Nat}

theorem reserved_eq (hc : c.Core cfg) : (c.sendNext - c.sendUna).toNat = sizes c.flights :=
  hc.window.contiguous.dist_eq (Nat.lt_of_le_of_lt hc.window.span (by decide))

-- What `prepareData` takes from the queue.
structure Portion (cfg : TcpConfig) (c : Connection) (n : Nat) : Prop where
  pos       : 0 < n
  le_queued : n ≤ c.queued.length
  le_mss    : n ≤ c.sendMss cfg
  span      : sizes c.flights + n ≤ 65535

-- All ways in which `prepare` can change a connection.
inductive Prepared (cfg : TcpConfig) (c : Connection) (now : Duration) : Connection → Prop
  | none :
    Prepared cfg c now c
  | idle {c' : Connection} (state : c.state.isOpen) (retimed : Retimed cfg c c') :
    Prepared cfg c now c'
  | probe (state : c.state.isOpen) :
    Prepared cfg c now { c with probePending := true }
  | data {c' : Connection} {n : Nat} {persist : Bool}
      (state : c.state.isOpen)
      (retimed : Retimed cfg c c')
      (count : c'.flights.length < cfg.maxInflightSegments)
      (last : ∀ f ∈ c'.flights.getLast?, f.transmissions ≠ 0)
      (portion : Portion cfg c' n) :
    Prepared cfg c now
      (({ c' with queued := c'.queued.drop n } : Connection).startFlight
        (ACK ||| PSH) (c'.queued.take n) persist now)
  | fin
      (state : c.state.isOpen)
      (count : c.flights.length < cfg.maxInflightSegments)
      (queued : c.queued = [])
      (flights : c.flights = [])
      (closed : c.writeClosed) :
    Prepared cfg c now
      { c.startFlight (FIN ||| ACK) [] false now with
        state := if c.state = .closeWait then .lastAck else .finWait1 }

theorem restartIdle_flights (c : Connection) (now : Duration) (cfg : TcpConfig) :
    (c.restartIdle now cfg).flights = c.flights := by
  unfold restartIdle
  split <;> rfl

theorem prepareData_cases (hr : Retimed cfg c c') (hc : c'.Core cfg) (hs : c.state.isOpen)
    (hl : c'.flights.length < cfg.maxInflightSegments)
    (hu : ∀ f ∈ c'.flights.getLast?, f.transmissions ≠ 0) (now : Duration) :
    Prepared cfg c now (c'.prepareData now cfg) := by
  unfold prepareData
  dsimp only
  generalize ha : (if c'.peerWindow == 0 && c'.flights.isEmpty then 1
    else min c'.cwnd c'.peerWindow.toNat - (c'.sendNext - c'.sendUna).toNat) = available
  have ha : available = 0 ∨ sizes c'.flights + available ≤ 65535 := by
    have := c'.peerWindow.isLt
    rw [reserved_eq hc] at ha
    split at ha
    case isTrue hp =>
      have : c'.flights = [] := by simp at hp; exact hp.right
      simp only [this, sizes_nil]
      omega
    case isFalse => omega
  split
  case isTrue  => exact .idle hs hr
  case isFalse => exact .data hs hr hl hu ⟨by omega, by omega, by omega, by omega⟩

theorem prepare_cases (hv : cfg.Valid) (hc : c.Core cfg) (now : Duration) :
    Prepared cfg c now (c.prepare now cfg) := by
  unfold prepare
  split
  case isTrue => exact .none
  rename_i h
  simp only [Bool.or_eq_true, Bool.not_eq_true', decide_eq_true_eq, not_or, Bool.not_eq_false,
    Nat.not_le, Bool.not_eq_true] at h
  obtain ⟨⟨hs, hl⟩, hu⟩ := h
  have hu : ∀ f ∈ c.flights.getLast?, f.transmissions ≠ 0 := by
    intro f hf
    simpa [Option.mem_def.mp hf] using hu
  have hr := restartIdle_retimed hv c now
  split
  case isTrue hq =>
    exact prepareData_cases hr (hr.core hc) hs (hr.flights.length_eq ▸ hl)
      (restartIdle_flights c now cfg ▸ hu) now
  rename_i hq
  have hq : c.queued = [] := by simpa using hq
  split
  case isFalse => exact .none
  case isTrue hf =>
    simp only [Bool.and_eq_true, List.isEmpty_iff] at hf
    unfold prepareFin
    split
    · exact .fin hs hl hq hf.left hf.right
    split
    · exact .probe hs
    · exact .none

theorem startFlight_core (hc : c.Core cfg) {flags : U8} {payload : List U8} {persist : Bool}
    (hl : ∀ f ∈ c.flights.getLast?, f.transmissions ≠ 0)
    (hn : c.flights.length < cfg.maxInflightSegments)
    (hs : sizes c.flights + payload.length + (has flags SYN).toNat + (has flags FIN).toNat ≤ 65535)
    (hm : payload.length ≤ c.sendMss cfg)
    (hb : c.sendBuffered + payload.length ≤ cfg.sendCapacity) (now : Duration) :
    (c.startFlight flags payload persist now).Core cfg where
  window   := hc.window.push hl rfl rfl (by simpa only [Flight.size, ← Nat.add_assoc] using hs)
  payload  := by
    have := hc.payload
    simp only [outstanding, startFlight, flatMap_append, length_append] at this ⊢
    simp [this]
  buffered := by
    simp only [sendBuffered, startFlight] at hb ⊢
    omega
  limits   := {
    hc.limits with
    flights := by
      simp only [startFlight, mem_append, mem_singleton]
      rintro f (hf | rfl)
      · exact hc.limits.flights f hf
      · exact hc.limits.rto
  }
  count    := by
    simp only [startFlight, length_append, length_singleton]
    omega
  mss      := by
    simp only [startFlight, mem_append, mem_singleton]
    rintro f (hf | rfl)
    · exact hc.mss f hf
    · exact hm
  received := hc.received

theorem data_inv (hi : c.Inv cfg) (ho : c.state.isOpen) {n : Nat} {persist : Bool}
    (hn : c.flights.length < cfg.maxInflightSegments)
    (hl : ∀ f ∈ c.flights.getLast?, f.transmissions ≠ 0) (hp : Portion cfg c n) (now : Duration) :
    (({ c with queued := c.queued.drop n } : Connection).startFlight
      (ACK ||| PSH) (c.queued.take n) persist now).Inv cfg := by
  have ht : (c.queued.take n).length = n := by simp [hp.le_queued]
  have hsyn : has (ACK ||| PSH) SYN = false := by decide
  have hfin : has (ACK ||| PSH) FIN = false := by decide
  have hb := hi.buffered
  have hc : ({ c with queued := c.queued.drop n } : Connection).Core cfg := {
    hi with
    buffered := by
      simp only [sendBuffered, length_drop] at hb ⊢
      omega
  }
  refine ⟨startFlight_core hc hl hn ?span ?mss ?buffered now, ?phase, hi.closing⟩
  case span =>
    rw [ht, hsyn, hfin]
    exact hp.span
  case mss =>
    rw [ht]
    exact hp.le_mss
  case buffered =>
    have := hp.le_queued
    simp only [sendBuffered, length_drop, ht] at hb ⊢
    omega
  case phase =>
    refine (Phase.of_isOpen ho).mpr ?_
    have hd := (Phase.of_isOpen ho).mp hi.phase
    simp only [startFlight, mem_append, mem_singleton]
    rintro f (hf | rfl)
    · exact hd f hf
    · refine ⟨rfl, ne_nil_of_length_pos ?_⟩
      rw [ht]
      exact hp.pos

theorem fin_inv (hi : c.Inv cfg) (ho : c.state.isOpen)
    (hn : c.flights.length < cfg.maxInflightSegments) (hq : c.queued = []) (hf : c.flights = [])
    (hw : c.writeClosed) (now : Duration) :
    ({ c.startFlight (FIN ||| ACK) [] false now with
      state := if c.state = .closeWait then .lastAck else .finWait1 } : Connection).Inv cfg := by
  have hc : (c.startFlight (FIN ||| ACK) [] false now).Core cfg :=
    startFlight_core hi.toCore (by simp [hf]) hn (by simp [hf]; decide) (Nat.zero_le _)
      (by simpa using hi.buffered) now
  have hfl : ∃ f, (c.startFlight (FIN ||| ACK) [] false now).flights = [f] ∧ f.IsFin :=
    ⟨_, by simp [startFlight, hf]; rfl, rfl, rfl⟩
  obtain ⟨he, -, hp, hd⟩ := hi.closing
  refine { hc with phase := ?_, closing := ?_ }
  · split
    all_goals exact ⟨hq, hfl⟩
  · cases hs : c.state <;> simp only [hs, TcpState.isOpen, Bool.false_eq_true] at ho
    all_goals
      rw [hs] at he hp hd
      exact ⟨fun _ => he rfl, fun _ => hw, hp, hd⟩

theorem prepare_inv (hv : cfg.Valid) (hi : c.Inv cfg) (now : Duration) :
    (c.prepare now cfg).Inv cfg := by
  have h := prepare_cases hv hi.toCore now
  generalize c.prepare now cfg = c' at h
  cases h
  case none => exact hi
  case idle _ hr => exact hr.inv hi
  case probe => exact { hi with }
  case data c' n persist hs hr hn hl hp =>
    have ho : c'.state.isOpen := by rw [hr.frame]; exact hs
    exact data_inv (hr.inv hi) ho hn hl hp now
  case fin hs hn hq hf hw => exact fin_inv hi hs hn hq hf hw now

-- A flight that is cut down to its first `n` bytes.
def cut (f : Flight) (n : Nat) (persist : Bool) : Flight :=
  { f with payload := f.payload.take n, persist }

theorem size_cut_le (f : Flight) (n : Nat) (persist : Bool) : (cut f n persist).size ≤ f.size := by
  simp only [Flight.size, cut, length_take]
  omega

-- The bytes that are cut off are exactly those that `sendNext` moves back.
theorem removed_eq (hc : c.Core cfg) (hi : c.flights[i]? = some f) (hu : f.transmissions = 0)
    {n : Nat} (hn : n ≤ f.payload.length) (persist : Bool) :
    (c.sendNext - (cut f n persist).end).toNat = f.payload.length - n := by
  obtain ⟨fs, hf, -, -, -, -, he⟩ := hc.window.unsent_last hi hu
  have hs := hc.window.span
  have hd := dist_offsets f.sequence (x := (cut f n persist).size) (y := f.size)
    (size_cut_le f n persist) (by simp only [hf, sizes_append, sizes_cons] at hs; omega)
  rw [← he, f.end_eq, (cut f n persist).end_eq]
  refine hd.trans ?_
  simp only [Flight.size, cut, length_take]
  omega

theorem trim_eq (hc : c.Core cfg) (hi : c.flights[i]? = some f) (hu : f.transmissions = 0)
    (n : Nat) (persist : Bool) :
    c.trim i f n persist = {
      c with
      queued        := f.payload.drop n ++ c.queued
      flightPayload := c.flightPayload - (f.payload.length - n)
      sendNext      := (cut f n persist).end
      flights       := c.flights.set i (cut f n persist)
    } := by
  unfold trim
  split
  case isTrue h =>
    rw [← removed_eq hc hi hu (Nat.le_of_lt h) persist]
    rfl
  case isFalse h =>
    obtain ⟨fs, -, -, -, -, -, he⟩ := hc.window.unsent_last hi hu
    have ht : f.payload.take n = f.payload := take_of_length_le (Nat.not_lt.mp h)
    have hd : f.payload.drop n = [] := drop_eq_nil_of_le (Nat.not_lt.mp h)
    have hl : f.payload.length - n = 0 := Nat.sub_eq_zero_of_le (Nat.not_lt.mp h)
    have hcut : cut f n persist = { f with persist } := by rw [cut, ht]
    rw [hd, hl, hcut, nil_append, Nat.sub_zero, ← he]
    rfl

-- Cutting moves bytes back to the front of the queue, and so keeps them in order.
theorem trim_stream (hc : c.Core cfg) (hi : c.flights[i]? = some f) (hu : f.transmissions = 0)
    (n : Nat) (persist : Bool) :
    (c.trim i f n persist).outstanding ++ (c.trim i f n persist).queued =
      c.outstanding ++ c.queued := by
  rw [trim_eq hc hi hu]
  obtain ⟨fs, hf, rfl, -⟩ := hc.window.unsent_last hi hu
  simp only [outstanding, hf, set_append_right _ _ (Nat.le_refl _), Nat.sub_self,
    set_cons_zero, flatMap_append, flatMap_cons, flatMap_nil, append_nil,
    append_assoc, cut]
  rw [← append_assoc (f.payload.take n), take_append_drop]

theorem trim_core (hc : c.Core cfg) (hi : c.flights[i]? = some f) (hu : f.transmissions = 0)
    (n : Nat) (persist : Bool) : (c.trim i f n persist).Core cfg := by
  have hst := congrArg List.length (trim_stream hc hi hu n persist)
  have hb := hc.buffered
  have hp := hc.payload
  rw [trim_eq hc hi hu] at hst ⊢
  simp only [length_append, length_drop] at hst
  have mem {g : Flight} (hg : g ∈ c.flights.set i (cut f n persist)) :
      ∃ h ∈ c.flights, g.rto = h.rto ∧ g.payload.length ≤ h.payload.length := by
    rcases mem_or_eq_of_mem_set hg with hg | rfl
    · exact ⟨g, hg, rfl, Nat.le_refl _⟩
    · exact ⟨f, mem_of_getElem? hi, rfl, by simp [cut]⟩
  exact {
    window   := hc.window.replace_unsent hi hu rfl hu (size_cut_le f n persist)
    payload  := by
      dsimp only
      omega
    buffered := by
      simp only [sendBuffered, length_append, length_drop] at hb ⊢
      omega
    limits   := {
      hc.limits with
      flights := by
        intro g hg
        obtain ⟨h, hm, hr, -⟩ := mem hg
        exact hr ▸ hc.limits.flights h hm
    }
    count    := by simpa using hc.count
    mss      := by
      intro g hg
      obtain ⟨h, hm, -, hl⟩ := mem hg
      exact hl.trans (hc.mss h hm)
    received := hc.received
  }

theorem trim_inv (hi : c.Inv cfg) (hf : c.flights[i]? = some f) (hu : f.transmissions = 0)
    (hs : has f.flags SYN = false) {n : Nat} (hn : 0 < n) (persist : Bool) :
    (c.trim i f n persist).Inv cfg := by
  have hc := trim_core hi.toCore hf hu n persist
  have hm : f ∈ c.flights := mem_of_getElem? hf
  have hp := hi.phase
  rw [trim_eq hi.toCore hf hu] at hc ⊢
  refine { hc with phase := ?_, closing := hi.closing }
  dsimp only
  cases hst : c.state <;> simp only [hst, Phase] at hp ⊢
  case synSent | synReceived =>
    obtain ⟨-, g, hg, hsyn, -⟩ := hp
    obtain rfl : f = g := by simpa [hg] using hm
    simp [hsyn.has_syn] at hs
  case established | closeWait =>
    intro g hg
    rcases mem_or_eq_of_mem_set hg with hg | rfl
    · exact hp g hg
    · refine ⟨(hp f hm).flags, ne_nil_of_length_pos ?_⟩
      have := (hp f hm).length_pos
      simp only [cut, length_take]
      omega
  case finWait1 | closing | lastAck =>
    obtain ⟨hq, g, hg, hfin⟩ := hp
    obtain rfl : f = g := by simpa [hg] using hm
    obtain rfl : i = 0 := by
      have := (List.getElem?_eq_some_iff.mp hf).fst
      simp [hg] at this
      exact this
    refine ⟨by simp [hfin.payload, hq], cut f n persist, by simp [hg], hfin.flags, ?_⟩
    simp [cut, hfin.payload]
  all_goals simp [hp.right] at hm

-- The windows leave room for `n` bytes of a flight. If the peer's window is closed, then one byte
-- of data may be sent as a probe.
def Room (c : Connection) (f : Flight) (n : Nat) : Prop :=
  n + c.bytesInFlight ≤ min c.cwnd c.peerWindow.toNat ∨
  (c.peerWindow = 0 ∧ c.bytesInFlight = 0 ∧ n = 1 ∧ has f.flags FIN = false)

-- All outcomes of rechecking the windows for the flight at index `i`.
inductive Rechecked (c : Connection) (i : Nat) : Connection × Option Nat → Prop
  | again {f : Flight} (flight : c.flights[i]? = some f)
      (sent : f.transmissions ≠ 0 ∨ has f.flags SYN) :
    Rechecked c i (c, some i)
  | withheld :
    Rechecked c i (c, none)
  | probe {f : Flight} (flight : c.flights[i]? = some f) (syn : has f.flags SYN = false) :
    Rechecked c i ({ c with probePending := true }, none)
  | fits {f : Flight} {n : Nat} {persist : Bool}
      (flight : c.flights[i]? = some f)
      (unsent : f.transmissions = 0)
      (syn : has f.flags SYN = false)
      (pos : 0 < n)
      (room : Room c f n) :
    Rechecked c i (c.trim i f n persist, some i)

theorem recheck_cases (hi : i < c.flights.length) (now : Duration) :
    Rechecked c i (c.recheck i now) := by
  have hf : c.flights[i]? = some c.flights[i] := List.getElem?_eq_getElem hi
  unfold recheck
  split
  case h_1 h => simp [h] at hf
  case h_2 f hf =>
    split
    case isFalse h =>
      refine .again hf ?_
      simpa [or_iff_not_imp_left] using h
    rename_i h
    simp only [Bool.and_eq_true, beq_iff_eq, Bool.not_eq_true'] at h
    dsimp only
    generalize hn : (if c.peerWindow == 0 && c.bytesInFlight == 0 then 1
      else min c.cwnd c.peerWindow.toNat - c.bytesInFlight) = n
    split
    case isTrue =>
      split
      · exact .probe hf h.right
      · exact .withheld
    case isFalse hz =>
      simp only [Bool.or_eq_true, beq_iff_eq, Bool.and_eq_true, not_or, not_and,
        Bool.not_eq_true] at hz hn
      refine .fits hf h.left h.right (Nat.pos_of_ne_zero hz.left) ?_
      split at hn
      case isTrue hp  => exact .inr ⟨hp.left, hp.right, hn.symm, hz.right hp⟩
      case isFalse hp => exact .inl (by omega)

theorem flightIndex_lt (h : c.flightIndex now = some i) : i < c.flights.length := by
  cases hl : c.flights
  case nil => simp [flightIndex, hl] at h
  case cons f fs =>
    unfold flightIndex at h
    split at h
    case isTrue =>
      obtain rfl := Option.some.inj h
      simp
    split at h
    case isTrue =>
      obtain rfl := Option.some.inj h
      simp [hl]
    case isFalse => simp at h

-- All outcomes of `stage`, up to the flag that is cleared at its end.
inductive Staged (cfg : TcpConfig) (c : Connection) (now : Duration) :
    Connection × Option Nat → Prop
  | idle :
    Staged cfg c now (c.prepare now cfg, none)
  | rechecked {i : Nat} {r : Connection × Option Nat}
      (bound : i < (c.prepare now cfg).flights.length)
      (rechecked : Rechecked (c.prepare now cfg) i r) :
    Staged cfg c now r

theorem stage_cases (c : Connection) (now : Duration) (cfg : TcpConfig) :
    ∃ r, Staged cfg c now r ∧
      c.stage now cfg = ({ r.fst with deviceBlocked := false }, r.snd) := by
  unfold stage
  dsimp only
  split
  case h_1 i hi =>
    exact ⟨_, .rechecked (flightIndex_lt hi) (recheck_cases (flightIndex_lt hi) now), rfl⟩
  case h_2 => exact ⟨_, .idle, rfl⟩

theorem Rechecked.inv {r : Connection × Option Nat} (h : Rechecked c i r) (hi : c.Inv cfg) :
    r.fst.Inv cfg := by
  cases h
  case again | withheld => exact hi
  case probe => exact { hi with }
  case fits hf hu hs hn _ => exact trim_inv hi hf hu hs hn _

theorem stage_inv (hv : cfg.Valid) (hi : c.Inv cfg) (now : Duration) :
    (c.stage now cfg).fst.Inv cfg := by
  obtain ⟨r, hr, he⟩ := c.stage_cases now cfg
  have hp := prepare_inv hv hi now
  rw [he]
  cases hr
  case idle => exact { hp with }
  case rechecked h => exact { h.inv hp with }

-- Takes everything from `t` that `stage` can change.
def stageStep (c t : Connection) : Connection :=
  { c.retime t with
    state         := t.state
    queued        := t.queued
    flightPayload := t.flightPayload
    sendNext      := t.sendNext
    probePending  := t.probePending }

-- What `stage` does to the stream and to the rest of the connection.
structure StageEffect (c c' : Connection) : Prop where
  frame  : c' = c.stageStep c'
  stream : c'.outstanding ++ c'.queued = c.outstanding ++ c.queued
  state  : c'.state = c.state ∨
    c.writeClosed ∧ (c.state = .established ∧ c'.state = .finWait1 ∨
      c.state = .closeWait ∧ c'.state = .lastAck)
  probe  : c.state.isHandshake → c'.probePending = c.probePending

namespace StageEffect

theorem refl (c : Connection) : StageEffect c c :=
  ⟨rfl, rfl, .inl rfl, fun _ => rfl⟩

theorem of_retimed (h : Retimed cfg c c') : StageEffect c c' where
  frame  := h.frame.trans (by rw [h.frame]; rfl)
  stream := by rw [h.outstanding_eq, h.frame]; rfl
  state  := .inl (by rw [h.frame]; rfl)
  probe  := fun _ => by rw [h.frame]; rfl

theorem trans {c'' : Connection} (h₁ : StageEffect c c') (h₂ : StageEffect c' c'')
    (hs : c''.state = c'.state) : StageEffect c c'' where
  frame  := h₂.frame.trans (by rw [h₁.frame]; rfl)
  stream := h₂.stream.trans h₁.stream
  state  := hs ▸ h₁.state
  probe  := by
    intro hh
    have hs' : c'.state = c.state := h₁.state.resolve_right fun ⟨_, h⟩ => by
      rcases h with ⟨h, -⟩ | ⟨h, -⟩ <;> simp [h, TcpState.isHandshake] at hh
    exact (h₂.probe (hs' ▸ hh)).trans (h₁.probe hh)

theorem of_probe (hs : c.state.isHandshake = false) :
    StageEffect c { c with probePending := true } :=
  ⟨rfl, rfl, .inl rfl, fun h => by simp [hs] at h⟩

end StageEffect

theorem isHandshake_of_isOpen (h : c.state.isOpen) : c.state.isHandshake = false := by
  cases hs : c.state <;> simp_all [TcpState.isOpen, TcpState.isHandshake]

theorem prepare_effect (hv : cfg.Valid) (hc : c.Core cfg) (now : Duration) :
    StageEffect c (c.prepare now cfg) := by
  have h := prepare_cases hv hc now
  generalize c.prepare now cfg = c' at h
  cases h
  case none => exact .refl c
  case idle _ hr => exact .of_retimed hr
  case probe hs => exact .of_probe (isHandshake_of_isOpen hs)
  case data c' n persist hs hr _ _ _ =>
    refine (StageEffect.of_retimed hr).trans ⟨rfl, ?_, .inl rfl, fun _ => rfl⟩ rfl
    simp only [outstanding, startFlight, flatMap_append, flatMap_cons, flatMap_nil,
      append_nil, append_assoc, take_append_drop]
  case fin hs _ _ _ hw =>
    refine ⟨rfl, by simp [outstanding, startFlight], .inr ⟨hw, ?_⟩, fun _ => rfl⟩
    cases hst : c.state <;> simp_all [TcpState.isOpen]

theorem Rechecked.effect {r : Connection × Option Nat} (h : Rechecked c i r) (hi : c.Inv cfg) :
    StageEffect c r.fst ∧ r.fst.state = c.state := by
  cases h
  case again | withheld => exact ⟨.refl c, rfl⟩
  case probe f hf hs =>
    refine ⟨.of_probe ?_, rfl⟩
    -- During the handshake, the only flight is a SYN.
    have hp := hi.phase
    have hm := mem_of_getElem? hf
    cases hst : c.state <;> simp only [hst, Phase, TcpState.isHandshake] at hp ⊢
    case synSent | synReceived =>
      obtain ⟨-, g, hg, hsyn, -⟩ := hp
      obtain rfl : f = g := by simpa [hg] using hm
      simp [hsyn.has_syn] at hs
  case fits f n persist hf hu hs _ _ =>
    have hst := trim_stream hi.toCore hf hu n persist
    rw [trim_eq hi.toCore hf hu] at hst ⊢
    exact ⟨⟨rfl, hst, .inl rfl, fun _ => rfl⟩, rfl⟩

theorem stage_effect (hv : cfg.Valid) (hi : c.Inv cfg) (now : Duration) :
    StageEffect c (c.stage now cfg).fst := by
  obtain ⟨r, hr, he⟩ := c.stage_cases now cfg
  have hp := prepare_effect hv hi.toCore now
  have hb (c : Connection) : StageEffect c { c with deviceBlocked := false } :=
    ⟨rfl, rfl, .inl rfl, fun _ => rfl⟩
  rw [he]
  cases hr
  case idle => exact hp.trans (hb _) rfl
  case rechecked h =>
    obtain ⟨h, hs⟩ := h.effect (prepare_inv hv hi now)
    exact (hp.trans h hs).trans (hb _) rfl

-- The flight that is sent fits into the windows, unless it was sent before or is a SYN.
theorem stage_flight (hv : cfg.Valid) (hi : c.Inv cfg) (h : c.stage now cfg = (c', some i)) :
    ∃ f, c'.flights[i]? = some f ∧
      (f.transmissions = 0 → has f.flags SYN = false →
        f.size + c'.bytesInFlight ≤ min c'.cwnd c'.peerWindow.toNat ∨
        (c'.peerWindow = 0 ∧ c'.bytesInFlight = 0 ∧ f.payload.length = 1 ∧
          has f.flags FIN = false)) := by
  obtain ⟨r, hr, he⟩ := c.stage_cases now cfg
  obtain ⟨rfl, hi'⟩ := Prod.mk.inj (he.symm.trans h)
  have hp := prepare_inv hv hi now
  cases hr
  case idle => simp at hi'
  case rechecked j hj hr =>
    cases hr
    case withheld | probe => simp at hi'
    case again f hf hs =>
      obtain rfl := Option.some.inj hi'
      refine ⟨f, hf, fun hu hn => ?_⟩
      rcases hs with hs | hs
      · exact absurd hu hs
      · simp [hn] at hs
    case fits f n persist hf hu hn hpos hroom =>
      obtain rfl := Option.some.inj hi'
      have hm := mem_of_getElem? hf
      rw [trim_eq hp.toCore hf hu]
      refine ⟨cut f n persist, by simp [List.getElem?_set_self hj], fun _ _ => ?_⟩
      rcases (hp.phase.proper f hm).resolve_left fun h => by simp [h.has_syn] at hn with hd | hfin
      case inl =>
        have hl := hd.length_pos
        have hs : (cut f n persist).size = min n f.payload.length := by
          simp [Flight.size, cut, hd.flags, show has (ACK ||| PSH) SYN = false by decide,
            show has (ACK ||| PSH) FIN = false by decide]
        refine hroom.imp (fun h => ?_) fun h => ⟨h.left, h.right.left, ?_, h.right.right.right⟩
        · rw [hs]
          exact (Nat.add_le_add_right (Nat.min_le_left ..) _).trans h
        · have hone := h.right.right.left
          simp only [cut, length_take]
          omega
      case inr =>
        have hs : (cut f n persist).size = 1 := by
          have := hfin.size_eq
          simpa [Flight.size, cut, hfin.payload] using this
        refine .inl (hs ▸ ?_)
        refine (Nat.add_le_add_right hpos _).trans (hroom.resolve_right fun h => ?_)
        simp [hfin.has_fin] at h

end Connection
