import AsyncNetStack.Tcp.Theorems.Timing

open List

open Serial Tcp
open Flight (Survives Fresh)

theorem TcpState.isOpen_iff {s : TcpState} :
    s.isOpen ↔ s.isHandshake = false ∧ s.finQueued = false ∧ s.isFailure = false := by
  cases s <;> simp [isOpen, isHandshake, finQueued, isFailure]

-- A flight that is yet to be sent lies behind everything that was sent.
theorem SendWindow.sent_ne_next {una sent next : U32} {flights : List Flight} {i : Nat} {f : Flight}
    (w : SendWindow una sent next flights) (hi : flights[i]? = some f) (hu : f.transmissions = 0)
    (hp : f.Proper) : sent ≠ next := by
  have ⟨fs, hfl, _, _, _, hseq, hend⟩ := w.unsent_last hi hu
  have hspan := w.span
  have hpos := hp.size_pos
  simp only [hfl, sizes_append, sizes_cons] at hspan
  intro he
  rw [f.end_eq, hseq, ← he] at hend
  have hd := dist_add_ofNat sent (n := f.size) (by omega)
  rw [hend, dist_self] at hd
  omega

namespace Outlive

variable {fs gs : List Flight} {f g : Flight} {m : Nat}

theorem nil_iff (h : Outlive 0 fs gs) : gs = [] ↔ fs = [] := by
  have := h.length
  rw [← length_eq_zero_iff, ← length_eq_zero_iff]
  omega

theorem singleton (h : Outlive 0 [f] gs) : ∃ g, gs = [g] ∧ Survives f g := by
  have hl := h.length
  have ⟨g, hg⟩ := length_eq_one_iff.mp (show gs.length = 1 by simp at hl; omega)
  subst hg
  have ⟨f', hf, hs⟩ := h.origin (i := 0) rfl
  obtain rfl : f = f' := by simpa using hf
  exact ⟨g, rfl, hs⟩

end Outlive

namespace Connection

variable {cfg : TcpConfig} {c : Connection} {t now : Duration} {f : Flight} {i : Nat}

-- The FIN cannot be sent, since the window of the peer is closed.
structure AwaitsWindow (t : Duration) (c : Connection) : Prop where
  state   : c.state.isOpen
  closed  : c.writeClosed
  queued  : c.queued = []
  flights : c.flights = []
  probeAt : c.windowProbeAt ≤ t

-- What is known about the timers of a connection whose clock has not passed `t`.
structure Timed (t : Duration) (c : Connection) : Prop where
  created : ∀ f ∈ c.flights, f.created ≤ t
  unsent  : ∀ f ∈ c.flights, f.transmissions = 0 → f.lastSent = none
  probe   : c.state.isTerminal = false → c.probePending →
    AwaitsWindow t c ∨ ∃ f, c.flights = [f] ∧ f.transmissions = 0

theorem Inv.fin_single (hi : c.Inv cfg) (hm : f ∈ c.flights) (hf : has f.flags FIN) :
    c.flights = [f] := by
  have hp := hi.phase
  cases hst : c.state <;> simp only [hst, Phase] at hp
  case synSent | synReceived =>
    obtain ⟨_, g, hg, hsyn, _⟩ := hp
    obtain rfl : f = g := by simpa [hg] using hm
    simp [hsyn.not_has_fin] at hf
  case established | closeWait => simp [(hp f hm).not_has_fin] at hf
  case finWait1 | closing | lastAck =>
    obtain ⟨_, g, hg, _⟩ := hp
    obtain rfl : f = g := by simpa [hg] using hm
    exact hg
  all_goals simp [hp.right] at hm

theorem prepareData_probe (c : Connection) (now : Duration) (cfg : TcpConfig) :
    (c.prepareData now cfg).probePending = c.probePending := by
  unfold prepareData
  dsimp only
  generalize (if c.peerWindow == 0 && c.flights.isEmpty then 1
    else min c.cwnd c.peerWindow.toNat - (c.sendNext - c.sendUna).toNat) = available
  split <;> rfl

theorem restartIdle_probe (c : Connection) (now : Duration) (cfg : TcpConfig) :
    (c.restartIdle now cfg).probePending = c.probePending := by
  unfold restartIdle
  split <;> rfl

-- With nothing left to be sent, `prepare` deals with the FIN.
theorem prepare_closing (ho : c.state.isOpen) (hn : 0 < cfg.maxInflightSegments)
    (hq : c.queued = []) (hf : c.flights = []) (hw : c.writeClosed) (now : Duration) :
    c.prepare now cfg = c.prepareFin now := by
  simp [prepare, ho, hf, hq, hw, Nat.ne_of_gt hn]

theorem prepare_unsent (hf : c.flights = [f]) (hu : f.transmissions = 0) (now : Duration)
    (cfg : TcpConfig) : c.prepare now cfg = c := by
  simp [prepare, hf, hu]

theorem prepare_probe (h : (c.prepare now cfg).probePending) :
    c.probePending ∨ AwaitsWindow now c ∧ c.peerWindow.toNat = 0 ∧
      c.prepare now cfg = { c with probePending := true } := by
  have hp : c.prepare now cfg = c.prepare now cfg := rfl
  unfold prepare at h
  conv at hp => rhs; unfold prepare
  split at h
  case isTrue => exact .inl h
  rename_i hg
  rw [if_neg hg] at hp
  split at h
  case isTrue =>
    rw [prepareData_probe, restartIdle_probe] at h
    exact .inl h
  rename_i hq
  rw [if_neg hq] at hp
  split at h
  case isFalse => exact .inl h
  rename_i hf
  rw [if_pos hf] at hp
  unfold prepareFin at h hp
  split at h
  case isTrue => exact .inl h
  rename_i hw
  rw [if_neg hw] at hp
  split at h
  case isFalse => exact .inl h
  case isTrue hat =>
    rw [if_pos hat] at hp
    simp only [Bool.or_eq_true, Bool.not_eq_true', not_or, Bool.not_eq_false] at hg
    simp only [Bool.and_eq_true, List.isEmpty_iff] at hf
    exact .inr ⟨⟨hg.left.left, hf.right, by simpa using hq, hf.left, hat⟩, by omega, hp⟩

theorem recheck_probe (h : (c.recheck i now).fst.probePending) :
    c.probePending ∨ ∃ f, c.flights[i]? = some f ∧ f.transmissions = 0 ∧ has f.flags FIN ∧
      c.peerWindow.toNat = 0 ∧ c.windowProbeAt ≤ now := by
  unfold recheck at h
  split at h
  case h_1 => exact .inl h
  case h_2 f hf =>
    split at h
    case isFalse => exact .inl h
    rename_i hu
    dsimp only at h
    generalize hn : (if c.peerWindow == 0 && c.bytesInFlight == 0 then 1
      else min c.cwnd c.peerWindow.toNat - c.bytesInFlight) = available at h
    split at h
    case isFalse =>
      refine .inl ?_
      unfold trim at h
      split at h <;> exact h
    rename_i hz
    split at h
    case isFalse => exact .inl h
    case isTrue hp =>
      simp only [Bool.and_eq_true, beq_iff_eq, decide_eq_true_eq, Bool.or_eq_true]
        at hu hz hp hn
      rw [if_pos hp.left] at hn
      refine .inr ⟨f, hf, hu.left, ?_, by simp [hp.left.left], hp.right⟩
      -- For data, a probe of one byte would have been allowed.
      exact (hz.resolve_left (by omega)).right

theorem stage_forms (c : Connection) (now : Duration) (cfg : TcpConfig) :
    ((c.prepare now cfg).flightIndex now = none ∧
      c.stage now cfg = ({ c.prepare now cfg with deviceBlocked := false }, none)) ∨
    ∃ i, (c.prepare now cfg).flightIndex now = some i ∧
      c.stage now cfg =
        ({ ((c.prepare now cfg).recheck i now).fst with deviceBlocked := false },
          ((c.prepare now cfg).recheck i now).snd) := by
  unfold stage
  dsimp only
  cases hi : (c.prepare now cfg).flightIndex now
  case none   => exact .inl ⟨rfl, rfl⟩
  case some i => exact .inr ⟨i, rfl, rfl⟩

-- What a pending probe says about a connection.
def ProbeReady (t : Duration) (c : Connection) : Prop :=
  AwaitsWindow t c ∨ ∃ f, c.flights = [f] ∧ f.transmissions = 0

theorem prepare_ready (hv : cfg.Valid) (hp : c.probePending → ProbeReady t c) (hn : now ≤ t)
    (h : (c.prepare now cfg).probePending) : ProbeReady t (c.prepare now cfg) := by
  rcases prepare_probe h with hc | ⟨ha, -, he⟩
  case inr =>
    rw [he]
    exact .inl ⟨ha.state, ha.closed, ha.queued, ha.flights, ha.probeAt.trans hn⟩
  rcases hp hc with ha | ⟨f, hf, hu⟩
  case inr =>
    rw [prepare_unsent hf hu]
    exact .inr ⟨f, hf, hu⟩
  rw [prepare_closing ha.state hv.max_inflight_pos ha.queued ha.flights ha.closed]
  unfold prepareFin
  split
  case isTrue => exact .inr ⟨_, by simp [startFlight, ha.flights]; rfl, rfl⟩
  split
  · exact .inl ⟨ha.state, ha.closed, ha.queued, ha.flights, ha.probeAt⟩
  · exact .inl ha

theorem stage_ready (hv : cfg.Valid) (hi : c.Inv cfg) (hp : c.probePending → ProbeReady t c)
    (hn : now ≤ t) (h : (c.stage now cfg).fst.probePending) :
    ProbeReady t (c.stage now cfg).fst := by
  have hpi := prepare_inv hv hi now
  have hready := prepare_ready hv hp hn
  rcases c.stage_forms now cfg with ⟨-, he⟩ | ⟨i, hx, he⟩
  case inl =>
    rw [he] at h ⊢
    exact (hready h).imp_left fun ha => ⟨ha.state, ha.closed, ha.queued, ha.flights, ha.probeAt⟩
  have ho := (c.prepare now cfg).recheck_outlive i now
  have hlt := flightIndex_lt hx
  have single {f : Flight} (hf : (c.prepare now cfg).flights = [f]) (hu : f.transmissions = 0) :
      ProbeReady t (c.stage now cfg).fst := by
    rw [hf] at ho
    have ⟨g, hg, hs⟩ := ho.singleton
    rw [he]
    exact .inr ⟨g, hg, hs.transmissions.trans hu⟩
  rw [he] at h
  rcases recheck_probe h with hc | ⟨f, hf, hu, hfin, -⟩
  case inr => exact single (hpi.fin_single (mem_of_getElem? hf) hfin) hu
  rcases hready hc with ha | ⟨f, hf, hu⟩
  · simp [ha.flights] at hlt
  · exact single hf hu

-- A flight that is yet to be sent cannot be acknowledged.
theorem input_unsent (hv : cfg.Valid) (hi : c.Inv cfg) (hf : c.flights = [f])
    (hu : f.transmissions = 0) (segment : Segment) (now : Duration)
    (ht : (c.input segment now cfg).state.isTerminal = false) :
    ∃ g, (c.input segment now cfg).flights = [g] ∧ g.transmissions = 0 := by
  have hk := (input_sender hv hi segment now).resolve_left fun h => by
    simp [h, fail, TcpState.isTerminal] at ht
  have hsent := input_sent hv hi segment now
  have hi' := input_inv hv hi segment now
  obtain ⟨m, ho⟩ := c.input_outlive segment now cfg
  have hl := ho.length
  rw [hf] at ho hl
  simp only [length_singleton] at hl
  have hne : (c.input segment now cfg).flights ≠ [] := by
    intro hn
    have heq := (hi'.window.sent_eq_next (by simp [hn])).left
    rw [hsent, hk.next] at heq
    have h0 : c.flights[0]? = some f := by simp [hf]
    exact hi.window.sent_ne_next h0 hu (hi.phase.proper f (by simp [hf])) heq
  have hpos := length_pos_of_ne_nil hne
  obtain rfl : m = 0 := by omega
  obtain ⟨g, hg, hs⟩ := ho.singleton
  exact ⟨g, hg, hs.transmissions.trans hu⟩

namespace Timed

theorem «open» (cfg : TcpConfig) (o : Opening) {t : Duration}
    (h : (Endpoint.open cfg o).conn.flights.all (·.created ≤ t)) :
    Timed t (Endpoint.open cfg o).conn := by
  refine ⟨by simpa using h, ?_, ?_⟩
  all_goals cases o <;> simp [Endpoint.open, Endpoint.open.init, active, passive, startFlight]

-- A step that keeps the flights and the pending probe.
theorem kept {c' : Connection} (h : Timed t c) (hf : c'.flights = c.flights)
    (hp : c'.state.isTerminal = false → c'.probePending → ProbeReady t c') : Timed t c' :=
  ⟨hf ▸ h.created, hf ▸ h.unsent, hp⟩

theorem fail (c : Connection) {s : TcpState} (hs : s.isTerminal) : Timed t (c.fail s) :=
  ⟨by simp [Connection.fail], by simp [Connection.fail],
    fun hn => by simp [Connection.fail, hs] at hn⟩

theorem of_outlive {c' : Connection} {m : Nat} (h : Timed t c) (ho : Outlive m c.flights c'.flights)
    (hp : c'.state.isTerminal = false → c'.probePending → ProbeReady t c') : Timed t c' where
  created f hf := by
    have ⟨g, hg, hs⟩ := ho.mem hf
    exact hs.created ▸ h.created g hg
  unsent f hf hu := by
    have ⟨g, hg, hs⟩ := ho.mem hf
    have hn := h.unsent g hg (hs.transmissions ▸ hu)
    rcases hs.lastSent with hl | hl | ⟨hl, -⟩
    · exact hl.trans hn
    · exact hl
    · simp [hn] at hl
  probe := hp

theorem input (h : Timed t c) (hv : cfg.Valid) (hi : c.Inv cfg) (segment : Segment)
    (now : Duration) : Timed t (c.input segment now cfg) := by
  obtain ⟨m, ho⟩ := c.input_outlive segment now cfg
  refine h.of_outlive ho fun ht hp => ?_
  have hprobe := c.input_probing segment now cfg
  simp only [probing, Prod.mk.injEq] at hprobe
  have ht₀ : c.state.isTerminal = false := by
    by_contra hn
    rw [Connection.input, if_pos (by simpa using hn)] at ht
    exact hn ht
  rcases h.probe ht₀ (hprobe.left ▸ hp) with ha | ⟨f, hf, hu⟩
  case inr => exact .inr (input_unsent hv hi hf hu segment now ht)
  have hk := (input_sender hv hi segment now).resolve_left fun h => by
    simp [h, Connection.fail, TcpState.isTerminal] at ht
  obtain ⟨hh, hq, _⟩ := TcpState.isOpen_iff.mp ha.state
  have hl := ho.length
  rw [ha.flights, length_nil] at hl
  refine .inl ⟨TcpState.isOpen_iff.mpr ⟨?_, hk.fin.trans hq, ?_⟩, hk.closed.trans ha.closed,
    hk.queued.trans ha.queued, eq_nil_of_length_eq_zero (by omega),
    hprobe.right ▸ ha.probeAt⟩
  · by_contra hn
    simp [hk.open_ (by simpa using hn)] at hh
  · by_contra hn
    simp [TcpState.isTerminal_of_isFailure (by simpa using hn)] at ht

theorem stage (h : Timed t c) (hv : cfg.Valid) (hi : c.Inv cfg) (ht : c.state.isTerminal = false)
    (hn : now ≤ t) : Timed t (c.stage now cfg).fst := by
  have hp (_ : (c.stage now cfg).fst.state.isTerminal = false) :=
    stage_ready hv hi (h.probe ht) hn
  rcases c.stage_flights now cfg with ho | ⟨f, hf, ho⟩
  case inl => exact h.of_outlive ho hp
  have h' : Timed t { c with flights := c.flights ++ [f], probePending := false } := {
    created := by
      simp only [mem_append, mem_singleton]
      rintro g (hg | rfl)
      · exact h.created g hg
      · exact hf.created ▸ hn
    unsent := by
      simp only [mem_append, mem_singleton]
      rintro g (hg | rfl)
      · exact h.unsent g hg
      · exact fun _ => hf.lastSent
    probe := nofun
  }
  exact h'.of_outlive ho hp

theorem record (h : Timed t c) {index : Option Nat} (hx : c.Indexed index) (now : Duration)
    (cfg : TcpConfig) : Timed t (c.record index now cfg).fst := by
  have hp : (c.record index now cfg).fst.probePending = false := by
    cases index
    case none   => rw [record_none]; rfl
    case some i => rw [record_some]; rfl
  suffices hf : ∀ f ∈ (c.record index now cfg).fst.flights,
      f.created ≤ t ∧ (f.transmissions = 0 → f.lastSent = none) by
    exact ⟨fun f hm => (hf f hm).left, fun f hm => (hf f hm).right, by simp [hp]⟩
  have old {f : Flight} (hm : f ∈ c.flights) :
      f.created ≤ t ∧ (f.transmissions = 0 → f.lastSent = none) :=
    ⟨h.created f hm, h.unsent f hm⟩
  cases index
  case none =>
    rw [record_none]
    exact fun f => old
  case some i =>
    obtain ⟨f, hf⟩ := hx i rfl
    have hm := mem_of_getElem? hf
    intro g hg
    rw [record_flights] at hg
    by_cases hu : f.transmissions = 0
    case pos =>
      rw [recordFlight_flights_first hf hu] at hg
      rcases mem_or_eq_of_mem_set hg with hg | rfl
      · exact old hg
      · exact ⟨h.created f hm, by simp [firstSent]⟩
    case neg =>
      rw [recordFlight_flights_again hf hu] at hg
      rcases mem_or_eq_of_mem_set hg with hg | rfl
      · obtain ⟨e, he, hge⟩ := mem_map.mp hg
        subst hge
        exact ⟨h.created e he, h.unsent e he⟩
      · refine ⟨h.created f hm, fun hz => ?_⟩
        simp only [sentAgain, saturatingAdd] at hz
        omega

theorem transmitted (h : Timed t c) (hv : cfg.Valid) (hi : c.Inv cfg) (hn : now ≤ t)
    (outcome : Submission) : Timed t (c.transmitted now cfg outcome).fst := by
  cases ht : c.state.isTerminal
  case true =>
    rw [Connection.transmitted, if_pos ht]
    exact h
  case false =>
    have hs := h.stage hv hi ht hn
    rcases transmitted_forms ht now cfg outcome with ⟨-, b, he⟩ | ⟨-, -, he⟩ <;> rw [he]
    · exact hs.kept rfl fun ht hp => (hs.probe ht hp).imp_left fun ha =>
        ⟨ha.state, ha.closed, ha.queued, ha.flights, ha.probeAt⟩
    · exact hs.record (stage_indexed hv hi now) now cfg

theorem call (h : Timed t c) {e : Endpoint} (he : e.conn = c) (hv : cfg.Valid) (hi : c.Inv cfg)
    (call : Call) (hn : ∀ now outcome, call = .transmit now outcome → now ≤ t) :
    Timed t (e.call cfg call).conn := by
  subst he
  cases call
  case write bytes =>
    simp only [Endpoint.call, Endpoint.write]
    rcases e.conn.write_cases bytes cfg with ⟨err, hw⟩ | hw | ⟨n, -, hc, -, hw⟩ <;> simp only [hw]
    case inl | inr.inl => exact h
    case inr.inr =>
      refine h.kept rfl fun ht hp => (h.probe ht hp).imp_left fun ha => ?_
      simp [ha.closed] at hc
  case read size =>
    simp only [Endpoint.call, Endpoint.read]
    rcases e.conn.read_cases size with ⟨err, hr⟩ | ⟨hr, -⟩ | ⟨n, hr, -, -⟩ <;> simp only [hr]
    case inl | inr.inl => exact h
    case inr.inr =>
      exact h.kept rfl fun ht hp => (h.probe ht hp).imp_left fun ha =>
        ⟨ha.state, ha.closed, ha.queued, ha.flights, ha.probeAt⟩
  case close now =>
    simp only [Endpoint.call, Endpoint.close]
    rcases e.conn.close_cases now cfg with ⟨-, hc⟩ | ⟨err, hc⟩ | ⟨-, d, hc⟩ <;> simp only [hc]
    case inl | inr.inl => exact h
    case inr.inr =>
      exact h.kept rfl fun ht hp => (h.probe ht hp).imp_left fun ha =>
        ⟨ha.state, rfl, ha.queued, ha.flights, ha.probeAt⟩
  case tick now =>
    show Timed t (e.conn.tick now cfg)
    rcases e.conn.tick_cases now cfg with ht | ⟨-, ht⟩ | ⟨-, ht⟩ <;> rw [ht]
    · exact h
    · exact h.kept rfl nofun
    · exact .fail _ rfl
  case transmit now outcome =>
    have ht := h.transmitted hv hi (hn now outcome rfl) outcome
    simp only [Endpoint.call, Endpoint.transmit]
    split <;> exact ht

end Timed

end Connection

def Opening.time : Opening → Duration
  | active _ _ _ now => now
  | passive _ _ now  => now

-- The time at which an operation happens, if it depends on the time.
def Op.time : Op → Option Duration
  | call (.close now) | call (.tick now) | call (.transmit now _) | input _ now => some now
  | _                                                                           => none

namespace Endpoint

open Connection (Timed)

variable {cfg : TcpConfig} {t : Duration}

theorem step_timed {e : Endpoint} (h : Timed t e.conn) (hv : cfg.Valid) (hi : e.conn.Inv cfg)
    (op : Op) (hn : ∀ now ∈ op.time, now ≤ t) : Timed t (e.step cfg op).conn := by
  cases op
  case call call =>
    refine h.call rfl hv hi call fun now outcome he => hn now ?_
    rw [he]
    rfl
  case input segment now =>
    have hin := h.input hv hi segment now
    simp only [step, Endpoint.input]
    split <;> exact hin
  case fail state => exact .fail _ (TcpState.isTerminal_of_isFailure state.property)

theorem run_timed (hv : cfg.Valid) (o : Opening) (ops : List Op) (ho : o.time ≤ t)
    (hn : ∀ op ∈ ops, ∀ now ∈ op.time, now ≤ t) : Timed t (run cfg o ops).conn := by
  have hopen : Timed t (Endpoint.open cfg o).conn := by
    apply Timed.open
    cases o <;> simpa [Endpoint.open, Endpoint.open.init, Connection.active, Connection.passive,
      Connection.startFlight, Opening.time] using ho
  have hstep (e : Endpoint) (op : Op) (hq : ∀ now ∈ op.time, now ≤ t)
      (h : Sender cfg e ∧ Timed t e.conn) :
      Sender cfg (e.step cfg op) ∧ Timed t (e.step cfg op).conn :=
    ⟨h.left.step hv op, step_timed h.right hv h.left.inv op hq⟩
  exact (Transition.exec_induction_of ⟨Sender.open hv o, hopen⟩ hstep hn).right

end Endpoint
