import AsyncNetStack.Tcp.Pool
import AsyncNetStack.Tcp.Theorems.Runs
import AsyncNetStack.Tcp.Theorems.Timers

open Serial Tcp List Option

namespace Connection

variable {cfg : TcpConfig} {c : Connection} {t now : Duration} {f : Flight} {i : Nat}

-- The least of some deadlines is before `t` if any of them is.
theorem lt_of_lt_min {l : List Duration} (h : ∀ d ∈ l.min?, t < d) : ∀ x ∈ l, t < x := by
  intro x hx
  have ⟨d, hd⟩ := isSome_iff_exists.mp (isSome_min?_of_mem hx)
  exact lt_of_lt_of_le (h d hd) ((List.min?_eq_some_iff.mp hd).right x hx)

-- No timer of a connection has run out at `t`.
structure Early (cfg : TcpConfig) (t : Duration) (c : Connection) : Prop where
  phase : passed c.phaseDeadline t = false
  close : passed c.closeDeadline t = false
  head  : ∀ f ∈ c.flights.head?, (∃ s, f.lastSent = some s ∧ t < s.saturatingAdd f.rto) ∧
    t < f.created.saturatingAdd cfg.sendTimeout
  probe : c.writeClosed → c.peerWindow.toNat = 0 → c.flights = [] → c.state.isOpen →
    t < c.windowProbeAt

theorem Timed.early (h : Timed t c) (ht : c.state.isTerminal = false)
    (hd : ∀ d ∈ c.nextDeadline cfg, t < d) : Early cfg t c := by
  rw [nextDeadline, if_neg (by simp [ht])] at hd
  have hall := lt_of_lt_min hd
  simp only [reduceOption_mem_iff, mem_cons, not_mem_nil, or_false] at hall
  have passed_false {d : Option Duration} (hlt : ∀ x, some x = d → t < x) : passed d t = false := by
    cases d
    case none   => rfl
    case some d => simpa [passed] using hlt d rfl
  refine ⟨passed_false fun x hx => hall x (.inl hx),
    passed_false fun x hx => hall x (.inr (.inl hx)), fun f hf => ?_, fun hw hp hf ho => ?_⟩
  case refine_1 =>
    have hlt := hall _ (.inr (.inr (.inl (by rw [mem_def.mp hf]; rfl))))
    rw [lt_min_iff] at hlt
    refine ⟨?_, hlt.right⟩
    cases hs : f.lastSent
    case some s => exact ⟨s, rfl, by simpa [hs] using hlt.left⟩
    case none =>
      -- The deadline of a flight that is not under way is the time at which it was started.
      have hc := h.created f (mem_of_mem_head? hf)
      rw [hs] at hlt
      exact absurd hlt.left (not_lt.mpr hc)
  case refine_2 =>
    have hp : c.peerWindow = 0 := BitVec.eq_of_toNat_eq hp
    refine hall _ (.inr (.inr (.inr ?_)))
    simp [hw, hp, hf, ho]

namespace Early

theorem not_due (h : Early cfg t c) (hf : f ∈ c.flights.head?) : f.due t = false := by
  have ⟨⟨s, hs, hlt⟩, _⟩ := h.head f hf
  simpa [Flight.due, hs] using hlt

theorem sent (h : Early cfg t c) (ht : Timed t c) (hf : f ∈ c.flights.head?) :
    f.transmissions ≠ 0 := by
  have ⟨⟨s, hs, _⟩, _⟩ := h.head f hf
  intro hu
  simp [ht.unsent f (mem_of_mem_head? hf) hu] at hs

theorem tick (h : Early cfg t c) : c.tick t cfg = c := by
  have hx : c.expired t cfg = false := by
    simp only [expired, h.phase, h.close, Bool.false_or]
    cases hf : c.flights.head?
    case none => rfl
    case some f =>
      have ⟨_, hlt⟩ := h.head f hf
      simp [h.not_due hf, hlt]
  unfold Connection.tick
  split_ifs
  case _ => rfl
  case _ hp => simp [h.phase] at hp
  case _ => rfl
  case _ hx' => simp [hx] at hx'
  case _ => rfl

end Early

theorem prepare_head (hf : c.flights ≠ []) (now : Duration) (cfg : TcpConfig) :
    (c.prepare now cfg).flights.head? = c.flights.head? := by
  rcases c.prepare_flights now cfg with h | ⟨f, -, h⟩ <;> rw [h]
  exact List.head?_append_of_ne_nil _ hf

-- The FIN that is started by `prepare` meets an open window.
theorem prepareFin_stage (hv : cfg.Valid) (hi : c.Inv cfg) (ha : AwaitsWindow t c)
    (hw : 0 < c.peerWindow.toNat) (now : Duration) : (c.stage now cfg).snd ≠ none := by
  have hprep := prepare_closing ha.state hv.max_inflight_pos ha.queued ha.flights ha.closed now
  rw [prepareFin, if_pos hw] at hprep
  have hsent : c.sendSent = c.sendUna := by
    have hn := hi.window.sent_eq_next (by simp [ha.flights])
    have hc := hn.right.left
    rw [ha.flights] at hc
    exact hc.symm
  have hzero : (c.prepare now cfg).bytesInFlight = 0 := by
    rw [hprep]
    show (c.sendSent - c.sendUna).toNat = 0
    simp [hsent]
  have hcwnd : 1 ≤ c.cwnd := hi.limits.cwnd_pos
  have hwin : (c.prepare now cfg).peerWindow = c.peerWindow := by
    rw [hprep]
    rfl
  have hcw : (c.prepare now cfg).cwnd = c.cwnd := by
    rw [hprep]
    rfl
  have hne : (c.peerWindow == 0) = false := by
    rw [beq_eq_false_iff_ne]
    intro h
    simp [h] at hw
  rcases c.stage_forms now cfg with ⟨hx, -⟩ | ⟨i, hx, he⟩
  case inl =>
    rw [hprep] at hx
    simp [flightIndex, startFlight, ha.flights, Flight.due] at hx
  obtain rfl : i = 0 := by
    have hlt := flightIndex_lt hx
    rw [hprep] at hlt
    simpa [startFlight, ha.flights] using hlt
  rw [he]
  unfold recheck
  split
  case h_1 => simp
  split
  case isFalse => simp
  dsimp only
  rw [hzero, hwin, hcw, hne]
  simp only [Bool.false_and, Bool.false_eq_true, if_false, Bool.or_false, Nat.sub_zero]
  rw [if_neg (by simp; omega)]
  simp

theorem prepare_fin_window (hf : c.flights = []) (now : Duration) (cfg : TcpConfig)
    (hm : f ∈ (c.prepare now cfg).flights) (hfin : has f.flags FIN) :
    0 < (c.prepare now cfg).peerWindow.toNat := by
  revert hm
  unfold prepare
  split
  case isTrue => simp [hf]
  split
  case isTrue =>
    have hd := restartIdle_flights c now cfg
    unfold prepareData
    dsimp only
    generalize (if (c.restartIdle now cfg).peerWindow == 0 &&
      (c.restartIdle now cfg).flights.isEmpty then 1 else _) = available
    split
    case isTrue => simp [hd, hf]
    -- A flight with data has no FIN.
    intro hm
    simp only [startFlight, hd, hf, nil_append, mem_singleton] at hm
    rw [hm] at hfin
    exact absurd hfin (show ¬has (ACK ||| PSH) FIN by decide)
  split
  case isFalse => simp [hf]
  unfold prepareFin
  split
  case isTrue hw => exact fun _ => hw
  case isFalse =>
    split <;> simp [hf]

theorem recheck_index {j : Nat} (h : (c.recheck j now).snd = some i) : i = j := by
  unfold recheck at h
  split at h
  case h_1 => exact (Option.some.inj h).symm
  split at h
  case isFalse => exact (Option.some.inj h).symm
  dsimp only at h
  generalize (if c.peerWindow == 0 && c.bytesInFlight == 0 then 1
    else min c.cwnd c.peerWindow.toNat - c.bytesInFlight) = available at h
  split at h
  case isTrue => split at h <;> simp at h
  case isFalse => exact (Option.some.inj h).symm

-- Before the next deadline, no probe is due.
theorem Early.stage_probe (h : Early cfg t c) (hT : Timed t c) (hv : cfg.Valid) (hi : c.Inv cfg)
    (ht : c.state.isTerminal = false) (hnone : (c.stage t cfg).snd = none) :
    (c.stage t cfg).fst.probePending = false := by
  -- A closed window is probed at a deadline, and otherwise the FIN is sent.
  have waits (ha : AwaitsWindow t c) : False := by
    by_cases hw : c.peerWindow.toNat = 0
    case pos => exact absurd (h.probe ha.closed hw ha.flights ha.state) (not_lt.mpr ha.probeAt)
    case neg => exact prepareFin_stage hv hi ha (Nat.pos_of_ne_zero hw) t hnone
  have hc : c.probePending = false := by
    by_contra hp
    rcases hT.probe ht (by simpa using hp) with ha | ⟨f, hf, hu⟩
    · exact waits ha
    · exact h.sent hT (by simp [hf]) hu
  have hprep : (c.prepare t cfg).probePending = false := by
    by_contra hp
    rcases prepare_probe (by simpa using hp) with hc' | ⟨ha, -⟩
    · simp [hc] at hc'
    · exact waits ha
  by_contra hp
  rcases c.stage_forms t cfg with ⟨-, he⟩ | ⟨i, hx, he⟩
  case inl => simp [he, hprep] at hp
  rw [he] at hp
  rcases recheck_probe (by simpa using hp) with hc' | ⟨f, hf, hu, hfin, hw, -⟩
  case inl => simp [hprep] at hc'
  have hm := mem_of_getElem? hf
  by_cases hnil : c.flights = []
  case pos => exact absurd (prepare_fin_window hnil t cfg hm hfin) (by omega)
  case neg =>
    have hsingle := (prepare_inv hv hi t).fin_single hm hfin
    have hhead := prepare_head hnil t cfg
    rw [hsingle] at hhead
    exact h.sent hT hhead.symm hu

-- Before the next deadline, no flight is sent again.
theorem Early.stage_flight (h : Early cfg t c) (hx : (c.stage t cfg).snd = some i)
    (hf : (c.stage t cfg).fst.flights[i]? = some f) : f.transmissions = 0 := by
  rcases c.stage_forms t cfg with ⟨-, he⟩ | ⟨j, hj, he⟩ <;> rw [he] at hx hf
  case inl => simp at hx
  obtain rfl := recheck_index hx
  have ⟨g, hg, hs⟩ := ((c.prepare t cfg).recheck_outlive i t).origin hf
  rw [Nat.zero_add] at hg
  rw [hs.transmissions]
  unfold flightIndex at hj
  split at hj
  case isTrue hdue =>
    obtain rfl := Option.some.inj hj
    have hg' : (c.prepare t cfg).flights.head? = some g := by rwa [List.head?_eq_getElem?]
    by_cases hnil : c.flights = []
    case neg =>
      rw [prepare_head hnil] at hg'
      rw [prepare_head hnil, hg', any_some, h.not_due hg'] at hdue
      simp at hdue
    case pos =>
      rcases c.prepare_flights t cfg with hp | ⟨f', hfresh, hp⟩ <;> rw [hp, hnil] at hg'
      · simp at hg'
      · obtain rfl : f' = g := by simpa using hg'
        exact hfresh.transmissions
  case isFalse =>
    split at hj
    case isFalse => simp at hj
    case isTrue hl =>
      obtain rfl := Option.some.inj hj
      rw [← List.getLast?_eq_getElem?] at hg
      simpa [hg] using hl

-- What a call of `transmit` submits has not been submitted before, and is no probe of a closed
-- window.
structure SubmitsNew (cfg : TcpConfig) (c : Connection) (now : Duration) : Prop where
  flight : ∀ i ∈ (c.stage now cfg).snd, ∀ f ∈ (c.stage now cfg).fst.flights[i]?, f.transmissions = 0
  number : ∀ g ∈ c.emission now cfg, g.sequence = c.sendSent
  result : ∀ outcome, (c.transmitted now cfg outcome).snd ≠ .ok (true, true)

theorem Early.submitsNew (h : Early cfg t c) (hT : Timed t c) (hv : cfg.Valid) (hi : c.Inv cfg)
    (ht : c.state.isTerminal = false) : SubmitsNew cfg c t where
  flight i hx f hf := h.stage_flight hx hf
  number g hg := by
    have hsent : (c.stage t cfg).fst.sendSent = c.sendSent := by
      rw [(stage_effect hv hi t).frame]
      rfl
    rw [(transmitted_accepted hg).left]
    cases hx : (c.stage t cfg).snd
    case none =>
      rw [← hsent]
      simp [outgoing, h.stage_probe hT hv hi ht hx]
    case some i =>
      obtain ⟨f, hf⟩ := stage_indexed hv hi t i hx
      obtain ⟨_, _, _, _, _, hseq, _⟩ :=
        (stage_inv hv hi t).window.unsent_last hf (h.stage_flight hx hf)
      rw [← hsent, ← hseq]
      simp [outgoing, hf]
  result outcome hr := by
    unfold transmitted at hr
    rw [if_neg (by simp [ht])] at hr
    dsimp only at hr
    split at hr
    case isTrue => simp at hr
    cases outcome
    case blocked | failed => simp at hr
    case accepted =>
      cases hx : (c.stage t cfg).snd
      case none => simp [hx, record] at hr
      case some i =>
        obtain ⟨f, hf⟩ := stage_indexed hv hi t i hx
        simp [hx, record, recordFlight, hf, h.stage_flight hx hf] at hr

theorem prepareData_starts (hv : cfg.Valid) (hc : c.Core cfg) (hf : c.flights = [])
    (hq : c.queued ≠ []) (now : Duration) : (c.prepareData now cfg).flights ≠ [] := by
  have hpos := length_pos_of_ne_nil hq
  have hmss := c.sendMss_pos hv
  have hcwnd := hc.limits.cwnd_pos
  have hres := reserved_eq hc
  rw [hf, sizes_nil] at hres
  unfold prepareData
  dsimp only
  generalize ha : (if c.peerWindow == 0 && c.flights.isEmpty then 1
    else min c.cwnd c.peerWindow.toNat - (c.sendNext - c.sendUna).toNat) = available
  have ha : 0 < available := by
    rw [← ha, hres]
    split
    case isTrue => exact Nat.one_pos
    case isFalse hw =>
      have hw : c.peerWindow.toNat ≠ 0 := by
        intro h
        have hz : c.peerWindow = 0 := BitVec.eq_of_toNat_eq h
        simp [hf, hz] at hw
      omega
  rw [if_neg (by omega)]
  simp [startFlight]

-- Bytes are queued only behind others that are under way.
theorem stage_starts (hv : cfg.Valid) (hi : c.Inv cfg) (now : Duration)
    (hq : (c.stage now cfg).fst.queued ≠ []) : (c.stage now cfg).fst.flights ≠ [] := by
  rcases c.stage_forms now cfg with ⟨-, he⟩ | ⟨i, hx, he⟩
  case inr =>
    have hlt := flightIndex_lt hx
    rw [he]
    intro hn
    have hnil := ((c.prepare now cfg).recheck_outlive i now).nil_iff.mp hn
    simp [hnil] at hlt
  rw [he] at hq ⊢
  intro hn
  replace hn : (c.prepare now cfg).flights = [] := hn
  replace hq : (c.prepare now cfg).queued ≠ [] := hq
  have hf : c.flights = [] := by
    rcases c.prepare_flights now cfg with hp | ⟨f, -, hp⟩
    · rwa [← hp]
    · simp [hp] at hn
  have hstream := (prepare_effect hv hi.toCore now).stream
  simp only [outstanding, hn, hf, flatMap_nil, nil_append] at hstream
  rw [hstream] at hq
  have ho : c.state.isOpen := by
    have hp := hi.phase
    cases hst : c.state <;> simp_all [Phase, TcpState.isOpen]
  have hr := restartIdle_retimed hv c now
  have hprep : c.prepare now cfg = (c.restartIdle now cfg).prepareData now cfg := by
    simp [prepare, ho, hf, hq, Nat.ne_of_gt hv.max_inflight_pos]
  rw [hprep] at hn
  have hq' : (c.restartIdle now cfg).queued = c.queued := by
    rw [hr.frame]
    rfl
  exact prepareData_starts hv (hr.core hi.toCore) ((restartIdle_flights c now cfg).trans hf)
    (hq' ▸ hq) now hn

theorem record_nil {index : Option Nat} (hx : c.Indexed index) (now : Duration) (cfg : TcpConfig)
    (h : (c.record index now cfg).fst.flights = []) : c.flights = [] := by
  cases index
  case none => rwa [record_none] at h
  case some i =>
    have ⟨f, hf⟩ := hx i rfl
    rw [record_flights] at h
    by_cases hu : f.transmissions = 0
    · simpa [recordFlight_flights_first hf hu] using h
    · simpa [recordFlight_flights_again hf hu] using h

theorem transmitted_starts (hv : cfg.Valid) (hi : c.Inv cfg) (ht : c.state.isTerminal = false)
    (now : Duration) (outcome : Submission) (hq : (c.transmitted now cfg outcome).fst.queued ≠ []) :
    (c.transmitted now cfg outcome).fst.flights ≠ [] := by
  have hs := stage_starts hv hi now
  rcases transmitted_forms ht now cfg outcome with ⟨-, b, he⟩ | ⟨-, -, he⟩ <;> rw [he] at hq ⊢
  case inl => exact hs hq
  have hx := stage_indexed hv hi now
  have hr := record_effect hv (stage_inv hv hi now) hx now
  rw [hr.frame] at hq
  exact fun hn => hs hq (record_nil hx now cfg hn)

theorem transmitted_terminal (hv : cfg.Valid) (hi : c.Inv cfg) (ht : c.state.isTerminal = false)
    (now : Duration) (outcome : Submission) :
    (c.transmitted now cfg outcome).fst.state.isTerminal = false := by
  have hs : (c.stage now cfg).fst.state.isTerminal = false := by
    rcases (stage_effect hv hi now).state with h | ⟨-, ⟨-, h⟩ | ⟨-, h⟩⟩ <;> rw [h]
    · exact ht
    all_goals rfl
  rcases transmitted_forms ht now cfg outcome with ⟨-, b, he⟩ | ⟨-, -, he⟩ <;> rw [he]
  case inl => exact hs
  rw [(record_effect hv (stage_inv hv hi now) (stage_indexed hv hi now) now).frame]
  exact hs

-- There are bytes to be sent or to be acknowledged, or the FIN is not acknowledged yet.
def Unfinished (c : Connection) : Prop :=
  c.queued ≠ [] ∨ c.flights ≠ [] ∨ c.writeClosed ∧ c.state.controlAcked < 2

theorem nextDeadline_isSome (hi : c.Inv cfg) (ht : c.state.isTerminal = false)
    (h : c.flights ≠ [] ∨ c.writeClosed ∧ c.state.controlAcked < 2) :
    (c.nextDeadline cfg).isSome := by
  rw [nextDeadline, if_neg (by simp [ht])]
  dsimp only
  rcases h with hf | ⟨hw, hs⟩
  case inl =>
    obtain ⟨f, hf⟩ := isSome_iff_exists.mp (isSome_head?.mpr hf)
    rw [hf]
    exact isSome_min?_of_mem
      (reduceOption_mem_iff.mpr (.tail _ (.tail _ (mem_cons_self ..))))
  have hd := hi.closing.close_deadline
  have ho : c.state.isOver = false := by
    cases hst : c.state <;>
      simp_all [TcpState.isOver, TcpState.isTerminal, TcpState.controlAcked]
  rw [hw, ho] at hd
  obtain ⟨d, hd⟩ := isSome_iff_exists.mp hd
  rw [hd]
  exact isSome_min?_of_mem (reduceOption_mem_iff.mpr (.tail _ (mem_cons_self ..)))

theorem transmitted_deadline (hv : cfg.Valid) (hi : c.Inv cfg) (ht : c.state.isTerminal = false)
    (now : Duration) (outcome : Submission)
    (h : (c.transmitted now cfg outcome).fst.Unfinished) :
    ((c.transmitted now cfg outcome).fst.nextDeadline cfg).isSome := by
  apply nextDeadline_isSome (transmitted_inv hv hi now outcome)
    (transmitted_terminal hv hi ht now outcome)
  rcases h with hq | h
  · exact .inl (transmitted_starts hv hi ht now outcome hq)
  · exact h

end Connection

-- The deadline of a pool is not later than that of any of its connections.
theorem TcpPool.nextDeadline_le {δ : Type} {p : TcpPool δ} {c : Connection} {d : Duration}
    (hc : c ∈ p.connections.values) (hd : d ∈ c.nextDeadline p.config) :
    ∃ d' ∈ p.nextDeadline, d' ≤ d := by
  have hm : d ∈ p.connections.values.filterMap (·.nextDeadline p.config) :=
    mem_filterMap.mpr ⟨c, hc, hd⟩
  have ⟨d', hd'⟩ := isSome_iff_exists.mp (isSome_min?_of_mem hm)
  exact ⟨d', hd', (List.min?_eq_some_iff.mp hd').right d hm⟩

namespace Endpoint

open Connection (Timed)

variable {cfg : TcpConfig} {t : Duration}

theorem deadlines_complete (h : cfg.rejected = false) (o : Opening) (ops : List Op)
    (ho : o.time ≤ t) (hops : ∀ op ∈ ops, ∀ now ∈ op.time, now ≤ t) {c : Connection}
    (hc : (run cfg o ops).conn = c) (ht : c.state.isTerminal = false) :
    ((∀ d ∈ c.nextDeadline cfg, t < d) → c.tick t cfg = c ∧ c.SubmitsNew cfg t) ∧
    (∀ now outcome r, (c.transmitted now cfg outcome).snd = .ok r →
      (c.transmitted now cfg outcome).fst.Unfinished →
      ((c.transmitted now cfg outcome).fst.nextDeadline cfg).isSome) ∧
    (∀ (δ : Type) (p : TcpPool δ), p.config = cfg → c ∈ p.connections.values →
      ∀ d ∈ c.nextDeadline cfg, ∃ d' ∈ p.nextDeadline, d' ≤ d) := by
  have hv := TcpConfig.Valid.of_not_rejected h
  have hT : Timed t c := hc ▸ run_timed hv o ops ho hops
  have hi : c.Inv cfg := hc ▸ (Sender.run hv o ops).inv
  refine ⟨fun hd => ?_, fun now outcome r _ hu => ?_, fun δ p hp hm d hd => ?_⟩
  · have he := hT.early ht hd
    exact ⟨he.tick, he.submitsNew hT hv hi ht⟩
  · exact Connection.transmitted_deadline hv hi ht now outcome hu
  · subst hp
    exact TcpPool.nextDeadline_le hm hd

theorem deadlines_complete_threeBytes :
    let c := (run .default client (threeBytes ++ [.call (.transmit .zero .accepted)])).conn
    c.nextDeadline .default = some (.fromSecs 1) ∧ c.SubmitsNew .default .zero := by
  have h := deadlines_complete (t := .zero) TcpConfig.default_not_rejected client
    (threeBytes ++ [.call (.transmit .zero .accepted)]) (by decide) (by decide) rfl (by decide)
  exact ⟨by decide, (h.left (by decide)).right⟩

end Endpoint
