import AsyncNetStack.Tcp.Theorems.Stage

open Serial Tcp List

namespace Connection

variable {cfg : TcpConfig} {c c' : Connection} {now : Duration} {f : Flight} {i : Nat}

theorem retransmit_flights (c : Connection) (f : Flight) (now : Duration) (cfg : TcpConfig) :
    (c.retransmit f now cfg).flights = c.flights.map ({ · with rttEligible := false }) := by
  unfold retransmit
  dsimp only
  split <;> rfl

theorem retransmit_rto (c : Connection) (f : Flight) (now : Duration) (cfg : TcpConfig) :
    (c.retransmit f now cfg).rto = min (f.rto.saturatingMul 2) cfg.maxRto := by
  unfold retransmit
  dsimp only
  split <;> rfl

theorem retransmit_retimed (hv : cfg.Valid) (hf : f ∈ c.flights) (now : Duration) :
    Retimed cfg c (c.retransmit f now cfg) where
  frame := by
    unfold retransmit
    dsimp only
    split <;> rfl
  flights := by
    rw [retransmit_flights]
    exact .map fun _ => rfl
  limits h := by
    rw [retransmit_flights, retransmit_rto]
    have hr := hv.rtoRange_double (h.flights f hf)
    have hfl : ∀ g ∈ c.flights.map ({ · with rttEligible := false }), cfg.RtoRange g.rto := by
      intro g hg
      obtain ⟨e, he, rfl⟩ := mem_map.mp hg
      exact h.flights e he
    unfold retransmit
    dsimp only
    split
    · exact ⟨Nat.le_min.mpr ⟨c.sendMss_pos hv, hv.max_cwnd_pos⟩, Nat.min_le_right .., hr, hfl⟩
    · exact { h with rto := hr, flights := hfl }

-- The flight as it is recorded when it was sent for the first time.
def firstSent (f : Flight) (now : Duration) : Flight :=
  { f with transmissions := 1, lastSent := some now }

theorem recordFlight_first (hc : c.Core cfg) (hp : f.Proper) (hf : c.flights[i]? = some f)
    (hu : f.transmissions = 0) (now : Duration) :
    (c.recordFlight i now cfg).fst = {
      c with
      flights      := c.flights.set i (firstSent f now)
      sendSent     := c.sendNext
      lastDataSent := if f.payload.isEmpty then c.lastDataSent else some now
    } := by
  obtain ⟨fs, hfl, -, -, -, hq, he⟩ := hc.window.unsent_last hf hu
  have hs := hc.window.span
  have hpos := hp.size_pos
  have hb : before c.sendSent f.end = true := by
    rw [← hq, f.end_eq]
    simp only [hfl, sizes_append, sizes_cons] at hs
    exact (before_front (by omega)).mpr (by omega)
  have hend : (firstSent f now).end = f.end := rfl
  have h1 : saturatingAdd 32 0 1 = 1 := by decide
  simp only [recordFlight, hf, hu, h1, gt_iff_lt, Nat.lt_irrefl, decide_false, if_false]
  simp only [firstSent] at hend ⊢
  rw [hend, hb, if_pos rfl, he]

-- The flight as it is recorded when it was sent again.
def sentAgain (f : Flight) (rto now : Duration) : Flight :=
  { f with
    rto           := rto
    rttEligible   := false
    transmissions := saturatingAdd 32 f.transmissions 1
    lastSent      := some now }

theorem shape_sentAgain (hs : f.transmissions ≠ 0) (rto now : Duration) :
    (sentAgain f rto now).shape = f.shape := by
  rw [Flight.shape_eq_iff]
  refine ⟨rfl, rfl, rfl, ?_⟩
  simp only [sentAgain, saturatingAdd]
  omega

theorem recordFlight_again (hv : cfg.Valid) (hc : c.Core cfg) (hf : c.flights[i]? = some f)
    (hs : f.transmissions ≠ 0) (now : Duration) :
    Retimed cfg c (c.recordFlight i now cfg).fst := by
  have hm := mem_of_getElem? hf
  have hr := retransmit_retimed hv hm now
  have hb : before (c.retransmit f now cfg).sendSent f.end = false := by
    rw [hr.frame]
    exact hc.window.end_not_after_sent hm hs
  have he : (c.recordFlight i now cfg).fst = {
      c.retransmit f now cfg with
      flights      := (c.retransmit f now cfg).flights.set i
        (sentAgain f (c.retransmit f now cfg).rto now)
      lastDataSent :=
        if f.payload.isEmpty then (c.retransmit f now cfg).lastDataSent else some now } := by
    have hend : (sentAgain f (c.retransmit f now cfg).rto now).end = f.end := rfl
    simp only [recordFlight, hf, gt_iff_lt, Nat.pos_of_ne_zero hs, decide_true, if_true]
    simp only [sentAgain] at hend ⊢
    rw [hend, hb, if_neg Bool.false_ne_true]
  have hf' : (c.retransmit f now cfg).flights[i]? = some { f with rttEligible := false } := by
    rw [retransmit_flights, List.getElem?_map, hf]
    rfl
  refine hr.trans ?_
  rw [he]
  refine ⟨rfl, .set hf' (shape_sentAgain hs ..), fun h => { h with flights := ?_ }⟩
  intro g hg
  rcases mem_or_eq_of_mem_set hg with hg | rfl
  · exact h.flights g hg
  · exact h.rto

theorem recordFlight_inv (hv : cfg.Valid) (hi : c.Inv cfg) (hf : c.flights[i]? = some f)
    (now : Duration) : (c.recordFlight i now cfg).fst.Inv cfg := by
  have hm := mem_of_getElem? hf
  by_cases hu : f.transmissions = 0
  case neg => exact (recordFlight_again hv hi.toCore hf hu now).inv hi
  case pos =>
    rw [recordFlight_first hi.toCore (hi.phase.proper f hm) hf hu]
    have hc : (c.flights.set i (firstSent f now)).map Flight.content =
        c.flights.map Flight.content := map_set_of_eq hf rfl
    have hpay : (c.flights.set i (firstSent f now)).map (·.payload) = c.flights.map (·.payload) :=
      map_set_of_eq hf rfl
    have mem {g : Flight} (hg : g ∈ c.flights.set i (firstSent f now)) :
        ∃ h ∈ c.flights, g.rto = h.rto ∧ g.payload = h.payload := by
      rcases mem_or_eq_of_mem_set hg with hg | rfl
      · exact ⟨g, hg, rfl, rfl⟩
      · exact ⟨f, hm, rfl, rfl⟩
    exact {
      window   := hi.window.send hf hu (by simp [firstSent]) rfl rfl rfl
      payload  := by
        rw [outstanding, flatMap_def, hpay, ← flatMap_def]
        exact hi.payload
      buffered := hi.buffered
      limits   := {
        hi.limits with
        flights := by
          intro g hg
          obtain ⟨h, hm, hr, -⟩ := mem hg
          exact hr ▸ hi.limits.flights h hm
      }
      count    := by simpa using hi.count
      mss      := by
        intro g hg
        obtain ⟨h, hm, -, hp⟩ := mem hg
        exact hp ▸ hi.mss h hm
      received := hi.received
      phase    := hi.phase.congr hc
      closing  := hi.closing
    }

-- Takes everything from `t` that the record of a submission can change.
def recordStep (c t : Connection) : Connection :=
  { c.retime t with
    sendSent     := t.sendSent
    ackPending   := t.ackPending
    probePending := t.probePending }

-- What the record of a submission does to the rest of the connection.
structure RecordEffect (c c' : Connection) : Prop where
  frame       : c' = c.recordStep c'
  outstanding : c'.outstanding = c.outstanding
  ack         : c'.ackPending → c.ackPending
  probe       : c'.probePending → c.probePending

theorem recordFlight_effect (hv : cfg.Valid) (hi : c.Inv cfg) (hf : c.flights[i]? = some f)
    (now : Duration) : RecordEffect c (c.recordFlight i now cfg).fst := by
  by_cases hu : f.transmissions = 0
  case neg =>
    have hr := recordFlight_again hv hi.toCore hf hu now
    exact ⟨hr.frame.trans (by rw [hr.frame]; rfl), hr.outstanding_eq,
      fun h => by rw [hr.frame] at h; exact h, fun h => by rw [hr.frame] at h; exact h⟩
  case pos =>
    have hpay : (c.flights.set i (firstSent f now)).map (·.payload) = c.flights.map (·.payload) :=
      map_set_of_eq hf rfl
    rw [recordFlight_first hi.toCore (hi.phase.proper f (mem_of_getElem? hf)) hf hu]
    refine ⟨rfl, ?_, id, id⟩
    rw [outstanding, flatMap_def, hpay, ← flatMap_def, outstanding]

variable (c)

-- The part of `record` that follows the record of the flight.
def settle (flags : U8) (now : Duration) : Connection :=
  { c with
    ackPending    := !has flags ACK && c.ackPending
    probePending  := false
    windowProbeAt := if c.probePending then now.saturatingAdd c.rto else c.windowProbeAt }

theorem settle_eq (flags : U8) (now : Duration) :
    (let c := if has flags ACK then { c with ackPending := false } else c
     if c.probePending then
       { c with probePending := false, windowProbeAt := now.saturatingAdd c.rto }
     else
       c) = c.settle flags now := by
  cases ha : has flags ACK <;> cases hp : c.probePending <;> cases c <;> simp_all [settle]

theorem record_none (now : Duration) (cfg : TcpConfig) :
    (c.record none now cfg).fst = c.settle (c.outgoing none cfg).flags now :=
  c.settle_eq (c.outgoing none cfg).flags now

theorem record_some (i : Nat) (now : Duration) (cfg : TcpConfig) :
    (c.record (some i) now cfg).fst =
      (c.recordFlight i now cfg).fst.settle (c.outgoing (some i) cfg).flags now :=
  (c.recordFlight i now cfg).fst.settle_eq (c.outgoing (some i) cfg).flags now

theorem settle_effect (flags : U8) (now : Duration) : RecordEffect c (c.settle flags now) :=
  ⟨rfl, rfl, fun h => by simp [settle] at h; exact h.right, nofun⟩

variable {c}

theorem RecordEffect.trans {c'' : Connection} (h₁ : RecordEffect c c') (h₂ : RecordEffect c' c'') :
    RecordEffect c c'' where
  frame       := h₂.frame.trans (by rw [h₁.frame]; rfl)
  outstanding := h₂.outstanding.trans h₁.outstanding
  ack         := h₁.ack ∘ h₂.ack
  probe       := h₁.probe ∘ h₂.probe

-- The index that `stage` returns is that of a flight.
def Indexed (c : Connection) (index : Option Nat) : Prop :=
  ∀ i ∈ index, ∃ f, c.flights[i]? = some f

theorem stage_indexed (hv : cfg.Valid) (hi : c.Inv cfg) (now : Duration) :
    (c.stage now cfg).fst.Indexed (c.stage now cfg).snd := by
  intro i h
  have h : c.stage now cfg = ((c.stage now cfg).fst, some i) := Prod.ext rfl (Option.mem_def.mp h)
  obtain ⟨f, hf, -⟩ := stage_flight hv hi h
  exact ⟨f, hf⟩

theorem record_inv (hv : cfg.Valid) (hi : c.Inv cfg) {index : Option Nat} (hx : c.Indexed index)
    (now : Duration) : (c.record index now cfg).fst.Inv cfg := by
  cases index
  case none =>
    rw [record_none]
    exact { hi with }
  case some i =>
    obtain ⟨f, hf⟩ := hx i rfl
    rw [record_some]
    exact { recordFlight_inv hv hi hf now with }

theorem record_effect (hv : cfg.Valid) (hi : c.Inv cfg) {index : Option Nat} (hx : c.Indexed index)
    (now : Duration) : RecordEffect c (c.record index now cfg).fst := by
  cases index
  case none =>
    rw [record_none]
    exact settle_effect ..
  case some i =>
    obtain ⟨f, hf⟩ := hx i rfl
    rw [record_some]
    exact (recordFlight_effect hv hi hf now).trans (settle_effect ..)

-- Unless the device accepts a segment, a call of `transmit` only stages one.
theorem transmitted_staged (hv : cfg.Valid) (hi : c.Inv cfg) (now : Duration) {outcome : Submission}
    (h : c.emission now cfg = none ∨ outcome ≠ .accepted) :
    StageEffect c (c.transmitted now cfg outcome).fst ∧
    (c.transmitted now cfg outcome).fst.Inv cfg := by
  have he := stage_effect hv hi now
  have hs := stage_inv hv hi now
  unfold emission at h
  unfold transmitted
  split
  case isTrue => exact ⟨.refl c, hi⟩
  rename_i ht
  rw [if_neg ht] at h
  dsimp only at h ⊢
  split
  case isTrue => exact ⟨he, hs⟩
  case isFalse hq =>
    rw [if_neg hq] at h
    cases outcome
    case blocked =>
      exact ⟨he.trans ⟨rfl, rfl, .inl rfl, fun _ => rfl⟩ rfl, { hs with }⟩
    case failed => exact ⟨he, hs⟩
    case accepted => simp at h

theorem transmitted_accepted {segment : Segment} (h : c.emission now cfg = some segment) :
    segment = (c.stage now cfg).fst.outgoing (c.stage now cfg).snd cfg ∧
    (c.transmitted now cfg .accepted).fst =
      ((c.stage now cfg).fst.record (c.stage now cfg).snd now cfg).fst := by
  unfold emission at h
  unfold transmitted
  split at h
  case isTrue => simp at h
  case isFalse ht =>
    rw [if_neg ht]
    dsimp only at h ⊢
    split at h
    case isTrue => simp at h
    case isFalse hq =>
      rw [if_neg hq]
      exact ⟨(Option.some.inj h).symm, rfl⟩

theorem transmitted_inv (hv : cfg.Valid) (hi : c.Inv cfg) (now : Duration) (outcome : Submission) :
    (c.transmitted now cfg outcome).fst.Inv cfg := by
  have staged (h : c.emission now cfg = none ∨ outcome ≠ .accepted) :=
    (transmitted_staged hv hi now h).right
  cases he : c.emission now cfg
  case none => exact staged (.inl he)
  case some segment =>
    cases outcome
    case accepted =>
      rw [(transmitted_accepted he).right]
      exact record_inv hv (stage_inv hv hi now) (stage_indexed hv hi now) now
    all_goals exact staged (.inr nofun)

end Connection
