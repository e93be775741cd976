import AsyncNetStack.Tcp.Theorems.Invariant

open Serial Tcp List

namespace Connection

variable {cfg : TcpConfig} {c c' c'' : Connection} {now : Duration} {ack : U32} {flags : U8}
variable {segment : Segment}

-- Takes everything from `t` that an acknowledgment changes.
def reack (c t : Connection) : Connection :=
  { c.retime t with flightPayload := t.flightPayload, sendUna := t.sendUna }

-- The effect of a new acknowledgment number on the sending side, up to the transition that it may
-- cause. The flags are those of the flights which it completes.
structure Acked (cfg : TcpConfig) (c c' : Connection) (ack : U32) (flags : U8) : Prop where
  frame     : c' = c.reack c'
  una       : c'.sendUna = ack
  window    : SendWindow ack c.sendSent c.sendNext c'.flights
  payload   : c'.flightPayload = c'.outstanding.length
  suffix    : c'.outstanding <:+ c.outstanding
  count     : c'.flights.length ≤ c.flights.length
  origin    : ∀ f ∈ c'.flights, ∃ g ∈ c.flights,
    f.payload.length ≤ g.payload.length ∧ (g.IsData → f.IsData)
  limits    : Limits cfg c.cwnd c.rto c.flights → Limits cfg c'.cwnd c'.rto c'.flights
  completed : ∀ m, has flags m → ∃ f ∈ c.flights, has f.flags m
  control   : ∀ f, c.flights = [f] → f.size = 1 → c'.flights = [] ∧ flags = f.flags

-- `progress` up to the update of `sendUna`.
def taken (c : Connection) (ack : U32) (now : Duration) : Connection :=
  let scan := ackFlights ack now .init c.flights
  { c with
    flights       := scan.flights
    flightPayload := c.flightPayload - scan.acknowledgedPayload
    sendUna       := ack }

-- The scan never takes more off the flights than there is, and it never returns early.
theorem ackFlights_bounds (hc : c.Core cfg) (hp : ∀ f ∈ c.flights, f.Proper)
    (h₁ : before c.sendSent ack = false) (h₂ : before ack c.sendUna = false) (now : Duration) :
    (ackFlights ack now .init c.flights).acknowledgedPayload ≤ c.flightPayload ∧
    (ackFlights ack now .init c.flights).early = false := by
  obtain ⟨fs, us, k, hf, -, -, rfl, hk, hs, hn, -⟩ := hc.window.acknowledge hp h₁ h₂
  have hspan := hc.window.span
  have hpay := hc.payload
  simp only [outstanding, hf, flatMap_append, length_append, mem_append,
    sizes_append] at hspan hpay hp ⊢
  obtain ⟨-, he, hl, -⟩ :=
    ackFlights_spec now .init (fun f h => hp f (.inl h)) hs hn (by omega) hk
  simp only [AckScan.init] at he hl ⊢
  exact ⟨by omega, he⟩

theorem taken_acked (hc : c.Core cfg) (hp : ∀ f ∈ c.flights, f.Proper)
    (h₁ : before c.sendSent ack = false) (h₂ : before ack c.sendUna = false) (hn : ack ≠ c.sendUna)
    (now : Duration) :
    Acked cfg c (c.taken ack now) ack (ackFlights ack now .init c.flights).completedFlags := by
  obtain ⟨fs, us, k, hf, -, -, rfl, hk, hs, hu, hw⟩ := hc.window.acknowledge hp h₁ h₂
  have hspan := hc.window.span
  have hpay := hc.payload
  have hp' : ∀ f ∈ fs, f.Proper := fun f h => hp f (by simp [hf, h])
  simp only [hf, sizes_append] at hspan
  obtain ⟨hfl, -, hl, hm⟩ := ackFlights_spec now .init hp' hs hu (by omega) hk
  rw [← hf] at hfl hl hm
  have hfl : (c.taken (c.sendUna + BitVec.ofNat 32 k) now).flights = dropAcked k fs ++ us := hfl
  have hmem {f : Flight} (h : f ∈ dropAcked k fs ++ us) : ∃ g ∈ c.flights,
      f.payload.length ≤ g.payload.length ∧ (g.IsData → f.IsData) ∧ f.rto = g.rto := by
    rcases mem_append.mp h with h | h
    · obtain ⟨g, hg, -, -, hr, hl, -, hd⟩ := dropAcked.exists_mem h
      exact ⟨g, by simp [hf, hg], hl, hd, hr⟩
    · exact ⟨f, by simp [hf, h], Nat.le_refl _, id, rfl⟩
  exact {
    frame     := rfl
    una       := rfl
    window    := hfl ▸ hw
    payload   := by
      simp only [outstanding, hfl, flatMap_append, length_append]
      simp only [outstanding, hf, flatMap_append, length_append] at hpay
      simp only [AckScan.init] at hl
      simp only [taken, hpay, AckScan.init]
      omega
    suffix    := by
      simp only [outstanding, hfl, hf, flatMap_append]
      obtain ⟨t, ht⟩ := dropAcked.payload_suffix k fs
      exact ⟨t, by rw [← ht, append_assoc]⟩
    count     := by
      have := dropAcked.length_le k fs
      simp only [hfl, hf, length_append]
      omega
    origin    := by
      intro f h
      obtain ⟨g, hg, hl, hd, -⟩ := hmem (hfl ▸ h)
      exact ⟨g, hg, hl, hd⟩
    limits h  := {
      h with
      flights := by
        intro f hm
        obtain ⟨g, hg, -, -, hr⟩ := hmem (hfl ▸ hm)
        exact hr ▸ h.flights g hg
    }
    completed := by
      intro m h
      obtain h | ⟨f, hm, h⟩ := hm m h
      · simp [AckScan.init, has] at h
      · exact ⟨f, by simp [hf, hm], h⟩
    control   := by
      intro f h hsz
      have hk₀ : k ≠ 0 := by rintro rfl; simp at hn
      obtain ⟨rfl, rfl⟩ : fs = [f] ∧ us = [] := by
        rcases append_eq_singleton_iff.mp (hf.symm.trans h) with ⟨rfl, -⟩ | h
        · simp only [sizes_nil, Nat.le_zero_eq] at hk
          exact absurd hk hk₀
        · exact h
      obtain rfl : k = 1 := by simp [hsz] at hk; omega
      have he : c.sendUna + BitVec.ofNat 32 1 = f.end := by rw [f.end_eq, hsz, hs.left]
      refine ⟨?_, ?_⟩
      · rw [hfl, append_nil, ← hsz]
        simpa using dropAcked.all hp'
      · rw [h, he, ackFlights_single _ hsz]
        simp [AckScan.init]
  }

theorem Acked.retimed (h₁ : Acked cfg c c' ack flags) (h₂ : Retimed cfg c' c'') :
    Acked cfg c c'' ack flags where
  frame     := calc
    c'' = c'.retime c''            := h₂.frame
    _   = (c.reack c').retime c''  := by rw [← h₁.frame]
    _   = c.reack (c'.retime c'')  := rfl
    _   = c.reack c''              := by rw [← h₂.frame]
  una       := (congrArg sendUna h₂.frame).trans h₁.una
  window    := h₁.window.sameShape h₂.flights
  payload   := (congrArg flightPayload h₂.frame).trans (h₂.outstanding_eq ▸ h₁.payload)
  suffix    := h₂.outstanding_eq ▸ h₁.suffix
  count     := h₂.flights.length_eq ▸ h₁.count
  origin    := by
    intro f hf
    obtain ⟨g, hg, hs⟩ := h₂.flights.exists_shape hf
    obtain ⟨e, he, hl, hd⟩ := h₁.origin g hg
    exact ⟨e, he, (Flight.shape_eq_iff.mp hs).right.right.left ▸ hl,
      .congr (Flight.content_congr hs) ∘ hd⟩
  limits    := h₂.limits ∘ h₁.limits
  completed := h₁.completed
  control   := by
    intro f hf hs
    obtain ⟨hn, hl⟩ := h₁.control f hf hs
    exact ⟨map_eq_nil_iff.mp (hn ▸ h₂.flights), hl⟩

theorem Retimed.acked (h₁ : Retimed cfg c c') (h₂ : Acked cfg c' c'' ack flags) :
    Acked cfg c c'' ack flags where
  frame     := h₂.frame.trans (by rw [h₁.frame]; rfl)
  una       := h₂.una
  window    := by have := h₂.window; rwa [h₁.frame] at this
  payload   := h₂.payload
  suffix    := h₁.outstanding_eq ▸ h₂.suffix
  count     := h₁.flights.length_eq ▸ h₂.count
  origin    := by
    intro f hf
    obtain ⟨g, hg, hl, hd⟩ := h₂.origin f hf
    obtain ⟨e, he, hs⟩ := h₁.flights.exists_shape hg
    exact ⟨e, he, (Flight.shape_eq_iff.mp hs).right.right.left ▸ hl,
      hd ∘ .congr (Flight.content_congr hs)⟩
  limits    := h₂.limits ∘ h₁.limits
  completed := by
    intro m hm
    obtain ⟨g, hg, hf⟩ := h₂.completed m hm
    obtain ⟨e, he, hs⟩ := h₁.flights.exists_shape hg
    exact ⟨e, he, (Flight.shape_eq_iff.mp hs).right.left ▸ hf⟩
  control   := by
    intro f hf hs
    have hsame := h₁.flights
    rw [hf] at hsame
    obtain ⟨g, hg⟩ := length_eq_one_iff.mp (by simpa using hsame.length_eq)
    have hshape : g.shape = f.shape := by simpa [hg, SameShape] using hsame
    have hsize : g.size = f.size := by simpa [hg] using hsame.sizes_eq
    obtain ⟨hn, hl⟩ := h₂.control g hg (hsize.trans hs)
    exact ⟨hn, hl.trans (Flight.shape_eq_iff.mp hshape).right.left⟩

theorem progress_acked (hv : cfg.Valid) (hc : c.Core cfg) (hp : ∀ f ∈ c.flights, f.Proper)
    (h₁ : before c.sendSent ack = false) (h₂ : before ack c.sendUna = false) (hn : ack ≠ c.sendUna)
    (now : Duration) :
    ∃ c' flags, Acked cfg c c' ack flags ∧
      c.progress ack now cfg = if has flags FIN then c'.finAcknowledged now cfg else c' := by
  have ht := taken_acked hc hp h₁ h₂ hn now
  have he := (ackFlights_bounds hc hp h₁ h₂ now).right
  simp only [progress, he, Bool.false_eq_true, if_false]
  refine ⟨_, _, ht.retimed (.trans ?_ ((restartTimer_retimed).trans (growCwnd_retimed hv _ _))),
    rfl⟩
  split
  · exact updateRto_retimed hv _
  · exact .refl ..

-- Either the acknowledgment is old and at most updates the window, or it is new.
theorem acknowledge_cases (hv : cfg.Valid) (hc : c.Core cfg) (hp : ∀ f ∈ c.flights, f.Proper)
    (hs : before c.sendSent segment.acknowledgment = false) (now : Duration) :
    (Retimed cfg c (c.acknowledge segment now cfg) ∧
      (before segment.acknowledgment c.sendUna ∨ segment.acknowledgment = c.sendUna)) ∨
    ∃ c' flags, Acked cfg c c' segment.acknowledgment flags ∧
      c.acknowledge segment now cfg = if has flags FIN then c'.finAcknowledged now cfg else c' := by
  unfold acknowledge
  have hr := c.updateWindow_retimed segment cfg
  split
  case isTrue hb => exact .inl ⟨.refl .., .inl hb⟩
  rename_i hb
  have hu : (c.updateWindow segment).sendUna = c.sendUna := by rw [hr.frame]; rfl
  dsimp only
  split
  case isTrue hn => exact .inl ⟨hr, .inr (hn.trans hu)⟩
  case isFalse hn =>
    have hs' : (c.updateWindow segment).sendSent = c.sendSent := by rw [hr.frame]; rfl
    have hp' := hr.flights.forall_shape (fun _ _ h => .congr (Flight.content_congr h)) hp
    obtain ⟨c', flags, ha, he⟩ := progress_acked hv (hr.core hc) hp' (hs' ▸ hs)
      (by simpa [hu] using hb) hn now
    exact .inr ⟨c', flags, hr.acked ha, he⟩

theorem Acked.core (h : Acked cfg c c' ack flags) (hc : c.Core cfg) : c'.Core cfg := by
  have hl := h.limits hc.limits
  have hw := h.una.symm ▸ h.window
  have hs := h.suffix.length_le
  have hp := h.payload
  have hb := hc.buffered
  have hcp := hc.payload
  have ho := h.origin
  rw [h.frame] at hl hw ⊢
  exact {
    window   := hw
    payload  := hp
    buffered := by
      simp only [sendBuffered] at hb
      show c.queued.length + c'.flightPayload ≤ _
      omega
    limits   := hl
    count    := h.count.trans hc.count
    mss      := by
      intro f hf
      obtain ⟨g, hg, hl, -⟩ := ho f hf
      exact hl.trans (hc.mss g hg)
    received := hc.received
  }

theorem Acked.state_eq (h : Acked cfg c c' ack flags) : c'.state = c.state := by
  rw [h.frame]; rfl

theorem Acked.queued_eq (h : Acked cfg c c' ack flags) : c'.queued = c.queued := by
  rw [h.frame]; rfl

theorem Acked.closing (h : Acked cfg c c' ack flags) (hi : c.Inv cfg) :
    Closing c.state c'.writeClosed c'.peerEof c'.phaseDeadline c'.closeDeadline := by
  rw [h.frame]; exact hi.closing

theorem Acked.isData (h : Acked cfg c c' ack flags) (hd : ∀ f ∈ c.flights, f.IsData) :
    ∀ f ∈ c'.flights, f.IsData := by
  intro f hf
  obtain ⟨g, hg, -, h⟩ := h.origin f hf
  exact h (hd g hg)

theorem Acked.not_has_fin (h : Acked cfg c c' ack flags) (hd : ∀ f ∈ c.flights, f.IsData) :
    has flags FIN = false := by
  by_contra hf
  obtain ⟨f, hm, hf⟩ := h.completed FIN (by simpa using hf)
  simp [(hd f hm).not_has_fin] at hf

-- The FIN is acknowledged.
theorem Acked.finAcknowledged_inv (h : Acked cfg c c' ack flags) (hi : c.Inv cfg)
    (hn : c'.flights = []) (hq : c.queued = [])
    (hs : c.state = .finWait1 ∨ c.state = .closing ∨ c.state = .lastAck) (now : Duration) :
    (c'.finAcknowledged now cfg).Inv cfg := by
  have hc := h.core hi.toCore
  have hst := h.state_eq
  have hq := h.queued_eq.trans hq
  obtain ⟨he, hw, hp, hd⟩ := h.closing hi
  rcases hs with hs | hs | hs <;> rw [hs] at hst he hw hp hd
  all_goals
    simp only [finAcknowledged, enterTimeWait, hst]
    refine { hc with phase := ⟨hq, hn⟩, closing := ⟨fun _ => he rfl, fun _ => hw rfl, ?_, ?_⟩ }
  all_goals simp_all [TcpState.isTimed, TcpState.isOver]

theorem acknowledge_inv (hv : cfg.Valid) (hi : c.Inv cfg) (hh : c.state.isHandshake = false)
    (hs : before c.sendSent segment.acknowledgment = false) (now : Duration) :
    (c.acknowledge segment now cfg).Inv cfg := by
  rcases acknowledge_cases hv hi.toCore hi.phase.proper hs now with ⟨hr, -⟩ | ⟨c', flags, ha, he⟩
  case inl => exact hr.inv hi
  rw [he]
  have hp := hi.phase
  -- Unless a FIN is outstanding, there is at most data to be acknowledged.
  have data (hd : ∀ f ∈ c.flights, f.IsData)
      (hp : Phase c.state c.queued c'.flights) : Inv cfg
        (if has flags FIN then c'.finAcknowledged now cfg else c') := by
    rw [ha.not_has_fin hd, if_neg Bool.false_ne_true]
    exact { ha.core hi.toCore with
      phase   := by rwa [ha.state_eq, ha.queued_eq]
      closing := by rw [ha.state_eq]; exact ha.closing hi }
  cases hst : c.state <;> simp only [hst, Phase] at hp
  case synSent | synReceived => simp [hst, TcpState.isHandshake] at hh
  case established | closeWait =>
    exact data hp (by simpa [hst, Phase] using ha.isData hp)
  case finWait1 | closing | lastAck =>
    obtain ⟨hq, f, hf, hfin⟩ := hp
    obtain ⟨hn, rfl⟩ := ha.control f hf hfin.size_eq
    rw [if_pos hfin.has_fin]
    exact ha.finAcknowledged_inv hi hn hq (by simp [hst]) now
  all_goals
    have hn : c'.flights = [] := eq_nil_of_length_eq_zero (by simpa [hp.right] using ha.count)
    exact data (by simp [hp.right]) (by simp [hst, Phase, hp.left, hn])

-- During the handshake, only the SYN is there to be acknowledged.
theorem acknowledge_syn (hv : cfg.Valid) (hc : c.Core cfg) {f : Flight} (hf : c.flights = [f])
    (hsyn : f.IsSyn) (hs : segment.acknowledgment = c.sendSent)
    (hn : c.sendSent ≠ c.sendUna) (now : Duration) :
    (c.acknowledge segment now cfg).flights = [] ∧
    Acked cfg c (c.acknowledge segment now cfg) c.sendSent f.flags := by
  have hp : ∀ g ∈ c.flights, g.Proper := by simpa [hf] using .inl hsyn
  have hb : before c.sendSent segment.acknowledgment = false := by simp [hs]
  rcases acknowledge_cases hv hc hp hb now with ⟨-, h | h⟩ | ⟨c', flags, ha, he⟩
  case inl.inl => simp [hs, hc.window.sent_not_before_una] at h
  case inl.inr => exact absurd (hs.symm.trans h) hn
  case inr =>
    obtain ⟨hn, rfl⟩ := ha.control f hf hsyn.size_eq
    rw [he, if_neg (by simp [hsyn.not_has_fin])]
    exact ⟨hn, hs ▸ ha⟩

-- Takes everything from `t` that an acknowledgment and the transition it causes can change.
def ackStep (c t : Connection) : Connection :=
  { c.reack t with
    state         := t.state
    ackPending    := t.ackPending
    phaseDeadline := t.phaseDeadline
    closeDeadline := t.closeDeadline }

-- What an acknowledgment does to the rest of the connection.
structure AckEffect (c c' : Connection) : Prop where
  frame  : c' = c.ackStep c'
  suffix : c'.outstanding <:+ c.outstanding
  state  : c'.state = c.state ∨ (c.state = .finWait1 ∧ c'.state = .finWait2) ∨
    (c.state = .closing ∧ c'.state = .timeWait) ∨ (c.state = .lastAck ∧ c'.state = .closed)

theorem AckEffect.failure (h : AckEffect c c') : c'.state.isFailure = c.state.isFailure := by
  rcases h.state with hs | ⟨hs, hs'⟩ | ⟨hs, hs'⟩ | ⟨hs, hs'⟩
  · rw [hs]
  all_goals rw [hs, hs']; rfl

theorem Retimed.ackEffect (h : Retimed cfg c c') : AckEffect c c' where
  frame  := h.frame.trans (by rw [h.frame]; rfl)
  suffix := h.outstanding_eq ▸ suffix_refl _
  state  := .inl (by rw [h.frame]; rfl)

theorem Acked.ackEffect (h : Acked cfg c c' ack flags) : AckEffect c c' where
  frame  := h.frame.trans (by rw [h.frame]; rfl)
  suffix := h.suffix
  state  := .inl h.state_eq

theorem Acked.ackEffect_finAcknowledged (h : Acked cfg c c' ack flags) (now : Duration) :
    AckEffect c (c'.finAcknowledged now cfg) := by
  have hs := h.state_eq
  unfold finAcknowledged
  split
  case h_4 => exact h.ackEffect
  all_goals
    rename_i hst
    refine ⟨by rw [h.frame]; rfl, h.suffix, ?_⟩
    simp [← hs, hst, enterTimeWait]

theorem acknowledge_effect (hv : cfg.Valid) (hc : c.Core cfg) (hp : ∀ f ∈ c.flights, f.Proper)
    (hs : before c.sendSent segment.acknowledgment = false) (now : Duration) :
    AckEffect c (c.acknowledge segment now cfg) := by
  rcases acknowledge_cases hv hc hp hs now with ⟨hr, -⟩ | ⟨c', flags, ha, he⟩
  case inl => exact hr.ackEffect
  rw [he]
  split
  · exact ha.ackEffect_finAcknowledged now
  · exact ha.ackEffect

end Connection
