import AsyncNetStack.Tcp.Theorems.Submissions

open Serial Tcp List

theorem List.getElem?_split {α : Type*} {l : List α} {i : Nat} {a : α} (h : l[i]? = some a) :
    ∃ xs ys, l = xs ++ a :: ys ∧ xs.length = i := by
  have ⟨hi, ha⟩ := List.getElem?_eq_some_iff.mp h
  refine ⟨l.take i, l.drop (i + 1), ?_, by simp; omega⟩
  rw [← ha, getElem_cons_drop, take_append_drop]

namespace Contiguous

variable {a b : U32} {fs gs : List Flight} {f : Flight} {k : Nat}

theorem sequence_eq (h : Contiguous a (fs ++ f :: gs) b) :
    f.sequence = a + BitVec.ofNat 32 (sizes fs) := by
  have ⟨m, h₁, h₂⟩ := append_iff.mp h
  exact h₂.left.trans h₁.eq_add

theorem before_sequence_iff (h : Contiguous a (fs ++ f :: gs) b)
    (hs : sizes (fs ++ f :: gs) ≤ 65535) (hk : k ≤ 65535) :
    before f.sequence (a + BitVec.ofNat 32 k) ↔ sizes fs < k := by
  simp only [sizes_append, sizes_cons] at hs
  rw [h.sequence_eq, before_offsets a (by omega) (by omega)]

theorem not_before_end_iff (h : Contiguous a (fs ++ f :: gs) b)
    (hs : sizes (fs ++ f :: gs) ≤ 65535) (hk : k ≤ 65535) :
    before (a + BitVec.ofNat 32 k) f.end = false ↔ sizes fs + f.size ≤ k := by
  simp only [sizes_append, sizes_cons] at hs
  rw [f.end_eq, h.sequence_eq, BitVec.add_assoc, ← BitVec.ofNat_add,
    not_before_offsets a (by omega) (by omega)]

end Contiguous

-- A flight that does not make a measurement ambiguous.
structure Flight.Measurable (f : Flight) : Prop where
  eligible      : f.rttEligible
  transmissions : f.transmissions ≤ 1

open Flight (Measurable)

namespace Connection

variable {cfg : TcpConfig} {c d : Connection} {segment : Segment} {now : Duration} {ack : U32}

-- The sample after one more flight has been acknowledged as a whole.
def nextSample (now : Duration) (sample : Option Duration) (f : Flight) : Option Duration :=
  if f.transmissions = 1 ∧ f.rttEligible then f.lastSent.map now.saturatingSub else sample

-- The scan goes over the flights `done` that are acknowledged as a whole, and stops at `rest`.
structure Scanned
    (ack : U32) (now : Duration) (acc : AckScan) (done rest : List Flight) (scan : AckScan) :
    Prop where
  whole     : ∀ f ∈ done, before ack f.end = false
  next      : ∀ f ∈ rest.head?, before f.sequence ack → before ack f.end
  sample    : scan.sample = done.foldl (nextSample now) acc.sample
  ambiguous : scan.ambiguous = false → acc.ambiguous = false ∧ (∀ f ∈ done, f.Measurable) ∧
    ∀ f ∈ rest.head?, before f.sequence ack → f.Measurable

theorem ackFlights_scanned {acc scan : AckScan} {fs : List Flight}
    (h : ackFlights ack now acc fs = scan) :
    ∃ done rest, fs = done ++ rest ∧ Scanned ack now acc done rest scan := by
  induction fs generalizing acc
  case nil =>
    subst h
    exact ⟨[], [], rfl, by simp, by simp, rfl, fun h => ⟨h, by simp, by simp⟩⟩
  case cons f fs ih =>
    have measurable {b : Bool} (h : (b || (!f.rttEligible || f.transmissions > 1)) = false) :
        b = false ∧ f.Measurable := by
      simp only [Bool.or_eq_false_iff, Bool.not_eq_false', decide_eq_false_iff_not] at h
      exact ⟨h.left, h.right.left, by omega⟩
    unfold ackFlights at h
    split at h
    case isTrue hb =>
      have hb : before f.sequence ack = false := by simpa using hb
      subst h
      exact ⟨[], f :: fs, rfl, by simp, by simp [hb], rfl, fun h => ⟨h, by simp, by simp [hb]⟩⟩
    dsimp only at h
    split at h
    case isTrue he =>
      obtain ⟨done, rest, hfs, hs⟩ := ih h
      refine ⟨f :: done, rest, by rw [hfs]; rfl, ?_, hs.next, hs.sample, fun ha => ?_⟩
      · exact forall_mem_cons.mpr ⟨by simpa using he, hs.whole⟩
      · obtain ⟨hacc, hdone, hrest⟩ := hs.ambiguous ha
        obtain ⟨hacc, hf⟩ := measurable hacc
        exact ⟨hacc, forall_mem_cons.mpr ⟨hf, hdone⟩, hrest⟩
    case isFalse he =>
      have he : before ack f.end = true := by simpa using he
      split at h
      all_goals
        subst h
        refine ⟨[], f :: fs, rfl, by simp, by simp [he], rfl, fun ha => ?_⟩
        obtain ⟨hacc, hf⟩ := measurable ha
        exact ⟨hacc, by simp, by simpa using fun _ => hf⟩

-- If each flight has been sent and can be measured, then the sample is that of the last one.
theorem foldl_nextSample {fs : List Flight} {f : Flight} {sample : Option Duration}
    (ht : f.transmissions = 1) (he : f.rttEligible) :
    (fs ++ [f]).foldl (nextSample now) sample = f.lastSent.map now.saturatingSub := by
  simp [nextSample, ht, he]

-- The sample with which `acknowledge` updates the estimator, if any.
def rttSample (c : Connection) (segment : Segment) (now : Duration) : Option Duration :=
  if before segment.acknowledgment c.sendUna || segment.acknowledgment == c.sendUna then
    none
  else
    let scan := ackFlights segment.acknowledgment now .init (c.updateWindow segment).flights
    if scan.early || scan.ambiguous then none else scan.sample

def estimator (c : Connection) : Option Duration × Duration :=
  (c.srtt, c.rttvar)

theorem updateRto_estimator (h : c.estimator = d.estimator) (sample : Duration) (cfg : TcpConfig) :
    (c.updateRto sample cfg).estimator = (d.updateRto sample cfg).estimator := by
  have ⟨hs, hv⟩ := Prod.mk.inj h
  simp only [estimator, updateRto, hs, hv]

theorem progress_estimator (c : Connection) (ack : U32) (now : Duration) (cfg : TcpConfig) :
    (c.progress ack now cfg).estimator =
      (let scan := ackFlights ack now .init c.flights
       (if scan.early || scan.ambiguous then none else scan.sample).elim c
        (c.updateRto · cfg)).estimator := by
  have grow (c : Connection) (flags : U8) (n : Nat) :
      (c.growCwnd flags n cfg).estimator = c.estimator := by
    unfold growCwnd
    dsimp only
    split_ifs <;> rfl
  have fin (c : Connection) : (c.finAcknowledged now cfg).estimator = c.estimator := by
    unfold finAcknowledged
    cases c.state <;> rfl
  unfold progress
  dsimp only
  generalize ackFlights ack now .init c.flights = scan
  cases he : scan.early
  case true => rfl
  case false =>
    simp only [Bool.false_eq_true, if_false]
    cases scan.ambiguous <;> cases scan.sample
    case false.some sample =>
      split
      · rw [fin, grow]
        exact updateRto_estimator rfl sample cfg
      · rw [grow]
        exact updateRto_estimator rfl sample cfg
    all_goals
      split
      · rw [fin, grow]
        rfl
      · rw [grow]
        rfl

theorem updateWindow_flights (c : Connection) (segment : Segment) :
    ∃ b, (c.updateWindow segment).flights =
      c.flights.map fun f => { f with persist := f.persist && b } := by
  unfold updateWindow
  split
  case isTrue =>
    dsimp only
    split
    · exact ⟨false, by simp⟩
    · exact ⟨true, by simp⟩
  case isFalse => exact ⟨true, by simp⟩

theorem acknowledge_estimator (c : Connection) (segment : Segment) (now : Duration)
    (cfg : TcpConfig) : (c.acknowledge segment now cfg).estimator =
      ((c.rttSample segment now).elim c (c.updateRto · cfg)).estimator := by
  have hw : (c.updateWindow segment).estimator = c.estimator := by
    unfold updateWindow
    split <;> rfl
  have hu : (c.updateWindow segment).sendUna = c.sendUna := by
    unfold updateWindow
    split <;> rfl
  unfold acknowledge rttSample
  cases hb : before segment.acknowledgment c.sendUna
  case true => rfl
  dsimp only
  rw [hu, Bool.false_or]
  by_cases ha : segment.acknowledgment = c.sendUna
  case pos => simpa [ha] using hw
  case neg =>
    rw [if_neg (by simp), if_neg ha, if_neg (by simpa using ha), progress_estimator]
    dsimp only
    split
    · exact hw
    · cases (ackFlights segment.acknowledgment now .init (c.updateWindow segment).flights).sample
      · exact hw
      · exact updateRto_estimator hw ..

end Connection

-- The flights which the scan goes over, by their position.
theorem Connection.Scanned.position {done rest fs gs : List Flight} {acc scan : AckScan}
    {f : Flight} {ack una next : U32} {now : Duration} {k : Nat}
    (h : Scanned ack now acc done rest scan) (hc : Contiguous una (done ++ rest) next)
    (hs : sizes (done ++ rest) ≤ 65535) (hp : ∀ f ∈ done ++ rest, f.Proper) (hk : k ≤ 65535)
    (ha : ack = una + BitVec.ofNat 32 k) (he : done ++ rest = fs ++ f :: gs)
    (hl : done.length ≤ fs.length) :
    before ack f.end ∧ (before f.sequence ack → f ∈ rest.head?) := by
  have ⟨m, hfs, hrest⟩ : ∃ m, fs = done ++ m ∧ rest = m ++ f :: gs := by
    rcases append_eq_append_iff.mp he with ⟨m, h₁, h₂⟩ | ⟨m, h₁, h₂⟩
    · exact ⟨m, h₁, h₂⟩
    · have hm : m = [] := by simpa [h₁] using hl
      exact ⟨[], by simp [h₁, hm], by simpa [hm] using h₂.symm⟩
  -- The first flight that is left is not acknowledged as a whole.
  have first {g : Flight} {t : List Flight} (hg : rest = g :: t) : k < sizes done + g.size := by
    by_contra hn
    have hpos := (hp g (by simp [hg])).size_pos
    rw [hg] at hc hs
    have hb := (hc.before_sequence_iff hs hk).mpr (by omega)
    have he := (hc.not_before_end_iff hs hk).mpr (by omega)
    rw [← ha] at hb he
    simpa [he] using h.next g (by simp [hg]) hb
  rw [he] at hc hs
  rw [← Bool.not_eq_false, ha, hc.not_before_end_iff hs hk, hc.before_sequence_iff hs hk, hfs,
    sizes_append]
  cases m
  case nil =>
    have := first hrest
    exact ⟨by simpa using this, fun _ => by simp [hrest]⟩
  case cons g m =>
    have := first hrest
    simp only [sizes_cons]
    exact ⟨by omega, fun _ => by omega⟩

namespace Tracked

open Connection (ackFlights)

variable {cfg : TcpConfig} {s s' : Tracked} {f g : Flight} {i : Nat} {sample now : Duration}
variable {una sent next ack : U32}

-- What a sample is taken from.
-- * `once`: all flights that are acknowledged, at least in part, have been submitted once, and
--   nothing has been submitted again since
-- * `newest`: the sample is the time since the submission of the newest one acknowledged as a whole
structure Measured (s : Tracked) (ack : U32) (now sample : Duration) : Prop where
  once   : ∀ {i f}, s.conn.flights[i]? = some f → before f.sequence ack →
    ∃ t, SentOnce s.log (s.number i) t
  newest : ∃ i f t, s.conn.flights[i]? = some f ∧ before ack f.end = false ∧
    (∀ {j g}, i < j → s.conn.flights[j]? = some g → before ack g.end) ∧
    SentOnce s.log (s.number i) t ∧ sample = now.saturatingSub t

-- Other changes of the flights make no difference.
theorem Measured.of_map (h : s'.Measured ack now sample) {u : Flight → Flight}
    (hf : s'.conn.flights = s.conn.flights.map u) (hb : s'.born = s.born) (hl : s'.log = s.log)
    (hq : ∀ f, (u f).sequence = f.sequence) (he : ∀ f, (u f).end = f.end) :
    s.Measured ack now sample := by
  have hn (i : Nat) : s'.number i = s.number i := by simp [number, hf, hb]
  have mapped {i : Nat} {f : Flight} (hi : s.conn.flights[i]? = some f) :
      s'.conn.flights[i]? = some (u f) := by simp [hf, hi]
  refine ⟨fun hi ha => ?_, ?_⟩
  · obtain ⟨t, ho⟩ := h.once (mapped hi) (by rwa [hq])
    exact ⟨t, by rwa [hl, hn] at ho⟩
  · obtain ⟨i, g, t, hg, hw, hj, ho, hs⟩ := h.newest
    rw [hf, List.getElem?_map, Option.map_eq_some_iff] at hg
    obtain ⟨f, hi, hu⟩ := hg
    rw [← hu, he] at hw
    refine ⟨i, f, t, hi, hw, fun hlt hg => ?_, by rwa [hl, hn] at ho, hs⟩
    rw [← he]
    exact hj hlt (mapped hg)

theorem Sound.measured (h : Sound s) (hw : SendWindow una sent next s.conn.flights)
    (hp : ∀ f ∈ s.conn.flights, f.Proper) (h₁ : before sent ack = false)
    (h₂ : before ack una = false)
    (ha : (ackFlights ack now .init s.conn.flights).ambiguous = false)
    (hx : (ackFlights ack now .init s.conn.flights).sample = some sample) :
    s.Measured ack now sample := by
  obtain ⟨fs, us, k, hfu, _, _, hk, hle, _⟩ := hw.acknowledge hp h₁ h₂
  obtain ⟨done, rest, hf, hs⟩ :=
    Connection.ackFlights_scanned (Eq.refl (ackFlights ack now .init s.conn.flights))
  obtain ⟨_, hdone, hrest⟩ := hs.ambiguous ha
  have hspan := hw.span
  have hc := hw.contiguous
  have hk' : k ≤ 65535 := by
    rw [hfu, sizes_append] at hspan
    omega
  have position {i : Nat} {f : Flight} (hi : s.conn.flights[i]? = some f) (hl : done.length ≤ i) :
      before ack f.end ∧ (before f.sequence ack → f ∈ rest.head?) := by
    obtain ⟨fs, gs, he, hlen⟩ := List.getElem?_split hi
    exact hs.position (hf ▸ hc) (hf ▸ hspan) (hf ▸ hp) hk' hk (hf ▸ he) (hlen ▸ hl)
  -- A flight that is acknowledged in part has been sent, and can be measured.
  have once {i : Nat} {f : Flight} (hi : s.conn.flights[i]? = some f) (hb : before f.sequence ack) :
      f.transmissions = 1 ∧ f.rttEligible := by
    have hm : f.Measurable := by
      by_cases hl : i < done.length
      case pos =>
        rw [hf, List.getElem?_append_left hl] at hi
        exact hdone f (mem_of_getElem? hi)
      case neg => exact hrest f ((position hi (by omega)).right hb) hb
    have hne : f.transmissions ≠ 0 := by
      intro hu
      obtain ⟨_, _, _, _, _, hq, _⟩ := hw.unsent_last hi hu
      simp [hq, h₁] at hb
    have := hm.transmissions
    exact ⟨by omega, hm.eligible⟩
  refine ⟨fun hi hb => ?_, ?_⟩
  · obtain ⟨ht, he⟩ := once hi hb
    obtain ⟨t, ho, _⟩ := (h.follows hi).measured he ht
    exact ⟨t, ho⟩
  · rw [hs.sample] at hx
    cases done using List.reverseRecOn
    case nil => simp [Connection.AckScan.init] at hx
    case append_singleton init f _ =>
      have hi : s.conn.flights[init.length]? = some f := by simp [hf]
      have he := hs.whole f (by simp)
      rw [hf, append_assoc, singleton_append] at hc hspan hp
      have hpos := (hp f (by simp)).size_pos
      have hb : before f.sequence ack := by
        rw [hk, hc.before_sequence_iff hspan hk']
        have := (hc.not_before_end_iff hspan hk').mp (hk ▸ he)
        omega
      obtain ⟨ht, hr⟩ := once hi hb
      obtain ⟨t, ho, hl⟩ := (h.follows hi).measured hr ht
      rw [Connection.foldl_nextSample ht hr, Option.map_eq_some_iff] at hx
      obtain ⟨t', ht', hx⟩ := hx
      have htt : t' = t := by simpa [ht'] using hl
      refine ⟨init.length, f, t, hi, he, fun hj hg => ?_, ho, by rw [← hx, htt]⟩
      exact (position hg (by simpa using hj)).left

theorem Sound.rttSample (h : Sound s) (hi : s.conn.Inv cfg) {d : Connection}
    (hd : d = s.conn.offer d) {segment : Segment}
    (ha : before s.conn.sendSent segment.acknowledgment = false)
    (hx : d.rttSample segment now = some sample) :
    s.Measured segment.acknowledgment now sample := by
  have hfl : d.flights = s.conn.flights := by rw [hd]; rfl
  have hu : d.sendUna = s.conn.sendUna := by rw [hd]; rfl
  unfold Connection.rttSample at hx
  split at hx
  case isTrue => simp at hx
  rename_i hb
  simp only [Bool.or_eq_true, not_or, Bool.not_eq_true, hu] at hb
  dsimp only at hx
  split at hx
  case isTrue => simp at hx
  rename_i hs
  simp only [Bool.or_eq_true, not_or, Bool.not_eq_true] at hs
  have ⟨b, hw⟩ := d.updateWindow_flights segment
  rw [hfl] at hw
  -- The scan happens after the send window has been updated.
  have h' : Sound { s with conn := d.updateWindow segment } :=
    h.outlive (m := 0) (hfl ▸ d.updateWindow_outlive segment) rfl rfl
  have hshape : SameShape (d.updateWindow segment).flights s.conn.flights := by
    rw [hw]
    exact .map fun f => rfl
  have hp := hshape.forall_shape (fun _ _ h => .congr (Flight.content_congr h)) hi.phase.proper
  exact (h'.measured (hi.window.sameShape hshape) hp ha hb.left hs.right hx).of_map hw rfl rfl
    (fun _ => rfl) (fun _ => rfl)

theorem inv_run (hv : cfg.Valid) (o : Opening) (ops : List Op) : (run cfg o ops).conn.Inv cfg := by
  have h : Endpoint.Sender cfg (run cfg o ops).toEndpoint :=
    Transition.exec_induction (P := fun s : Tracked => Endpoint.Sender cfg s.toEndpoint)
      (Endpoint.Sender.open hv o) fun s op h => h.step hv op
  exact h.inv

theorem samples_follow_karn (h : cfg.rejected = false) (o : Opening) (ops : List Op)
    (segment : Segment) (now : Duration) (hs : run cfg o ops = s) :
    -- All calls of `acknowledge`.
    (∀ d, d = s.conn.offer d → before s.conn.sendSent segment.acknowledgment = false →
      (d.acknowledge segment now cfg).estimator =
        ((d.rttSample segment now).elim d (d.updateRto · cfg)).estimator ∧
      ∀ sample ∈ d.rttSample segment now, s.Measured segment.acknowledgment now sample) ∧
    -- All segments that arrive.
    ∃ sample : Option Duration,
      (s.conn.input segment now cfg).estimator =
        (sample.elim s.conn (s.conn.updateRto · cfg)).estimator ∧
      ∀ x ∈ sample, s.Measured segment.acknowledgment now x := by
  have hv := TcpConfig.Valid.of_not_rejected h
  have hsound : Sound s := hs ▸ .run cfg o ops
  have hi : s.conn.Inv cfg := hs ▸ inv_run hv o ops
  refine ⟨fun d hd ha => ⟨d.acknowledge_estimator segment now cfg, fun x hx => ?_⟩, ?_⟩
  · exact hsound.rttSample hi hd ha hx
  · have hp := s.conn.input_processed segment now cfg
    generalize s.conn.input segment now cfg = c' at hp
    cases hp
    case pending | repeated | reset => exact ⟨none, rfl, by simp⟩
    case acked d hd ha hr =>
      refine ⟨d.rttSample segment now, ?_, fun x hx => hsound.rttSample hi hd ha hx⟩
      have he : c'.estimator = (d.acknowledge segment now cfg).estimator := by
        rw [hr]
        rfl
      have hde : d.estimator = s.conn.estimator := by
        rw [hd]
        rfl
      rw [he, d.acknowledge_estimator]
      cases d.rttSample segment now
      case none     => exact hde
      case some x => exact Connection.updateRto_estimator hde x cfg

open Endpoint (client fromServer threeBytes)

-- A data segment is acknowledged after a second.
theorem samples_follow_karn_threeBytes :
    let s := run .default client (threeBytes ++ [.call (.transmit .zero .accepted)])
    s.conn.rttSample (fromServer ACK 501 11 []) (.fromSecs 1) = some (.fromSecs 1) ∧
    s.Measured 11 (.fromSecs 1) (.fromSecs 1) := by
  have h := samples_follow_karn TcpConfig.default_not_rejected client
    (threeBytes ++ [.call (.transmit .zero .accepted)]) (fromServer ACK 501 11 []) (.fromSecs 1) rfl
  have hx : (run .default client (threeBytes ++ [.call (.transmit .zero .accepted)])).conn.rttSample
      (fromServer ACK 501 11 []) (.fromSecs 1) = some (.fromSecs 1) := by decide +kernel
  exact ⟨hx, (h.left _ rfl (by decide +kernel)).right _ hx⟩

end Tracked
