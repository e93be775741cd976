import AsyncNetStack.Tcp.Theorems.Sender

open Serial Tcp

namespace Flight

variable {f g h : Flight} {now : Duration}

-- What segments of the peer and the staging of segments leave of the record about a flight. The
-- timer is stopped or restarted at most, and a restarted timer takes the flight out of the
-- measurements.
structure Survives (f g : Flight) : Prop where
  created       : g.created = f.created
  transmissions : g.transmissions = f.transmissions
  eligible      : g.rttEligible → f.rttEligible
  lastSent      : g.lastSent = f.lastSent ∨ g.lastSent = none ∨
    f.lastSent.isSome ∧ g.rttEligible = false

namespace Survives

theorem refl (f : Flight) : Survives f f :=
  ⟨rfl, rfl, id, .inl rfl⟩

theorem trans (h₁ : Survives f g) (h₂ : Survives g h) : Survives f h where
  created       := h₂.created.trans h₁.created
  transmissions := h₂.transmissions.trans h₁.transmissions
  eligible      := h₁.eligible ∘ h₂.eligible
  lastSent      := by
    have hineligible (hg : g.rttEligible = false) : h.rttEligible = false :=
      Bool.eq_false_iff.mpr fun hh => by simp [h₂.eligible hh] at hg
    rcases h₂.lastSent with hl | hl | ⟨hs, he⟩
    · rw [hl]
      exact h₁.lastSent.imp_right (.imp_right (.imp_right hineligible))
    · exact .inr (.inl hl)
    · rcases h₁.lastSent with hl' | hl' | ⟨hs', _⟩
      · exact .inr (.inr ⟨hl' ▸ hs, he⟩)
      · simp [hl'] at hs
      · exact .inr (.inr ⟨hs', he⟩)

end Survives

-- A flight that has just been started.
structure Fresh (now : Duration) (f : Flight) : Prop where
  created       : f.created = now
  lastSent      : f.lastSent = none
  transmissions : f.transmissions = 0

end Flight

open Flight (Survives Fresh)

-- The first `m` flights are taken off the front, and the others survive in their order.
structure Outlive (m : Nat) (fs gs : List Flight) : Prop where
  length : m + gs.length = fs.length
  origin : ∀ {i g}, gs[i]? = some g → ∃ f, fs[m + i]? = some f ∧ Survives f g

namespace Outlive

variable {m n : Nat} {fs gs hs : List Flight}

theorem refl (fs : List Flight) : Outlive 0 fs fs where
  length        := Nat.zero_add _
  origin {i f} h := ⟨f, by rwa [Nat.zero_add], .refl f⟩

theorem nil (fs : List Flight) : Outlive fs.length fs [] where
  length   := rfl
  origin h := by simp at h

theorem cons (f : Flight) (h : Outlive m fs gs) : Outlive (m + 1) (f :: fs) gs where
  length   := by simp [← h.length]; omega
  origin {i g} hg := by
    have ⟨f, hf, hs⟩ := h.origin hg
    exact ⟨f, by rwa [Nat.add_right_comm, List.getElem?_cons_succ], hs⟩

theorem trans (h₁ : Outlive m fs gs) (h₂ : Outlive n gs hs) : Outlive (m + n) fs hs where
  length   := by
    have := h₁.length
    have := h₂.length
    omega
  origin {i h} hh := by
    have ⟨g, hg, hs₂⟩ := h₂.origin hh
    have ⟨f, hf, hs₁⟩ := h₁.origin hg
    exact ⟨f, by rwa [Nat.add_assoc], hs₁.trans hs₂⟩

theorem map {u : Flight → Flight} (h : ∀ f, Survives f (u f)) : Outlive 0 fs (fs.map u) where
  length   := by simp
  origin {i g} hg := by
    rw [List.getElem?_map, Option.map_eq_some_iff] at hg
    have ⟨f, hf, he⟩ := hg
    exact ⟨f, by rwa [Nat.zero_add], he ▸ h f⟩

theorem head {u : Flight → Flight} {f : Flight} (h : Survives f (u f)) :
    Outlive 0 (f :: fs) (u f :: fs) where
  length   := by simp
  origin {i g} hg := by
    rw [Nat.zero_add]
    cases i
    case zero   => exact ⟨f, rfl, by simpa using Option.some.inj hg ▸ h⟩
    case succ i => exact ⟨g, hg, .refl g⟩

theorem modifyHead {u : Flight → Flight} (h : ∀ f, Survives f (u f)) :
    Outlive 0 fs (fs.modifyHead u) := by
  cases fs
  case nil       => exact .refl []
  case cons f fs => exact head (h f)

theorem set {i : Nat} {f f' : Flight} (hi : fs[i]? = some f) (h : Survives f f') :
    Outlive 0 fs (fs.set i f') where
  length   := by simp
  origin {j g} hg := by
    rw [Nat.zero_add]
    rw [List.getElem?_set] at hg
    split at hg
    case isFalse => exact ⟨g, hg, .refl g⟩
    case isTrue hj =>
      split at hg
      · exact ⟨f, hj ▸ hi, Option.some.inj hg ▸ h⟩
      · simp at hg

theorem mem {g : Flight} (h : Outlive m fs gs) (hg : g ∈ gs) : ∃ f ∈ fs, Survives f g := by
  have ⟨i, hi⟩ := List.getElem?_of_mem hg
  have ⟨f, hf, hs⟩ := h.origin hi
  exact ⟨f, List.mem_of_getElem? hf, hs⟩

end Outlive

namespace Connection

variable {cfg : TcpConfig} {c : Connection} {now : Duration} {ack : U32}

theorem ackFlights_outlive (ack : U32) (now : Duration) (fs : List Flight) (acc : AckScan) :
    ∃ m, Outlive m fs (ackFlights ack now acc fs).flights := by
  induction fs generalizing acc
  case nil => exact ⟨0, .refl []⟩
  case cons f fs ih =>
    unfold ackFlights
    split
    case isTrue => exact ⟨0, .refl _⟩
    dsimp only
    split
    case isTrue =>
      exact (ih _).elim fun m hm => ⟨m + 1, hm.cons f⟩
    split
    case isTrue => exact ⟨0, .refl _⟩
    exact ⟨0, .head (u := fun f => { f with
      payload     := f.payload.drop (ack - f.sequence).toNat
      sequence    := ack
      rttEligible := false }) ⟨rfl, rfl, by simp, .inl rfl⟩⟩

variable (c)

theorem updateWindow_outlive (segment : Segment) :
    Outlive 0 c.flights (c.updateWindow segment).flights := by
  unfold updateWindow
  split
  case isFalse => exact .refl _
  dsimp only
  split
  case isFalse => exact .refl _
  case isTrue  => exact .map fun f => ⟨rfl, rfl, id, .inl rfl⟩

theorem restartTimer_outlive (now : Duration) :
    Outlive 0 c.flights (c.restartTimer now).flights := by
  apply Outlive.modifyHead
  intro f
  split
  case isTrue hs => exact ⟨rfl, rfl, nofun, .inr (.inr ⟨hs, rfl⟩)⟩
  case isFalse   => exact .refl f

theorem growCwnd_flights (flags : U8) (n : Nat) (cfg : TcpConfig) :
    (c.growCwnd flags n cfg).flights = c.flights := by
  unfold growCwnd
  dsimp only
  split_ifs <;> rfl

theorem finAcknowledged_flights (now : Duration) (cfg : TcpConfig) :
    (c.finAcknowledged now cfg).flights = c.flights := by
  unfold finAcknowledged
  cases c.state <;> rfl

theorem progress_outlive (ack : U32) (now : Duration) (cfg : TcpConfig) :
    ∃ m, Outlive m c.flights (c.progress ack now cfg).flights := by
  have ⟨m, hm⟩ := ackFlights_outlive ack now c.flights .init
  refine ⟨m, ?_⟩
  unfold progress
  dsimp only
  split
  case isTrue => exact hm
  have restart {d : Connection} (hd : d.flights = (ackFlights ack now .init c.flights).flights)
      (flags : U8) (n : Nat) :
      Outlive m c.flights (((d.restartTimer now).growCwnd flags n cfg)).flights := by
    rw [growCwnd_flights]
    exact (hd ▸ hm).trans (d.restartTimer_outlive now)
  split
  case isTrue =>
    rw [finAcknowledged_flights]
    split <;> exact restart rfl ..
  case isFalse => split <;> exact restart rfl ..

theorem acknowledge_outlive (segment : Segment) (now : Duration) (cfg : TcpConfig) :
    ∃ m, Outlive m c.flights (c.acknowledge segment now cfg).flights := by
  unfold acknowledge
  split
  case isTrue => exact ⟨0, .refl _⟩
  dsimp only
  split
  case isTrue => exact ⟨0, c.updateWindow_outlive segment⟩
  have ⟨m, hm⟩ := (c.updateWindow segment).progress_outlive segment.acknowledgment now cfg
  exact ⟨0 + m, (c.updateWindow_outlive segment).trans hm⟩

-- A connection that differs from `c` only in what a handshake can change before the acknowledgment
-- of a segment is processed.
def offer (c d : Connection) : Connection :=
  { c with
    state          := d.state
    phaseDeadline  := d.phaseDeadline
    receiveNext    := d.receiveNext
    peerWindow     := d.peerWindow
    peerMss        := d.peerMss
    windowSequence := d.windowSequence
    windowAck      := d.windowAck }

-- All ways in which a segment can be processed, with regard to the flights and their timers.
inductive Processed (cfg : TcpConfig) (c : Connection) (segment : Segment) (now : Duration) :
    Connection → Prop
  | pending (b : Bool) (deadline : Option Duration) :
    Processed cfg c segment now { c with ackPending := b, phaseDeadline := deadline }
  | repeated :
    Processed cfg c segment now
      { c with flights := c.flights.modifyHead ({ · with lastSent := none }) }
  | reset :
    Processed cfg c segment now (c.fail .reset)
  | acked {d c' : Connection}
      (offered : d = c.offer d)
      (ack : before c.sendSent segment.acknowledgment = false)
      (received : c' = (d.acknowledge segment now cfg).receiveStep c') :
    Processed cfg c segment now c'

theorem input_processed (segment : Segment) (now : Duration) (cfg : TcpConfig) :
    Processed cfg c segment now (c.input segment now cfg) := by
  have same : Processed cfg c segment now c := .pending c.ackPending c.phaseDeadline
  apply input_elim
  case same => exact same
  case pending =>
    intro deadline _ _
    exact .pending true deadline
  case repeated => exact fun _ => .repeated
  case reset => exact fun _ => .reset
  case synSent =>
    intro hs
    have h : Input cfg c segment now (c.synSent segment now cfg) := synSent_cases hs segment now
    generalize c.synSent segment now cfg = c' at h
    cases h
    case ignored => exact same
    case quiet hne _ => exact absurd hs hne
    case reset => exact .reset
    case opened ha _ _ _ =>
      refine .acked (d := c.synAccepted segment) rfl (by simp [ha]) ?_
      rw [receiveData_frame]
      rfl
    case answered hs' _ _ _ => simp [hs'] at hs
    case accepted hh _ _ => simp [hs, TcpState.isHandshake] at hh
  case acked =>
    intro _ _ _ hb _
    have ho : (if c.state = .synReceived then c.establish else c) =
        c.offer (if c.state = .synReceived then c.establish else c) := by
      split <;> rfl
    dsimp only
    generalize (if c.state = .synReceived then c.establish else c) = d at ho
    refine .acked ho hb ?_
    split
    · rfl
    · rw [receiveData_frame]
      rfl

theorem input_outlive (segment : Segment) (now : Duration) (cfg : TcpConfig) :
    ∃ m, Outlive m c.flights (c.input segment now cfg).flights := by
  have h := c.input_processed segment now cfg
  generalize c.input segment now cfg = c' at h
  cases h
  case pending => exact ⟨0, .refl _⟩
  case repeated => exact ⟨0, .modifyHead fun f => ⟨rfl, rfl, id, .inr (.inl rfl)⟩⟩
  case reset => exact ⟨_, .nil _⟩
  case acked d hd _ hr =>
    have ⟨m, hm⟩ := d.acknowledge_outlive segment now cfg
    have hf : d.flights = c.flights := by
      rw [hd]
      rfl
    refine ⟨m, ?_⟩
    rw [hr, ← hf]
    exact hm

-- The record of the probe of a closed window.
def probing : Bool × Duration :=
  (c.probePending, c.windowProbeAt)

theorem progress_probing (ack : U32) (now : Duration) (cfg : TcpConfig) :
    (c.progress ack now cfg).probing = c.probing := by
  have grow (c : Connection) (flags : U8) (n : Nat) :
      (c.growCwnd flags n cfg).probing = c.probing := by
    unfold growCwnd
    dsimp only
    split_ifs <;> rfl
  have fin (c : Connection) : (c.finAcknowledged now cfg).probing = c.probing := by
    unfold finAcknowledged
    cases c.state <;> rfl
  unfold progress
  dsimp only
  split
  case isTrue => rfl
  split
  case isTrue =>
    rw [fin, grow]
    split <;> rfl
  rw [grow]
  split <;> rfl

theorem acknowledge_probing (segment : Segment) (now : Duration)
    (cfg : TcpConfig) : (c.acknowledge segment now cfg).probing = c.probing := by
  have hw : (c.updateWindow segment).probing = c.probing := by
    unfold updateWindow
    split <;> rfl
  unfold acknowledge
  split
  case isTrue => rfl
  dsimp only
  split
  case isTrue  => exact hw
  case isFalse => exact (progress_probing ..).trans hw

theorem input_probing (segment : Segment) (now : Duration) (cfg : TcpConfig) :
    (c.input segment now cfg).probing = c.probing := by
  have h := c.input_processed segment now cfg
  generalize c.input segment now cfg = c' at h
  cases h
  case pending | repeated | reset => rfl
  case acked d hd _ hr =>
    have hf : d.probing = c.probing := by
      rw [hd]
      rfl
    rw [hr, ← hf]
    exact acknowledge_probing ..

theorem prepareData_flights (now : Duration) (cfg : TcpConfig) :
    (c.prepareData now cfg).flights = c.flights ∨
    ∃ f, Fresh now f ∧ (c.prepareData now cfg).flights = c.flights ++ [f] := by
  unfold prepareData
  dsimp only
  generalize (if c.peerWindow == 0 && c.flights.isEmpty then 1
    else min c.cwnd c.peerWindow.toNat - (c.sendNext - c.sendUna).toNat) = available
  split
  case isTrue  => exact .inl rfl
  case isFalse => exact .inr ⟨_, ⟨rfl, rfl, rfl⟩, rfl⟩

-- At most one new flight is put in line.
theorem prepare_flights (now : Duration) (cfg : TcpConfig) :
    (c.prepare now cfg).flights = c.flights ∨
    ∃ f, Fresh now f ∧ (c.prepare now cfg).flights = c.flights ++ [f] := by
  unfold prepare
  split
  case isTrue => exact .inl rfl
  split
  case isTrue =>
    have h := (c.restartIdle now cfg).prepareData_flights now cfg
    rwa [restartIdle_flights] at h
  split
  case isFalse => exact .inl rfl
  unfold prepareFin
  split
  case isTrue => exact .inr ⟨_, ⟨rfl, rfl, rfl⟩, rfl⟩
  split <;> exact .inl rfl

theorem recheck_outlive (i : Nat) (now : Duration) :
    Outlive 0 c.flights (c.recheck i now).fst.flights := by
  unfold recheck
  split
  case h_1 => exact .refl _
  case h_2 f hf =>
    split
    case isFalse => exact .refl _
    dsimp only
    generalize (if c.peerWindow == 0 && c.bytesInFlight == 0 then 1
      else min c.cwnd c.peerWindow.toNat - c.bytesInFlight) = available
    split
    case isTrue => split <;> exact .refl _
    unfold trim
    split
    all_goals exact .set hf ⟨rfl, rfl, id, .inl rfl⟩

theorem stage_flights (now : Duration) (cfg : TcpConfig) :
    Outlive 0 c.flights (c.stage now cfg).fst.flights ∨
    ∃ f, Fresh now f ∧ Outlive 0 (c.flights ++ [f]) (c.stage now cfg).fst.flights := by
  have hp : Outlive 0 (c.prepare now cfg).flights (c.stage now cfg).fst.flights := by
    unfold stage
    dsimp only
    split
    case h_1 => exact recheck_outlive ..
    case h_2 => exact .refl _
  rcases c.prepare_flights now cfg with h | ⟨f, hf, h⟩ <;> rw [h] at hp
  · exact .inl hp
  · exact .inr ⟨f, hf, hp⟩

variable {c}

theorem recordFlight_flights_first {i : Nat} {f : Flight} (hf : c.flights[i]? = some f)
    (hu : f.transmissions = 0) (now : Duration) (cfg : TcpConfig) :
    (c.recordFlight i now cfg).fst.flights = c.flights.set i (firstSent f now) := by
  have h1 : saturatingAdd 32 0 1 = 1 := by decide
  simp [recordFlight, hf, hu, firstSent, h1]

-- With every retransmission, all flights are taken out of the measurements.
theorem recordFlight_flights_again {i : Nat} {f : Flight} (hf : c.flights[i]? = some f)
    (hu : f.transmissions ≠ 0) (now : Duration) (cfg : TcpConfig) :
    (c.recordFlight i now cfg).fst.flights =
      (c.flights.map ({ · with rttEligible := false })).set i
        (sentAgain f (c.retransmit f now cfg).rto now) := by
  simp [recordFlight, hf, Nat.pos_of_ne_zero hu, sentAgain, retransmit_flights]

theorem record_flights (c : Connection) (i : Nat) (now : Duration) (cfg : TcpConfig) :
    (c.record (some i) now cfg).fst.flights = (c.recordFlight i now cfg).fst.flights := by
  rw [record_some]
  rfl

theorem record_length (c : Connection) (index : Option Nat) (now : Duration) (cfg : TcpConfig) :
    (c.record index now cfg).fst.flights.length = c.flights.length := by
  cases index
  case none => rw [record_none]; rfl
  case some i =>
    rw [record_flights]
    cases hf : c.flights[i]?
    case none => rw [recordFlight, hf]
    case some f =>
      by_cases hu : f.transmissions = 0
      · simp [recordFlight_flights_first hf hu]
      · simp [recordFlight_flights_again hf hu]

-- A call of `transmit` stages a segment, and records it if the device accepts it.
theorem transmitted_forms (ht : c.state.isTerminal = false) (now : Duration) (cfg : TcpConfig)
    (outcome : Submission) :
    ((outcome = .accepted → c.emission now cfg = none) ∧
      ∃ b, (c.transmitted now cfg outcome).fst =
        { (c.stage now cfg).fst with deviceBlocked := b }) ∨
    (outcome = .accepted ∧ (c.emission now cfg).isSome ∧
      (c.transmitted now cfg outcome).fst =
        ((c.stage now cfg).fst.record (c.stage now cfg).snd now cfg).fst) := by
  unfold transmitted emission
  rw [if_neg (by simp [ht]), if_neg (by simp [ht])]
  dsimp only
  split
  case isTrue => exact .inl ⟨fun _ => rfl, _, rfl⟩
  cases outcome
  case blocked  => exact .inl ⟨nofun, true, rfl⟩
  case failed   => exact .inl ⟨nofun, _, rfl⟩
  case accepted => exact .inr ⟨rfl, rfl, rfl⟩

end Connection
