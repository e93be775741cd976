import AsyncNetStack.Tcp.Tracked
import AsyncNetStack.Tcp.Theorems.Runs
import AsyncNetStack.Tcp.Theorems.Timing

open List

open Serial Tcp
open Flight (Survives Fresh)

theorem Endpoint.call_outlive (e : Endpoint) (cfg : TcpConfig) (call : Call)
    (hc : ∀ now outcome, call ≠ .transmit now outcome) :
    ∃ m, Outlive m e.conn.flights (e.call cfg call).conn.flights := by
  have same {c : Connection} (h : c.flights = e.conn.flights) :
      ∃ m, Outlive m e.conn.flights c.flights := ⟨0, h ▸ .refl _⟩
  cases call
  case write bytes =>
    simp only [Endpoint.call, Endpoint.write]
    rcases e.conn.write_cases bytes cfg with ⟨err, hw⟩ | hw | ⟨n, -, -, -, hw⟩ <;> simp only [hw]
    all_goals exact same rfl
  case read size =>
    simp only [Endpoint.call, Endpoint.read]
    rcases e.conn.read_cases size with ⟨err, hr⟩ | ⟨hr, -⟩ | ⟨n, hr, -, -⟩ <;> simp only [hr]
    all_goals exact same rfl
  case close now =>
    simp only [Endpoint.call, Endpoint.close]
    rcases e.conn.close_cases now cfg with ⟨-, hc⟩ | ⟨err, hc⟩ | ⟨-, d, hc⟩ <;> simp only [hc]
    all_goals exact same rfl
  case tick now =>
    simp only [Endpoint.call]
    rcases e.conn.tick_cases now cfg with ht | ⟨-, ht⟩ | ⟨-, ht⟩ <;> rw [ht]
    · exact same rfl
    · exact same rfl
    · exact ⟨_, .nil _⟩
  case transmit now outcome => exact absurd rfl (hc now outcome)

namespace Tracked

variable {cfg : TcpConfig} {log : List Entry} {e : Entry} {k i m : Nat} {f g : Flight}
variable {t now : Duration} {s s' : Tracked}

def numbers (log : List Entry) : List Nat :=
  log.map (·.flight)

-- How often a flight was submitted.
def submissions (log : List Entry) (k : Nat) : Nat :=
  (numbers log).count k

-- Flight `k` was submitted once, at `t`. Since then, only flights that had not been submitted
-- before were submitted, and each of them once.
def SentOnce (log : List Entry) (k : Nat) (t : Duration) : Prop :=
  ∃ pre persist post, log = pre ++ ⟨k, t, persist⟩ :: post ∧
    (numbers (⟨k, t, persist⟩ :: post)).Nodup ∧
    (numbers pre).Disjoint (numbers (⟨k, t, persist⟩ :: post))

theorem submissions_concat : submissions (log ++ [e]) k =
    submissions log k + if e.flight = k then 1 else 0 := by
  simp only [submissions, numbers, map_append, map_cons, map_nil, count_append,
    count_singleton, beq_iff_eq]

theorem submissions_eq_zero : submissions log k = 0 ↔ k ∉ numbers log :=
  count_eq_zero

theorem SentOnce.first (h : submissions log e.flight = 0) :
    SentOnce (log ++ [e]) e.flight e.time := by
  refine ⟨log, e.persist, [], rfl, by simp [numbers], fun k hk hk' => ?_⟩
  obtain rfl : k = e.flight := by simpa [numbers] using hk'
  exact submissions_eq_zero.mp h hk

-- The first submission of another flight makes no difference.
theorem SentOnce.concat (h : SentOnce log k t) (he : submissions log e.flight = 0) :
    SentOnce (log ++ [e]) k t := by
  have ⟨pre, persist, post, hl, hn, hd⟩ := h
  have hnew := submissions_eq_zero.mp he
  rw [hl] at hnew
  simp only [numbers, map_append, mem_append, not_or] at hnew hn hd
  refine ⟨pre, persist, post ++ [e], by simp [hl], ?_, ?_⟩
  all_goals simp only [← cons_append, numbers, map_append]
  · refine nodup_append.mpr ⟨hn, by simp, fun x hx y hy => ?_⟩
    rintro rfl
    obtain rfl : x = e.flight := by simpa using hy
    exact hnew.right hx
  · intro x hx hx'
    rcases mem_append.mp hx' with hx' | hx'
    · exact hd hx hx'
    · obtain rfl : x = e.flight := by simpa using hx'
      exact hnew.left hx

-- What the record about a flight says about its submissions. The counter saturates.
structure Follows (log : List Entry) (k : Nat) (f : Flight) : Prop where
  count    : f.transmissions = min (submissions log k) (2 ^ 32 - 1)
  measured : f.rttEligible → f.transmissions = 1 →
    ∃ t, SentOnce log k t ∧ (f.lastSent = none ∨ f.lastSent = some t)

namespace Follows

theorem survives (h : Follows log k f) (hs : Survives f g) : Follows log k g where
  count := hs.transmissions.trans h.count
  measured he ht := by
    have ⟨t, ho, hl⟩ := h.measured (hs.eligible he) (hs.transmissions ▸ ht)
    refine ⟨t, ho, ?_⟩
    rcases hs.lastSent with hl' | hl' | ⟨-, hl'⟩
    · rwa [hl']
    · exact .inl hl'
    · simp [he] at hl'

theorem fresh (h : Fresh now f) (hk : submissions log k = 0) : Follows log k f where
  count        := by rw [h.transmissions, hk]; rfl
  measured _ ht := by simp [h.transmissions] at ht

theorem submissions_eq_zero_iff (h : Follows log k f) :
    f.transmissions = 0 ↔ submissions log k = 0 := by
  rw [h.count]
  omega

-- The flight is submitted for the first time.
theorem first (h : Follows log e.flight f) (hu : f.transmissions = 0) (hn : e.time = now) :
    Follows (log ++ [e]) e.flight (Connection.firstSent f now) where
  count := by
    rw [submissions_concat, h.submissions_eq_zero_iff.mp hu, if_pos rfl]
    rfl
  measured _ _ := ⟨e.time, .first (h.submissions_eq_zero_iff.mp hu), .inr (by rw [hn]; rfl)⟩

-- The flight is submitted again.
theorem again (h : Follows log e.flight f) (rto : Duration) :
    Follows (log ++ [e]) e.flight (Connection.sentAgain f rto now) where
  count := by
    have hc := h.count
    rw [submissions_concat, if_pos rfl]
    simp only [Connection.sentAgain, saturatingAdd]
    omega
  measured he := by simp [Connection.sentAgain] at he

-- Another flight is submitted for the first time.
theorem other (h : Follows log k f) (hk : e.flight ≠ k) (he : submissions log e.flight = 0) :
    Follows (log ++ [e]) k f where
  count := by rw [submissions_concat, if_neg hk, Nat.add_zero, h.count]
  measured hr ht := by
    have ⟨t, ho, hl⟩ := h.measured hr ht
    exact ⟨t, ho.concat he, hl⟩

-- Another flight is submitted again.
theorem ineligible (h : Follows log k f) (hk : e.flight ≠ k) :
    Follows (log ++ [e]) k { f with rttEligible := false } where
  count    := by rw [submissions_concat, if_neg hk, Nat.add_zero]; exact h.count
  measured := nofun

end Follows

-- The log agrees with the records about the flights.
structure Sound (s : Tracked) : Prop where
  born    : s.conn.flights.length ≤ s.born
  bound   : ∀ e ∈ s.log, e.flight < s.born
  follows : ∀ {i f}, s.conn.flights[i]? = some f → Follows s.log (s.number i) f

namespace Sound

theorem «open» (cfg : TcpConfig) (o : Opening) : Sound (.open cfg o) where
  born          := Nat.le_refl _
  bound         := nofun
  follows {i f} hf := by
    have hm := mem_of_getElem? hf
    have hfresh : f.transmissions = 0 := by
      cases o <;> simp_all [Tracked.open, Endpoint.open, Endpoint.open.init, Connection.active,
        Connection.passive, Connection.startFlight]
    exact ⟨by rw [hfresh]; rfl, fun _ h => by simp [hfresh] at h⟩

-- A step that takes flights off the front at most.
theorem outlive (h : Sound s) (ho : Outlive m s.conn.flights s'.conn.flights)
    (hb : s'.born = s.born) (hl : s'.log = s.log) : Sound s' where
  born := by
    have := ho.length
    have := h.born
    omega
  bound := by rw [hl, hb]; exact h.bound
  follows {i g} hg := by
    have ⟨f, hf, hs⟩ := ho.origin hg
    have hn : s'.number i = s.number (m + i) := by
      have := ho.length
      have := h.born
      simp only [number, hb]
      omega
    rw [hl, hn]
    exact (h.follows hf).survives hs

theorem same (h : Sound s) (hf : s'.conn.flights = s.conn.flights) (hb : s'.born = s.born)
    (hl : s'.log = s.log) : Sound s' :=
  h.outlive (m := 0) (hf ▸ .refl _) hb hl

-- A step that also starts a flight.
theorem push (h : Sound s) (hf : Fresh now f)
    (ho : Outlive 0 (s.conn.flights ++ [f]) s'.conn.flights)
    (hb : s'.born = s.born + 1) (hl : s'.log = s.log) : Sound s' := by
  have hlen := ho.length
  have hborn := h.born
  simp only [Nat.zero_add, length_append, length_singleton] at hlen
  refine ⟨by omega, fun e he => ?_, fun {i g} hg => ?_⟩
  · have := h.bound e (hl ▸ he)
    omega
  · have ⟨f', hf', hs⟩ := ho.origin hg
    rw [Nat.zero_add] at hf'
    rw [hl]
    refine Follows.survives ?_ hs
    by_cases hi : i < s.conn.flights.length
    case pos =>
      rw [List.getElem?_append_left hi] at hf'
      have hn : s'.number i = s.number i := by
        simp only [number]
        omega
      rw [hn]
      exact h.follows hf'
    case neg =>
      -- The number of the new flight has not been used before.
      rw [List.getElem?_append_right (Nat.not_lt.mp hi), List.getElem?_singleton] at hf'
      split at hf'
      case isFalse => simp at hf'
      obtain rfl := Option.some.inj hf'
      have hn : s'.number i = s.born := by
        simp only [number]
        omega
      refine .fresh hf (submissions_eq_zero.mpr fun hm => ?_)
      have ⟨e, he, hk⟩ := mem_map.mp hm
      have := h.bound e he
      omega

theorem staged (h : Sound s) (cfg : TcpConfig) (now : Duration) : Sound (s.staged cfg now) := by
  rcases s.conn.stage_flights now cfg with ho | ⟨f, hf, ho⟩
  case inl =>
    refine h.outlive ho ?_ rfl
    have := ho.length
    simp only [Tracked.staged]
    omega
  refine h.push hf ho ?_ rfl
  have := ho.length
  simp only [length_append, length_singleton] at this
  simp only [Tracked.staged]
  omega

-- A step that records the submission of a flight.
theorem record (h : Sound s) (hf : s.conn.flights[i]? = some f)
    (hc : s'.conn.flights = (s.conn.recordFlight i now cfg).fst.flights) (hb : s'.born = s.born)
    (hl : s'.log = s.log ++ [⟨s.number i, now, f.persist⟩]) : Sound s' := by
  have hlt : i < s.conn.flights.length := (List.getElem?_eq_some_iff.mp hf).fst
  have hborn := h.born
  have hfollows := h.follows hf
  -- It is enough to look at the flights one by one.
  suffices hs : s'.conn.flights.length = s.conn.flights.length ∧ ∀ {j g},
      s'.conn.flights[j]? = some g → Follows s'.log (s.number j) g by
    refine ⟨by omega, ?_, fun {j g} hg => ?_⟩
    · simp only [hl, hb, mem_append, mem_singleton]
      rintro e (he | rfl)
      · exact h.bound e he
      · simp only [number]
        omega
    · have hn : s'.number j = s.number j := by simp only [number, hs.left, hb]
      exact hn ▸ hs.right hg
  have hne {j : Nat} (hj : ¬i = j) : s.number i ≠ s.number j := by
    simp only [number]
    omega
  rw [hl, hc]
  by_cases hu : f.transmissions = 0
  case pos =>
    rw [Connection.recordFlight_flights_first hf hu]
    refine ⟨by simp, fun {j g} hg => ?_⟩
    rw [List.getElem?_set] at hg
    split at hg
    case isTrue hj =>
      exact Option.some.inj hg ▸ hj ▸ hfollows.first (e := ⟨_, _, _⟩) hu rfl
    case isFalse hj =>
      exact (h.follows hg).other (hne hj) (hfollows.submissions_eq_zero_iff.mp hu)
  case neg =>
    rw [Connection.recordFlight_flights_again hf hu]
    refine ⟨by simp, fun {j g} hg => ?_⟩
    rw [List.getElem?_set] at hg
    split at hg
    case isTrue hj =>
      rw [length_map, if_pos (hj ▸ hlt)] at hg
      exact Option.some.inj hg ▸ hj ▸ hfollows.again (e := ⟨_, _, _⟩) _
    case isFalse hj =>
      rw [List.getElem?_map, Option.map_eq_some_iff] at hg
      have ⟨g', hg', he⟩ := hg
      exact he ▸ (h.follows hg').ineligible (hne hj)

theorem recorded (h : Sound s) (index : Option Nat) (now : Duration) (cfg : TcpConfig)
    (hc : s'.conn.flights = (s.conn.record index now cfg).fst.flights) (hb : s'.born = s.born)
    (hl : s'.log = s.log ++ (s.entry index now).toList) : Sound s' := by
  cases index
  case none =>
    rw [Connection.record_none] at hc
    exact h.same hc hb (by simpa [entry] using hl)
  case some i =>
    rw [Connection.record_flights] at hc
    cases hf : s.conn.flights[i]?
    case none =>
      rw [Connection.recordFlight, hf] at hc
      exact h.same hc hb (by simpa [entry, hf] using hl)
    case some f => exact h.record hf hc hb (by simpa [entry, hf] using hl)

theorem transmit (h : Sound s) (cfg : TcpConfig) (now : Duration) (outcome : Submission) :
    Sound (s.step cfg (.call (.transmit now outcome))) := by
  have hconn : (s.step cfg (.call (.transmit now outcome))).conn =
      (s.conn.transmitted now cfg outcome).fst := by
    simp only [step, Endpoint.step, Endpoint.call, Endpoint.transmit]
    split <;> rfl
  have hborn : (s.step cfg (.call (.transmit now outcome))).born = s.born +
      ((s.conn.transmitted now cfg outcome).fst.flights.length - s.conn.flights.length) := by
    rw [← hconn]
    rfl
  have hlog (he : outcome = .accepted → s.conn.emission now cfg = none) :
      (s.step cfg (.call (.transmit now outcome))).log = s.log := by
    cases outcome <;> simp [step, submission, he]
  cases ht : s.conn.state.isTerminal
  case true =>
    rw [Connection.transmitted, if_pos ht] at hconn hborn
    refine h.same (by rw [hconn]) ?_ (hlog fun _ => ?_)
    · rw [hborn, Nat.sub_self, Nat.add_zero]
    · rw [Connection.emission, if_pos ht]
  case false =>
    have hs := h.staged cfg now
    rcases Connection.transmitted_forms ht now cfg outcome with ⟨he, b, hc⟩ | ⟨rfl, he, hc⟩
    case inl =>
      rw [hc] at hconn hborn
      exact hs.same (by rw [hconn]; rfl) hborn (hlog he)
    rw [hc] at hconn hborn
    rw [Connection.record_length] at hborn
    refine hs.recorded (s.conn.stage now cfg).snd now cfg ?_ hborn ?_
    · rw [hconn]
      rfl
    · simp only [step, submission, he, if_true]
      rfl

theorem step (h : Sound s) (cfg : TcpConfig) (op : Op) : Sound (s.step cfg op) := by
  -- All other operations take flights off the front at most.
  have other (ho : ∃ m, Outlive m s.conn.flights (s.toEndpoint.step cfg op).conn.flights)
      (hl : s.submission cfg op = none) : Sound (s.step cfg op) := by
    obtain ⟨m, ho⟩ := ho
    have hlen := ho.length
    refine h.outlive ho ?_ (by simp [Tracked.step, hl])
    simp only [Tracked.step]
    omega
  cases op
  case fail => exact other ⟨_, .nil _⟩ rfl
  case input segment now =>
    refine other ?_ rfl
    obtain ⟨m, hm⟩ := s.conn.input_outlive segment now cfg
    refine ⟨m, ?_⟩
    simp only [Endpoint.step, Endpoint.input]
    split <;> exact hm
  case call call =>
    by_cases hc : ∃ now outcome, call = .transmit now outcome
    case pos =>
      obtain ⟨now, outcome, he⟩ := hc
      exact he ▸ h.transmit cfg now outcome
    case neg =>
      simp only [not_exists] at hc
      refine other (s.toEndpoint.call_outlive cfg call hc) ?_
      cases call
      case transmit now outcome => exact absurd rfl (hc now outcome)
      all_goals rfl

theorem run (cfg : TcpConfig) (o : Opening) (ops : List Op) : Sound (run cfg o ops) :=
  Transition.exec_induction («open» cfg o) fun _ op h => h.step cfg op

end Sound

-- How often a flight was submitted as an ordinary segment.
def ordinary (log : List Entry) (k : Nat) : Nat :=
  log.countP fun e => e.flight == k && !e.persist

theorem ordinary_of_unprobed (h : ∀ e ∈ log, e.flight = k → e.persist = false) :
    ordinary log k = submissions log k := by
  rw [submissions, numbers, List.count, countP_map]
  refine countP_congr fun e he => ?_
  simp only [Bool.and_eq_true, beq_iff_eq, Bool.not_eq_true', Function.comp_apply]
  exact ⟨And.left, fun hk => ⟨hk, h e he hk⟩⟩

end Tracked

namespace Connection

variable {cfg : TcpConfig} {c : Connection} {now : Duration}

-- The test of the retransmission limit, which is one of those that end a connection in `tick`.
def countExpired (c : Connection) (now : Duration) (cfg : TcpConfig) : Bool :=
  c.flights.head?.any fun f => !f.persist && f.due now && f.transmissions > cfg.maxRetransmits

theorem tick_of_countExpired (hs : c.state = .established) (h : c.countExpired now cfg) :
    (c.tick now cfg).state = .timedOut := by
  have he : c.expired now cfg = true := by
    have ⟨f, hf, hx⟩ := (Option.any_eq_true ..).mp h
    simp [expired, hf, hx]
  simp [tick, hs, TcpState.isTerminal, he, fail]

end Connection

namespace Tracked

variable {cfg : TcpConfig} {s : Tracked} {now : Duration}

theorem limit_counts_unprobed (o : Opening) (ops : List Op) (hs : run cfg o ops = s)
    (he : s.conn.state = .established) (hx : s.conn.countExpired now cfg)
    (hp : ∀ e ∈ s.log, e.flight = s.number 0 → e.persist = false) :
    (s.conn.tick now cfg).state = .timedOut ∧
    cfg.maxRetransmits < ordinary s.log (s.number 0) := by
  have hsound : Sound s := hs ▸ .run cfg o ops
  refine ⟨Connection.tick_of_countExpired he hx, ?_⟩
  have ⟨f, hf, hx⟩ := (Option.any_eq_true ..).mp hx
  simp only [Bool.and_eq_true, decide_eq_true_eq] at hx
  have hc := (hsound.follows (List.head?_eq_getElem? ▸ hf)).count
  rw [ordinary_of_unprobed hp]
  omega

open Endpoint (client fromServer)

-- Two retransmissions are allowed.
def twoRetransmits : TcpConfig :=
  { TcpConfig.default with maxRetransmits := 2 }

def polled (now : Duration) : List Op :=
  [.call (.tick now), .call (.transmit now .accepted)]

-- A byte is sent three times as an ordinary segment, and never acknowledged.
def unanswered : List Op :=
  polled .zero ++ [.input (fromServer (SYN ||| ACK) 500 8 []) .zero] ++ polled .zero ++
  [.call (.write [1])] ++ polled .zero ++ polled (.fromSecs 1) ++ polled (.fromSecs 3)

theorem limit_counts_unprobed_unanswered :
    let s := run twoRetransmits client unanswered
    s.conn.countExpired (.fromSecs 7) twoRetransmits ∧
    (s.conn.tick (.fromSecs 7) twoRetransmits).state = .timedOut ∧ 2 < ordinary s.log 1 := by
  have hx :
      (run twoRetransmits client unanswered).conn.countExpired (.fromSecs 7) twoRetransmits := by
    decide +kernel
  exact ⟨hx, limit_counts_unprobed client unanswered rfl (by decide +kernel) hx (by decide +kernel)⟩

-- The peer closes its window at the end of the handshake. A byte is sent three times as a probe,
-- and then the window is reopened, without an acknowledgment of the byte.
def probed : List Op :=
  polled .zero ++ [.input { fromServer (SYN ||| ACK) 500 8 [] with window := 0 } .zero] ++
  polled .zero ++ [.call (.write [1])] ++
  polled .zero ++ polled (.fromSecs 1) ++ polled (.fromSecs 3) ++
  [.input (fromServer ACK 501 8 []) (.fromSecs 3)] ++ polled (.fromSecs 3)

-- The next call of `tick` ends the connection, although the byte was never sent as an ordinary
-- segment. No deadline has passed.
theorem limit_counts_probes :
    let s := run twoRetransmits client probed
    twoRetransmits.rejected = false ∧ s.conn.state = .established ∧
    s.conn.countExpired (.fromSecs 7) twoRetransmits ∧
    (s.conn.tick (.fromSecs 7) twoRetransmits).state = .timedOut ∧
    s.conn.phaseDeadline = none ∧ s.conn.closeDeadline = none ∧
    s.conn.flights.map (·.created.saturatingAdd twoRetransmits.sendTimeout) = [.fromSecs 120] ∧
    ordinary s.log (s.number 0) = 0 := by
  decide +kernel

end Tracked
