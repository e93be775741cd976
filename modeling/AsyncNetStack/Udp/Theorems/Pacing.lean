import AsyncNetStack.Lib.Pace
import AsyncNetStack.Udp.Theorems.Queue

open Std Udp Transition Pace List Option

namespace UdpPool

variable {δ : Type} {p p₁ p₂ : UdpPool δ}

theorem spacing_le {bytes rate : Nat} (hr : 0 < rate) (hb : bytes < 2 ^ 64) :
    10 ^ 9 * bytes ≤ rate * (spacing bytes (some rate)).nanos := by
  have hceil : 10 ^ 9 * bytes ≤ rate * ((bytes * 10 ^ 9 + rate - 1) / rate) := by
    have := Nat.div_add_mod (bytes * 10 ^ 9 + rate - 1) rate
    have := Nat.mod_lt (bytes * 10 ^ 9 + rate - 1) hr
    omega
  -- A whole second per byte is the slowest pace there is.
  have hle : (bytes * 10 ^ 9 + rate - 1) / rate ≤ bytes * 10 ^ 9 := by
    have := Nat.le_mul_of_pos_left (bytes * 10 ^ 9) hr
    refine Nat.le_of_lt_succ (Nat.div_lt_of_lt_mul ?_)
    rw [Nat.mul_succ]
    omega
  have hnanos : (spacing bytes (some rate)).nanos = (bytes * 10 ^ 9 + rate - 1) / rate := by
    simp only [spacing]
    omega
  rw [hnanos]
  exact hceil

-- When the next datagram may follow one, by a rate.
def Submission.due (s : Submission) (rate : Option Nat) : Duration :=
  s.time.saturatingAdd (spacing s.datagram.frame.len rate)

theorem Submission.due_le {a b : Submission} {rate : Nat} (hr : 0 < rate)
    (hw : Whole a.datagram.frame) (hf : a.time.AddFits (spacing a.datagram.frame.len (some rate)))
    (h : a.due (some rate) ≤ b.time) :
    10 ^ 9 * a.datagram.frame.len + rate * a.time.nanos ≤ rate * b.time.nanos := by
  have hlen : a.datagram.frame.len < 2 ^ 64 := by
    obtain ⟨_, heq⟩ := hw
    have := (a.datagram.frame.asSlice[2] ++ a.datagram.frame.asSlice[3] : U16).isLt
    rw [← heq, Wire.totalLen]
    omega
  have hnanos : a.time.nanos + (spacing a.datagram.frame.len (some rate)).nanos ≤ b.time.nanos := by
    simp only [due, Duration.le_def, Duration.saturatingAdd, Duration.saturate,
      Duration.AddFits] at h hf
    omega
  calc 10 ^ 9 * a.datagram.frame.len + rate * a.time.nanos
    _ ≤ rate * (spacing a.datagram.frame.len (some rate)).nanos + rate * a.time.nanos :=
      Nat.add_le_add_right (spacing_le hr hlen) _
    _ = rate * (a.time.nanos + (spacing a.datagram.frame.len (some rate)).nanos) := by
      rw [Nat.mul_add, Nat.add_comm]
    _ ≤ rate * b.time.nanos := Nat.mul_le_mul_left _ hnanos

section

variable [Device δ]
variable {log : List (Selection δ)}

-- The time of a debt, which may be one of the pool or of a peer, is never in the future of the
-- datagram that follows.
theorem paced_trace (keep : Submission → Bool) (due : Submission → Duration)
    (holds : UdpPool δ → Duration → Prop)
    (hmove : ∀ p₁ p₂ t, Drifts p₁ p₂ → holds p₁ t → holds p₂ t)
    (hother : ∀ p₁ q p₂ t, Charges p₁ q p₂ → holds p₁ t → holds p₂ t)
    (hpaid : ∀ p₁ q p₂ t, Charges p₁ q p₂ → keep ⟨p₁.now, q⟩ → holds p₁ t → t ≤ p₁.now)
    (hnew : ∀ p₂ q p₃, p₂.config = p₁.config → Charges p₂ q p₃ → keep ⟨p₂.now, q⟩ →
      holds p₃ (due ⟨p₂.now, q⟩))
    (h : Trace Move Selects p₁ log p₂) :
    ((log.filterMap (·.submission)).filter keep).IsChain (fun a b => due a ≤ b.time) ∧
    ∀ a ∈ ((log.filterMap (·.submission)).filter keep).getLast?, holds p₂ (due a) := by
  induction h
  case refl => exact ⟨.nil, nofun⟩
  case move hm ih => exact ⟨ih.left, fun a ha => hmove _ _ _ hm.drifts (ih.right a ha)⟩
  case emit log t u s htrace hs ih =>
    obtain ⟨rfl, _, rfl⟩ := hs
    rw [submission_concat, filter_append, Selection.submission]
    cases hs : s.submitted
    case none =>
      have hd := result_drifts hs
      simp only [map_none, toList_none, filter_nil, append_nil]
      exact ⟨ih.left, fun a ha => hmove _ _ _ hd (ih.right a ha)⟩
    case some q =>
      have hc := result_charges hs
      rw [map_some, toList_some]
      cases hk : keep ⟨s.pool.now, q⟩
      case false =>
        rw [filter_cons_of_neg (by simp [hk]), filter_nil, append_nil]
        exact ⟨ih.left, fun a ha => hother _ _ _ _ hc (ih.right a ha)⟩
      case true =>
        rw [filter_cons_of_pos hk, filter_nil]
        refine ⟨isChain_append.mpr ⟨ih.left, .singleton _, fun a ha b hb => ?_⟩, fun a ha => ?_⟩
        case refine_1 =>
          obtain rfl := Option.some.inj hb
          exact hpaid _ _ _ _ hc hk (ih.right a ha)
        case refine_2 =>
          rw [List.getLast?_concat] at ha
          obtain rfl := Option.some.inj ha
          exact hnew _ _ _ (config_trace htrace) hc hk

-- All queued frames are whole.
def Framed (p : UdpPool δ) : Prop :=
  ∀ q ∈ p.tx.queue, Whole q.frame

omit [Device δ] in
theorem Framed.requeues (h : Framed p₁) (hr : Requeues p₁ p₂) : Framed p₂ := by
  intro e he
  cases hr
  case leaves hqueue _ => exact h e (hqueue.subset he)
  case enters q hqueue _ _ hw =>
    rw [hqueue, mem_append, mem_singleton] at he
    rcases he with he | rfl
    case inl => exact h e he
    case inr => exact hw

theorem Framed.result {s : Selection δ} (h : Framed s.pool) : Framed s.result :=
  have ⟨hkeeps, hqueue, _⟩ := result_keeps s
  h.requeues (.leaves hqueue hkeeps.nextId)

theorem framed_trace (ht : Trace Change Selects p₁ log p₂) (h : Framed p₁) : Framed p₂ := by
  refine ht.invariant h (fun _ _ hc hf => hf.requeues hc.requeues) ?_
  rintro _ s _ ⟨rfl, _, rfl⟩ hf
  exact hf.result

theorem submissions_whole (ops : List (Op δ)) (h : Framed p) :
    ∀ s ∈ p.submissions ops, Whole s.datagram.frame := by
  have hall : ∀ s ∈ p.selections ops, ∀ q, s.submitted = some q → Whole q.frame := by
    refine (p.selections_trace ops).forall_mem h (fun _ _ hc hf => hf.requeues hc.requeues) ?_
    rintro _ s _ ⟨rfl, _, rfl⟩ hf
    refine ⟨hf.result, fun q hq => ?_⟩
    obtain ⟨index, _, rfl, _⟩ := submitted_cases hq
    exact hf _ (getElem_mem _)
  intro x hx
  have ⟨s, hs, hx⟩ := mem_filterMap.mp hx
  obtain ⟨q, hq, rfl⟩ := map_eq_some_iff.mp hx
  exact hall s hs q hq

-- Neither of the times after a submission is beyond those that a duration can express.
def Submission.Fits (config : UdpConfig) (s : Submission) : Prop :=
  s.time.AddFits (spacing s.datagram.frame.len config.bytesPerSecond) ∧
  s.time.AddFits (spacing s.datagram.frame.len config.perPeerBytesPerSecond)

-- From a submission up to the one before a later submission, no more bytes are submitted than the
-- rate allows for the time between the two. Times are in nanoseconds.
def Ceiling (rate : Nat) (submissions : List Submission) : Prop :=
  ∀ first between last, first :: (between ++ [last]) <:+: submissions →
    10 ^ 9 * ((first :: between).map (·.datagram.frame.len)).sum ≤
      rate * (last.time.nanos - first.time.nanos)

omit [Device δ] in
theorem ceiling_of_chain {submissions : List Submission} {rate : Nat} (hr : 0 < rate)
    (hw : ∀ s ∈ submissions, Whole s.datagram.frame)
    (hf : ∀ s ∈ submissions, s.time.AddFits (spacing s.datagram.frame.len (some rate)))
    (h : submissions.IsChain fun a b => a.due (some rate) ≤ b.time) : Ceiling rate submissions := by
  have hpaced : Paced (10 ^ 9) rate (·.datagram.frame.len) (·.time.nanos) submissions :=
    h.imp_of_mem_imp fun a b ha _ => Submission.due_le hr (hw a ha) (hf a ha)
  exact fun _ _ _ => hpaced.infix_le

theorem global_chain (h : Trace Move Selects p₁ log p₂) :
    (log.filterMap (·.submission)).IsChain fun a b => a.due p₁.config.bytesPerSecond ≤ b.time := by
  have hchain := paced_trace (fun _ => true) (·.due p₁.config.bytesPerSecond)
    (fun p t => t ≤ p.tx.next ∨ t ≤ p.now) ?hmove ?hother ?hpaid ?hnew h
  case hmove  => exact fun _ _ _ hd => Or.imp (hd.next ▸ ·) (·.trans hd.now)
  case hother =>
    rintro _ _ _ t hc (ht | ht)
    case inl => exact .inr (hc.now ▸ ht.trans hc.due)
    case inr => exact .inr (hc.now ▸ ht)
  case hpaid =>
    rintro _ _ _ t hc _ (ht | ht)
    case inl => exact ht.trans hc.due
    case inr => exact ht
  case hnew =>
    intro p₂ q p₃ heq hc _
    rw [Submission.due, ← heq, hc.next]
    exact .inl le_rfl
  rw [filter_true] at hchain
  exact hchain.left

theorem peer_chain (h : Trace Move Selects p₁ log p₂) (peer : SocketAddr) :
    ((log.filterMap (·.submission)).filter (·.datagram.destination = peer)).IsChain
      fun a b => a.due p₁.config.perPeerBytesPerSecond ≤ b.time := by
  refine (paced_trace _ (·.due p₁.config.perPeerBytesPerSecond) (Owes · peer) ?hmove ?hother ?hpaid
    ?hnew h).left
  case hmove  => exact fun _ _ t hd => hd.owes peer t
  case hother => exact fun _ _ _ t hc => hc.owes peer t
  case hpaid =>
    intro _ _ _ t hc hpeer ho
    simp only [decide_eq_true_eq] at hpeer
    exact hc.paid t (hpeer ▸ ho)
  case hnew =>
    intro p₂ q p₃ heq hc hpeer
    simp only [decide_eq_true_eq] at hpeer
    rw [Submission.due, ← heq, ← hpeer]
    exact hc.pace

-- The rates are ceilings on every stretch of a run between service replacements. A peer that is
-- forgotten owes nothing, so it gains nothing either. The bytes of a datagram are those of its IPv4
-- packet.
theorem pacing_ceiling {device : δ} {config : UdpConfig} (h : withConfig device config = .ok p)
    (ops₁ ops₂ : List (Op δ)) (hops : (exec step p ops₁).Undisturbed ops₂)
    (hfits : ∀ s ∈ (exec step p ops₁).submissions ops₂, s.Fits config) :
    (∀ s ∈ (exec step p ops₁).submissions ops₂, Whole s.datagram.frame) ∧
    (∀ rate, config.bytesPerSecond = some rate →
      Ceiling rate ((exec step p ops₁).submissions ops₂)) ∧
    ∀ rate peer, config.perPeerBytesPerSecond = some rate →
      Ceiling rate (((exec step p ops₁).submissions ops₂).filter
        (·.datagram.destination = peer)) := by
  have ⟨hvalid, hconfig, htx⟩ := withConfig_ok h
  have hframed : Framed p := by
    rw [Framed, htx]
    exact nofun
  have hrun := p.selections_trace ops₁
  have hconfig := (config_change hrun).trans hconfig
  have hwhole := submissions_whole ops₂ (framed_trace hrun hframed)
  have htrace := selections_undisturbed hops
  refine ⟨hwhole, fun rate hrate => ?_, fun rate peer hrate => ?_⟩
  case refine_1 =>
    have hchain := global_chain htrace
    rw [hconfig, hrate] at hchain
    refine ceiling_of_chain (Nat.pos_of_ne_zero fun h => hvalid.bytesPerSecond (h ▸ hrate))
      hwhole ?_ hchain
    exact fun s hs => hrate ▸ (hfits s hs).left
  case refine_2 =>
    have hchain := peer_chain htrace peer
    rw [hconfig, hrate] at hchain
    refine ceiling_of_chain (Nat.pos_of_ne_zero fun h => hvalid.perPeerBytesPerSecond (h ▸ hrate))
      ?_ ?_ hchain
    case refine_1 => exact fun s hs => hwhole s (mem_of_mem_filter hs)
    case refine_2 => exact fun s hs => hrate ▸ (hfits s (mem_of_mem_filter hs)).right

end

instance (config : UdpConfig) (s : Submission) : Decidable (s.Fits config) :=
  inferInstanceAs (Decidable (_ ∧ _))

-- Datagrams of 29 bytes, and rates of 1000 bytes in a second in total and of 500 for a peer.
def pacedConfig : UdpConfig :=
  { UdpConfig.default with
    bytesPerSecond        := some 1000
    perPeerBytesPerSecond := some 500 }

def refilled : List (Op LoopbackDevice) :=
  let source : SocketAddr := ⟨0x0a000001, 7⟩
  let peer : SocketAddr := ⟨0x0a000002, 9⟩
  [ .send source peer [1] {},
    .flush,
    .advance (.fromMillis 57),
    .send source peer [2] {},
    .flush,
    .advance (.fromMillis 58),
    .flush ]

theorem pacing_ceiling_refilled :
    let p := { overLoopback with config := pacedConfig }
    let submissions :=
      (exec step p [.bind { address := ⟨0x0a000001, 7⟩, id := 1 }]).submissions refilled
    submissions.map (·.time) = [.zero, .fromMillis 58] ∧ Ceiling 1000 submissions := by
  have h : withConfig (.withCapacity 0 4 4) pacedConfig =
      .ok { overLoopback with config := pacedConfig } := rfl
  refine ⟨by decide +kernel, (pacing_ceiling h _ refilled ?_ ?_).right.left 1000 rfl⟩
  case refine_1 => simp [Undisturbed, refilled, Along, replaces]
  case refine_2 => decide +kernel

end UdpPool
