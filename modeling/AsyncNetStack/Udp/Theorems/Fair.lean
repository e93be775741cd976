import AsyncNetStack.Udp.Theorems.Drift
import AsyncNetStack.Udp.Theorems.Outcomes

open Std Udp Transition RoundRobin List

namespace UdpPool

variable {δ : Type} {p p₁ p₂ p₃ : UdpPool δ}

section

variable [Device δ]

-- While a peer can be selected, an accepted datagram for another peer means that it was the turn of
-- the other peer.
theorem submitted_between {s : Selection δ} {last q : SocketAddr} {d : Queued}
    (hfair : s.pool.config.fairQueue) (hlast : s.pool.tx.last = some last) (hq : s.Eligible q)
    (hne : q ≠ last) (h : s.submitted = some d) (hd : d.destination ≠ q) :
    Between last.position d.destination.position q.position := by
  obtain ⟨⟨e, he, rfl⟩, hblocked, hpace⟩ := hq
  obtain ⟨j, rfl⟩ : ∃ j : Fin s.pool.tx.queue.length, s.pool.tx.queue.get j = e := by
    obtain ⟨j, hj, heq⟩ := getElem_of_mem he
    exact ⟨⟨j, hj⟩, heq⟩
  obtain ⟨index, hc, rfl, _⟩ := submitted_cases h
  rw [Selection.candidate, hfair] at hc
  have hturn := Scheduler.candidate_first hc (Scheduler.ready_iff.mpr ⟨hblocked, hpace⟩)
  exact Scheduler.turn_between hturn hlast hne hd

-- The round robin has started from a peer, and it is not yet the turn of another one.
def Awaits (p : UdpPool δ) (peer q : SocketAddr) : Prop :=
  ∃ last, p.tx.last = some last ∧
    (last = peer ∨ Between peer.position last.position q.position)

theorem Awaits.turn {peer q : SocketAddr} {s : Selection δ} {d : Queued} (h : Awaits s.pool peer q)
    (hfair : s.pool.config.fairQueue) (hq : q ≠ peer) (heligible : s.Eligible q)
    (hs : s.submitted = some d) (hd : d.destination ≠ q) :
    Between peer.position d.destination.position q.position := by
  obtain ⟨last, hlast, rfl | hbetween⟩ := h
  case inl => exact submitted_between hfair hlast heligible hq hs hd
  have hne : q ≠ last := fun heq => hbetween.ne_right (congrArg SocketAddr.position heq.symm)
  exact hbetween.trans (submitted_between hfair hlast heligible hne hs hd)

-- A selection of a peer that is passed over does not reach the peer.
theorem Awaits.result {peer q : SocketAddr} {s : Selection δ} (h : Awaits s.pool peer q)
    (hfair : s.pool.config.fairQueue) (hq : q ≠ peer) (heligible : s.Eligible q)
    (hnone : ∀ d, s.submitted = some d → d.destination ≠ q) : Awaits s.result peer q := by
  cases hs : s.submitted
  case none =>
    obtain ⟨last, heq, hl⟩ := h
    exact ⟨last, (result_drifts hs).last.trans heq, hl⟩
  case some d =>
    exact ⟨_, (result_charges hs).last, .inr (h.turn hfair hq heligible hs (hnone d hs))⟩

theorem awaits_trace {peer q : SocketAddr} {log : List (Selection δ)} {p p' : UdpPool δ}
    (htrace : Trace Move Selects p log p') (hfair : p.config.fairQueue) (h : Awaits p peer q)
    (hq : q ≠ peer) (heligible : ∀ s ∈ log, s.Eligible q)
    (hnone : ∀ s ∈ log, ∀ d, s.submitted = some d → d.destination ≠ q) :
    p'.config.fairQueue ∧ Awaits p' peer q := by
  induction htrace
  case refl => exact ⟨hfair, h⟩
  case move hm ih =>
    have hd := hm.drifts
    rw [Awaits, hd.config, hd.last]
    exact ih heligible hnone
  case emit ls t u s _ hs ih =>
    obtain ⟨rfl, _, rfl⟩ := hs
    simp only [mem_append, mem_singleton, or_imp, forall_and, forall_eq] at heligible hnone
    have ⟨hfair, h⟩ := ih heligible.left hnone.left
    exact ⟨(result_keeps s).left.config ▸ hfair, h.result hfair hq heligible.right hnone.right⟩

-- Between two accepted datagrams for a peer, there is one for every other peer that could be
-- selected all the time.
theorem fair_queue_serves_all {ops : List (Op δ)} {before between after : List (Selection δ)}
    {first second : Selection δ} {d₁ d₂ : Queued} {q : SocketAddr} (hfair : p.config.fairQueue)
    (hops : p.Undisturbed ops)
    (h : p.selections ops = before ++ first :: between ++ second :: after)
    (h₁ : first.submitted = some d₁) (h₂ : second.submitted = some d₂)
    (hpeer : d₁.destination = d₂.destination)
    (hq : q ≠ d₁.destination) (heligible : ∀ s ∈ between ++ [second], s.Eligible q) :
    ∃ s ∈ between, ∃ d, s.submitted = some d ∧ d.destination = q := by
  by_contra hnever
  push Not at hnever
  simp only [mem_append, mem_singleton, or_imp, forall_and, forall_eq] at heligible
  have htrace := selections_undisturbed hops
  rw [h, append_assoc] at htrace
  -- The round robin starts from the peer after the first datagram.
  have ⟨p₁, hbefore, hrest⟩ := htrace.split
  have ⟨p₂, p₃, hmoves, hfirst, hrest⟩ := hrest.uncons
  have hfair := config_trace hmoves ▸ config_trace hbefore ▸ hfair
  obtain ⟨rfl, _, rfl⟩ := hfirst
  have hcharges := result_charges h₁
  have hfair := hcharges.config ▸ hfair
  have ⟨p₄, hbetween, hrest⟩ := hrest.split
  have hstart : Awaits first.result d₁.destination q := ⟨_, hcharges.last, .inl rfl⟩
  have ⟨hfair, hawaits⟩ := awaits_trace hbetween hfair hstart hq heligible.left hnever
  -- It would have to be the turn of the peer again.
  have ⟨p₅, p₆, hmoves, hsecond, _⟩ := hrest.uncons
  have ⟨hfair, hawaits⟩ := awaits_trace hmoves hfair hawaits hq nofun nofun
  obtain ⟨rfl, _, _⟩ := hsecond
  have hturn := hawaits.turn hfair hq heligible.right h₂ (hpeer ▸ hq.symm)
  rw [hpeer] at hturn
  exact hturn.ne rfl

end

def fairLoopback : UdpPool LoopbackDevice :=
  { overLoopback with config := { UdpConfig.default with fairQueue := true } }

def firstPeer : SocketAddr :=
  ⟨0x0a000002, 9⟩

def secondPeer : SocketAddr :=
  ⟨0x0a000003, 9⟩

-- There are two datagrams for each peer.
def twoPeers : List (Op LoopbackDevice) :=
  let source : SocketAddr := ⟨0x0a000001, 7⟩
  [ .bind { address := source, id := 1 },
    .send source firstPeer [1] {},
    .send source firstPeer [2] {},
    .send source secondPeer [3] {},
    .send source secondPeer [4] {},
    .flush ]

theorem fair_queue_serves_all_twoPeers :
    ∃ s₁ s₂ s₃ rest, fairLoopback.selections twoPeers = [] ++ s₁ :: [s₂] ++ s₃ :: rest ∧
      ∃ d, s₂.submitted = some d ∧ d.destination = secondPeer := by
  have hops : fairLoopback.Undisturbed twoPeers := by simp [Undisturbed, twoPeers, Along, replaces]
  have hpeers : (fairLoopback.selections twoPeers).map (·.submitted.map (·.destination)) =
      [some firstPeer, some secondPeer, some firstPeer, some secondPeer, none] := by decide +kernel
  have heligible : (fairLoopback.selections twoPeers).map (decide <| ·.Eligible secondPeer) =
      [true, true, true, true, false] := by decide +kernel
  generalize hlog : fairLoopback.selections twoPeers = log at hpeers heligible ⊢
  simp only [map_eq_cons_iff, Option.map_eq_some_iff] at hpeers
  obtain ⟨s₁, _, rfl, ⟨d₁, h₁, hd₁⟩, s₂, _, rfl, _, s₃, rest, rfl, ⟨d₃, h₃, hd₃⟩, _⟩ := hpeers
  simp only [map_cons, List.cons.injEq, decide_eq_true_eq] at heligible
  obtain ⟨_, he₂, he₃, _⟩ := heligible
  have hq : secondPeer ≠ d₁.destination := by
    rw [hd₁]
    decide
  have heq : fairLoopback.selections twoPeers = [] ++ s₁ :: [s₂] ++ s₃ :: rest := hlog
  obtain ⟨s, hs, hd⟩ := fair_queue_serves_all rfl hops heq h₁ h₃ (hd₁.trans hd₃.symm) hq
    (by simpa using ⟨he₂, he₃⟩)
  rw [mem_singleton.mp hs] at hd
  exact ⟨s₁, s₂, s₃, rest, rfl, hd⟩

end UdpPool
