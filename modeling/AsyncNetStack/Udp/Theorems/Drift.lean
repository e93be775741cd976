import AsyncNetStack.Udp.Theorems.Candidate
import AsyncNetStack.Udp.Theorems.Moves

open Std Udp Transition

namespace UdpPool

variable {δ : Type} {p p₁ p₂ p₃ : UdpPool δ}

-- The pace of a peer does not allow to send to it before a time. This needs no entry for the peer
-- once the time has passed.
def Owes (p : UdpPool δ) (peer : SocketAddr) (t : Duration) : Prop :=
  t ≤ p.now ∨ ∃ b, p.tx.peers[peer]? = some b ∧ t ≤ b.next

-- What nothing but an accepted datagram changes: the position of the round robin and all debts.
structure Drifts (p₁ p₂ : UdpPool δ) : Prop where
  config : p₂.config = p₁.config
  now    : p₁.now ≤ p₂.now
  next   : p₂.tx.next = p₁.tx.next
  last   : p₂.tx.last = p₁.tx.last
  owes   : ∀ peer t, Owes p₁ peer t → Owes p₂ peer t

namespace Drifts

theorem refl (p : UdpPool δ) : Drifts p p :=
  ⟨rfl, le_rfl, rfl, rfl, fun _ _ => id⟩

theorem trans (h₁ : Drifts p₁ p₂) (h₂ : Drifts p₂ p₃) : Drifts p₁ p₃ where
  config        := h₂.config.trans h₁.config
  now           := h₁.now.trans h₂.now
  next          := h₂.next.trans h₁.next
  last          := h₂.last.trans h₁.last
  owes peer t h := h₂.owes peer t (h₁.owes peer t h)

theorem of_aside (h : Aside p₁ p₂) : Drifts p₁ p₂ where
  config      := h.config
  now         := h.now.ge
  next        := by rw [h.tx]
  last        := by rw [h.tx]
  owes peer t := by
    rw [Owes, Owes, h.now, h.tx]
    exact id

theorem of_thins (hc : p₂.config = p₁.config) (hn : p₁.now ≤ p₂.now)
    (h : Scheduler.Thins p₁.tx p₂.tx) : Drifts p₁ p₂ where
  config      := hc
  now         := hn
  next        := h.next
  last        := h.last
  owes peer t := by
    rintro (ht | ⟨b, hb, ht⟩)
    case inl => exact .inl (ht.trans hn)
    have ⟨b', hb', heq⟩ := h.pace_eq hb
    exact .inr ⟨b', hb', heq ▸ ht⟩

end Drifts

variable (p)

theorem retained_drifts : Drifts p p.retained where
  config      := rfl
  now         := le_rfl
  next        := rfl
  last        := rfl
  owes peer t := by
    rintro (ht | ⟨b, hb, ht⟩)
    case inl => exact .inl ht
    -- A peer is forgotten only if it may be sent to.
    rcases le_or_gt b.next p.now with hle | hgt
    case inl => exact .inl (ht.trans hle)
    refine .inr ⟨b, ?_, ht⟩
    simp only [retained, Scheduler.retain, TreeMap.getElem?_filter']
    rw [hb, Option.filter_some, if_pos (by simp [hgt])]

theorem enqueue_drifts (frame : PacketBuf) (source destination : SocketAddr)
    (options : SendOptions) : Drifts p (p.enqueue frame source destination options).fst := by
  rw [enqueue]
  split
  case isFalse => exact .refl p
  refine ⟨rfl, le_rfl, rfl, rfl, fun peer t => ?_⟩
  rintro (ht | ⟨b, hb, ht⟩)
  case inl => exact .inl ht
  right
  simp only [Scheduler.push, TreeMap.getElem?_insert, Std.compare_eq_iff_eq]
  split
  case isTrue heq =>
    rw [heq, hb]
    exact ⟨_, rfl, ht⟩
  case isFalse => exact ⟨b, hb, ht⟩

theorem advance_drifts (now : Duration) : Drifts p (p.advance now).fst := by
  rcases lt_or_ge now p.now with h | h
  case inl =>
    rw [p.advance_error h]
    exact .refl p
  have hsift := (p.advance_sifted h).right
  exact .of_thins hsift.config (hsift.now ▸ h) hsift.thins

theorem Work.drifts (h : Work p₁ p₂) : Drifts p₁ p₂ := by
  cases h
  case advance now => exact p₁.advance_drifts now
  case load h =>
    cases h
    case aside h           => exact .of_aside h
    case retain            => exact p₁.retained_drifts
    case enqueue options _ => exact p₁.enqueue_drifts ..

theorem bind_drifts (service : Service) : Drifts p (p.bind service).fst := by
  rw [bind]
  split
  case h_1 => exact .refl p
  split
  case isTrue => exact .refl p
  split
  case isTrue  => exact .refl p
  case isFalse => exact ⟨rfl, le_rfl, rfl, rfl, fun _ _ => id⟩

theorem unbind_drifts (address : SocketAddr) : Drifts p (p.unbind address).fst := by
  by_cases h : address ∈ p.services
  case pos =>
    have hsift := p.unbind_sifted h
    exact .of_thins hsift.config hsift.now.ge hsift.thins
  case neg =>
    rw [p.unbind_absent h]
    exact .refl p

theorem Move.drifts (h : Move p₁ p₂) : Drifts p₁ p₂ := by
  cases h
  case work h         => exact h.drifts
  case bind service   => exact p₁.bind_drifts service
  case unbind address => exact p₁.unbind_drifts address

theorem Change.config (h : Change p₁ p₂) : p₂.config = p₁.config := by
  cases h
  case move h           => exact h.drifts.config
  case install services => exact (p₁.dropAll_sifted (fun _ => true) .configurationChanged).config

theorem drop_drifts (index : Fin p.tx.queue.length) (reason : UdpFailure) :
    Drifts p (p.drop index reason) := by
  have ⟨hk, htx⟩ := p.drop_keeps index reason
  exact .of_thins hk.config hk.now.ge (htx ▸ p.tx.remove_thins index)

-- An accepted datagram is charged to its peer, and the round robin moves on to the peer. It was not
-- sent before its time.
structure Charges (p₁ : UdpPool δ) (q : Queued) (p₂ : UdpPool δ) : Prop where
  config : p₂.config = p₁.config
  now    : p₂.now = p₁.now
  next   : p₂.tx.next = p₁.now.saturatingAdd (spacing q.frame.len p₁.config.bytesPerSecond)
  last   : p₂.tx.last = some q.destination
  pace   : Owes p₂ q.destination
             (p₁.now.saturatingAdd (spacing q.frame.len p₁.config.perPeerBytesPerSecond))
  owes   : ∀ peer t, Owes p₁ peer t → Owes p₂ peer t
  due    : p₁.tx.next ≤ p₁.now
  paid   : ∀ t, Owes p₁ q.destination t → t ≤ p₁.now

theorem submit_charges {index : Fin p.tx.queue.length} {blocked : List SocketAddr}
    (h : p.tx.candidate p.now p.config.fairQueue blocked = some index) :
    Charges p (p.tx.queue.get index) (p.submit index) := by
  obtain ⟨hdue, hready⟩ := Scheduler.candidate_ready h
  obtain ⟨_, b, hb, hnext⟩ := Scheduler.ready_iff.mp hready
  obtain ⟨hk, htx⟩ := p.submit_keeps index
  let q := p.tx.queue.get index
  let tx := p.tx.accepted q.destination q.frame.len p.now p.config
  have hthins : Scheduler.Thins tx (p.submit index).tx := htx ▸ tx.remove_thins index
  have hpaid (t : Duration) : Owes p q.destination t → t ≤ p.now := by
    rintro (ht | ⟨b', hb', ht⟩)
    case inl => exact ht
    cases hb.symm.trans hb'
    exact ht.trans hnext
  refine ⟨hk.config, hk.now, hthins.next, hthins.last, ?_, fun peer t ho => ?_, hdue, hpaid⟩
  case refine_1 =>
    have hpeers : tx.peers[q.destination]? = some { b with
        next := p.now.saturatingAdd (spacing q.frame.len p.config.perPeerBytesPerSecond) } := by
      simp only [tx, q, Scheduler.accepted, TreeMap.getElem?_modify, Std.compare_self, if_true]
      exact congrArg (Option.map _) hb
    obtain ⟨b', hb', heq⟩ := hthins.pace_eq hpeers
    exact .inr ⟨b', hb', heq.ge⟩
  case refine_2 =>
    by_cases hpeer : q.destination = peer
    case pos =>
      subst hpeer
      exact .inl (hk.now ▸ hpaid t ho)
    case neg =>
      rcases ho with ht | ⟨b', hb', ht⟩
      case inl => exact .inl (hk.now ▸ ht)
      have hpeers : tx.peers[peer]? = some b' := by
        simp only [tx, q, Scheduler.accepted, TreeMap.getElem?_modify, Std.compare_eq_iff_eq]
        rw [if_neg hpeer, hb']
      obtain ⟨b'', hb'', heq⟩ := hthins.pace_eq hpeers
      exact .inr ⟨b'', hb'', heq ▸ ht⟩

section

variable [Device δ]

-- Only an accepted datagram is charged.
theorem result_drifts {s : Selection δ} (h : s.submitted = none) : Drifts s.pool s.result := by
  have hs := selected s
  rw [h] at hs
  generalize s.result = p at hs
  cases hs
  case idle h => exact .of_aside h
  case discarded device index reason _ hp =>
    rw [hp]
    have hd := Drifts.of_aside (s.pool.device_aside device)
    exact hd.trans (drop_drifts { s.pool with device } index reason)

theorem result_charges {s : Selection δ} {q : Queued} (h : s.submitted = some q) :
    Charges s.pool q s.result := by
  have hs := selected s
  rw [h] at hs
  generalize s.result = p at hs
  cases hs
  case submitted device index hc hp =>
    rw [hp]
    have h := submit_charges { s.pool with device } hc
    exact ⟨h.config, h.now, h.next, h.last, h.pace, h.owes, h.due, h.paid⟩

theorem config_change {log : List (Selection δ)} (h : Trace Change Selects p₁ log p₂) :
    p₂.config = p₁.config := by
  refine h.invariant (P := fun p => p.config = p₁.config) rfl (fun _ _ hc => hc.config.trans) ?_
  rintro _ s _ ⟨rfl, _, rfl⟩ heq
  exact (result_keeps s).left.config.trans heq

theorem config_trace {log : List (Selection δ)} (h : Trace Move Selects p₁ log p₂) :
    p₂.config = p₁.config :=
  config_change (h.mono fun _ _ => .move)

end

end UdpPool
