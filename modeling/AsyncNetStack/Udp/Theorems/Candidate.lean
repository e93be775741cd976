import AsyncNetStack.Lib.RoundRobin
import AsyncNetStack.Udp.Scheduler

open RoundRobin List Option

namespace SocketAddr

-- Socket addresses are ordered like their positions.
def position (a : SocketAddr) : Nat :=
  a.ip.toNat * 2 ^ 16 + a.port.toNat

theorem compare_word {w : Nat} (a b : BitVec w) : compare a b = compare a.toNat b.toNat := by
  simp [compare, compareOfLessAndEq, BitVec.lt_def, BitVec.toNat_inj]

theorem compare_position (a b : SocketAddr) : compare a b = compare a.position b.position := by
  have hlex : compare a b = (compare a.ip b.ip).then (compare a.port b.port) := rfl
  have ha := a.port.isLt
  have hb := b.port.isLt
  rw [hlex, compare_word, compare_word, position, position]
  simp only [Nat.compare_eq_ite_lt]
  generalize a.port.toNat = x at ha ⊢
  generalize b.port.toNat = y at hb ⊢
  generalize a.ip.toNat = m
  generalize b.ip.toNat = n
  rcases Nat.lt_trichotomy m n with h | h | h
  case inl =>
    have hlt : m * 2 ^ 16 + x < n * 2 ^ 16 + y := by omega
    rw [if_pos h, if_pos hlt]
    rfl
  case inr.inl =>
    subst h
    simp only [Nat.lt_irrefl, if_false, Nat.add_lt_add_iff_left]
    rfl
  case inr.inr =>
    have hlt : n * 2 ^ 16 + y < m * 2 ^ 16 + x := by omega
    rw [if_neg h.not_gt, if_pos h, if_neg hlt.not_gt, if_pos hlt]
    rfl

theorem isLE_position {a b : SocketAddr} : (compare a b).isLE ↔ a.position ≤ b.position := by
  rw [compare_position, Nat.isLE_compare]

theorem position_inj {a b : SocketAddr} : a.position = b.position ↔ a = b := by
  rw [← Nat.compare_eq_eq, ← compare_position, Std.compare_eq_iff_eq]

end SocketAddr

namespace Udp.Scheduler

variable {s : Scheduler} {now : Duration} {fair : Bool} {blocked : List SocketAddr}
  {i j : Fin s.queue.length}

theorem ready_iff {q : Queued} : s.ready now blocked q ↔
    q.destination ∉ blocked ∧ ∃ b, s.peers[q.destination]? = some b ∧ b.next ≤ now := by
  simp [ready, Option.any_eq_true]

-- Whether the round has passed a peer already.
def passed (s : Scheduler) (peer : SocketAddr) : Bool :=
  s.last.any fun last => (compare peer last).isLE

-- The comparison of the fair order.
def turn (s : Scheduler) : Fin s.queue.length → Fin s.queue.length → Ordering :=
  compareLex (compareOn fun i => (s.passed (s.queue.get i).destination).toNat)
    (compareLex (compareOn fun i => (s.queue.get i).destination) compare)

instance : Std.TransCmp s.turn :=
  inferInstanceAs <| Std.TransCmp (compareLex _ _)

theorem candidate_fair : s.candidate now true blocked =
    if now < s.next then none
    else ((List.finRange s.queue.length).filter fun i => s.ready now blocked (s.queue.get i)).foldl
      (better s.turn) none := by
  simp only [candidate, Bool.not_true, Bool.false_eq_true, if_false]
  congr 2
  funext best i
  cases best
  case none => rfl
  case some => rfl

theorem candidate_fifo : s.candidate now false blocked =
    if now < s.next then none
    else (List.finRange s.queue.length).head?.filter fun i =>
      s.ready now blocked (s.queue.get i) := by
  rw [candidate]
  rfl

-- A candidate is due.
theorem candidate_ready (h : s.candidate now fair blocked = some i) :
    s.next ≤ now ∧ s.ready now blocked (s.queue.get i) := by
  cases fair
  case false =>
    rw [candidate_fifo] at h
    split at h
    case isTrue => cases h
    case isFalse hnow => exact ⟨not_lt.mp hnow, (filter_eq_some_iff.mp h).right⟩
  case true =>
    rw [candidate_fair] at h
    split at h
    case isTrue => cases h
    rename_i hnow
    exact ⟨not_lt.mp hnow, (mem_filter.mp (foldl_better h).left).right⟩

-- Without the fair order, the head of the queue is the only candidate.
theorem candidate_head (h : s.candidate now false blocked = some i) : i.val = 0 := by
  rw [candidate_fifo] at h
  split at h
  case isTrue => cases h
  have hhead := (filter_eq_some_iff.mp h).left
  rw [List.head?_eq_getElem?, List.getElem?_eq_some_iff] at hhead
  have ⟨hlt, heq⟩ := hhead
  rw [← heq, getElem_finRange]
  rfl

-- There is a candidate if a datagram is due that may be selected.
theorem candidate_isSome (hnext : s.next ≤ now) (hi : s.ready now blocked (s.queue.get i))
    (hfifo : fair = false → i.val = 0) : (s.candidate now fair blocked).isSome := by
  cases fair
  case false =>
    have hhead : (List.finRange s.queue.length).head? = some i := by
      rw [List.head?_eq_getElem?, List.getElem?_eq_some_iff]
      exact ⟨by rw [length_finRange]; exact i.pos, Fin.ext (by simp [hfifo rfl])⟩
    rw [candidate_fifo, if_neg (not_lt.mpr hnext), hhead, filter_some, if_pos hi]
    rfl
  case true =>
    rw [candidate_fair, if_neg (not_lt.mpr hnext)]
    exact foldl_better_isSome (mem_filter.mpr ⟨mem_finRange i, hi⟩)

-- No other datagram that is due comes before a candidate in the fair order.
theorem candidate_first (h : s.candidate now true blocked = some i)
    (hj : s.ready now blocked (s.queue.get j)) : (s.turn i j).isLE := by
  rw [candidate_fair] at h
  split at h
  case isTrue => cases h
  exact (foldl_better h).right j (mem_filter.mpr ⟨mem_finRange j, hj⟩)

-- Among the datagrams of a peer, the fair order is that of the queue.
theorem turn_peer (h : (s.turn i j).isLE)
    (hpeer : (s.queue.get i).destination = (s.queue.get j).destination) : i ≤ j := by
  simp only [turn, compareLex, compareOn, hpeer, Std.ReflCmp.compare_self] at h
  exact Nat.isLE_compare.mp h

-- Going round from the last peer, the peer of a candidate comes before all others that are due.
theorem turn_between {last : SocketAddr} (h : (s.turn i j).isLE) (hlast : s.last = some last)
    (hj : (s.queue.get j).destination ≠ last)
    (hne : (s.queue.get i).destination ≠ (s.queue.get j).destination) :
    Between last.position (s.queue.get i).destination.position
      (s.queue.get j).destination.position := by
  have hpassed (peer : SocketAddr) : s.passed peer ↔ peer.position ≤ last.position := by
    rw [passed, hlast, any_some, SocketAddr.isLE_position]
  simp only [turn, compareLex, compareOn] at h
  generalize (s.queue.get i).destination = a at h hne ⊢
  generalize (s.queue.get j).destination = c at h hne hj ⊢
  apply between_of_first
  case hne   => exact fun heq => hne (SocketAddr.position_inj.mp heq)
  case hlast => exact fun heq => hj (SocketAddr.position_inj.mp heq)
  case hpassed =>
    rw [← hpassed, ← hpassed]
    intro ha
    by_contra hc
    rw [ha, Bool.not_eq_true _ |>.mp hc] at h
    cases h
  case hle =>
    rw [← hpassed, ← hpassed, ← SocketAddr.isLE_position]
    intro hiff
    rw [Bool.eq_iff_iff.mpr hiff, Std.compare_self] at h
    cases hcmp : compare a c
    case gt =>
      rw [hcmp] at h
      cases h
    all_goals rfl

end Udp.Scheduler
