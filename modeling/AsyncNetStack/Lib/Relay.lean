import Mathlib

open List

-- A relay forwards packets in the order in which it accepts them, separately for each key. A packet
-- is a key together with a serial number, the number of packets accepted before it. Packets wait as
-- long as their key is blocked, are sent from a queue of ready packets, and can be dropped.
structure Relay (κ : Type*) where
  taken   : Nat
  waiting : List (κ × Nat)
  ready   : List (κ × Nat)
  sent    : List (κ × Nat)
  dropped : Nat

namespace Relay

variable {κ : Type*} {r r' : Relay κ} {k : κ} {l l₁ l₂ : List (κ × Nat)} {p : κ → Bool}

-- Later packets of a key have larger serial numbers.
def InOrder (l : List (κ × Nat)) : Prop :=
  l.Pairwise fun x y => x.fst = y.fst → x.snd < y.snd

namespace InOrder

theorem sublist (h : InOrder l₂) (hs : l₁.Sublist l₂) : InOrder l₁ :=
  List.Pairwise.sublist hs h

theorem concat (h : InOrder l) {x : κ × Nat} (hx : ∀ y ∈ l, y.fst = x.fst → y.snd < x.snd) :
    InOrder (l ++ [x]) := by
  refine pairwise_append.mpr ⟨h, pairwise_singleton .., fun y hy z hz => ?_⟩
  rw [mem_singleton.mp hz]
  exact hx y hy

-- Taking all packets with certain keys out of a queue does not change the order for any key.
theorem partition (h : InOrder l) (p : κ → Bool) :
    InOrder (l.filter (p ·.fst) ++ l.filter (!p ·.fst)) := by
  refine pairwise_append.mpr ⟨h.filter _, h.filter _, fun x hx y hy heq => ?_⟩
  simp only [mem_filter, Bool.not_eq_true'] at hx hy
  rw [heq, hy.right] at hx
  exact absurd hx.right Bool.false_ne_true

theorem append_partition (h : InOrder (l₁ ++ l₂)) (p : κ → Bool) :
    InOrder (l₁ ++ l₂.filter (p ·.fst) ++ l₂.filter (!p ·.fst)) := by
  obtain ⟨h₁, h₂, h₃⟩ := pairwise_append.mp h
  rw [append_assoc]
  refine pairwise_append.mpr ⟨h₁, partition h₂ p, fun x hx y hy => h₃ x hx y ?_⟩
  simp only [mem_append, mem_filter] at hy
  exact hy.elim And.left And.left

end InOrder

variable (r)

def packets : List (κ × Nat) :=
  r.sent ++ r.ready ++ r.waiting

-- The packets which the relay holds, and those which wait for a key.
def load : Nat :=
  r.waiting.length + r.ready.length

def backlog [DecidableEq κ] (r : Relay κ) (k : κ) : Nat :=
  (r.waiting.filter (·.fst = k)).length

def hold (k : κ) : Relay κ :=
  { r with taken := r.taken + 1, waiting := r.waiting ++ [(k, r.taken)] }

def pass (k : κ) : Relay κ :=
  { r with taken := r.taken + 1, ready := r.ready ++ [(k, r.taken)] }

def release (p : κ → Bool) : Relay κ :=
  { r with
    ready   := r.ready ++ r.waiting.filter (p ·.fst)
    waiting := r.waiting.filter (!p ·.fst) }

def drop (p : κ → Bool) : Relay κ :=
  { r with
    waiting := r.waiting.filter (!p ·.fst)
    dropped := r.dropped + (r.waiting.filter (p ·.fst)).length }

def clear : Relay κ :=
  { r with waiting := [], ready := [], dropped := r.dropped + r.load }

def submit (n : Nat) : Relay κ :=
  { r with ready := r.ready.drop n, sent := r.sent ++ r.ready.take n }

variable {r}

-- The steps that accept no packet.
inductive Step : Relay κ → Relay κ → Prop
  | release (r : Relay κ) (p : κ → Bool) : Step r (r.release p)
  | drop (r : Relay κ) (p : κ → Bool)    : Step r (r.drop p)
  | clear (r : Relay κ)                  : Step r r.clear
  | submit (r : Relay κ) (n : Nat)       : Step r (r.submit n)

def Drains : Relay κ → Relay κ → Prop :=
  Relation.ReflTransGen Step

-- Every accepted packet is sent, dropped or held.
def Conserved (r : Relay κ) : Prop :=
  r.taken = r.sent.length + r.dropped + r.load

structure Ordered (r : Relay κ) : Prop where
  inOrder : InOrder r.packets
  fresh   : ∀ x ∈ r.packets, x.snd < r.taken

theorem length_partition (l : List (κ × Nat)) (p : κ → Bool) :
    (l.filter (p ·.fst)).length + (l.filter (!p ·.fst)).length = l.length := by
  rw [← length_append]
  exact (filter_append_perm (p ·.fst) l).length_eq

namespace Step

theorem taken_eq (h : Step r r') : r'.taken = r.taken := by
  cases h <;> rfl

theorem load_le (h : Step r r') : r'.load ≤ r.load := by
  cases h
  case release p =>
    have := length_partition r.waiting p
    simp only [load, Relay.release, length_append]
    omega
  case drop p =>
    exact Nat.add_le_add_right (length_filter_le ..) _
  case clear =>
    exact Nat.zero_le _
  case submit n =>
    exact Nat.add_le_add_left (by simp [Relay.submit]) _

theorem waiting_sublist (h : Step r r') : r'.waiting.Sublist r.waiting := by
  cases h
  case release => exact filter_sublist
  case drop    => exact filter_sublist
  case clear   => exact nil_sublist _
  case submit  => exact List.Sublist.refl _

theorem inOrder (h : Step r r') (ho : InOrder r.packets) : InOrder r'.packets := by
  cases h
  case release p =>
    have := ho.append_partition p
    rwa [append_assoc r.sent] at this
  case drop p =>
    exact ho.sublist (List.Sublist.append_left filter_sublist _)
  case clear =>
    exact ho.sublist (by simp [packets, Relay.clear])
  case submit n =>
    simpa [packets, Relay.submit] using ho

theorem packets_subset (h : Step r r') : r'.packets ⊆ r.packets := by
  intro x
  cases h
  case release p =>
    simp only [packets, Relay.release, mem_append, mem_filter]
    tauto
  case drop p =>
    simp only [packets, Relay.drop, mem_append, mem_filter]
    tauto
  case clear =>
    simp only [packets, Relay.clear, append_nil, mem_append]
    tauto
  case submit n =>
    simp [packets, Relay.submit]

theorem conserved (h : Step r r') (hc : Conserved r) : Conserved r' := by
  rw [Conserved, h.taken_eq, hc]
  cases h
  case release p =>
    have := length_partition r.waiting p
    simp only [load, Relay.release, length_append]
    omega
  case drop p =>
    have := length_partition r.waiting p
    simp only [load, Relay.drop]
    omega
  case clear =>
    simp only [load, Relay.clear, length_nil]
    omega
  case submit n =>
    simp only [load, Relay.submit, length_append, length_take, length_drop]
    omega

theorem ordered (h : Step r r') (ho : Ordered r) : Ordered r' where
  inOrder    := h.inOrder ho.inOrder
  fresh x hx := by rw [h.taken_eq]; exact ho.fresh x (h.packets_subset hx)

end Step

namespace Drains

theorem of_step (h : Step r r') : Drains r r' :=
  .single h

theorem of_eq (h : r' = r) : Drains r r' := by
  rw [h]
  exact .refl

theorem trans {r'' : Relay κ} (h₁ : Drains r r') (h₂ : Drains r' r'') : Drains r r'' :=
  Relation.ReflTransGen.trans h₁ h₂

theorem load_le (h : Drains r r') : r'.load ≤ r.load := by
  induction h
  case refl       => exact Nat.le_refl _
  case tail hs ih => exact hs.load_le.trans ih

theorem waiting_sublist (h : Drains r r') : r'.waiting.Sublist r.waiting := by
  induction h
  case refl       => exact .refl _
  case tail hs ih => exact hs.waiting_sublist.trans ih

theorem backlog_le [DecidableEq κ] (h : Drains r r') (k : κ) : r'.backlog k ≤ r.backlog k :=
  (h.waiting_sublist.filter _).length_le

theorem conserved (h : Drains r r') (hc : Conserved r) : Conserved r' := by
  induction h
  case refl       => exact hc
  case tail hs ih => exact hs.conserved ih

theorem ordered (h : Drains r r') (ho : Ordered r) : Ordered r' := by
  induction h
  case refl       => exact ho
  case tail hs ih => exact hs.ordered ih

end Drains

namespace Conserved

theorem hold (h : Conserved r) (k : κ) : Conserved (r.hold k) := by
  simp only [Conserved, load, Relay.hold, length_append, length_singleton] at h ⊢
  omega

theorem pass (h : Conserved r) (k : κ) : Conserved (r.pass k) := by
  simp only [Conserved, load, Relay.pass, length_append, length_singleton] at h ⊢
  omega

end Conserved

namespace Ordered

theorem hold (h : Ordered r) (k : κ) : Ordered (r.hold k) where
  inOrder := by
    rw [packets, Relay.hold, ← append_assoc]
    exact h.inOrder.concat fun y hy _ => h.fresh y hy
  fresh x hx := by
    rw [packets, Relay.hold, ← append_assoc, mem_append, mem_singleton] at hx
    rcases hx with hx | rfl
    case inl => exact Nat.lt_succ_of_lt (h.fresh x hx)
    case inr => exact Nat.lt_succ_self _

-- No waiting packet is overtaken by a later packet of its key.
theorem pass (h : Ordered r) (hw : ∀ x ∈ r.waiting, x.fst ≠ k) : Ordered (r.pass k) where
  inOrder := by
    obtain ⟨ho, hr, hx⟩ := pairwise_append.mp h.inOrder
    rw [packets, Relay.pass, ← append_assoc]
    refine pairwise_append.mpr ⟨?_, hr, fun x hx' y hy => ?_⟩
    · exact InOrder.concat ho fun y hy _ => h.fresh y (mem_append_left _ hy)
    · rcases mem_append.mp hx' with hx' | hx'
      case inl => exact hx x hx' y hy
      rw [mem_singleton.mp hx']
      exact fun heq => absurd heq.symm (hw y hy)
  fresh x hx := by
    simp only [packets, Relay.pass, mem_append, mem_singleton] at hx
    rcases hx with (hx | hx | rfl) | hx
    case inl.inr.inr => exact Nat.lt_succ_self _
    all_goals exact Nat.lt_succ_of_lt (h.fresh x (by simp [packets, hx]))

-- Packets of one key are sent in the order in which they were accepted.
theorem sent (h : Ordered r) : InOrder r.sent :=
  h.inOrder.sublist (by simp [packets])

end Ordered
end Relay
