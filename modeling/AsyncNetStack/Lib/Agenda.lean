import Mathlib

open List

-- Items that become due at some time, and leave their queue in the order of these times. Items
-- which are due at the same time leave in the order of their rank, the number of items queued
-- before them.
namespace Agenda

variable {α τ : Type*} [LinearOrder τ] {due : α → τ} {rank : α → Nat} {queue drained : List α}

def Before (due : α → τ) (rank : α → Nat) (x y : α) : Prop :=
  due x < due y ∨ due x = due y ∧ rank x < rank y

-- A stable sort by time.
def sort (due : α → τ) (queue : List α) : List α :=
  queue.mergeSort fun x y => due x ≤ due y

-- The items that leave the queue: at most `max` of them, and only such that are due.
def drain (due : α → τ) (now : τ) (max : Nat) (queue : List α) : List α :=
  ((sort due queue).take max).takeWhile (due · ≤ now)

-- In a queue, ranks only have to agree with the order of items that are due at the same time.
def Stable (due : α → τ) (rank : α → Nat) (queue : List α) : Prop :=
  queue.Pairwise fun x y => due x = due y → rank x < rank y

-- What holds for the items in a queue and for those that have left it.
structure Timely (due : α → τ) (rank : α → Nat) (now : τ) (count : Nat) (queue drained : List α) :
    Prop where
  stable  : Stable due rank queue
  ordered : drained.Pairwise (Before due rank)
  ahead   : ∀ x ∈ drained, ∀ y ∈ queue, Before due rank x y
  passed  : ∀ x ∈ drained, due x ≤ now
  ranked  : ∀ x ∈ queue ++ drained, rank x < count

theorem mem_sort {x : α} : x ∈ sort due queue ↔ x ∈ queue :=
  mem_mergeSort

theorem length_sort (queue : List α) : (sort due queue).length = queue.length :=
  length_mergeSort queue

-- Sorting compares the positions of items that are due at the same time.
theorem Stable.sort (h : Stable due rank queue) : (sort due queue).Pairwise (Before due rank) := by
  let le (x y : α) : Bool := due x ≤ due y
  have htrans : ∀ x y z, le x y = true → le y z = true → le x z = true := by
    simpa [le] using fun _ _ _ => le_trans
  have htotal : ∀ x y, (le x y || le y x) = true := by
    simpa [le] using fun x y => le_total (due x) (due y)
  have hsorted := pairwise_mergeSort (zipIdxLE_trans htrans) (zipIdxLE_total htotal)
    queue.zipIdx
  have hdistinct :
      (queue.zipIdx.mergeSort (List.zipIdxLE le)).Pairwise fun x y => x.snd ≠ y.snd := by
    have := ((mergeSort_perm queue.zipIdx (List.zipIdxLE le)).map Prod.snd).nodup_iff.mpr
      (nodup_zipIdx_map_snd queue)
    exact pairwise_map.mp this
  rw [Agenda.sort, ← mergeSort_zipIdx, pairwise_map]
  refine List.Pairwise.imp_of_mem (fun {x y} hx hy ⟨hle, hne⟩ => ?_) (hsorted.and hdistinct)
  obtain ⟨hi, hx⟩ := List.getElem?_eq_some_iff.mp (mem_zipIdx_iff_getElem?.mp (mem_mergeSort.mp hx))
  obtain ⟨hj, hy⟩ := List.getElem?_eq_some_iff.mp (mem_zipIdx_iff_getElem?.mp (mem_mergeSort.mp hy))
  by_cases hyx : due y.fst ≤ due x.fst
  case neg => exact .inl (not_le.mp hyx)
  case pos =>
    have ⟨hxy, hidx⟩ : due x.fst ≤ due y.fst ∧ x.snd ≤ y.snd := by
      simpa [List.zipIdxLE, le, hyx] using hle
    have hrank := pairwise_iff_getElem.mp h x.snd y.snd hi hj (lt_of_le_of_ne hidx hne)
    rw [hx, hy] at hrank
    exact .inr ⟨le_antisymm hxy hyx, hrank (le_antisymm hxy hyx)⟩

theorem drain_prefix (due : α → τ) (now : τ) (max : Nat) (queue : List α) :
    drain due now max queue <+: sort due queue :=
  (List.takeWhile_prefix _).trans (List.take_prefix ..)

theorem drain_due {now : τ} {max : Nat} {x : α} (h : x ∈ drain due now max queue) :
    due x ≤ now := by
  simpa using mem_takeWhile_imp h

theorem drain_append_drop (due : α → τ) (now : τ) (max : Nat) (queue : List α) :
    drain due now max queue ++ (sort due queue).drop (drain due now max queue).length =
      sort due queue := by
  obtain ⟨rest, h⟩ := drain_prefix due now max queue
  rw [← h, drop_left]

namespace Timely

variable {now : τ} {count : Nat}

theorem nil (now : τ) (count : Nat) : Timely due rank now count [] [] :=
  ⟨.nil, .nil, by simp, by simp, by simp⟩

theorem tick (h : Timely due rank now count queue drained) {now' : τ} (hle : now ≤ now') :
    Timely due rank now' count queue drained :=
  { h with passed := fun x hx => (h.passed x hx).trans hle }

theorem mono (h : Timely due rank now count queue drained) {count' : Nat} (hle : count ≤ count') :
    Timely due rank now count' queue drained :=
  { h with ranked := fun x hx => (h.ranked x hx).trans_le hle }

theorem sublist (h : Timely due rank now count queue drained) {queue' : List α}
    (hs : queue'.Sublist queue) : Timely due rank now count queue' drained where
  stable          := List.Pairwise.sublist hs h.stable
  ordered         := h.ordered
  ahead x hx y hy := h.ahead x hx y (hs.subset hy)
  passed          := h.passed
  ranked x hx     := by
    refine h.ranked x ?_
    rcases mem_append.mp hx with hx | hx
    case inl => exact mem_append_left _ (hs.subset hx)
    case inr => exact mem_append_right _ hx

-- An item that is queued now is not due before now.
theorem push (h : Timely due rank now count queue drained) {x : α} (hd : now ≤ due x)
    (hr : rank x = count) : Timely due rank now (count + 1) (queue ++ [x]) drained where
  stable := by
    refine pairwise_append.mpr ⟨h.stable, pairwise_singleton .., fun y hy z hz _ => ?_⟩
    rw [mem_singleton.mp hz, hr]
    exact h.ranked y (mem_append_left _ hy)
  ordered := h.ordered
  ahead y hy z hz := by
    rcases mem_append.mp hz with hz | hz
    case inl => exact h.ahead y hy z hz
    rw [mem_singleton.mp hz]
    have hrank := h.ranked y (mem_append_right _ hy)
    rcases ((h.passed y hy).trans hd).lt_or_eq with hlt | heq
    case inl => exact .inl hlt
    case inr => exact .inr ⟨heq, hr ▸ hrank⟩
  passed := h.passed
  ranked y hy := by
    simp only [mem_append, mem_singleton] at hy
    rcases hy with (hy | rfl) | hy
    case inl.inr => omega
    all_goals exact Nat.lt_succ_of_lt (h.ranked y (by simp [hy]))

theorem drain (h : Timely due rank now count queue drained) (max : Nat) :
    Timely due rank now count
      ((sort due queue).drop (Agenda.drain due now max queue).length)
      (drained ++ Agenda.drain due now max queue) := by
  have hsplit := drain_append_drop due now max queue
  have hsorted := h.stable.sort
  rw [← hsplit] at hsorted
  obtain ⟨hout, hrest, hcross⟩ := pairwise_append.mp hsorted
  have hmem {x : α} : x ∈ queue ↔ x ∈ Agenda.drain due now max queue ∨
      x ∈ (Agenda.sort due queue).drop (Agenda.drain due now max queue).length := by
    rw [← mem_append, hsplit, mem_sort]
  exact {
    stable := hrest.imp fun hb heq => (hb.resolve_left (Eq.not_lt heq)).right
    ordered := pairwise_append.mpr
      ⟨h.ordered, hout, fun x hx y hy => h.ahead x hx y (hmem.mpr (.inl hy))⟩
    ahead := fun x hx y hy => by
      rcases mem_append.mp hx with hx | hx
      case inl => exact h.ahead x hx y (hmem.mpr (.inr hy))
      case inr => exact hcross x hx y hy
    passed := fun x hx => by
      rcases mem_append.mp hx with hx | hx
      case inl => exact h.passed x hx
      case inr => exact drain_due hx
    ranked := fun x hx => by
      refine h.ranked x ?_
      simp only [mem_append, hmem] at hx ⊢
      tauto
  }

end Timely
end Agenda
