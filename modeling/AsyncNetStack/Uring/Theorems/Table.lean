import AsyncNetStack.Device.Contract
import AsyncNetStack.Lib.Transition
import AsyncNetStack.Uring.Device
import AsyncNetStack.Uring.Theorems.Ring

open List

namespace Uring

open UringTunDevice (request READ WRITE)

-- The life cycle of the slots, without the memory of the rings.
-- * `queued`: the requests that the kernel has not consumed
-- * `posted`: the completions that have not been reaped
structure Requests where
  free     : List Nat
  pending  : List (Option Pending)
  queued   : List Sqe
  inflight : List Sqe
  posted   : List Cqe

namespace Requests

variable {n id : Nat} {hand : List Nat} {q : Requests} {sqe : Sqe} {cqe : Cqe} {op : Pending}

-- The slots of all requests that are on their way.
def live (q : Requests) : List Nat :=
  (q.queued ++ q.inflight).map Sqe.id ++ q.posted.map Cqe.id

-- All slots are free, in the hand of the device, or those of a request. Each occupied slot has the
-- buffer of its request.
structure Sound (n : Nat) (hand : List Nat) (q : Requests) : Prop where
  size      : q.pending.length = n
  bound     : n ≤ 2 ^ 64
  partition : (q.free ++ (hand ++ q.live)).Perm (List.range n)
  vacant    : ∀ i ∈ q.free, q.pending[i]? = some none
  asked     : ∀ sqe ∈ q.queued ++ q.inflight, ∃ op,
    q.pending[sqe.id]? = some (some op) ∧ sqe = request sqe.id op
  answered  : ∀ cqe ∈ q.posted, ∃ op, q.pending[cqe.id]? = some (some op)

theorem request_id (h : id < 2 ^ 64) (op : Pending) : (request id op).id = id := by
  rw [Sqe.id, request, BitVec.toNat_ofNat, Nat.mod_eq_of_lt h]

-- What the kernel can do to the slots: a buffer may be overwritten, but it stays the buffer of the
-- same request.
def Keeps (pending pending' : List (Option Pending)) : Prop :=
  ∀ i op, pending[i]? = some (some op) →
    ∃ op', pending'[i]? = some (some op') ∧ request i op' = request i op

theorem modify_keeps {u : Pending → Pending} (hu : ∀ i op, request i (u op) = request i op)
    (pending : List (Option Pending)) (id : Nat) : Keeps pending (pending.modify id (·.map u)) := by
  intro i op hi
  rw [List.getElem?_modify, hi]
  by_cases he : id = i
  · exact ⟨u op, by simp [he], hu i op⟩
  · exact ⟨op, by simp [he], rfl⟩

-- Other slots are untouched when one is taken or vacated.
theorem getElem?_set_of_ne {pending : List (Option Pending)} {i j : Nat} {o : Option Pending}
    (h : i ≠ j) : (pending.set i o)[j]? = pending[j]? := by
  rw [List.getElem?_set, if_neg h]

namespace Sound

theorem nodup (h : Sound n hand q) : (q.free ++ (hand ++ q.live)).Nodup :=
  h.partition.nodup_iff.mpr nodup_range

theorem lt_of_mem (h : Sound n hand q) (hi : id ∈ q.free ++ (hand ++ q.live)) : id < n :=
  mem_range.mp (h.partition.mem_iff.mp hi)

theorem length (h : Sound n hand q) : q.free.length + (hand.length + q.live.length) = n := by
  simpa using h.partition.length_eq

-- The kernel consumes a request.
theorem consume {queued : List Sqe} (h : Sound n hand q) (hq : q.queued = sqe :: queued) :
    Sound n hand { q with queued, inflight := q.inflight ++ [sqe] } := by
  have hp : (sqe :: queued ++ q.inflight).Perm (queued ++ (q.inflight ++ [sqe])) := by
    rw [← append_assoc]
    exact (perm_append_singleton ..).symm
  refine { h with partition := ?_, asked := fun s hs => ?_ }
  · refine List.Perm.trans ?_ h.partition
    apply List.Perm.append_left
    apply List.Perm.append_left
    apply List.Perm.append_right
    rw [hq]
    exact hp.symm.map Sqe.id
  · exact h.asked s (by rw [hq]; exact hp.mem_iff.mpr hs)

-- The kernel completes a request, and may have written to its buffer.
theorem complete {k : Nat} {result : Int} {u : Pending → Pending} (h : Sound n hand q)
    (hk : q.inflight[k]? = some sqe) (hu : ∀ i op, request i (u op) = request i op) :
    Sound n hand { q with
      pending  := q.pending.modify sqe.id (·.map u)
      inflight := q.inflight.eraseIdx k
      posted   := q.posted ++ [⟨sqe.userData, result⟩] } := by
  have ⟨hlt, hs⟩ := List.getElem?_eq_some_iff.mp hk
  have hp : (sqe :: q.inflight.eraseIdx k).Perm q.inflight :=
    hs ▸ getElem_cons_eraseIdx_perm hlt
  have hkeeps := modify_keeps hu q.pending sqe.id
  have hsqe : sqe ∈ q.queued ++ q.inflight :=
    mem_append_right _ (mem_of_getElem? hk)
  refine ⟨by simp [h.size], h.bound, ?_, fun i hi => ?_, fun s hs => ?_, fun c hc => ?_⟩
  · refine List.Perm.trans ?_ h.partition
    apply List.Perm.append_left
    apply List.Perm.append_left
    simp only [live, map_append, map_cons, map_nil, append_assoc]
    apply List.Perm.append_left
    rw [← append_assoc]
    refine .trans ?_ ((hp.map Sqe.id).append_right _)
    exact perm_append_singleton ..
  · rw [List.getElem?_modify, h.vacant i hi]
    simp
  · have hs : s ∈ q.queued ++ q.inflight := by
      simp only [mem_append] at hs ⊢
      exact hs.imp_right mem_of_mem_eraseIdx
    have ⟨op, ho, hr⟩ := h.asked s hs
    have ⟨op', ho', hr'⟩ := hkeeps _ _ ho
    exact ⟨op', ho', hr.trans hr'.symm⟩
  · rcases mem_append.mp hc with hc | hc
    · have ⟨op, ho⟩ := h.answered c hc
      have ⟨op', ho', _⟩ := hkeeps _ _ ho
      exact ⟨op', ho'⟩
    · have ⟨op, ho, _⟩ := h.asked sqe hsqe
      have ⟨op', ho', _⟩ := hkeeps _ _ ho
      rw [mem_singleton.mp hc]
      exact ⟨op', ho'⟩

-- The slot of a request that is being completed has no completion yet.
theorem posted_ne (h : Sound n hand q) (hs : sqe ∈ q.queued ++ q.inflight) (hc : cqe ∈ q.posted) :
    sqe.id ≠ cqe.id := by
  have hlive : q.live.Nodup := by
    have := h.nodup
    rw [← append_assoc] at this
    exact List.Nodup.of_append_right this
  exact (nodup_append.mp hlive).right.right _ (mem_map_of_mem hs) _
    (mem_map_of_mem hc)

-- A completion is reaped, which vacates its slot.
theorem reap {posted : List Cqe} (h : Sound n hand q) (hq : q.posted = cqe :: posted) :
    (∀ c ∈ posted, cqe.id ≠ c.id) ∧
    Sound n hand { q with
      free    := cqe.id :: q.free
      pending := q.pending.set cqe.id none
      posted } := by
  have hlive : q.live.Perm (cqe.id :: live { q with posted }) := by
    rw [live, hq]
    exact perm_middle
  have hp : (q.free ++ (hand ++ q.live)).Perm
      (cqe.id :: (q.free ++ (hand ++ live { q with posted }))) := by
    refine (((hlive.append_left _).trans perm_middle).append_left _).trans ?_
    exact perm_middle
  have hne {i : Nat} (hi : i ∈ q.free ++ (hand ++ live { q with posted })) : cqe.id ≠ i := by
    rintro rfl
    exact (nodup_cons.mp (hp.nodup_iff.mp h.nodup)).left hi
  have hne_live {i : Nat} (hi : i ∈ live { q with posted }) : cqe.id ≠ i :=
    hne (mem_append_right _ (mem_append_right _ hi))
  have hlt : cqe.id < q.pending.length := by
    rw [h.size]
    exact h.lt_of_mem (hp.mem_iff.mpr (mem_cons_self ..))
  have hposted {c : Cqe} (hc : c ∈ posted) : cqe.id ≠ c.id :=
    hne_live (mem_append_right _ (mem_map_of_mem hc))
  refine ⟨fun c hc => hposted hc, by simp [h.size], h.bound, hp.symm.trans h.partition,
    fun i hi => ?_, fun s hs => ?_, fun c hc => ?_⟩
  · rcases mem_cons.mp hi with rfl | hi
    · simp [hlt]
    · rw [getElem?_set_of_ne (hne (mem_append_left _ hi))]
      exact h.vacant i hi
  · have hs' : s.id ∈ live { q with posted } :=
      mem_append_left _ (mem_map_of_mem hs)
    rw [getElem?_set_of_ne (hne_live hs')]
    exact h.asked s hs
  · rw [getElem?_set_of_ne (hposted hc)]
    exact h.answered c (hq ▸ mem_cons_of_mem _ hc)

-- A free slot is taken for an operation.
theorem take {free : List Nat} (h : Sound n [] q) (hf : q.free = id :: free) (op : Pending) :
    (∀ c ∈ q.posted, id ≠ c.id) ∧
    Sound n [id] { q with free, pending := q.pending.set id (some op) } := by
  have hnodup := h.nodup
  rw [hf, cons_append, nodup_cons] at hnodup
  have hne {i : Nat} (hi : i ∈ free ++ ([] ++ q.live)) : id ≠ i := by
    rintro rfl
    exact hnodup.left hi
  have hne_live {i : Nat} (hi : i ∈ q.live) : id ≠ i := hne (mem_append_right _ hi)
  have hposted {c : Cqe} (hc : c ∈ q.posted) : id ≠ c.id :=
    hne_live (mem_append_right _ (mem_map_of_mem hc))
  refine ⟨fun c hc => hposted hc, by simp [h.size], h.bound, ?_, fun i hi => ?_, fun s hs => ?_,
    fun c hc => ?_⟩
  · refine List.Perm.trans ?_ h.partition
    rw [hf]
    exact perm_middle
  · rw [getElem?_set_of_ne (hne (mem_append_left _ hi))]
    exact h.vacant i (hf ▸ mem_cons_of_mem _ hi)
  · have hs' : s.id ∈ q.live := mem_append_left _ (mem_map_of_mem hs)
    rw [getElem?_set_of_ne (hne_live hs')]
    exact h.asked s hs
  · rw [getElem?_set_of_ne (hposted hc)]
    exact h.answered c hc

-- The request for the operation in a slot is queued.
theorem push (h : Sound n [id] q) (hi : q.pending[id]? = some (some op)) :
    Sound n [] { q with queued := q.queued ++ [request id op] } := by
  have hid : id < n := h.lt_of_mem (by simp)
  have hr := request_id (Nat.lt_of_lt_of_le hid h.bound) op
  refine { h with partition := ?_, asked := fun s hs => ?_ }
  · have hp : ((q.queued ++ [request id op] ++ q.inflight).map Sqe.id).Perm
        (id :: (q.queued ++ q.inflight).map Sqe.id) := by
      rw [append_assoc, singleton_append]
      refine (perm_middle.map Sqe.id).trans ?_
      rw [map_cons, hr]
    exact ((hp.append_right _).append_left _).trans h.partition
  · have hs : s ∈ q.queued ++ q.inflight ∨ s = request id op := by
      simp only [mem_append, mem_singleton] at hs ⊢
      tauto
    rcases hs with hs | rfl
    · exact h.asked s hs
    · exact ⟨op, by rw [hr]; exact hi, by rw [hr]⟩

end Sound
end Requests
end Uring
