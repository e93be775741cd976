import AsyncNetStack.Device.Loopback
import AsyncNetStack.Dns.Theorems.Moves
import AsyncNetStack.Lib.Keys
import AsyncNetStack.Lib.Ledger
import AsyncNetStack.Lib.Tenure

open Std Transition List Option

namespace Dns.UdpResolver

variable {δ : Type} {r r₁ r₂ r₃ : UdpResolver δ} {id : QueryId} {q : Pending}

-- The endpoint that a query has bound.
def held (r : UdpResolver δ) (id : QueryId) : Option SocketAddr :=
  r.pending[id]?.bind (·.localAddr)

-- Every query is pending or completed, there is room for all completions, and the endpoints that
-- are bound belong to one pending query each.
structure Sound (r : UdpResolver δ) : Prop where
  ledger : Ledger.Sound r.nextId r.pending.keys ((r.popped ++ r.results).map (·.id))
  room   : r.pending.size + r.results.length ≤ r.config.capacity
  ports  : Tenure.Sound r.held r.serves

-- The same queries are pending.
theorem Frame.sound (h : Frame r₁ r₂) (hs : Sound r₁)
    (hmem : ∀ id, id ∈ r₂.pending ↔ id ∈ r₁.pending) (hp : Tenure.Sound r₂.held r₂.serves) :
    Sound r₂ where
  ledger := by
    rw [h.nextId, h.popped, h.results]
    exact ⟨hs.ledger.pos, ((TreeMap.keys_perm hmem).append_right _).trans hs.ledger.perm⟩
  room   := by
    rw [h.config, h.results, TreeMap.size_eq_of_mem hmem]
    exact hs.room
  ports  := hp

theorem revise_sound (h : Sound r) (id : QueryId) {f : Pending → Pending}
    (hf : ∀ q, (f q).localAddr = q.localAddr) : Sound (r.revise id f) := by
  have hframe : Frame r (r.revise id f) := ⟨rfl, rfl, rfl, rfl, rfl, rfl, rfl, rfl⟩
  refine hframe.sound h (fun _ => TreeMap.mem_modify) ?_
  refine h.ports.congr (fun j => ?_) fun _ => Iff.rfl
  rw [held, held, getElem?_revise]
  split
  case isTrue heq =>
    subst heq
    cases r.pending[id]?
    case none   => rfl
    case some q => exact hf q
  case isFalse => rfl

theorem pool_sound (h : Sound r) {pool : UdpPool δ} (hs : pool.services = r.pool.services) :
    Sound { r with pool } where
  ledger := h.ledger
  room   := h.room
  ports  := h.ports.congr (fun _ => rfl) fun a => by rw [serves, hs, serves]

theorem held_erase {pending : TreeMap QueryId Pending} (j : QueryId) :
    ((pending.erase id)[j]?.bind (·.localAddr)) =
      if j = id then none else pending[j]?.bind (·.localAddr) := by
  rw [TreeMap.getElem?_erase]
  simp only [Std.compare_eq_iff_eq, eq_comm (a := id)]
  split
  case isTrue  => rfl
  case isFalse => rfl

theorem Finished.sound {result : Except ResolveError Answer} {last : List Receipt}
    (h : Finished r₁ id q result last r₂)
    (hs : Sound r₁) (hq : r₁.pending[id]? = some q) : Sound r₂ where
  ledger := by
    rw [h.nextId, h.popped, h.results, h.pending]
    refine hs.ledger.close (TreeMap.keys_erase_perm (mem_pending hq)) ?_
    rw [← append_assoc, map_append]
    exact perm_append_singleton ..
  room   := by
    have hsize := TreeMap.size_erase_add_one (mem_pending hq)
    have hroom := hs.room
    rw [h.config, h.results, h.pending, length_append, length_singleton]
    omega
  ports  := by
    refine hs.ports.release id (fun j => ?_) fun a => ?_
    · rw [held, h.pending, held_erase, held]
    · rw [serves, h.pool, UdpPool.mem_vacate, held, hq]
      rfl

theorem Tried.sound {q' : Pending} (hs : Sound r₁) (hq : r₁.pending[id]? = some q)
    (h : Tried { r₁ with pending := r₁.pending.erase id, pool := r₁.pool.vacate q.localAddr }
      q r₂ q') :
    Sound { r₂ with pending := r₂.pending.insert id q' } := by
  have hframe : Frame r₁ { r₂ with pending := r₂.pending.insert id q' } :=
    ⟨h.frame.config, h.frame.results, h.frame.cache, h.frame.now, h.frame.generation,
      h.frame.nextId, h.frame.popped, h.frame.deliveries⟩
  refine hframe.sound hs (fun j => ?_) ?_
  · rw [h.pending, TreeMap.mem_insert, TreeMap.mem_erase, ne_eq, Std.compare_eq_iff_eq]
    by_cases heq : id = j
    · subst heq
      simp [mem_pending hq]
    · simp [heq]
  · have hfree : Tenure.Sound (fun j => if j = id then none else r₁.held j)
        (· ∈ (r₁.pool.vacate q.localAddr).services) := by
      refine hs.ports.release id (fun _ => rfl) fun a => ?_
      rw [UdpPool.mem_vacate, held, hq]
      rfl
    have hheld (j : QueryId) : held { r₂ with pending := r₂.pending.insert id q' } j =
        if j = id then q'.localAddr else if j = id then none else r₁.held j := by
      rw [held, h.pending, TreeMap.getElem?_insert]
      simp only [Std.compare_eq_iff_eq, eq_comm (a := id)]
      split
      case isTrue      => rfl
      case isFalse hne =>
        rw [held_erase, if_neg hne]
        rfl
    have hserves := h.binds.serves
    cases ha : q'.localAddr
    case none =>
      refine hfree.congr (fun j => ?_) fun a => ?_
      · rw [hheld, ha]
        split
        all_goals rfl
      · have := hserves a
        rw [ha] at this
        exact this.trans (by simp [serves])
    case some a =>
      refine hfree.acquire (h.binds.free a ha) (if_pos rfl) (fun j => ?_) fun b => ?_
      · rw [hheld, ha]
      · have := hserves b
        rw [ha, Option.some.injEq, eq_comm] at this
        exact this

theorem Sound.fresh (h : Sound r) : r.nextId ∉ r.pending := by
  intro hmem
  have := h.ledger.mem_iff.mp (.inl (TreeMap.mem_keys.mpr hmem))
  omega

-- A query that the cache answers is completed at once.
theorem complete_sound (h : Sound r) (hroom : r.pending.size + r.results.length < r.config.capacity)
    {c : Completion} (hc : c.id = r.nextId) (receipts : List Receipt) :
    Sound (complete { r with nextId := r.nextId + 1 } c receipts) where
  ledger := by
    refine (h.ledger.issue (.refl _)).close (.refl _) ?_
    rw [complete, ← append_assoc, map_append, map_singleton, hc]
    exact perm_append_singleton ..
  room   := by
    rw [complete, length_append, length_singleton]
    exact hroom
  ports  := h.ports

theorem insert_sound (h : Sound r) (hroom : r.pending.size + r.results.length < r.config.capacity)
    (hq : q.localAddr = none) :
    Sound { r with nextId := r.nextId + 1, pending := r.pending.insert r.nextId q } where
  ledger := h.ledger.issue (TreeMap.keys_insert_perm h.fresh)
  room   := by
    change (r.pending.insert r.nextId q).size + r.results.length ≤ r.config.capacity
    rw [TreeMap.size_insert_new h.fresh]
    omega
  ports  := by
    refine h.ports.congr (fun j => ?_) fun _ => Iff.rfl
    rw [held, held, TreeMap.getElem?_insert]
    simp only [Std.compare_eq_iff_eq]
    split
    case isTrue heq =>
      subst heq
      rw [TreeMap.getElem?_eq_none h.fresh]
      exact hq
    case isFalse => rfl

theorem popResult_sound (h : Sound r) : Sound r.popResult.fst where
  ledger := by
    have heq : (r.popped ++ r.results.head?.toList) ++ r.results.tail = r.popped ++ r.results := by
      cases r.results
      case nil  => simp
      case cons => simp
    rw [popResult, heq]
    exact h.ledger
  room   := by
    calc r.pending.size + r.results.tail.length
      _ ≤ r.pending.size + r.results.length := by rw [length_tail]; omega
      _ ≤ r.config.capacity                 := h.room
  ports  := h.ports

theorem Move.sound (hm : Move r₁ r₂) (h : Sound r₁) : Sound r₂ := by
  cases hm
  case transport hs     => exact ⟨h.ledger, h.room, (pool_sound h hs).ports⟩
  case reschedule hf    => exact revise_sound h _ fun q => (hf q).localAddr
  case retry hq ht      => exact ht.sound h hq
  case redirect hf      => exact revise_sound h _ fun q => (hf q).localAddr
  case finish hq        => exact (finish_finished hq ..).sound h hq
  case store hq _ _ _   => exact (finish_finished hq ..).sound h hq

theorem Act.sound (ha : Act r₁ r₂) (h : Sound r₁) : Sound r₂ := by
  cases ha
  case move hm            => exact hm.sound h
  case hit hroom _ _      => exact complete_sound h hroom rfl _
  case start hroom hq _ _ => exact insert_sound h hroom hq
  case pop                => exact popResult_sound h
  case tick hs            => exact ⟨h.ledger, h.room, (pool_sound h hs).ports⟩
  case renew              => exact ⟨h.ledger, h.room, h.ports⟩

theorem exec_sound [Device δ] (h : Sound r) (ops : List (Op δ)) : Sound (exec step r ops) :=
  exec_induction h fun r op => (r.step_acts op).preserves Act.sound

theorem Fresh.sound (h : Fresh r) : Sound r where
  ledger := by
    rw [h.nextId, h.popped, h.results, h.pending]
    exact .empty
  room   := by
    rw [h.pending, h.results]
    exact Nat.zero_le _
  ports  := by
    refine Tenure.Sound.empty.congr (fun j => ?_) fun a => ?_
    · rw [held, h.pending]
      rfl
    · rw [serves, h.services]
      simp

-- A query whose time is up.
def Overdue (r : UdpResolver δ) (id : QueryId) : Prop :=
  ∃ q, r.pending[id]? = some q ∧ q.deadline ≤ r.now

theorem finish_overdue {j : QueryId} {result : Except ResolveError Answer} {ttl : Option Duration}
    {last : List Receipt} (h : (r.finish id result ttl last).Overdue j) : j ≠ id ∧ r.Overdue j := by
  obtain ⟨q', hq', hd⟩ := h
  cases hq : r.pending[id]?
  case none =>
    rw [finish, hq] at hq' hd
    refine ⟨fun heq => ?_, q', hq', hd⟩
    rw [heq, hq] at hq'
    cases hq'
  case some q =>
    have hf := finish_finished hq result ttl last
    rw [hf.pending, TreeMap.getElem?_erase] at hq'
    simp only [Std.compare_eq_iff_eq] at hq'
    split at hq'
    case isTrue      => cases hq'
    case isFalse hne => exact ⟨Ne.symm hne, q', hq', hf.now ▸ hd⟩

theorem revise_overdue {j : QueryId} {f : Pending → Pending} (hf : ∀ q, (f q).deadline = q.deadline)
    (h : (r.revise id f).Overdue j) : r.Overdue j := by
  obtain ⟨q', hq', hd⟩ := h
  rw [getElem?_revise] at hq'
  split at hq'
  case isTrue heq =>
    subst heq
    obtain ⟨q, hq, rfl⟩ := map_eq_some_iff.mp hq'
    exact ⟨q, hq, hf q ▸ hd⟩
  case isFalse => exact ⟨q', hq', hd⟩

section

variable [Device δ]

theorem attempt_overdue {j : QueryId} (hq : r.pending[id]? = some q) (hd : ¬q.deadline ≤ r.now)
    (h : (r.attempt id).fst.Overdue j) : j ≠ id ∧ r.Overdue j := by
  have ⟨r', q', heq, ht⟩ := attempt_tried hq
  obtain ⟨q'', hq'', hd''⟩ := h
  have hnow : (r.attempt id).fst.now = r.now := heq ▸ ht.frame.now
  rw [hnow] at hd''
  rw [heq, TreeMap.getElem?_insert, ht.pending, TreeMap.getElem?_erase] at hq''
  simp only [Std.compare_eq_iff_eq] at hq''
  split at hq''
  case isTrue =>
    cases hq''
    rw [ht.retried.deadline] at hd''
    exact absurd hd'' hd
  case isFalse hne => exact ⟨Ne.symm hne, q'', hq'', hd''⟩

-- A sweep completes a query that is overdue, and leaves the deadlines of all others alone.
theorem sweep_overdue {j : QueryId} (h : (r.sweep id).Overdue j) : j ≠ id ∧ r.Overdue j := by
  rw [sweep] at h
  split at h
  case h_1 hq =>
    refine ⟨fun heq => ?_, h⟩
    obtain ⟨q, hq', _⟩ := h
    rw [heq, hq] at hq'
    cases hq'
  case h_2 q hq =>
    split at h
    case isTrue => exact finish_overdue h
    rename_i hdue
    have hd : ¬q.deadline ≤ r.now := fun hle => hdue (by simp [hle])
    split at h
    case isTrue =>
      have ha (h : (r.attempt id).fst.Overdue j) := attempt_overdue hq hd h
      revert h ha
      generalize r.attempt id = o
      obtain ⟨r', err | _⟩ := o
      case ok => exact fun h ha => ha h
      case error =>
        intro h ha
        dsimp only at h
        split at h
        case isTrue =>
          apply ha
          apply revise_overdue _ h
          exact fun _ => rfl
        case isFalse => exact ha (finish_overdue h).right
    case isFalse =>
      refine ⟨fun heq => ?_, h⟩
      obtain ⟨q', hq', hd'⟩ := h
      rw [heq, hq] at hq'
      cases hq'
      exact hd hd'

theorem sweeps_overdue {ids : List QueryId} {j : QueryId} (h : (ids.foldl sweep r).Overdue j) :
    j ∉ ids ∧ r.Overdue j := by
  induction ids generalizing r
  case nil => exact ⟨not_mem_nil, h⟩
  case cons id ids ih =>
    have ⟨hmem, hs⟩ := ih h
    have ⟨hne, hr⟩ := sweep_overdue hs
    exact ⟨by simp [hne, hmem], hr⟩

theorem work_overdue (r : UdpResolver δ) (incoming : List Incoming) (id : QueryId) :
    ¬(r.work incoming).Overdue id := by
  intro h
  have ⟨hmem, q, hq, _⟩ := sweeps_overdue h
  exact hmem (TreeMap.mem_keys.mpr (mem_pending hq))

theorem poll_overdue {now : Duration} (h : r.poll now = (r₁, .ok ()))
    (hq : r₁.pending[id]? = some q) : now < q.deadline := by
  rw [poll] at h
  split at h
  case isTrue => cases h
  dsimp only at h
  split at h
  case h_1 => cases h
  rename_i pool incoming _ _
  obtain rfl : _ = r₁ := congrArg Prod.fst h
  have hnow := (work_moves { r with
    now, pool, cache := r.cache.filter fun _ c => now < c.expires } incoming).now
  exact lt_of_not_ge fun hd => work_overdue _ incoming id ⟨q, hq, hnow ▸ hd⟩

end

theorem Act.nextId_le (h : Act r₁ r₂) : r₁.nextId ≤ r₂.nextId := by
  cases h
  case move hm =>
    cases hm
    case transport      => exact le_rfl
    case reschedule     => exact le_rfl
    case redirect       => exact le_rfl
    case retry ht       => exact ht.frame.nextId.ge
    case finish hq      => exact (finish_finished hq ..).nextId.ge
    case store hq _ _ _ => exact (finish_finished hq ..).nextId.ge
  case hit   => exact Nat.le_succ _
  case start => exact Nat.le_succ _
  case pop   => exact le_rfl
  case tick  => exact le_rfl
  case renew => exact le_rfl

theorem exec_nextId_le [Device δ] (r : UdpResolver δ) (ops : List (Op δ)) :
    r.nextId ≤ (exec step r ops).nextId :=
  exec_induction (P := fun r' : UdpResolver δ => r.nextId ≤ r'.nextId) le_rfl fun r' op h =>
    (r'.step_acts op).preserves (P := fun r' => r.nextId ≤ r'.nextId)
      (fun ha hle => hle.trans ha.nextId_le) h

theorem resolve_id {input : List U8} (h : (r.resolve input).snd = .ok id) :
    id = r.nextId ∧ (r.resolve input).fst.nextId = r.nextId + 1 := by
  revert h
  rw [resolve]
  split
  case h_1 => rintro ⟨⟩
  split
  case isTrue => rintro ⟨⟩
  dsimp only
  split
  all_goals
    rintro ⟨⟩
    exact ⟨rfl, rfl⟩

-- A query is pending, or there is one completion for it.
def Tracked (r : UdpResolver δ) (id : QueryId) : Prop :=
  (id ∈ r.pending ∧ ((r.popped ++ r.results).map (·.id)).count id = 0) ∨
  (id ∉ r.pending ∧ ((r.popped ++ r.results).map (·.id)).count id = 1)

theorem Sound.tracked (h : Sound r) (hpos : 1 ≤ id) (hid : id < r.nextId) : Tracked r id := by
  have hmem := h.ledger.mem_iff.mpr ⟨hpos, hid⟩
  rw [TreeMap.mem_keys] at hmem
  by_cases hp : id ∈ r.pending
  · have hc := h.ledger.apart (TreeMap.mem_keys.mpr hp)
    exact .inl ⟨hp, count_eq_zero.mpr hc⟩
  · have hnodup := (nodup_append.mp h.ledger.nodup).right.left
    exact .inr ⟨hp, count_eq_one_of_mem hnodup (hmem.resolve_left hp)⟩

-- Whatever the operations, the device and the network do, every query that was accepted is pending
-- or completed once, the endpoints that are bound are those of the pending queries, and a poll
-- leaves no query behind whose time is up.
theorem lookups_complete_once [Device δ] {device : δ} {network : NetworkConfig}
    {config : ResolverConfig} {entropy : IoResult (Nat → IoResult (U16 × U16))}
    (h : new device network config entropy = .ok r) (ops : List (Op δ)) :
    let r' := exec step r ops
    (∀ before input after id, ops = before ++ .resolve input :: after →
      ((exec step r before).resolve input).snd = .ok id → Tracked r' id) ∧
    r'.pending.size + r'.results.length ≤ r'.config.capacity ∧
    (∀ a, a ∈ r'.pool.services ↔
      ∃ (id : QueryId) (q : Pending), r'.pending[id]? = some q ∧ q.localAddr = some a) ∧
    (∀ (id₁ id₂ : QueryId) (q₁ q₂ : Pending) a, r'.pending[id₁]? = some q₁ →
      r'.pending[id₂]? = some q₂ → q₁.localAddr = some a → q₂.localAddr = some a → id₁ = id₂) ∧
    ∀ now r'', r'.poll now = (r'', .ok ()) →
      ∀ (id : QueryId) (q : Pending), r''.pending[id]? = some q → now < q.deadline := by
  have hs := exec_sound (new_fresh h).sound ops
  refine ⟨?_, hs.room, fun a => ?_, fun id₁ id₂ q₁ q₂ a h₁ h₂ ha₁ ha₂ => ?_,
    fun now r'' hp id q hq => ?_⟩
  · rintro before input after id rfl hok
    obtain ⟨hid, hnext⟩ := resolve_id hok
    have hpos := (exec_sound (new_fresh h).sound before).ledger.pos
    have hle := exec_nextId_le (step (exec step r before) (.resolve input)) after
    have hexec : exec step r (before ++ .resolve input :: after) =
        exec step (step (exec step r before) (.resolve input)) after := by
      simp [exec]
    refine hs.tracked (hid ▸ hpos) ?_
    rw [hexec, hid]
    exact Nat.lt_of_lt_of_le (by rw [step, hnext]; exact Nat.lt_succ_self _) hle
  · refine (hs.ports.exact a).trans ⟨?_, ?_⟩
    · rintro ⟨id, hid⟩
      obtain ⟨q, hq, ha⟩ := bind_eq_some_iff.mp hid
      exact ⟨id, q, hq, ha⟩
    · rintro ⟨id, q, hq, ha⟩
      exact ⟨id, bind_eq_some_iff.mpr ⟨q, hq, ha⟩⟩
  · exact hs.ports.unique (bind_eq_some_iff.mpr ⟨q₁, h₁, ha₁⟩)
      (bind_eq_some_iff.mpr ⟨q₂, h₂, ha₂⟩)
  · exact poll_overdue hp hq

def overLoopback : IoResult (UdpResolver LoopbackDevice) :=
  new (.withCapacity 0 4 4)
    { localAddress := 0x0a000001#32, servers := [{ ip := 0x0a000002#32, port := 53 }] } .default
    (.ok fun n => .ok (0x1234, BitVec.ofNat 16 (0xc000 + n)))

theorem lookups_complete_once_loopback : ∃ r, overLoopback = .ok r ∧
    Tracked (exec step r [.resolve [0x61], .poll (.fromSecs 1), .popResult]) 1 := by
  have hok :
      overLoopback.toOption.any (fun r => (r.resolve [0x61]).snd.toOption = some 1) = true := by
    decide +kernel
  cases h : overLoopback
  case error => rw [h] at hok; cases hok
  case ok r =>
    rw [h] at hok
    refine ⟨r, rfl, (lookups_complete_once h _).left [] [0x61] _ 1 rfl ?_⟩
    have hid : (r.resolve [0x61]).snd.toOption = some 1 := of_decide_eq_true hok
    revert hid
    rw [exec_nil]
    cases (r.resolve [0x61]).snd
    case error => exact fun hid => nomatch hid
    case ok id =>
      rintro ⟨⟩
      rfl

end Dns.UdpResolver
