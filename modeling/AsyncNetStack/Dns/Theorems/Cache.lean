import AsyncNetStack.Dns.Theorems.Moves
import AsyncNetStack.Lib.Keys

open List Option

open Transition
open Std (TreeMap)

namespace Dns

-- A point in time up to which all records are valid that a response rests on. Records are valid for
-- a limited time only, even if their own is longer. The bound is in nanoseconds and does not
-- saturate.
def Receipt.Covers (maxTtl : Duration) (rc : Receipt) (expires : Duration) : Prop :=
  ∃ answer rs, rc.answer = some answer ∧ Wire.Rests rc.message rc.wireId rc.question answer rs ∧
    ∀ record ∈ rs, expires.nanos ≤ rc.time.nanos + min (record.ttl * 10 ^ 9) maxTtl.nanos

theorem Receipt.Covers.mono {maxTtl e₁ e₂ : Duration} {rc : Receipt} (h : rc.Covers maxTtl e₁)
    (hle : e₂ ≤ e₁) : rc.Covers maxTtl e₂ := by
  obtain ⟨answer, rs, hanswer, hrests, hrs⟩ := h
  exact ⟨answer, rs, hanswer, hrests, fun r hr => (Duration.le_def.mp hle).trans (hrs r hr)⟩

-- The aliases by which a query for a name has come to a question, one after the other.
inductive Leads (original : Name) : List Receipt → Name → Prop
  | start :
      Leads original [] original
  | alias {rcs : List Receipt} {rc : Receipt} {target : Name} {ttl hops : Nat}
      (leads : Leads original rcs rc.question)
      (given : rc.answer = some (.aliased target ttl hops)) :
      Leads original (rcs ++ [rc]) target

-- The result of a query for a name, given all responses to it.
inductive Yields (original : Name) (expires : Duration) :
    List Receipt → Except ResolveError Answer → Prop
  | last {rcs : List Receipt} {rc : Receipt} {answer : Wire.Answer}
      {result : Except ResolveError Answer}
      (leads   : Leads original rcs rc.question)
      (given   : rc.answer = some answer)
      (results : UdpResolver.Results expires answer result) :
      Yields original expires (rcs ++ [rc]) result

namespace Yields

variable {original : Name} {expires : Duration} {rcs : List Receipt}

theorem expiresAt {answer : Answer} (h : Yields original expires rcs (.ok answer)) :
    answer.expiresAt = expires := by
  obtain ⟨_, _, ⟨⟩⟩ := h
  rfl

theorem absence {err : ResolveError} (h : Yields original expires rcs (.error err)) :
    err = .notFound ∨ err = .noData := by
  obtain ⟨_, hgiven, ⟨⟩⟩ := h
  exact (Wire.response_vouched hgiven (by rintro _ ⟨⟩)).error _ _ rfl

end Yields

-- The aliases of a query expire before any of their records does.
structure Pending.Dated (maxTtl now : Duration) (q : Pending) : Prop where
  leads  : Leads q.original q.receipts q.question
  past   : ∀ rc ∈ q.receipts, rc.time ≤ now
  covers : ∀ rc ∈ q.receipts, ∃ e, q.aliasExpires = some e ∧ rc.Covers maxTtl e

namespace UdpResolver

variable {δ : Type} {r r₁ r₂ : UdpResolver δ} {id : QueryId} {q : Pending} {rc : Receipt}
  {ttl : Nat}
  {answer : Wire.Answer}

theorem expiry_le_now (r : UdpResolver δ) (q : Pending) (ttl : Nat) :
    (r.expiry q ttl).nanos ≤ r.now.nanos + min (ttl * 10 ^ 9) r.config.maxCacheTtl.nanos := by
  have hle : r.expiry q ttl ≤ r.now.saturatingAdd (min (.fromSecs ttl) r.config.maxCacheTtl) := by
    rw [expiry]
    cases q.aliasExpires
    case none   => exact le_rfl
    case some e => exact min_le_right ..
  calc (r.expiry q ttl).nanos
    _ ≤ (r.now.saturatingAdd (min (.fromSecs ttl) r.config.maxCacheTtl)).nanos :=
      Duration.le_def.mp hle
    _ ≤ r.now.nanos + (min (.fromSecs ttl) r.config.maxCacheTtl).nanos :=
      Duration.saturatingAdd_le ..
    _ ≤ r.now.nanos + min (ttl * 10 ^ 9) r.config.maxCacheTtl.nanos := by
      rw [Duration.nanos_min]
      exact Nat.add_le_add_left (min_le_min_right _ (Duration.fromSecs_le ttl)) _

theorem expiry_le_alias {e : Duration} (h : q.aliasExpires = some e) : r.expiry q ttl ≤ e := by
  rw [expiry, h]
  exact min_le_left ..

theorem Taken.covers (h : Taken r q rc answer) (httl : answer.lifetime = some ttl) :
    rc.Covers r.config.maxCacheTtl (r.expiry q ttl) := by
  have hv := Wire.response_vouched h.answer (by rintro _ rfl; cases httl)
  obtain ⟨rs, hrests, hrs⟩ := hv.rests
  refine ⟨answer, rs, h.answer, hrests, fun record hrecord => ?_⟩
  have hle : min (ttl * 10 ^ 9) r.config.maxCacheTtl.nanos ≤
      min (record.ttl * 10 ^ 9) r.config.maxCacheTtl.nanos :=
    min_le_min_right _ (Nat.mul_le_mul_right _ (hrs ttl httl record hrecord))
  rw [h.time]
  exact (r.expiry_le_now q ttl).trans (Nat.add_le_add_left hle _)

-- With one more response, a query does not outlive any of its records.
theorem Taken.covers_all (h : Taken r q rc answer) (hd : q.Dated r.config.maxCacheTtl r.now)
    (httl : answer.lifetime = some ttl) :
    ∀ rc' ∈ q.receipts ++ [rc], rc'.Covers r.config.maxCacheTtl (r.expiry q ttl) := by
  refine forall_mem_append.mpr ⟨fun rc' hrc' => ?_, forall_mem_singleton.mpr (h.covers httl)⟩
  have ⟨e, he, hc⟩ := hd.covers rc' hrc'
  exact hc.mono (expiry_le_alias he)

theorem Taken.past (h : Taken r q rc answer) (hd : q.Dated r.config.maxCacheTtl r.now) :
    ∀ rc' ∈ q.receipts ++ [rc], rc'.time ≤ r.now :=
  forall_mem_append.mpr ⟨hd.past, forall_mem_singleton.mpr h.time.le⟩

section

variable {cache : TreeMap Name Cached} {name : Name} {entry : Cached}

-- The entry that is found is the given one, or one of the list.
theorem oldest_fold (best : Option (Name × Cached)) (entries : List (Name × Cached)) :
    let found := entries.foldl
      (fun best e => if best.any (·.snd.expires ≤ e.snd.expires) then best else some e) best
    (∀ e, found = some e → best = some e ∨ e ∈ entries) ∧
    (found = none → best = none ∧ entries = []) := by
  induction entries generalizing best
  case nil => exact ⟨fun _ => .inl, fun h => ⟨h, rfl⟩⟩
  case cons e entries ih =>
    have ⟨hsome, hnone⟩ := ih (if best.any (·.snd.expires ≤ e.snd.expires) then best else some e)
    refine ⟨fun e' h => ?_, fun h => ?_⟩
    · rcases hsome e' h with heq | hmem
      · split at heq
        case isTrue  => exact .inl heq
        case isFalse => exact .inr (Option.some.inj heq ▸ mem_cons_self)
      · exact .inr (mem_cons_of_mem _ hmem)
    · have ⟨heq, _⟩ := hnone h
      split at heq
      case isTrue hany => rw [heq] at hany; cases hany
      case isFalse     => cases heq

theorem oldest_mem (h : oldest cache = some name) : name ∈ cache := by
  obtain ⟨e, he, rfl⟩ := map_eq_some_iff.mp h
  rcases (oldest_fold none cache.toList).left e he with hnone | hmem
  · cases hnone
  · rw [TreeMap.mem_iff_isSome_getElem?, TreeMap.mem_toList_iff_getElem?_eq_some.mp hmem]
    rfl

theorem oldest_none (h : oldest cache = none) : cache.size = 0 := by
  have ⟨_, hnil⟩ := (oldest_fold none cache.toList).right (map_eq_none_iff.mp h)
  rw [← TreeMap.length_toList, hnil]
  rfl

theorem size_insert_le : (cache.insert name entry).size ≤ cache.size + 1 := by
  rw [TreeMap.size_insert]
  split
  all_goals omega

end

theorem remember_cases {name : Name} {entry c : Cached} {n : Name}
    (h : (r.remember name entry).cache[n]? = some c) :
    (n = name ∧ c = entry) ∨ r.cache[n]? = some c := by
  have hevict {cache : TreeMap Name Cached} {old : Name} (h : (cache.erase old)[n]? = some c) :
      cache[n]? = some c := by
    rw [TreeMap.getElem?_erase] at h
    split at h
    case isTrue => cases h
    exact h
  rw [remember, TreeMap.getElem?_insert] at h
  simp only [Std.compare_eq_iff_eq] at h
  split at h
  case isTrue heq => exact .inl ⟨heq.symm, (Option.some.inj h).symm⟩
  right
  split at h
  case isTrue =>
    cases ho : oldest r.cache
    case none     => rwa [ho] at h
    case some old => rw [ho] at h; exact hevict h
  case isFalse => exact h

theorem remember_size (hpos : 0 < r.config.cacheCapacity)
    (h : r.cache.size ≤ r.config.cacheCapacity) (name : Name) (entry : Cached) :
    (r.remember name entry).cache.size ≤ r.config.cacheCapacity := by
  rw [remember]
  refine size_insert_le.trans ?_
  split
  case isTrue hfull =>
    cases ho : oldest r.cache
    case none =>
      have := oldest_none ho
      omega
    case some old =>
      have := TreeMap.size_erase_add_one (oldest_mem ho)
      dsimp only [Option.elim]
      omega
  case isFalse => omega

-- A completion that was not served from the cache has the result of an entry, and comes after the
-- responses.
structure Source (name : Name) (generation : U64) (result : Except ResolveError Answer)
    (receipts : List Receipt) (d : Delivery) : Prop where
  fromCache  : d.completion.fromCache = false
  name       : d.completion.name = name
  generation : d.completion.generation = generation
  result     : d.completion.result = result
  receipts   : d.receipts = receipts
  past       : ∀ rc ∈ d.receipts, rc.time ≤ d.time

-- An entry of the cache.
structure Entry (r : UdpResolver δ) (name : Name) (c : Cached) : Prop where
  covers : ∀ rc ∈ c.receipts, rc.Covers r.config.maxCacheTtl c.expires
  yields : Yields name c.expires c.receipts c.result
  source : ∃ d ∈ r.deliveries, Source name r.generation c.result c.receipts d

-- A completion that was served from the cache, given the completions before.
structure Served (maxTtl : Duration) (before : List Delivery) (d : Delivery) : Prop where
  generation : d.completion.generation = d.generation
  source     : ∃ d' ∈ before,
    Source d.completion.name d.generation d.completion.result d.receipts d'
  derived    : ∃ expires, Yields d.completion.name expires d.receipts d.completion.result
  fresh      : ∀ rc ∈ d.receipts, ∃ answer rs, rc.answer = some answer ∧
    Wire.Rests rc.message rc.wireId rc.question answer rs ∧
    ∀ record ∈ rs, d.time.nanos < rc.time.nanos + min (record.ttl * 10 ^ 9) maxTtl.nanos
  positive   : ∀ answer, d.completion.result = .ok answer → d.time < answer.expiresAt

structure Dated (r : UdpResolver δ) : Prop where
  pending : ∀ (id : QueryId) (q : Pending), r.pending[id]? = some q →
    q.Dated r.config.maxCacheTtl r.now
  cache   : ∀ (name : Name) (c : Cached), r.cache[name]? = some c → Entry r name c
  size    : r.cache.size ≤ r.config.cacheCapacity
  served  : ∀ before d after, r.deliveries = before ++ d :: after → d.completion.fromCache = true →
    Served r.config.maxCacheTtl before d
  log     : r.deliveries.map (·.completion) = r.popped ++ r.results

-- An entry is not affected by further completions.
theorem Entry.keep {name : Name} {c : Cached} (h : Entry r₁ name c) (hc : r₂.config = r₁.config)
    (hg : r₂.generation = r₁.generation) (hd : r₁.deliveries ⊆ r₂.deliveries) :
    Entry r₂ name c where
  covers := hc ▸ h.covers
  yields := h.yields
  source := by
    have ⟨d, hmem, hs⟩ := h.source
    exact ⟨d, hd hmem, hg ▸ hs⟩

-- A further completion that is served properly.
theorem served_append {maxTtl : Duration} {deliveries : List Delivery} {new : Delivery}
    (h : ∀ before d after, deliveries = before ++ d :: after → d.completion.fromCache = true →
      Served maxTtl before d)
    (hnew : new.completion.fromCache = true → Served maxTtl deliveries new)
    (before : List Delivery) (d : Delivery) (after : List Delivery)
    (heq : deliveries ++ [new] = before ++ d :: after) (hd : d.completion.fromCache = true) :
    Served maxTtl before d := by
  rcases eq_nil_or_concat after with rfl | ⟨rest, last, rfl⟩
  · have ⟨h₁, h₂⟩ := append_inj' heq rfl
    cases h₂
    exact h₁ ▸ hnew hd
  · rw [concat_eq_append, ← cons_append, ← append_assoc] at heq
    have ⟨h₁, _⟩ := append_inj' heq rfl
    exact h before d rest h₁ hd

-- Nothing is completed, and no entry is added.
theorem Frame.dated (hf : Frame r₁ r₂) (h : Dated r₁)
    (hp : ∀ (id : QueryId) (q : Pending), r₂.pending[id]? = some q →
      q.Dated r₁.config.maxCacheTtl r₁.now) :
    Dated r₂ where
  pending         := by rw [hf.config, hf.now]; exact hp
  cache name c hc := by
    rw [hf.cache] at hc
    exact (h.cache name c hc).keep hf.config hf.generation fun _ hd => hf.deliveries ▸ hd
  size            := by rw [hf.config, hf.cache]; exact h.size
  served          := by rw [hf.config, hf.deliveries]; exact h.served
  log             := by rw [hf.deliveries, hf.popped, hf.results]; exact h.log

theorem revise_dated (h : Dated r) (id : QueryId) {f : Pending → Pending}
    (hf : ∀ q, r.pending[id]? = some q → q.Dated r.config.maxCacheTtl r.now →
      (f q).Dated r.config.maxCacheTtl r.now) :
    Dated (r.revise id f) := by
  have hframe : Frame r (r.revise id f) := ⟨rfl, rfl, rfl, rfl, rfl, rfl, rfl, rfl⟩
  refine hframe.dated h fun j q hq => ?_
  rw [getElem?_revise] at hq
  split at hq
  case isTrue =>
    obtain ⟨q', hq', rfl⟩ := map_eq_some_iff.mp hq
    exact hf q' hq' (h.pending _ q' hq')
  case isFalse => exact h.pending j q hq

theorem Retried.dated {maxTtl now : Duration} {q₁ q₂ : Pending} (h : Retried q₁ q₂)
    (hd : q₁.Dated maxTtl now) : q₂.Dated maxTtl now where
  leads  := by rw [h.original, h.question, h.receipts]; exact hd.leads
  past   := h.receipts ▸ hd.past
  covers := by rw [h.receipts, h.aliasExpires]; exact hd.covers

theorem Redirected.dated {target : Name} {hops : Nat} {q₁ q₂ : Pending}
    (h : Redirected r rc target ttl q₁ q₂) (ht : Taken r q₁ rc (.aliased target ttl hops))
    (hd : q₁.Dated r.config.maxCacheTtl r.now) : q₂.Dated r.config.maxCacheTtl r.now where
  leads          := by
    rw [h.original, h.question, h.receipts]
    exact .alias (ht.question ▸ hd.leads) ht.answer
  past           := h.receipts ▸ ht.past hd
  covers rc' hrc := by
    rw [h.receipts] at hrc
    exact ⟨_, h.aliasExpires, ht.covers_all hd rfl rc' hrc⟩

theorem finish_none_cache (r : UdpResolver δ) (id : QueryId) (result : Except ResolveError Answer)
    (last : List Receipt) : (r.finish id result none last).cache = r.cache := by
  rw [finish]
  split
  case h_1 => rfl
  rw [close_eq]
  rfl

-- A result is stored only if it does not expire at once.
theorem finish_some_cache (hq : r.pending[id]? = some q) (result : Except ResolveError Answer)
    (ttl : Duration) (last : List Receipt) :
    let expires := r.now.saturatingAdd (min ttl r.config.maxCacheTtl)
    (r.finish id result (some ttl) last).cache = r.cache ∨
    r.now < expires ∧ 0 < r.config.cacheCapacity ∧
      (r.finish id result (some ttl) last).cache =
        (r.remember q.original { expires, result, receipts := q.receipts ++ last }).cache := by
  rw [finish, hq]
  dsimp only
  rw [close_eq]
  split
  case isTrue h =>
    rw [Bool.and_eq_true, decide_eq_true_eq, decide_eq_true_eq] at h
    exact .inr ⟨h.left, h.right, rfl⟩
  case isFalse => exact .inl rfl

theorem Finished.dated {result : Except ResolveError Answer} {last : List Receipt}
    (hf : Finished r₁ id q result last r₂) (h : Dated r₁)
    (hsize : r₂.cache.size ≤ r₁.config.cacheCapacity)
    (hcache : ∀ (name : Name) (c : Cached), r₂.cache[name]? = some c →
      r₁.cache[name]? = some c ∨ name = q.original ∧ c.result = result ∧
        c.receipts = q.receipts ++ last ∧ Yields q.original c.expires c.receipts c.result ∧
        (∀ rc ∈ c.receipts, rc.time ≤ r₁.now) ∧
        ∀ rc ∈ c.receipts, rc.Covers r₁.config.maxCacheTtl c.expires) :
    Dated r₂ where
  pending j q' hq' := by
    rw [hf.pending, TreeMap.getElem?_erase] at hq'
    rw [hf.config, hf.now]
    split at hq'
    case isTrue  => cases hq'
    case isFalse => exact h.pending j q' hq'
  cache name c hc := by
    rcases hcache name c hc with hold | ⟨rfl, hresult, hreceipts, hyields, hpast, hcovers⟩
    · refine (h.cache name c hold).keep hf.config hf.generation fun d hd => ?_
      rw [hf.deliveries]
      exact mem_append_left _ hd
    · let d : Delivery := ⟨r₁.now, r₁.generation, ⟨id, q.original, r₁.generation, false, result⟩,
        q.receipts ++ last⟩
      have hd : d ∈ r₂.deliveries := by
        rw [hf.deliveries]
        exact mem_append_right _ mem_cons_self
      rw [hreceipts] at hpast
      exact ⟨hf.config ▸ hcovers, hyields, d, hd,
        ⟨rfl, rfl, hf.generation.symm, hresult.symm, hreceipts.symm, hpast⟩⟩
  size := hf.config ▸ hsize
  served := by
    rw [hf.config, hf.deliveries]
    exact served_append h.served fun hc => nomatch hc
  log := by
    rw [hf.deliveries, hf.popped, hf.results, map_append, h.log, append_assoc]
    rfl

theorem store_dated {result : Except ResolveError Answer} (h : Dated r)
    (hq : r.pending[id]? = some q) (ht : Taken r q rc answer) (httl : answer.lifetime = some ttl)
    (hr : Results (r.expiry q ttl) answer result) :
    Dated (r.finish id result (some ((r.expiry q ttl).saturatingSub r.now)) [rc]) := by
  have hd := h.pending id q hq
  have hf := finish_finished hq result (some ((r.expiry q ttl).saturatingSub r.now)) [rc]
  rcases finish_some_cache hq result ((r.expiry q ttl).saturatingSub r.now) [rc] with
    heq | ⟨hlater, hpos, heq⟩
  · exact hf.dated h (heq ▸ h.size) fun name c hc => .inl (heq ▸ hc)
  · -- The lifetime is measured twice, from the records and from the remaining time.
    have hexpires : r.now.saturatingAdd
        (min ((r.expiry q ttl).saturatingSub r.now) r.config.maxCacheTtl) = r.expiry q ttl := by
      refine Duration.saturatingAdd_saturatingSub ((r.expiry_le_now q ttl).trans ?_) hlater
      exact Nat.add_le_add_left (min_le_right ..) _
    rw [hexpires] at heq
    refine hf.dated h (heq ▸ remember_size hpos h.size ..) fun name c hc => ?_
    rw [heq] at hc
    rcases remember_cases hc with ⟨rfl, rfl⟩ | hold
    · have hyields := Yields.last (ht.question ▸ hd.leads) ht.answer hr
      exact .inr ⟨rfl, rfl, rfl, hyields, ht.past hd, ht.covers_all hd httl⟩
    · exact .inl hold

theorem retry_dated {q' : Pending} (h : Dated r₁) (hq : r₁.pending[id]? = some q)
    (ht : Tried { r₁ with pending := r₁.pending.erase id, pool := r₁.pool.vacate q.localAddr }
      q r₂ q') :
    Dated { r₂ with pending := r₂.pending.insert id q' } := by
  have hframe : Frame r₁ { r₂ with pending := r₂.pending.insert id q' } :=
    ⟨ht.frame.config, ht.frame.results, ht.frame.cache, ht.frame.now, ht.frame.generation,
      ht.frame.nextId, ht.frame.popped, ht.frame.deliveries⟩
  refine hframe.dated h fun j p hp => ?_
  rw [ht.pending, TreeMap.getElem?_insert, TreeMap.getElem?_erase] at hp
  split at hp
  case isTrue =>
    cases hp
    exact ht.retried.dated (h.pending id q hq)
  case isFalse => exact h.pending j p hp

theorem transport_dated {pool : UdpPool δ} {entropy : Nat → IoResult (U16 × U16)}
    {stats : ResolverStats} (h : Dated r) : Dated { r with pool, entropy, stats } :=
  { h with cache := fun n c hc => (h.cache n c hc).keep rfl rfl fun _ hd => hd }

theorem Move.dated (hm : Move r₁ r₂) (h : Dated r₁) : Dated r₂ := by
  cases hm
  case transport      => exact transport_dated h
  case reschedule hf  => exact revise_dated h _ fun q _ => (hf q).toRetried.dated
  case redirect hq ht hf =>
    refine revise_dated h _ fun q' hq' => ?_
    obtain rfl := Option.some.inj (hq.symm.trans hq')
    exact (hf _).dated ht
  case store hq ht httl hr => exact store_dated h hq ht httl hr
  case retry hq ht    => exact retry_dated h hq ht
  case finish hq      =>
    have heq := finish_none_cache r₁
    exact (finish_finished hq ..).dated h (heq .. ▸ h.size) fun name c hc => .inl (heq .. ▸ hc)

-- A completion that is served from the cache.
theorem hit_dated {name : Name} {c : Cached} (h : Dated r) (hc : r.cache[name]? = some c)
    (hfresh : r.now < c.expires) :
    Dated (complete { r with nextId := r.nextId + 1 }
      ⟨r.nextId, name, r.generation, true, c.result⟩ c.receipts) where
  pending        := h.pending
  cache n c' hc' := (h.cache n c' hc').keep rfl rfl fun _ hd => mem_append_left _ hd
  size           := h.size
  served         := by
    have he := h.cache name c hc
    refine served_append h.served fun _ =>
      ⟨rfl, he.source, ⟨_, he.yields⟩, fun rc hrc => ?_, fun answer ha => ?_⟩
    · obtain ⟨answer, rs, hanswer, hrests, hrs⟩ := he.covers rc hrc
      exact ⟨answer, rs, hanswer, hrests,
        fun r hr => (Duration.lt_def.mp hfresh).trans_le (hrs r hr)⟩
    · have hyields := he.yields
      rw [show c.result = .ok answer from ha] at hyields
      exact hyields.expiresAt ▸ hfresh
  log            := by
    rw [complete, map_append, h.log, append_assoc]
    rfl

theorem start_dated (h : Dated r) (hq : q.question = q.original) (hr : q.receipts = []) :
    Dated { r with nextId := r.nextId + 1, pending := r.pending.insert r.nextId q } := {
  h with
  pending j p hp := by
    rw [TreeMap.getElem?_insert] at hp
    split at hp
    case isTrue =>
      cases hp
      exact ⟨by rw [hr, hq]; exact .start, hr ▸ forall_mem_nil _, hr ▸ forall_mem_nil _⟩
    case isFalse => exact h.pending j p hp
  cache n c hc   := (h.cache n c hc).keep rfl rfl fun _ hd => hd }

theorem popResult_dated (h : Dated r) : Dated r.popResult.fst := {
  h with
  cache n c hc := (h.cache n c hc).keep rfl rfl fun _ hd => hd
  log          := by
    have hlog := h.log
    rw [popResult]
    cases hr : r.results
    case nil  => simp_all
    case cons => simp_all }

theorem tick_dated {now : Duration} {pool : UdpPool δ} (h : Dated r) (hle : r.now ≤ now) :
    Dated { r with now, pool, cache := r.cache.filter fun _ c => now < c.expires } := {
  h with
  pending j q hq :=
    have hd := h.pending j q hq
    { hd with past := fun rc hrc => (hd.past rc hrc).trans hle }
  cache n c hc := by
    rw [TreeMap.getElem?_filter', filter_eq_some_iff] at hc
    exact (h.cache n c hc.left).keep rfl rfl fun _ hd => hd
  size         := TreeMap.size_filter_le_size.trans h.size }

theorem renew_dated {network : Network} (h : Dated r) :
    Dated { r with cache := ∅, generation := r.generation + 1, network } :=
  { h with cache := fun n c hc => by simp at hc, size := Nat.zero_le _ }

theorem Act.dated (ha : Act r₁ r₂) (h : Dated r₁) : Dated r₂ := by
  cases ha
  case move hm         => exact hm.dated h
  case hit _ hc hfresh => exact hit_dated h hc hfresh
  case start hq hr     => exact start_dated h hq hr
  case pop             => exact popResult_dated h
  case tick hle _      => exact tick_dated h hle
  case renew           => exact renew_dated h

-- What has been completed since then bears the time of the clock.
structure Clocked (r₁ r₂ : UdpResolver δ) : Prop where
  later : r₁.now ≤ r₂.now
  since : ∀ d ∈ r₂.deliveries, d ∈ r₁.deliveries ∨ r₁.now ≤ d.time ∧ d.time ≤ r₂.now

theorem Act.clocked (h : Act r₁ r₂) : r₁.now ≤ r₂.now ∧
    ∃ new, r₂.deliveries = r₁.deliveries ++ new ∧ ∀ d ∈ new, d.time = r₁.now := by
  cases h
  case move hm =>
    refine ⟨hm.keeps.right.left.ge, ?_⟩
    cases hm
    case retry ht       => exact ⟨[], by simp [ht.frame.deliveries]⟩
    case finish hq      => exact ⟨_, (finish_finished hq ..).deliveries, by simp⟩
    case store hq _ _ _ => exact ⟨_, (finish_finished hq ..).deliveries, by simp⟩
    all_goals exact ⟨[], by simp [revise]⟩
  case hit        => exact ⟨le_rfl, _, rfl, by simp⟩
  case tick hle _ => exact ⟨hle, [], by simp⟩
  all_goals exact ⟨le_rfl, [], by simp [popResult]⟩

theorem step_clocked [Device δ] (r : UdpResolver δ) (op : Op δ) : Clocked r (r.step op) := by
  refine (r.step_acts op).preserves (fun {r₁ r₂} ha h => ?_) ⟨le_rfl, fun _ => .inl⟩
  have ⟨hle, new, heq, hnew⟩ := ha.clocked
  refine ⟨h.later.trans hle, heq ▸ forall_mem_append.mpr ⟨fun d hd => ?_, fun d hd => .inr ?_⟩⟩
  · exact (h.since d hd).imp_right fun ht => ⟨ht.left, ht.right.trans hle⟩
  · exact hnew d hd ▸ ⟨h.later, hle⟩

theorem Fresh.dated (h : Fresh r) : Dated r where
  pending id q hq              := by simp [h.pending] at hq
  cache name c hc              := by simp [h.cache] at hc
  size                         := by simp [h.cache]
  served before d after heq _  := by simp [h.deliveries] at heq
  log                          := by simp [h.deliveries, h.popped, h.results]

theorem exec_dated [Device δ] (h : Dated r) (ops : List (Op δ)) : Dated (exec step r ops) :=
  exec_induction h fun r op => (r.step_acts op).preserves Act.dated

-- Whatever the operations, the device and the network do, a completion from the cache repeats an
-- earlier one for the same name and of the same generation. Its result is what the last one of its
-- responses says, the others are the aliases on the way, and no record has expired that any of them
-- rests on. Errors are not stored unless an authority vouches for them.
theorem cache_never_stale [Device δ] {device : δ} {network : NetworkConfig}
    {config : ResolverConfig} {entropy : IoResult (Nat → IoResult (U16 × U16))}
    (h : new device network config entropy = .ok r) (ops : List (Op δ)) :
    let r' := exec step r ops
    r'.deliveries.map (·.completion) = r'.popped ++ r'.results ∧
    (∀ op, Clocked r' (step r' op)) ∧
    (∀ before d after, r'.deliveries = before ++ d :: after → d.completion.fromCache = true →
      Served r'.config.maxCacheTtl before d) ∧
    (∀ (name : Name) (c : Cached) err, r'.cache[name]? = some c → c.result = .error err →
      err = .notFound ∨ err = .noData) ∧
    r'.cache.size ≤ r'.config.cacheCapacity := by
  have hd := exec_dated (new_fresh h).dated ops
  refine ⟨hd.log, step_clocked _, hd.served, fun name c err hc herr => ?_, hd.size⟩
  have hyields := (hd.cache name c hc).yields
  rw [herr] at hyields
  exact hyields.absence

-- A server that always sends the same response, with one address that is valid for a minute.
def answering : Device.Script where
  polled    := .ok ()
  received  := .ok [{
    memory     := bytes
    dataOffset := 0
    len        := bytes.length
    idx        := 0
    pool       := none
    bound      := (Nat.zero_add _).le }]
  sent      := .ok 1
  allocated := some {
    memory     := List.replicate 64 0
    dataOffset := 0
    len        := 0
    idx        := 0
    pool       := none
    bound      := Nat.zero_le _ }
where
  bytes : List U8 := Udp.Wire.encode {
    source      := { ip := 0x0a000002#32, port := 53 }
    destination := { ip := 0x0a000001#32, port := 0xc000 }
    payload     := [0x12, 0x34, 0x81, 0x80, 0, 1, 0, 1, 0, 0, 0, 0, 1, 0x61, 0, 0, 1, 0, 1,
      0xc0, 12, 0, 1, 0, 1, 0, 0, 0, 60, 0, 4, 10, 0, 0, 9] } 0

def overAnswering : IoResult (UdpResolver Device.Script) :=
  new answering { localAddress := 0x0a000001#32, servers := [{ ip := 0x0a000002#32, port := 53 }] }
    .default (.ok fun _ => .ok (0x1234, 0xc000))

def askTwice (r : UdpResolver Device.Script) : UdpResolver Device.Script :=
  exec step r [.resolve [0x61], .poll (.fromSecs 1), .poll (.fromMillis 1500), .resolve [0x41]]

theorem cache_never_stale_answering : ∃ r before d, overAnswering = .ok r ∧
    (askTwice r).deliveries = before ++ [d] ∧ d.completion.fromCache = true ∧
    Served (askTwice r).config.maxCacheTtl before d := by
  have hok : overAnswering.toOption.any (fun r =>
      (askTwice r).deliveries.map (·.completion.fromCache) = [false, true]) = true := by
    decide +kernel
  cases h : overAnswering
  case error => rw [h] at hok; cases hok
  case ok r =>
    rw [h] at hok
    have hmap : (askTwice r).deliveries.map (·.completion.fromCache) = [false, true] :=
      of_decide_eq_true hok
    obtain ⟨d₁, rest, heq, _, hrest⟩ := map_eq_cons_iff.mp hmap
    obtain ⟨d₂, rest, rfl, hd, hnil⟩ := map_eq_cons_iff.mp hrest
    obtain rfl := map_eq_nil_iff.mp hnil
    exact ⟨r, [d₁], d₂, rfl, heq, hd, (cache_never_stale h _).right.right.left [d₁] d₂ [] heq hd⟩

end UdpResolver
end Dns
