import AsyncNetStack.Dns.Effort
import AsyncNetStack.Dns.Theorems.Chain
import AsyncNetStack.Dns.Theorems.Lookups

open Std Transition List Option

namespace Dns.UdpResolver

variable {δ : Type} {r r₁ r₂ r₃ : UdpResolver δ} {id : QueryId} {q : Pending}

-- The number of names that a query has had, and of the attempts for the last one.
def progress (r : UdpResolver δ) (id : QueryId) : Option (Nat × Nat) :=
  r.pending[id]?.map fun q => (q.aliases.length, q.attempts)

-- Queries can start and end, but nothing is done for them.
structure Rests (r₁ r₂ : UdpResolver δ) : Prop where
  config    : r₂.config = r₁.config
  nextId    : r₁.nextId ≤ r₂.nextId
  submitted : r₂.stats.queriesSubmitted = r₁.stats.queriesSubmitted
  progress  : ∀ id p, r₂.progress id = some p →
    r₁.progress id = some p ∨ (p = (1, 0) ∧ r₁.nextId ≤ id ∧ id < r₂.nextId)

namespace Rests

theorem refl (r : UdpResolver δ) : Rests r r :=
  ⟨rfl, le_rfl, rfl, fun _ _ => .inl⟩

theorem trans (h₁ : Rests r₁ r₂) (h₂ : Rests r₂ r₃) : Rests r₁ r₃ where
  config          := h₂.config.trans h₁.config
  nextId          := h₁.nextId.trans h₂.nextId
  submitted       := h₂.submitted.trans h₁.submitted
  progress id p h := by
    have hle₁ := h₁.nextId
    have hle₂ := h₂.nextId
    rcases h₂.progress id p h with h | ⟨hp, hge, hlt⟩
    case inl =>
      rcases h₁.progress id p h with h | ⟨hp, hge, hlt⟩
      case inl => exact .inl h
      case inr => exact .inr ⟨hp, hge, hlt.trans_le hle₂⟩
    case inr => exact .inr ⟨hp, hle₁.trans hge, hlt⟩

-- No query is started.
theorem of_progress (hc : r₂.config = r₁.config) (hn : r₂.nextId = r₁.nextId)
    (hs : r₂.stats.queriesSubmitted = r₁.stats.queriesSubmitted)
    (hp : ∀ id p, r₂.progress id = some p → r₁.progress id = some p) : Rests r₁ r₂ :=
  ⟨hc, hn.ge, hs, fun id p h => .inl (hp id p h)⟩

end Rests

theorem progress_revise {f : Pending → Pending}
    (hf : ∀ q, (f q).aliases.length = q.aliases.length ∧ (f q).attempts = q.attempts)
    (id j : QueryId) : (r.revise id f).progress j = r.progress j := by
  rw [progress, getElem?_revise, progress]
  split
  case isTrue heq =>
    subst heq
    cases r.pending[id]?
    case none   => rfl
    case some q => rw [map_some, map_some, (hf q).left, (hf q).right, map_some]
  case isFalse => rfl

theorem revise_rests (r : UdpResolver δ) (id : QueryId) {f : Pending → Pending}
    (hf : ∀ q, (f q).aliases.length = q.aliases.length ∧ (f q).attempts = q.attempts) :
    Rests r (r.revise id f) :=
  .of_progress rfl rfl rfl fun j _ hp => progress_revise hf id j ▸ hp

theorem bump_rests (r : UdpResolver δ) {f : ResolverStats → ResolverStats}
    (hf : (f r.stats).queriesSubmitted = r.stats.queriesSubmitted) : Rests r (r.bump f) :=
  .of_progress rfl rfl hf fun _ _ hp => hp

theorem progress_finish {result : Except ResolveError Answer} {ttl : Option Duration}
    {last : List Receipt} (hq : r.pending[id]? = some q) (j : QueryId) :
    (r.finish id result ttl last).progress j = if id = j then none else r.progress j := by
  rw [progress, (finish_finished hq result ttl last).pending, TreeMap.getElem?_erase]
  simp only [Std.compare_eq_iff_eq]
  split
  case isTrue  => rfl
  case isFalse => rfl

variable (r)

theorem finish_submitted (id : QueryId) (result : Except ResolveError Answer)
    (ttl : Option Duration) (last : List Receipt) :
    (r.finish id result ttl last).stats.queriesSubmitted = r.stats.queriesSubmitted := by
  rw [finish]
  split
  case h_1 => rfl
  rw [close_eq]
  cases ttl
  case none => rfl
  dsimp only
  split
  case isTrue  => rfl
  case isFalse => rfl

theorem finish_rests (id : QueryId) (result : Except ResolveError Answer)
    (ttl : Option Duration) (last : List Receipt) : Rests r (r.finish id result ttl last) := by
  have hs := r.finish_submitted id result ttl last
  cases hq : r.pending[id]?
  case none =>
    rw [finish, hq]
    exact .refl r
  case some q =>
    have hf := finish_finished hq result ttl last
    refine .of_progress hf.config hf.nextId hs fun j p hp => ?_
    rw [progress_finish hq] at hp
    split at hp
    case isTrue => cases hp
    exact hp

theorem foldl_rests {α : Type} {f : UdpResolver δ → α → UdpResolver δ} (hf : ∀ r a, Rests r (f r a))
    (r : UdpResolver δ) (as : List α) : Rests r (as.foldl f r) := by
  induction as generalizing r
  case nil         => exact .refl r
  case cons a _ ih => exact (hf r a).trans (ih _)

theorem pool_rests (pool : UdpPool δ) : Rests r { r with pool } :=
  .of_progress rfl rfl rfl fun _ _ hp => hp

theorem heed_rests (event : UdpEvent) : Rests r (r.heed event) := by
  rw [heed]
  split
  case h_2 => exact .refl r
  split
  case h_1 => exact .refl r
  split
  case h_1 => exact finish_rests ..
  case h_2 => exact revise_rests r _ fun _ => ⟨rfl, rfl⟩

theorem drain_rests (rounds : Nat) : Rests r (r.drain rounds) := by
  induction rounds generalizing r
  case zero => exact .refl r
  case succ rounds ih =>
    rw [drain]
    split
    case h_1              => exact .refl r
    case h_2 pool event _ => exact ((r.pool_rests pool).trans (heed_rests _ event)).trans (ih _)

theorem resolve_rests (input : List U8) : Rests r (r.resolve input).fst := by
  rw [resolve]
  split
  case h_1 => exact .refl r
  case h_2 name _ =>
    split
    case isTrue => exact .refl r
    dsimp only
    split
    case h_1 => exact ⟨rfl, Nat.le_succ _, rfl, fun _ _ => .inl⟩
    refine ⟨rfl, Nat.le_succ _, rfl, fun id p hp => ?_⟩
    rw [progress, TreeMap.getElem?_insert] at hp
    simp only [Std.compare_eq_iff_eq] at hp
    split at hp
    case isTrue heq =>
      rw [map_some, Option.some.injEq] at hp
      subst heq
      exact .inr ⟨hp.symm, le_rfl, Nat.lt_succ_self _⟩
    case isFalse => exact .inl hp

theorem configure_rests (network : NetworkConfig) : Rests r (r.configure network).fst := by
  rw [configure]
  split
  case h_1 => exact .refl r
  split
  case isFalse => exact .refl r
  have hf := foldl_rests (fun r id => r.finish_rests id (.error .networkChanged) none []) r
    r.pending.keys
  exact ⟨hf.config, hf.nextId, hf.submitted, hf.progress⟩

theorem invalidate_rests : Rests r r.invalidate :=
  have hf := foldl_rests (fun r id => r.finish_rests id (.error .networkChanged) none []) r
    r.pending.keys
  ⟨hf.config, hf.nextId, hf.submitted, hf.progress⟩

theorem cancel_rests (id : QueryId) : Rests r (r.cancel id).fst := by
  rw [cancel]
  split
  case isTrue  => exact r.finish_rests id (.error .cancelled) none []
  case isFalse => exact .refl r

variable {r}

-- Something is done for one query. The others are left alone.
structure Serves (r₁ : UdpResolver δ) (id : QueryId) (before : Nat × Nat)
    (after : Option (Nat × Nat)) (queued : Bool) (r₂ : UdpResolver δ) : Prop where
  config    : r₂.config = r₁.config
  nextId    : r₂.nextId = r₁.nextId
  submitted : r₂.stats.queriesSubmitted = r₁.stats.queriesSubmitted + queued.toNat
  before    : r₁.progress id = some before
  after     : r₂.progress id = after
  others    : ∀ j, id ≠ j → r₂.progress j = r₁.progress j

-- A response ends a query, redirects it by the aliases in it, or has none.
inductive Emits (r₁ : UdpResolver δ) : Event → UdpResolver δ → Prop
  | ended {id : QueryId} {aliases attempts hops : Nat} {r₂ : UdpResolver δ}
      (room   : hops ≤ 8 - (aliases - 1))
      (serves : Serves r₁ id (aliases, attempts) none false r₂) :
      Emits r₁ (.response id aliases hops) r₂
  | redirected {id : QueryId} {aliases attempts hops : Nat} {r₂ : UdpResolver δ}
      (room   : hops ≤ 8 - (aliases - 1))
      (pos    : 1 ≤ hops)
      (serves : Serves r₁ id (aliases, attempts) (some (aliases + hops, 0)) false r₂) :
      Emits r₁ (.response id aliases hops) r₂
  | deferred {id : QueryId} {aliases attempts : Nat} {r₂ : UdpResolver δ}
      (serves : Serves r₁ id (aliases, attempts) (some (aliases, attempts)) false r₂) :
      Emits r₁ (.response id aliases 0) r₂
  | attempted {id : QueryId} {aliases attempts : Nat} {queued : Bool} {r₂ : UdpResolver δ}
      (left   : attempts < r₁.config.attemptsPerName)
      (serves : Serves r₁ id (aliases, attempts) (some (aliases, attempts + queued.toNat))
        queued r₂) :
      Emits r₁ (.attempt id attempts queued) r₂

abbrev Effort (r₁ : UdpResolver δ) (log : List Event) (r₂ : UdpResolver δ) : Prop :=
  Trace Rests Emits r₁ log r₂

theorem finish_serves (hq : r.pending[id]? = some q) (result : Except ResolveError Answer)
    (ttl : Option Duration) (last : List Receipt) :
    Serves r id (q.aliases.length, q.attempts) none false (r.finish id result ttl last) where
  config     := (finish_finished hq result ttl last).config
  nextId     := (finish_finished hq result ttl last).nextId
  submitted  := r.finish_submitted id result ttl last
  before     := by rw [progress, hq, map_some]
  after      := by rw [progress_finish hq, if_pos rfl]
  others j h := by rw [progress_finish hq, if_neg h]

theorem revise_serves (hq : r.pending[id]? = some q) (f : Pending → Pending) :
    Serves r id (q.aliases.length, q.attempts) (some ((f q).aliases.length, (f q).attempts)) false
      (r.revise id f) where
  config     := rfl
  nextId     := rfl
  submitted  := rfl
  before     := by rw [progress, hq, map_some]
  after      := by rw [progress, getElem?_revise, if_pos rfl, hq, map_some, map_some]
  others j h := by rw [progress, getElem?_revise, if_neg h, progress]

theorem apply_emits {b : List U8} {wireId : U16} {rc : Receipt} {answer : Wire.Answer}
    (hq : r.pending[id]? = some q)
    (h : Wire.response b wireId q.question (8 - (q.aliases.length - 1)) = some answer) :
    Emits r (.response id q.aliases.length
      (Wire.hops b wireId q.question (8 - (q.aliases.length - 1)))) (r.apply id q rc answer) := by
  have hroom :=
    (Wire.hops_le b wireId q.question (8 - (q.aliases.length - 1))).trans (Nat.min_le_left ..)
  cases answer
  case addresses =>
    rw [apply]
    exact .ended hroom (finish_serves hq ..)
  case negative =>
    rw [apply]
    exact .ended hroom (finish_serves hq ..)
  case aliased target ttl hops =>
    obtain ⟨heq, hpos⟩ := Wire.response_aliased h
    rw [← heq] at hroom ⊢
    rw [apply]
    split
    case isTrue => exact .ended hroom (finish_serves hq ..)
    rw [max_eq_left hpos]
    have hs := revise_serves hq fun q' =>
      { q' with
        aliases      := q'.aliases ++ List.replicate hops target
        question     := target
        aliasExpires := some (r.expiry q' ttl)
        attempts     := 0
        next         := r.now
        datagram     := none
        receipts     := q'.receipts ++ [rc] }
    rw [length_append, length_replicate] at hs
    exact .redirected hroom hpos hs
  case failure err =>
    rw [apply]
    split
    case isFalse => exact .ended hroom (finish_serves hq ..)
    case isTrue hretry =>
      have herr : err ≠ .aliasLimit := by
        rintro rfl
        cases hretry
      rw [Wire.response_failure h herr]
      exact .deferred (revise_serves hq fun q => { q with next := r.now, datagram := none })

theorem receive_effort (r : UdpResolver δ) (input : Incoming) :
    Effort r (r.receiveEvents input) (r.receive input) := by
  rw [receive, receiveEvents]
  cases Wire.word input.payload 0
  case none => exact .of_move (r.bump_rests rfl)
  case some wireId =>
    dsimp only
    cases hfind : r.pending.toList.find? fun e => awaits input wireId e.snd
    case none => exact .of_move (r.bump_rests rfl)
    case some e =>
      obtain ⟨id, q⟩ := e
      dsimp only
      split
      case isTrue => exact .of_move (r.bump_rests rfl)
      cases hresponse : Wire.response input.payload wireId q.question (8 - (q.aliases.length - 1))
      case none        => exact .of_move (r.bump_rests rfl)
      case some answer => exact .of_emit (apply_emits (pending_of_find hfind) hresponse)

section

variable [Device δ]

-- A datagram is counted by the resolver and by its query.
structure Counts (r₁ : UdpResolver δ) (q₁ : Pending) (queued : Bool) (r₂ : UdpResolver δ)
    (q₂ : Pending) : Prop where
  aliases   : q₂.aliases = q₁.aliases
  attempts  : q₂.attempts = q₁.attempts + queued.toNat
  submitted : r₂.stats.queriesSubmitted = r₁.stats.queriesSubmitted + queued.toNat

theorem submit_counts (r : UdpResolver δ) (q : Pending) (address : SocketAddr) (wireId : U16) :
    let o := r.submit q address wireId
    Counts r q o.snd.snd.isOk o.fst o.snd.fst := by
  rw [submit]
  split
  case h_1 => exact ⟨rfl, rfl, rfl⟩
  case h_2 => exact ⟨rfl, rfl, rfl⟩

theorem tryPorts_counts (r : UdpResolver δ) (q : Pending) (rounds : Nat) :
    let o := r.tryPorts q rounds
    Counts r q o.snd.snd.isOk o.fst o.snd.fst := by
  induction rounds generalizing r
  case zero => exact ⟨rfl, rfl, rfl⟩
  case succ rounds ih =>
    have hskip {r' : UdpResolver δ} (hs : r'.stats = r.stats) :
        Counts r q (r'.tryPorts q rounds).snd.snd.isOk (r'.tryPorts q rounds).fst
          (r'.tryPorts q rounds).snd.fst :=
      ⟨(ih r').aliases, (ih r').attempts, hs ▸ (ih r').submitted⟩
    rw [tryPorts]
    dsimp only
    split
    case h_1 => exact ⟨rfl, rfl, rfl⟩
    case h_2 wireId port _ =>
      split
      case isTrue => exact hskip rfl
      split
      case h_1 pool _ =>
        have hs := submit_counts { r with entropy := fun n => r.entropy (n + 1), pool } q
          { ip := r.network.localAddress, port } wireId
        exact ⟨hs.aliases, hs.attempts, hs.submitted⟩
      split
      case isTrue  => exact hskip rfl
      case isFalse => exact ⟨rfl, rfl, rfl⟩

theorem attempt_serves (hq : r.pending[id]? = some q) :
    Serves r id (q.aliases.length, q.attempts)
      (some (q.aliases.length, q.attempts + (r.attempt id).snd.isOk.toNat)) (r.attempt id).snd.isOk
      (r.attempt id).fst := by
  have ht := tryPorts_tried (q := { q with localAddr := none, datagram := none })
    { r with pending := r.pending.erase id, pool := r.pool.vacate q.localAddr } rfl 32
  have hc := tryPorts_counts
    { r with pending := r.pending.erase id, pool := r.pool.vacate q.localAddr }
    { q with localAddr := none, datagram := none } 32
  have hbefore : r.progress id = some (q.aliases.length, q.attempts) := by
    rw [progress, hq, map_some]
  have hafter {r₂ : UdpResolver δ} {q₂ : Pending} {queued : Bool} (ha : q₂.aliases = q.aliases)
      (hn : q₂.attempts = q.attempts + queued.toNat) (hp : r₂.pending = r.pending.erase id)
      (j : QueryId) : progress { r₂ with pending := r₂.pending.insert id q₂ } j =
        if id = j then some (q.aliases.length, q.attempts + queued.toNat) else r.progress j := by
    rw [progress, TreeMap.getElem?_insert, hp, progress]
    simp only [Std.compare_eq_iff_eq]
    split
    case isTrue => rw [map_some, ha, hn]
    case isFalse hne =>
      rw [TreeMap.getElem?_erase]
      simp only [Std.compare_eq_iff_eq]
      rw [if_neg hne]
  rw [attempt, hq]
  dsimp only
  rw [close_eq]
  revert ht hc
  generalize tryPorts (δ := δ) _ _ _ = o
  obtain ⟨r₂, q₂, result⟩ := o
  intro ht hc
  split
  case isTrue =>
    refine ⟨ht.frame.config, ht.frame.nextId, hc.submitted, hbefore, ?_, fun j hne => ?_⟩
    · rw [hafter hc.aliases hc.attempts ht.pending, if_pos rfl]
    · rw [hafter hc.aliases hc.attempts ht.pending, if_neg hne]
  have hclosed := @hafter { r₂ with pool := r₂.pool.vacate q₂.localAddr }
    { q₂ with localAddr := none, datagram := none } _ hc.aliases hc.attempts ht.pending
  rw [close_eq]
  refine ⟨ht.frame.config, ht.frame.nextId, hc.submitted, hbefore, ?_, fun j hne => ?_⟩
  · rw [hclosed, if_pos rfl]
  · rw [hclosed, if_neg hne]

variable (r)

theorem sweep_effort (id : QueryId) : Effort r (r.sweepEvents id) (r.sweep id) := by
  rw [sweep, sweepEvents]
  cases hq : r.pending[id]?
  case none => exact .refl
  case some q =>
    dsimp only
    split
    case isTrue => exact .of_move (finish_rests ..)
    rename_i hok
    split
    case isFalse => exact .refl
    rename_i hdue
    have hleft : q.attempts < r.config.attemptsPerName := by
      simp only [Bool.or_eq_true, Bool.and_eq_true, decide_eq_true_eq, not_or, not_and] at hok
      exact Nat.not_le.mp (hok.right hdue)
    have hs : Effort r _ _ := .of_emit (.attempted hleft (attempt_serves hq))
    revert hs
    generalize r.attempt id = o
    obtain ⟨r', result⟩ := o
    cases result
    case ok => exact fun hs => hs
    case error err =>
      intro hs
      dsimp only
      split
      case isTrue  => exact hs.move (revise_rests r' id fun _ => ⟨rfl, rfl⟩)
      case isFalse => exact hs.move (finish_rests ..)

theorem work_effort (incoming : List Incoming) :
    Effort r (r.workEvents incoming) (r.work incoming) := by
  have hreceive : Effort r (logs receive receiveEvents r incoming) (incoming.foldl receive r) :=
    .of_exec receive_effort
  exact (hreceive.move (drain_rests ..)).trans (.of_exec (sweep_effort ·))

theorem poll_effort (now : Duration) : Effort r (r.pollEvents now) (r.poll now).fst := by
  rw [poll, pollEvents]
  split
  case isTrue => exact .refl
  have htick (pool : UdpPool δ) : Rests r { r with
      now, pool, cache := r.cache.filter fun _ c => now < c.expires } :=
    .of_progress rfl rfl rfl fun _ _ hp => hp
  dsimp only
  generalize r.pool.poll now .zero r.config.receiveBudget collect [] = o
  obtain ⟨pool, incoming, _ | _⟩ := o
  case error => exact .of_move (htick pool)
  have hwork := Trace.trans (.of_move (htick pool)) (work_effort _ incoming)
  exact hwork.move (pool_rests ..)

theorem step_effort (op : Op δ) : Effort r (r.stepEvents op) (r.step op) := by
  cases op
  case resolve input     => exact .of_move (r.resolve_rests input)
  case poll now          => exact r.poll_effort now
  case popResult         => exact .of_move (.of_progress rfl rfl rfl fun _ _ hp => hp)
  case cancel id         => exact .of_move (r.cancel_rests id)
  case configure network => exact .of_move (r.configure_rests network)
  case invalidate        => exact .of_move r.invalidate_rests
  case deviceMut f       => exact .of_move (r.pool_rests _)

theorem events_effort (ops : List (Op δ)) : Effort r (r.events ops) (exec step r ops) :=
  .of_exec (step_effort ·)

end

theorem followed_concat (id : QueryId) (log : List Event) (e : Event) :
    followed id (log ++ [e]) = followed id log + if e.query = id then e.hops else 0 := by
  rw [followed, filter_append, map_append, sum_append, followed, filter_singleton]
  congr 1
  by_cases h : e.query = id
  · simp [h]
  · simp [h]

theorem datagrams_concat (id : QueryId) (log : List Event) (e : Event) :
    datagrams id (log ++ [e]) =
      datagrams id log + if e.query = id then e.isQueued.toNat else 0 := by
  rw [datagrams, countP_append, datagrams, countP_singleton]
  by_cases h : e.query = id
  case pos =>
    cases e.isQueued
    case false => simp [h]
    case true  => simp [h]
  case neg => simp [h]

-- What holds at the time of an event.
def Event.Within (attemptsPerName : Nat) : Event → Prop
  | attempt _ attempts _ => attempts < attemptsPerName
  | response _ aliases _ => 1 ≤ aliases ∧ aliases ≤ 9

-- A query has a name for each alias that was followed, and a share of the datagrams for each name.
structure Course (n : Nat) (log : List Event) (id : QueryId) (aliases attempts : Nat) : Prop where
  names    : aliases = followed id log + 1
  names_le : aliases ≤ 9
  turns_le : attempts ≤ n
  spent_le : datagrams id log ≤ followed id log * n + attempts

theorem Course.limits {n aliases attempts : Nat} {log : List Event}
    (h : Course n log id aliases attempts) :
    followed id log ≤ 8 ∧ datagrams id log ≤ 9 * n := by
  have hfollowed : followed id log ≤ 8 := by
    have := h.names
    have := h.names_le
    omega
  have hshare : followed id log * n ≤ 8 * n := Nat.mul_le_mul_right n hfollowed
  have := h.spent_le
  have := h.turns_le
  exact ⟨hfollowed, by omega⟩

-- The work that was spent on all queries, for a number of attempts per name.
structure Spent (n : Nat) (log : List Event) (r : UdpResolver δ) : Prop where
  config    : r.config.attemptsPerName = n
  started   : ∀ id, r.nextId ≤ id → r.progress id = none ∧ followed id log = 0 ∧
    datagrams id log = 0
  courses   : ∀ id aliases attempts, r.progress id = some (aliases, attempts) →
    Course n log id aliases attempts
  limits    : ∀ id, followed id log ≤ 8 ∧ datagrams id log ≤ 9 * n
  within    : ∀ e ∈ log, e.Within n
  submitted : r.stats.queriesSubmitted = log.countP (·.isQueued)

namespace Spent

variable {n : Nat} {log : List Event}

theorem rests (h : Spent n log r₁) (hr : Rests r₁ r₂) : Spent n log r₂ where
  config                      := hr.config ▸ h.config
  limits                      := h.limits
  within                      := h.within
  submitted                   := hr.submitted.trans h.submitted
  started id hid              := by
    have hold := h.started id (hr.nextId.trans hid)
    refine ⟨?_, hold.right⟩
    cases hp : r₂.progress id
    case none => rfl
    case some p =>
      rcases hr.progress id p hp with hp | ⟨_, _, hlt⟩
      case inl =>
        rw [hold.left] at hp
        cases hp
      case inr => exact absurd hlt (Nat.not_lt.mpr hid)
  courses id aliases attempts := by
    intro hp
    rcases hr.progress id _ hp with hp | ⟨heq, hge, _⟩
    case inl => exact h.courses id aliases attempts hp
    have ⟨_, hfollowed, hdatagrams⟩ := h.started id hge
    cases heq
    exact ⟨by rw [hfollowed], by omega, by omega, by omega⟩

-- What an event adds concerns one query only.
theorem serves {e : Event} {before : Nat × Nat} {after : Option (Nat × Nat)} (h : Spent n log r₁)
    (hs : Serves r₁ e.query before after e.isQueued r₂) (hwithin : e.Within n)
    (hlimits : followed e.query (log ++ [e]) ≤ 8 ∧ datagrams e.query (log ++ [e]) ≤ 9 * n)
    (hafter : ∀ aliases attempts, after = some (aliases, attempts) →
      Course n (log ++ [e]) e.query aliases attempts) : Spent n (log ++ [e]) r₂ := by
  have hother (j : QueryId) (hne : e.query ≠ j) : followed j (log ++ [e]) = followed j log ∧
      datagrams j (log ++ [e]) = datagrams j log := by
    rw [followed_concat, datagrams_concat, if_neg hne, if_neg hne]
    exact ⟨rfl, rfl⟩
  have hstarted (j : QueryId) (hj : r₁.nextId ≤ j) : e.query ≠ j := by
    rintro rfl
    have := (h.started _ hj).left
    rw [hs.before] at this
    cases this
  refine ⟨hs.config ▸ h.config, fun j hj => ?_, fun j aliases attempts hp => ?_, fun j => ?_, ?_,
    ?_⟩
  case refine_1 =>
    rw [hs.nextId] at hj
    have hne := hstarted j hj
    rw [hs.others j hne, (hother j hne).left, (hother j hne).right]
    exact h.started j hj
  case refine_2 =>
    by_cases hne : e.query = j
    case pos =>
      subst hne
      exact hafter aliases attempts (hs.after.symm.trans hp)
    case neg =>
      rw [hs.others j hne] at hp
      have hc := h.courses j aliases attempts hp
      have ⟨hf, hd⟩ := hother j hne
      exact ⟨hf ▸ hc.names, hc.names_le, hc.turns_le, hf.symm ▸ hd.symm ▸ hc.spent_le⟩
  case refine_3 =>
    by_cases hne : e.query = j
    case pos => exact hne ▸ hlimits
    case neg =>
      rw [(hother j hne).left, (hother j hne).right]
      exact h.limits j
  case refine_4 =>
    intro e' he'
    rcases mem_append.mp he' with he' | he'
    case inl => exact h.within e' he'
    case inr => exact mem_singleton.mp he' ▸ hwithin
  case refine_5 =>
    rw [hs.submitted, h.submitted, countP_append, countP_singleton]
    cases e.isQueued
    · rfl
    · rfl

theorem response {aliases attempts hops : Nat} {after : Option (Nat × Nat)} (h : Spent n log r₁)
    (hroom : hops ≤ 8 - (aliases - 1)) (hs : Serves r₁ id (aliases, attempts) after false r₂)
    (hafter : ∀ aliases' attempts', after = some (aliases', attempts') →
      aliases' = aliases + hops ∧ attempts' ≤ n ∧ attempts ≤ hops * n + attempts') :
    Spent n (log ++ [.response id aliases hops]) r₂ := by
  have hc := h.courses id aliases attempts hs.before
  have hnames := hc.names
  have hnames_le := hc.names_le
  have hfollowed : followed id (log ++ [.response id aliases hops]) = followed id log + hops := by
    rw [followed_concat, Event.query, if_pos rfl, Event.hops]
  have hdatagrams : datagrams id (log ++ [.response id aliases hops]) = datagrams id log := by
    rw [datagrams_concat, Event.query, if_pos rfl]
    rfl
  refine h.serves (e := .response id aliases hops) hs ⟨by omega, hnames_le⟩ ?_ ?_
  case refine_1 =>
    rw [Event.query, hfollowed, hdatagrams]
    exact ⟨by omega, (h.limits id).right⟩
  case refine_2 =>
    intro aliases' attempts' heq
    have ⟨hn, hle, hspent⟩ := hafter aliases' attempts' heq
    have hd := hc.spent_le
    have hmul : (followed id log + hops) * n = followed id log * n + hops * n := Nat.add_mul ..
    refine ⟨?_, by omega, hle, ?_⟩
    · rw [Event.query, hfollowed]
      omega
    · rw [Event.query, hfollowed, hdatagrams]
      omega

theorem emits {e : Event} (h : Spent n log r₁) (he : Emits r₁ e r₂) : Spent n (log ++ [e]) r₂ := by
  cases he
  case ended hroom hs => exact h.response hroom hs nofun
  case redirected id aliases attempts hops hroom hpos hs =>
    have hattempts := (h.courses id aliases attempts hs.before).turns_le
    refine h.response hroom hs fun aliases' attempts' heq => ?_
    cases heq
    refine ⟨rfl, Nat.zero_le n, ?_⟩
    exact hattempts.trans (Nat.le_mul_of_pos_left n hpos)
  case deferred id aliases attempts hs =>
    have hattempts := (h.courses id aliases attempts hs.before).turns_le
    refine h.response (Nat.zero_le _) hs fun aliases' attempts' heq => ?_
    cases heq
    exact ⟨rfl, hattempts, by omega⟩
  case attempted id aliases attempts queued hleft hs =>
    have hc := h.courses id aliases attempts hs.before
    have hle : queued.toNat ≤ 1 := Bool.toNat_le queued
    rw [h.config] at hleft
    have hfollowed : followed id (log ++ [.attempt id attempts queued]) = followed id log := by
      rw [followed_concat, Event.query, if_pos rfl]
      rfl
    have hdatagrams : datagrams id (log ++ [.attempt id attempts queued]) =
        datagrams id log + queued.toNat := by
      rw [datagrams_concat, Event.query, if_pos rfl, Event.isQueued]
    have hcourse : Course n (log ++ [.attempt id attempts queued]) id aliases
        (attempts + queued.toNat) := by
      have hd := hc.spent_le
      refine ⟨hfollowed ▸ hc.names, hc.names_le, by omega, ?_⟩
      rw [hfollowed, hdatagrams]
      omega
    refine h.serves (e := .attempt id attempts queued) hs hleft hcourse.limits ?_
    rintro _ _ ⟨⟩
    exact hcourse

end Spent

theorem Fresh.spent (h : Fresh r) (hs : r.stats.queriesSubmitted = 0) :
    Spent r.config.attemptsPerName [] r where
  config           := rfl
  started _ _      := ⟨by rw [progress, h.pending]; rfl, rfl, rfl⟩
  courses id _ _ hp := by
    rw [progress, h.pending] at hp
    cases hp
  limits _         := ⟨Nat.zero_le _, Nat.zero_le _⟩
  within _ he      := nomatch he
  submitted        := hs

theorem new_config {device : δ} {network : NetworkConfig} {config : ResolverConfig}
    {entropy : IoResult (Nat → IoResult (U16 × U16))}
    (h : new device network config entropy = .ok r) :
    r.config = config ∧ r.stats = {} ∧ config.attemptsPerName ≤ 16 := by
  rw [new] at h
  split at h
  case h_1 => cases h
  split at h
  case isTrue => cases h
  rename_i hvalid
  split at h
  case h_1 => cases h
  rw [UdpPool.withConfig] at h
  split at h
  case isTrue => cases h
  cases h
  simp only [ResolverConfig.invalid, Bool.or_eq_true, decide_eq_true_eq, not_or] at hvalid
  exact ⟨rfl, rfl, by omega⟩

-- Whatever servers answer, a query follows at most eight aliases, and no name is asked for more
-- often than the configuration says. Every datagram that the resolver counts is one of an attempt.
theorem lookups_bounded [Device δ] {device : δ} {network : NetworkConfig} {config : ResolverConfig}
    {entropy : IoResult (Nat → IoResult (U16 × U16))}
    (h : new device network config entropy = .ok r) (ops : List (Op δ)) :
    config.attemptsPerName ≤ 16 ∧
    (∀ (id : QueryId) (q : Pending), (exec step r ops).pending[id]? = some q →
      1 ≤ q.aliases.length ∧ q.aliases.length ≤ 9 ∧
      q.aliases.length = followed id (r.events ops) + 1) ∧
    (∀ id, followed id (r.events ops) ≤ 8 ∧
      datagrams id (r.events ops) ≤ 9 * config.attemptsPerName) ∧
    (∀ e ∈ r.events ops, e.Within config.attemptsPerName) ∧
    (exec step r ops).stats.queriesSubmitted = (r.events ops).countP (·.isQueued) := by
  have ⟨hconfig, hstats, hle⟩ := new_config h
  have hinit := (new_fresh h).spent (by rw [hstats])
  rw [hconfig] at hinit
  have hspent : Spent config.attemptsPerName (r.events ops) (exec step r ops) :=
    (r.events_effort ops).history (P := Spent config.attemptsPerName) hinit
      (fun _ _ _ hr hs => hs.rests hr) fun _ _ _ _ he hs => hs.emits he
  refine ⟨hle, fun id q hq => ?_, hspent.limits, hspent.within, hspent.submitted⟩
  have hc := hspent.courses id q.aliases.length q.attempts (by rw [progress, hq, map_some])
  have hnames := hc.names
  exact ⟨by omega, hc.names_le, hnames⟩

theorem lookups_bounded_loopback : ∃ r, overLoopback = .ok r ∧
    r.events [.resolve [0x61], .poll (.fromSecs 1)] = [.attempt 1 0 true] ∧
    datagrams 1 (r.events [.resolve [0x61], .poll (.fromSecs 1)]) ≤
      9 * ResolverConfig.default.attemptsPerName := by
  have hlog : overLoopback.toOption.any (fun r =>
      r.events [.resolve [0x61], .poll (.fromSecs 1)] = [.attempt 1 0 true]) = true := by
    decide +kernel
  cases h : overLoopback
  case error => rw [h] at hlog; cases hlog
  case ok r =>
    rw [h] at hlog
    have ⟨_, _, hlimits, _⟩ := lookups_bounded h [.resolve [0x61], .poll (.fromSecs 1)]
    exact ⟨r, rfl, of_decide_eq_true hlog, (hlimits 1).right⟩

end Dns.UdpResolver
