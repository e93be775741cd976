import AsyncNetStack.Dns.Resolver
import AsyncNetStack.Dns.Theorems.Chain
import AsyncNetStack.Udp.Theorems.Services

open Std Relation

namespace Dns

-- What a response says.
def Receipt.answer (rc : Receipt) : Option Wire.Answer :=
  Wire.response rc.message rc.wireId rc.question rc.aliasBudget

namespace UdpResolver

variable {δ : Type} {r r₁ r₂ r₃ : UdpResolver δ} {id : QueryId} {q : Pending} {rc : Receipt}

def serves (r : UdpResolver δ) (address : SocketAddr) : Prop :=
  address ∈ r.pool.services

-- What changes only when a query is started or completed.
structure Frame (r₁ r₂ : UdpResolver δ) : Prop where
  config     : r₂.config = r₁.config
  results    : r₂.results = r₁.results
  cache      : r₂.cache = r₁.cache
  now        : r₂.now = r₁.now
  generation : r₂.generation = r₁.generation
  nextId     : r₂.nextId = r₁.nextId
  popped     : r₂.popped = r₁.popped
  deliveries : r₂.deliveries = r₁.deliveries

namespace Frame

theorem refl (r : UdpResolver δ) : Frame r r :=
  ⟨rfl, rfl, rfl, rfl, rfl, rfl, rfl, rfl⟩

theorem trans (h₁ : Frame r₁ r₂) (h₂ : Frame r₂ r₃) : Frame r₁ r₃ where
  config     := h₂.config.trans h₁.config
  results    := h₂.results.trans h₁.results
  cache      := h₂.cache.trans h₁.cache
  now        := h₂.now.trans h₁.now
  generation := h₂.generation.trans h₁.generation
  nextId     := h₂.nextId.trans h₁.nextId
  popped     := h₂.popped.trans h₁.popped
  deliveries := h₂.deliveries.trans h₁.deliveries

end Frame

theorem getElem?_revise (r : UdpResolver δ) (id j : QueryId) (f : Pending → Pending) :
    (r.revise id f).pending[j]? = if id = j then r.pending[id]?.map f else r.pending[j]? := by
  rw [revise, TreeMap.getElem?_modify]
  simp only [Std.compare_eq_iff_eq]

theorem close_eq (r : UdpResolver δ) (q : Pending) :
    r.close q = ({ r with pool := r.pool.vacate q.localAddr },
      { q with localAddr := none, datagram := none }) := by
  rw [close]
  cases q.localAddr
  all_goals rfl

theorem mem_pending (hq : r.pending[id]? = some q) : id ∈ r.pending := by
  rw [TreeMap.mem_iff_isSome_getElem?, hq]
  rfl

-- A query has been completed.
structure Finished (r₁ : UdpResolver δ) (id : QueryId) (q : Pending)
    (result : Except ResolveError Answer) (last : List Receipt) (r₂ : UdpResolver δ) : Prop where
  config     : r₂.config = r₁.config
  now        : r₂.now = r₁.now
  generation : r₂.generation = r₁.generation
  nextId     : r₂.nextId = r₁.nextId
  popped     : r₂.popped = r₁.popped
  pending    : r₂.pending = r₁.pending.erase id
  pool       : r₂.pool = r₁.pool.vacate q.localAddr
  results    : r₂.results = r₁.results ++ [⟨id, q.original, r₁.generation, false, result⟩]
  deliveries : r₂.deliveries = r₁.deliveries ++
    [⟨r₁.now, r₁.generation, ⟨id, q.original, r₁.generation, false, result⟩, q.receipts ++ last⟩]

theorem finish_finished (hq : r.pending[id]? = some q) (result : Except ResolveError Answer)
    (ttl : Option Duration) (last : List Receipt) :
    Finished r id q result last (r.finish id result ttl last) := by
  rw [finish, hq]
  dsimp only
  rw [close_eq]
  cases ttl
  case none => exact ⟨rfl, rfl, rfl, rfl, rfl, rfl, rfl, rfl, rfl⟩
  dsimp only
  split
  case isTrue  => exact ⟨rfl, rfl, rfl, rfl, rfl, rfl, rfl, rfl, rfl⟩
  case isFalse => exact ⟨rfl, rfl, rfl, rfl, rfl, rfl, rfl, rfl, rfl⟩

-- A query that was only attempted once more.
structure Retried (q₁ q₂ : Pending) : Prop where
  original     : q₂.original = q₁.original
  question     : q₂.question = q₁.question
  aliasExpires : q₂.aliasExpires = q₁.aliasExpires
  deadline     : q₂.deadline = q₁.deadline
  receipts     : q₂.receipts = q₁.receipts

-- An attempt has bound a free endpoint or none.
structure Binds (r₁ r₂ : UdpResolver δ) (address : Option SocketAddr) : Prop where
  free   : ∀ a, address = some a → ¬r₁.serves a
  serves : ∀ a, r₂.serves a ↔ address = some a ∨ r₁.serves a

theorem Binds.none (h : r₂.pool.services = r₁.pool.services) : Binds r₁ r₂ none where
  free a ha := nomatch ha
  serves a  := by rw [UdpResolver.serves, h, UdpResolver.serves]; simp

structure Tried (r₁ : UdpResolver δ) (q₁ : Pending) (r₂ : UdpResolver δ) (q₂ : Pending) : Prop where
  frame   : Frame r₁ r₂
  pending : r₂.pending = r₁.pending
  retried : Retried q₁ q₂
  binds   : Binds r₁ r₂ q₂.localAddr

theorem Tried.of_frame {q₂ : Pending} (h : Tried r₂ q r₃ q₂) (hf : Frame r₁ r₂)
    (hp : r₂.pending = r₁.pending) (hs : r₂.pool.services = r₁.pool.services) :
    Tried r₁ q r₃ q₂ where
  frame   := hf.trans h.frame
  pending := h.pending.trans hp
  retried := h.retried
  binds   := {
    free a ha := by have := h.binds.free a ha; rwa [serves, hs] at this
    serves a  := by rw [h.binds.serves, serves, hs]; rfl
  }

-- The endpoint of an attempt that failed is free again.
theorem Tried.close {q₂ : Pending} (h : Tried r₁ q r₂ q₂) :
    Tried r₁ q { r₂ with pool := r₂.pool.vacate q₂.localAddr }
      { q₂ with localAddr := none, datagram := none } where
  frame   := h.frame.trans ⟨rfl, rfl, rfl, rfl, rfl, rfl, rfl, rfl⟩
  pending := h.pending
  retried := { h.retried with }
  binds   := {
    free a ha := nomatch ha
    serves a  := by
      have hserves : a ∈ r₂.pool.services ↔ _ := h.binds.serves a
      rw [serves, UdpPool.mem_vacate, hserves]
      constructor
      · rintro ⟨hq | ha, hne⟩
        · exact absurd hq hne
        · exact .inr ha
      · rintro (ha | ha)
        · cases ha
        · exact ⟨.inr ha, fun hq => h.binds.free a hq ha⟩
  }

section

variable [Device δ]

theorem submit_tried (r : UdpResolver δ) (q : Pending) {address : SocketAddr} {pool : UdpPool δ}
    (wireId : U16) (hfree : ¬r.serves address)
    (hs : ∀ a, a ∈ pool.services ↔ a = address ∨ r.serves a) :
    let o := submit { r with pool } q address wireId
    Tried r q o.fst o.snd.fst := by
  have hbinds {r' : UdpResolver δ} (h : r'.pool.services = pool.services) :
      Binds r r' (some address) := {
    free a ha := Option.some.inj ha ▸ hfree
    serves a  := by rw [serves, h, hs, Option.some.injEq, eq_comm]
  }
  have hsend {destination payload options o}
      (h : pool.sendWithOptions address destination payload options = o) :
      o.fst.services = pool.services :=
    h ▸ pool.sendWithOptions_services ..
  rw [submit]
  split
  case h_1 heq =>
    exact {
      frame   := ⟨rfl, rfl, rfl, rfl, rfl, rfl, rfl, rfl⟩
      pending := rfl
      retried := ⟨rfl, rfl, rfl, rfl, rfl⟩
      binds   := hbinds (hsend heq)
    }
  case h_2 heq =>
    exact {
      frame   := ⟨rfl, rfl, rfl, rfl, rfl, rfl, rfl, rfl⟩
      pending := rfl
      retried := ⟨rfl, rfl, rfl, rfl, rfl⟩
      binds   := hbinds (hsend heq)
    }

theorem tryPorts_tried (r : UdpResolver δ) (hq : q.localAddr = none) (rounds : Nat) :
    let o := r.tryPorts q rounds
    Tried r q o.fst o.snd.fst := by
  have hnone {r r' : UdpResolver δ} (hf : Frame r r') (hp : r'.pending = r.pending)
      (hs : r'.pool.services = r.pool.services) : Tried r q r' q :=
    ⟨hf, hp, ⟨rfl, rfl, rfl, rfl, rfl⟩, hq ▸ .none hs⟩
  induction rounds generalizing r
  case zero => exact hnone (.refl r) rfl rfl
  case succ rounds ih =>
    rw [tryPorts]
    dsimp only
    have hdraw : Frame r { r with entropy := fun n => r.entropy (n + 1) } :=
      ⟨rfl, rfl, rfl, rfl, rfl, rfl, rfl, rfl⟩
    split
    case h_1 => exact hnone hdraw rfl rfl
    case h_2 wireId port _ =>
      split
      case isTrue => exact (ih _).of_frame hdraw rfl rfl
      split
      case h_1 pool hb =>
        have ⟨hfree, hs⟩ := UdpPool.bind_ok hb
        let r' := { r with entropy := fun n => r.entropy (n + 1) }
        exact (submit_tried r' q wireId hfree hs).of_frame hdraw rfl rfl
      case h_2 pool err hb =>
        have hpool : pool = r.pool := UdpPool.bind_error hb
        subst hpool
        split
        case isTrue  => exact (ih _).of_frame hdraw rfl rfl
        case isFalse => exact hnone hdraw rfl rfl

-- The attempt replaces a pending query by one which differs only in its endpoint and its datagram.
theorem attempt_tried (hq : r.pending[id]? = some q) : ∃ r' q',
    (r.attempt id).fst = { r' with pending := r'.pending.insert id q' } ∧
    Tried { r with pending := r.pending.erase id, pool := r.pool.vacate q.localAddr } q r' q' := by
  have h := tryPorts_tried (q := { q with localAddr := none, datagram := none })
    { r with pending := r.pending.erase id, pool := r.pool.vacate q.localAddr } rfl 32
  rw [attempt, hq]
  dsimp only
  rw [close_eq]
  revert h
  generalize tryPorts (δ := δ) _ _ _ = o
  obtain ⟨r₂, q₂, result⟩ := o
  intro h
  have h : Tried _ q r₂ q₂ := { h with retried := { h.retried with } }
  split
  case isTrue => exact ⟨r₂, q₂, rfl, h⟩
  rw [close_eq]
  exact ⟨_, _, rfl, h.close⟩

end

-- A query whose endpoint stays bound.
structure Rescheduled (q₁ q₂ : Pending) : Prop extends Retried q₁ q₂ where
  localAddr : q₂.localAddr = q₁.localAddr

-- A response to a question at this time.
structure Taken (r : UdpResolver δ) (q : Pending) (rc : Receipt) (answer : Wire.Answer) : Prop where
  time     : rc.time = r.now
  question : rc.question = q.question
  answer   : rc.answer = some answer

-- A query that was redirected by a response.
structure Redirected (r : UdpResolver δ) (rc : Receipt) (target : Name) (ttl : Nat)
    (q₁ q₂ : Pending) : Prop where
  original     : q₂.original = q₁.original
  question     : q₂.question = target
  aliasExpires : q₂.aliasExpires = some (r.expiry q₁ ttl)
  deadline     : q₂.deadline = q₁.deadline
  localAddr    : q₂.localAddr = q₁.localAddr
  receipts     : q₂.receipts = q₁.receipts ++ [rc]

-- The results that are stored, given the end of their lifetime.
inductive Results (expires : Duration) : Wire.Answer → Except ResolveError Answer → Prop
  | addresses {canonical : Name} {addresses : List Ipv4Addr} {ttl : Nat} :
      Results expires (.addresses canonical addresses ttl) (.ok ⟨canonical, addresses, expires⟩)
  | negative {error : ResolveError} {ttl : Option Nat} :
      Results expires (.negative error ttl) (.error error)

-- The changes that queries undergo at a point in time.
inductive Move (r : UdpResolver δ) : UdpResolver δ → Prop
  | transport {pool : UdpPool δ} {entropy : Nat → IoResult (U16 × U16)} {stats : ResolverStats}
      (services : pool.services = r.pool.services) :
      Move r { r with pool, entropy, stats }
  | reschedule {id : QueryId} {f : Pending → Pending}
      (same : ∀ q, Rescheduled q (f q)) :
      Move r (r.revise id f)
  | retry {id : QueryId} {q q' : Pending} {r' : UdpResolver δ}
      (pending : r.pending[id]? = some q)
      (tried   : Tried
        { r with pending := r.pending.erase id, pool := r.pool.vacate q.localAddr } q r' q') :
      Move r { r' with pending := r'.pending.insert id q' }
  | redirect {id : QueryId} {q : Pending} {rc : Receipt} {target : Name} {ttl hops : Nat}
      {f : Pending → Pending}
      (pending : r.pending[id]? = some q)
      (taken   : Taken r q rc (.aliased target ttl hops))
      (changes : ∀ q, Redirected r rc target ttl q (f q)) :
      Move r (r.revise id f)
  | finish {id : QueryId} {q : Pending} {result : Except ResolveError Answer} {last : List Receipt}
      (pending : r.pending[id]? = some q) :
      Move r (r.finish id result none last)
  | store {id : QueryId} {q : Pending} {rc : Receipt} {answer : Wire.Answer} {ttl : Nat}
      {result : Except ResolveError Answer}
      (pending  : r.pending[id]? = some q)
      (taken    : Taken r q rc answer)
      (lifetime : answer.lifetime = some ttl)
      (results  : Results (r.expiry q ttl) answer result) :
      Move r (r.finish id result (some ((r.expiry q ttl).saturatingSub r.now)) [rc])

abbrev Moves : UdpResolver δ → UdpResolver δ → Prop :=
  ReflTransGen Move

theorem finish_moves (r : UdpResolver δ) (id : QueryId) (result : Except ResolveError Answer)
    (last : List Receipt) : Moves r (r.finish id result none last) := by
  cases hq : r.pending[id]?
  case none =>
    rw [finish, hq]
  case some q => exact .single (.finish hq)

theorem bump_moves (r : UdpResolver δ) (f : ResolverStats → ResolverStats) : Moves r (r.bump f) :=
  .single (.transport rfl)

theorem attempt_moves [Device δ] (r : UdpResolver δ) (id : QueryId) :
    Moves r (r.attempt id).fst := by
  cases hq : r.pending[id]?
  case none =>
    rw [attempt, hq]
  case some q =>
    have ⟨r', q', heq, ht⟩ := attempt_tried hq
    rw [heq]
    exact .single (.retry hq ht)

theorem apply_moves {answer : Wire.Answer} (hq : r.pending[id]? = some q)
    (h : Taken r q rc answer) : Moves r (r.apply id q rc answer) := by
  cases answer
  case addresses =>
    rw [apply]
    exact .single (.store hq h rfl .addresses)
  case aliased =>
    rw [apply]
    split
    case isTrue => exact finish_moves ..
    refine .single (.redirect hq h fun q => ?_)
    exact ⟨rfl, rfl, rfl, rfl, rfl, rfl⟩
  case negative err ttl =>
    cases ttl
    case none => exact finish_moves ..
    case some => exact .single (.store hq h rfl .negative)
  case failure err =>
    rw [apply]
    split
    case isTrue =>
      refine .single (.reschedule fun q => ?_)
      exact ⟨⟨rfl, rfl, rfl, rfl, rfl⟩, rfl⟩
    case isFalse => exact finish_moves ..

theorem pending_of_find {p : QueryId × Pending → Bool}
    (h : r.pending.toList.find? p = some (id, q)) : r.pending[id]? = some q :=
  TreeMap.mem_toList_iff_getElem?_eq_some.mp (List.mem_of_find?_eq_some h)

theorem receive_moves (r : UdpResolver δ) (input : Incoming) : Moves r (r.receive input) := by
  rw [receive]
  split
  case h_1 => exact bump_moves ..
  split
  case h_1 => exact bump_moves ..
  case h_2 hfind =>
    split
    case isTrue => exact bump_moves ..
    split
    case h_1         => exact bump_moves ..
    case h_2 hanswer => exact apply_moves (pending_of_find hfind) ⟨rfl, rfl, hanswer⟩

theorem heed_moves (r : UdpResolver δ) (event : UdpEvent) : Moves r (r.heed event) := by
  rw [heed]
  split
  case h_2 => exact .refl
  split
  case h_1 => exact .refl
  split
  case h_1 => exact finish_moves ..
  refine .single (.reschedule fun q => ?_)
  exact ⟨⟨rfl, rfl, rfl, rfl, rfl⟩, rfl⟩

theorem drain_moves (r : UdpResolver δ) (rounds : Nat) : Moves r (r.drain rounds) := by
  induction rounds generalizing r
  case zero => exact .refl
  case succ rounds ih =>
    rw [drain]
    split
    case h_1 => exact .refl
    case h_2 pool event heq =>
      have hpool : pool.services = r.pool.services := congrArg (·.fst.services) heq.symm
      exact .trans (.head (.transport hpool) (heed_moves _ event)) (ih _)

-- A sequence of operations is a sequence of moves.
theorem foldl_moves {α : Type} {f : UdpResolver δ → α → UdpResolver δ} (hf : ∀ r a, Moves r (f r a))
    (r : UdpResolver δ) (as : List α) : Moves r (as.foldl f r) := by
  induction as generalizing r
  case nil         => exact .refl
  case cons a _ ih => exact (hf r a).trans (ih _)

section

variable [Device δ]

theorem sweep_moves (r : UdpResolver δ) (id : QueryId) : Moves r (r.sweep id) := by
  rw [sweep]
  split
  case h_1 => exact .refl
  split
  case isTrue => exact finish_moves ..
  split
  case isTrue =>
    have ha := r.attempt_moves id
    revert ha
    generalize r.attempt id = o
    obtain ⟨r', err | _⟩ := o
    case ok => exact fun ha => ha
    case error =>
      intro ha
      dsimp only
      split
      case isTrue =>
        refine ha.tail (.reschedule fun q => ?_)
        exact ⟨⟨rfl, rfl, rfl, rfl, rfl⟩, rfl⟩
      case isFalse => exact ha.trans (finish_moves ..)
  case isFalse => exact .refl

theorem work_moves (r : UdpResolver δ) (incoming : List Incoming) : Moves r (r.work incoming) :=
  ((foldl_moves receive_moves r incoming).trans (drain_moves ..)).trans
    (foldl_moves sweep_moves _ _)

end

variable (r)

theorem cancel_moves (id : QueryId) : Moves r (r.cancel id).fst := by
  rw [cancel]
  split
  case isTrue  => exact r.finish_moves id (.error .cancelled) []
  case isFalse => exact .refl

-- The lookups that a change of the network ends.
theorem abandon_moves (ids : List QueryId) :
    Moves r (ids.foldl (fun r id => r.finish id (.error .networkChanged) none []) r) :=
  foldl_moves (fun r id => r.finish_moves id _ _) r ids

theorem Finished.keeps {result : Except ResolveError Answer} {last : List Receipt}
    (h : Finished r₁ id q result last r₂) :
    r₂.config = r₁.config ∧ r₂.now = r₁.now ∧ r₂.generation = r₁.generation :=
  ⟨h.config, h.now, h.generation⟩

theorem Move.keeps (h : Move r₁ r₂) :
    r₂.config = r₁.config ∧ r₂.now = r₁.now ∧ r₂.generation = r₁.generation := by
  cases h
  case transport      => exact ⟨rfl, rfl, rfl⟩
  case reschedule     => exact ⟨rfl, rfl, rfl⟩
  case redirect       => exact ⟨rfl, rfl, rfl⟩
  case retry ht       => exact ⟨ht.frame.config, ht.frame.now, ht.frame.generation⟩
  case finish hq      => exact (finish_finished hq ..).keeps
  case store hq _ _ _ => exact (finish_finished hq ..).keeps

theorem Moves.now (h : Moves r₁ r₂) : r₂.now = r₁.now := by
  induction h
  case refl         => rfl
  case tail _ hm ih => exact hm.keeps.right.left.trans ih

-- The changes that operations are composed of.
inductive Act (r : UdpResolver δ) : UdpResolver δ → Prop
  | move {r' : UdpResolver δ}
      (move : Move r r') :
      Act r r'
  | hit {name : Name} {c : Cached}
      (room   : r.pending.size + r.results.length < r.config.capacity)
      (cached : r.cache[name]? = some c)
      (fresh  : r.now < c.expires) :
      Act r (complete { r with nextId := r.nextId + 1 }
        ⟨r.nextId, name, r.generation, true, c.result⟩ c.receipts)
  | start {q : Pending}
      (room      : r.pending.size + r.results.length < r.config.capacity)
      (localAddr : q.localAddr = none)
      (question  : q.question = q.original)
      (receipts  : q.receipts = []) :
      Act r { r with nextId := r.nextId + 1, pending := r.pending.insert r.nextId q }
  | pop :
      Act r r.popResult.fst
  | tick {now : Duration} {pool : UdpPool δ}
      (later    : r.now ≤ now)
      (services : pool.services = r.pool.services) :
      Act r { r with now, pool, cache := r.cache.filter fun _ c => now < c.expires }
  | renew {network : Network} :
      Act r { r with cache := ∅, generation := r.generation + 1, network }

abbrev Acts : UdpResolver δ → UdpResolver δ → Prop :=
  ReflTransGen Act

theorem Moves.acts (h : Moves r₁ r₂) : Acts r₁ r₂ :=
  h.lift (fun r => r) fun _ _ => .move

theorem poll_acts [Device δ] (r : UdpResolver δ) (now : Duration) : Acts r (r.poll now).fst := by
  rw [poll]
  split
  case isTrue => exact .refl
  rename_i hlt
  have hpool := r.pool.poll_services now .zero r.config.receiveBudget collect []
  revert hpool
  dsimp only
  generalize r.pool.poll now .zero r.config.receiveBudget collect [] = o
  obtain ⟨pool, incoming, _ | _⟩ := o
  case error => exact fun hpool => .single (.tick (le_of_not_gt hlt) hpool)
  intro hpool
  exact .tail (.head (.tick (le_of_not_gt hlt) hpool) (work_moves _ incoming).acts)
    (.move (.transport (UdpPool.flush_services _)))

theorem resolve_acts (input : List U8) : Acts r (r.resolve input).fst := by
  rw [resolve]
  split
  case h_1 => exact .refl
  split
  case isTrue => exact .refl
  rename_i hbusy
  have hroom : r.pending.size + r.results.length < r.config.capacity := by
    simp only [Bool.or_eq_true, decide_eq_true_eq, not_or] at hbusy
    omega
  dsimp only
  split
  case h_1 heq =>
    have ⟨hcached, hfresh⟩ := Option.filter_eq_some_iff.mp heq
    exact .tail (.single (.hit hroom hcached (of_decide_eq_true hfresh))) (.move (.transport rfl))
  case h_2 => exact .single (.start hroom rfl rfl rfl)

theorem configure_acts (network : NetworkConfig) : Acts r (r.configure network).fst := by
  rw [configure]
  split
  case h_1 => exact .refl
  split
  case isTrue  => exact (r.abandon_moves r.pending.keys).acts.tail .renew
  case isFalse => exact .refl

variable {r}

theorem step_acts [Device δ] (r : UdpResolver δ) (op : Op δ) : Acts r (r.step op) := by
  cases op
  case resolve input     => exact r.resolve_acts input
  case poll now          => exact r.poll_acts now
  case popResult         => exact .single .pop
  case cancel id         => exact (r.cancel_moves id).acts
  case configure network => exact r.configure_acts network
  case invalidate        => exact (r.abandon_moves r.pending.keys).acts.tail .renew
  case deviceMut f       => exact .single (.move (.transport rfl))

-- A new resolver has nothing to remember.
structure Fresh (r : UdpResolver δ) : Prop where
  services   : r.pool.services = ∅
  pending    : r.pending = ∅
  results    : r.results = []
  cache      : r.cache = ∅
  nextId     : r.nextId = 1
  popped     : r.popped = []
  deliveries : r.deliveries = []

theorem new_fresh {device : δ} {network : NetworkConfig} {config : ResolverConfig}
    {entropy : IoResult (Nat → IoResult (U16 × U16))}
    (h : new device network config entropy = .ok r) : Fresh r := by
  rw [new] at h
  split at h
  case h_1 => cases h
  split at h
  case isTrue => cases h
  split at h
  case h_1 => cases h
  rw [UdpPool.withConfig] at h
  split at h
  case isTrue => cases h
  cases h; exact ⟨rfl, rfl, rfl, rfl, rfl, rfl, rfl⟩

-- What every change preserves, every operation does.
theorem Acts.preserves {P : UdpResolver δ → Prop} (hP : ∀ {r₁ r₂}, Act r₁ r₂ → P r₁ → P r₂)
    (h : Acts r₁ r₂) (h₁ : P r₁) : P r₂ := by
  induction h
  case refl         => exact h₁
  case tail _ ha ih => exact hP ha ih

end UdpResolver
end Dns
