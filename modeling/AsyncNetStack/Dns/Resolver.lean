import AsyncNetStack.Dns.Wire
import AsyncNetStack.Udp.Pool

open Std

namespace Dns

abbrev QueryId := Nat

-- The lifetime of an answer includes the aliases on the way to it.
structure Answer where
  canonicalName : Name
  addresses     : List Ipv4Addr
  expiresAt     : Duration

structure Completion where
  id         : QueryId
  name       : Name
  generation : U64
  fromCache  : Bool
  result     : Except ResolveError Answer

structure NetworkConfig where
  localAddress : Ipv4Addr
  servers      : List SocketAddr
  deriving DecidableEq

namespace NetworkConfig

def unicast (ip : Ipv4Addr) : Bool :=
  !ip.isUnspecified && !ip.isMulticast && !ip.isBroadcast

def valid (n : NetworkConfig) : Bool :=
  unicast n.localAddress && !n.servers.isEmpty && n.servers.length ≤ 8 &&
  n.servers.all fun s => s.port ≠ 0 && unicast s.ip

end NetworkConfig

-- A network configuration that was validated.
structure Network extends NetworkConfig where
  valid : toNetworkConfig.valid = true

namespace Network

theorem servers_pos (n : Network) : 0 < n.servers.length := by
  have h := n.valid
  simp only [NetworkConfig.valid, Bool.and_eq_true, Bool.not_eq_true',
    List.isEmpty_eq_false_iff] at h
  exact List.length_pos_of_ne_nil h.left.left.right

-- The servers take turns.
def server (n : Network) (attempts : Nat) : SocketAddr :=
  n.servers.get ⟨attempts % n.servers.length, Nat.mod_lt _ n.servers_pos⟩

end Network

def NetworkConfig.validate (n : NetworkConfig) : IoResult Network :=
  if h : n.valid then
    .ok { n with valid := h }
  else
    .error (.invalid "invalid DNS network configuration")

structure ResolverConfig where
  capacity        : Nat
  cacheCapacity   : Nat
  maxCacheTtl     : Duration
  lookupTimeout   : Duration
  attemptTimeout  : Duration
  attemptsPerName : Nat
  receiveBudget   : Nat

namespace ResolverConfig

def default : ResolverConfig where
  capacity        := 64
  cacheCapacity   := 128
  maxCacheTtl     := .fromSecs 3600
  lookupTimeout   := .fromSecs 10
  attemptTimeout  := .fromSecs 1
  attemptsPerName := 3
  receiveBudget   := 64

def invalid (c : ResolverConfig) : Bool :=
  c.capacity == 0 || c.capacity > 4096 || c.cacheCapacity > 4096 || c.lookupTimeout.isZero ||
  c.attemptTimeout.isZero || c.attemptsPerName == 0 || c.attemptsPerName > 16 ||
  c.receiveBudget == 0 || c.receiveBudget > 256

-- The transport of a resolver has room for a datagram of each query.
def pool (c : ResolverConfig) : UdpConfig :=
  { UdpConfig.default with
    queueCapacity   := c.capacity
    serviceCapacity := c.capacity
    maxTxPeers      := 8
    perPeerCapacity := c.capacity
    txBudget        := c.capacity
    queueLifetime   := some c.attemptTimeout
    eventCapacity   := c.capacity * 4
    fairQueue       := true }

end ResolverConfig

structure ResolverStats where
  queriesSubmitted   : Nat := 0
  cacheHits          : Nat := 0
  ignoredResponses   : Nat := 0
  malformedResponses : Nat := 0
  completed          : Nat := 0

-- A message and the time at which it was taken as a response to a question.
structure Receipt where
  time        : Duration
  message     : List U8
  wireId      : U16
  question    : Name
  aliasBudget : Nat

-- The receipts are history: they are the responses which the aliases so far rest on.
structure Pending where
  original     : Name
  question     : Name
  aliases      : List Name
  aliasExpires : Option Duration
  deadline     : Duration
  next         : Duration
  attempts     : Nat
  localAddr    : Option SocketAddr
  server       : SocketAddr
  wireId       : U16
  datagram     : Option DatagramId
  receipts     : List Receipt

-- The receipts are history: they are the responses which the result rests on.
structure Cached where
  expires  : Duration
  result   : Except ResolveError Answer
  receipts : List Receipt

structure Incoming where
  source      : SocketAddr
  destination : SocketAddr
  payload     : List U8

-- A completion, the time and the generation in which it was produced, and the responses which its
-- result rests on.
structure Delivery where
  time       : Duration
  generation : U64
  completion : Completion
  receipts   : List Receipt

-- The source of random numbers is a file: the `n`-th read from now returns `entropy n`, a message
-- identifier and a port. The buffer for incoming datagrams is empty between two polls and is not
-- part of the state. The completions that the application has taken and the deliveries are history.
structure UdpResolver (δ : Type) where
  pool       : UdpPool δ
  config     : ResolverConfig
  network    : Network
  entropy    : Nat → IoResult (U16 × U16)
  pending    : TreeMap QueryId Pending
  results    : List Completion
  cache      : TreeMap Name Cached
  now        : Duration
  generation : U64
  nextId     : Nat
  stats      : ResolverStats
  popped     : List Completion
  deliveries : List Delivery

namespace UdpResolver

variable {δ : Type}

def new (device : δ) (network : NetworkConfig) (config : ResolverConfig)
    (entropy : IoResult (Nat → IoResult (U16 × U16))) : IoResult (UdpResolver δ) :=
  match network.validate with
  | .error err  => .error err
  | .ok network =>
    if config.invalid then
      .error (.invalid "invalid DNS limits")
    else
      match entropy with
      | .error err  => .error err
      | .ok entropy =>
        (UdpPool.withConfig device config.pool).map fun pool => {
          pool
          config
          network
          entropy
          pending    := ∅
          results    := []
          cache      := ∅
          now        := .zero
          generation := 0
          nextId     := 1
          stats      := {}
          popped     := []
          deliveries := []
        }

variable (r : UdpResolver δ)

def bump (f : ResolverStats → ResolverStats) : UdpResolver δ :=
  { r with stats := f r.stats }

def revise (id : QueryId) (f : Pending → Pending) : UdpResolver δ :=
  { r with pending := r.pending.modify id f }

def complete (c : Completion) (receipts : List Receipt) : UdpResolver δ :=
  { r with
    results    := r.results ++ [c]
    stats      := { r.stats with completed := r.stats.completed + 1 }
    deliveries := r.deliveries ++
      [{ time := r.now, generation := r.generation, completion := c, receipts }] }

-- The port of a query is released.
def close (q : Pending) : UdpResolver δ × Pending :=
  (match q.localAddr with
    | none         => r
    | some address => { r with pool := (r.pool.unbind address).fst },
  { q with localAddr := none, datagram := none })

-- The first one of the entries that expire next.
def oldest (cache : TreeMap Name Cached) : Option Name :=
  (cache.toList.foldl
    (fun best e => if best.any (·.snd.expires ≤ e.snd.expires) then best else some e) none).map
    Prod.fst

-- A full cache loses the entry that would expire next.
def remember (name : Name) (entry : Cached) : UdpResolver δ :=
  let cache :=
    if r.config.cacheCapacity ≤ r.cache.size then
      (oldest r.cache).elim r.cache r.cache.erase
    else
      r.cache
  { r with cache := cache.insert name entry }

-- A query is completed, and its result is stored if it has a lifetime. The last response is
-- history.
def finish (id : QueryId) (result : Except ResolveError Answer)
    (ttl : Option Duration) (last : List Receipt) : UdpResolver δ :=
  match r.pending[id]? with
  | none   => r
  | some q =>
    let receipts := q.receipts ++ last
    let (r, q) := close { r with pending := r.pending.erase id } q
    let r := match ttl with
      | none     => r
      | some ttl =>
        let expires := r.now.saturatingAdd (min ttl r.config.maxCacheTtl)
        if r.now < expires && 0 < r.config.cacheCapacity then
          r.remember q.original { expires, result, receipts }
        else
          r
    let completion := {
      id
      name       := q.original
      generation := r.generation
      fromCache  := false
      result
    }
    r.complete completion receipts

section

variable [Device δ]

-- The port of a query is bound, and the question is sent from it.
def submit (r : UdpResolver δ) (q : Pending) (address : SocketAddr) (wireId : U16) :
    UdpResolver δ × Pending × IoResult Unit :=
  let q := { q with localAddr := some address, wireId, server := r.network.server q.attempts }
  let next :=
    min (r.now.saturatingAdd (r.config.attemptTimeout.saturatingMul (2 ^ q.attempts))) q.deadline
  match r.pool.sendWithOptions address q.server (Wire.query q.wireId q.question)
      { deadline := some next } with
  | (pool, .error err)   => ({ r with pool }, q, .error err)
  | (pool, .ok datagram) =>
    (bump { r with pool } fun s => { s with queriesSubmitted := s.queriesSubmitted + 1 },
      { q with datagram := some datagram, attempts := q.attempts + 1, next }, .ok ())

-- Ports are drawn until one is free.
def tryPorts (r : UdpResolver δ) (q : Pending) : Nat → UdpResolver δ × Pending × IoResult Unit
  | 0          => (r, q, .error (.blocked "DNS source-port allocation exhausted"))
  | rounds + 1 =>
    let random := r.entropy 0
    let r := { r with entropy := fun n => r.entropy (n + 1) }
    match random with
    | .error err         => (r, q, .error err)
    | .ok (wireId, port) =>
      if port.toNat < 1024 then
        r.tryPorts q rounds
      else
        let address := { ip := r.network.localAddress, port }
        match r.pool.bind { address, id := 0 } with
        | (pool, .ok ())     => submit { r with pool } q address wireId
        | (pool, .error err) =>
          if err.kind = .addrInUse then
            tryPorts { r with pool } q rounds
          else
            ({ r with pool }, q, .error err)

-- The query of an attempt is pending, so there is always something to attempt.
def attempt (r : UdpResolver δ) (id : QueryId) : UdpResolver δ × IoResult Unit :=
  match r.pending[id]? with
  | none   => (r, .ok ())
  | some q =>
    let (r, q) := close { r with pending := r.pending.erase id } q
    let (r, q, result) := r.tryPorts q 32
    let (r, q) := if result.isOk then (r, q) else r.close q
    ({ r with pending := r.pending.insert id q }, result)

end

variable (r : UdpResolver δ)

-- The end of the lifetime of a result, given the remaining time of the last response.
def expiry (q : Pending) (ttl : Nat) : Duration :=
  let expires := r.now.saturatingAdd (min (.fromSecs ttl) r.config.maxCacheTtl)
  q.aliasExpires.elim expires (min · expires)

def isRetryable (error : ResolveError) : Bool :=
  error = .serverFailure || error = .refused

-- What becomes of a query after a response to it. All aliases of earlier responses count.
def apply (id : QueryId) (q : Pending) (rc : Receipt) : Wire.Answer → UdpResolver δ
  | .addresses canonical addresses ttl =>
    let expires := r.expiry q ttl
    r.finish id (.ok { canonicalName := canonical, addresses, expiresAt := expires })
      (some (expires.saturatingSub r.now)) [rc]
  | .aliased target ttl hops =>
    if q.aliases.contains target || q.aliases.length - 1 + hops > 8 then
      r.finish id (.error .aliasLimit) none []
    else
      r.revise id fun q =>
        { q with
          aliases      := q.aliases ++ List.replicate (max hops 1) target
          question     := target
          aliasExpires := some (r.expiry q ttl)
          attempts     := 0
          next         := r.now
          datagram     := none
          receipts     := q.receipts ++ [rc] }
  | .negative error ttl =>
    r.finish id (.error error) (ttl.map fun ttl => (r.expiry q ttl).saturatingSub r.now) [rc]
  | .failure error =>
    if isRetryable error && q.attempts < r.config.attemptsPerName then
      r.revise id fun q => { q with next := r.now, datagram := none }
    else
      r.finish id (.error error) none []

-- Whether a query waits for a datagram.
def awaits (input : Incoming) (wireId : U16) (q : Pending) : Bool :=
  q.localAddr = some input.destination && q.server = input.source && q.wireId = wireId &&
  q.datagram.isSome

def receive (input : Incoming) : UdpResolver δ :=
  match Wire.word input.payload 0 with
  | none        => r.bump fun s => { s with malformedResponses := s.malformedResponses + 1 }
  | some wireId =>
    match r.pending.toList.find? fun e => awaits input wireId e.snd with
    | none         => r.bump fun s => { s with ignoredResponses := s.ignoredResponses + 1 }
    | some (id, q) =>
      if q.deadline ≤ r.now || q.next ≤ r.now then
        r.bump fun s => { s with ignoredResponses := s.ignoredResponses + 1 }
      else
        match Wire.response input.payload wireId q.question (8 - (q.aliases.length - 1)) with
        | none        => r.bump fun s => { s with malformedResponses := s.malformedResponses + 1 }
        | some answer =>
          let receipt := {
            time        := r.now
            message     := input.payload
            wireId
            question    := q.question
            aliasBudget := 8 - (q.aliases.length - 1)
          }
          r.apply id q receipt answer

def resolve (input : List U8) : UdpResolver δ × Except ResolveError QueryId :=
  match Wire.normalize input with
  | .error err => (r, .error err)
  | .ok name   =>
    if r.config.capacity ≤ r.pending.size + r.results.length || r.nextId + 1 ≥ 2 ^ 64 then
      (r, .error .busy)
    else
      let id := r.nextId
      let r := { r with nextId := r.nextId + 1 }
      match r.cache[name]?.filter (r.now < ·.expires) with
      | some cached =>
        let completion := {
          id
          name
          generation := r.generation
          fromCache  := true
          result     := cached.result
        }
        ((r.complete completion cached.receipts).bump fun s =>
          { s with cacheHits := s.cacheHits + 1 }, .ok id)
      | none =>
        let q := {
          original     := name
          question     := name
          aliases      := [name]
          aliasExpires := none
          deadline     := r.now.saturatingAdd r.config.lookupTimeout
          next         := r.now
          attempts     := 0
          localAddr    := none
          server       := r.network.server 0
          wireId       := 0
          datagram     := none
          receipts     := []
        }
        ({ r with pending := r.pending.insert id q }, .ok id)

-- A datagram that was dropped on this side. Only failures of the device are final.
def heed (event : UdpEvent) : UdpResolver δ :=
  match event.outcome with
  | .dropped reason =>
    match r.pending.toList.find? fun e => e.snd.datagram.isSome && e.snd.datagram = event.id with
    | none         => r
    | some (id, _) =>
      match reason with
      | .device kind => r.finish id (.error (.localError kind)) none []
      | _            => r.revise id fun q => { q with next := r.now }
  | _ => r

-- Events are taken until there are none. Queries that are finished on the way can add further
-- events, one for each of their datagrams that are still queued.
def drain (r : UdpResolver δ) : Nat → UdpResolver δ
  | 0          => r
  | rounds + 1 =>
    match r.pool.popEvent with
    | (_, none)          => r
    | (pool, some event) => (heed { r with pool } event).drain rounds

section

variable [Device δ]

-- The query is pending at this point.
def sweep (r : UdpResolver δ) (id : QueryId) : UdpResolver δ :=
  match r.pending[id]? with
  | none   => r
  | some q =>
    if q.deadline ≤ r.now || (q.next ≤ r.now && r.config.attemptsPerName ≤ q.attempts) then
      r.finish id (.error .timeout) none []
    else if q.next ≤ r.now then
      match r.attempt id with
      | (r, .ok ())     => r
      | (r, .error err) =>
        if err.kind = .wouldBlock then
          r.revise id fun q => { q with next := r.now.saturatingAdd (.fromMillis 10) }
        else
          r.finish id (.error (.localError err.kind)) none []
    else
      r

-- Long datagrams are no responses.
def collect (incoming : List Incoming) (d : Udp.Datagram) : List Incoming × UdpPool.Action :=
  let input := { source := d.source, destination := d.destination, payload := d.payload }
  (if d.payload.length ≤ 512 then incoming ++ [input] else incoming, .ignore)

def work (r : UdpResolver δ) (incoming : List Incoming) : UdpResolver δ :=
  let r := incoming.foldl receive r
  let r := r.drain (r.pool.tx.queue.length + r.pool.events.length)
  r.pending.keys.foldl sweep r

def poll (r : UdpResolver δ) (now : Duration) : UdpResolver δ × IoResult Unit :=
  if now < r.now then
    (r, .error (.invalid "DNS time went backwards"))
  else
    let r := { r with now, cache := r.cache.filter fun _ c => now < c.expires }
    match r.pool.poll now .zero r.config.receiveBudget collect [] with
    | (pool, _, .error err)   => ({ r with pool }, .error err)
    | (pool, incoming, .ok _) =>
      let r := work { r with pool } incoming
      let (pool, result) := r.pool.flush
      ({ r with pool }, result.map fun _ => ())

end

def popResult (r : UdpResolver δ) : UdpResolver δ × Option Completion :=
  ({ r with results := r.results.tail, popped := r.popped ++ r.results.head?.toList },
    r.results.head?)

def cancel (r : UdpResolver δ) (id : QueryId) : UdpResolver δ × Bool :=
  if r.pending.contains id then
    (r.finish id (.error .cancelled) none [], true)
  else
    (r, false)

-- Completions keep the generation in which they were produced.
def invalidate (r : UdpResolver δ) : UdpResolver δ :=
  let r := r.pending.keys.foldl (fun r id => r.finish id (.error .networkChanged) none []) r
  { r with cache := ∅, generation := r.generation + 1 }

def configure (r : UdpResolver δ) (network : NetworkConfig) : UdpResolver δ × IoResult Unit :=
  match network.validate with
  | .error err  => (r, .error err)
  | .ok network =>
    (if r.network.toNetworkConfig ≠ network.toNetworkConfig then
        { r.invalidate with network }
      else
        r, .ok ())

inductive Op (δ : Type)
  | resolve (input : List U8)
  | poll (now : Duration)
  | popResult
  | cancel (id : QueryId)
  | configure (network : NetworkConfig)
  | invalidate
  | deviceMut (f : δ → δ)

def step [Device δ] (r : UdpResolver δ) : Op δ → UdpResolver δ
  | .resolve input     => (r.resolve input).fst
  | .poll now          => (r.poll now).fst
  | .popResult         => r.popResult.fst
  | .cancel id         => (r.cancel id).fst
  | .configure network => (r.configure network).fst
  | .invalidate        => r.invalidate
  | .deviceMut f       => { r with pool := { r.pool with device := f r.pool.device } }

end UdpResolver
end Dns
