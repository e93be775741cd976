import AsyncNetStack.Dns.Chain
import AsyncNetStack.Dns.Resolver
import AsyncNetStack.Lib.Trace

open Std Transition

namespace Dns.UdpResolver

variable {δ : Type}

-- What is done for a query. An attempt comes with the number of those that were made for the same
-- name before, and whether its datagram was queued. A well-formed response comes with the number of
-- names that the query has had so far, and the number of aliases that are followed in the response.
inductive Event
  | attempt (id : QueryId) (attempts : Nat) (queued : Bool)
  | response (id : QueryId) (aliases hops : Nat)
  deriving DecidableEq

namespace Event

def isQueued : Event → Bool
  | attempt _ _ queued => queued
  | response _ _ _     => false

def query : Event → QueryId
  | attempt id _ _  => id
  | response id _ _ => id

def hops : Event → Nat
  | attempt _ _ _     => 0
  | response _ _ hops => hops

end Event

-- The number of datagrams that were queued for a query.
def datagrams (id : QueryId) (log : List Event) : Nat :=
  log.countP fun e => e.query = id && e.isQueued

-- The number of aliases that were followed for a query.
def followed (id : QueryId) (log : List Event) : Nat :=
  ((log.filter (·.query = id)).map (·.hops)).sum

def receiveEvents (r : UdpResolver δ) (input : Incoming) : List Event :=
  match Wire.word input.payload 0 with
  | none        => []
  | some wireId =>
    match r.pending.toList.find? fun e => awaits input wireId e.snd with
    | none         => []
    | some (id, q) =>
      if q.deadline ≤ r.now || q.next ≤ r.now then
        []
      else
        match Wire.response input.payload wireId q.question (8 - (q.aliases.length - 1)) with
        | none   => []
        | some _ =>
          [.response id q.aliases.length
            (Wire.hops input.payload wireId q.question (8 - (q.aliases.length - 1)))]

section

variable [Device δ]

variable (r : UdpResolver δ)

def sweepEvents (id : QueryId) : List Event :=
  match r.pending[id]? with
  | none   => []
  | some q =>
    if q.deadline ≤ r.now || (q.next ≤ r.now && r.config.attemptsPerName ≤ q.attempts) then
      []
    else if q.next ≤ r.now then
      [.attempt id q.attempts (r.attempt id).snd.isOk]
    else
      []

def workEvents (incoming : List Incoming) : List Event :=
  let received := incoming.foldl receive r
  let drained := received.drain (received.pool.tx.queue.length + received.pool.events.length)
  logs receive receiveEvents r incoming ++ logs sweep sweepEvents drained drained.pending.keys

def pollEvents (now : Duration) : List Event :=
  if now < r.now then
    []
  else
    let r := { r with now, cache := r.cache.filter fun _ c => now < c.expires }
    match r.pool.poll now .zero r.config.receiveBudget collect [] with
    | (_, _, .error _)        => []
    | (pool, incoming, .ok _) => workEvents { r with pool } incoming

-- Nothing but polls deals with responses and attempts.
def stepEvents : Op δ → List Event
  | .poll now => r.pollEvents now
  | _         => []

def events (ops : List (Op δ)) : List Event :=
  logs step stepEvents r ops

end

end Dns.UdpResolver
