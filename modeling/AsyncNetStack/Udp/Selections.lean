import AsyncNetStack.Lib.Trace
import AsyncNetStack.Udp.Pool

open Std Udp Transition

namespace UdpPool

variable {δ : Type}

-- A point of a run at which `flush` selects a candidate. What comes of it is a matter of the pool
-- and of the peers that are blocked in the flush.
structure Selection (δ : Type) where
  pool         : UdpPool δ
  blockedPeers : List SocketAddr

-- A datagram that was accepted by the device, with the time.
structure Submission where
  time     : Duration
  datagram : Queued

namespace Selection

def candidate (s : Selection δ) : Option (Fin s.pool.tx.queue.length) :=
  s.pool.tx.candidate s.pool.now s.pool.config.fairQueue s.blockedPeers

variable (s : Selection δ)

-- The datagram that is handed to the device.
def offered : Option Queued :=
  s.candidate.map fun index => s.pool.tx.queue.get index

-- A peer with a queued datagram that neither the device nor the pace of the peer holds back.
def Eligible (peer : SocketAddr) : Prop :=
  (∃ q ∈ s.pool.tx.queue, q.destination = peer) ∧ peer ∉ s.blockedPeers ∧
  ∃ b, s.pool.tx.peers[peer]? = some b ∧ b.next ≤ s.pool.now

instance (s : Selection δ) (peer : SocketAddr) : Decidable (s.Eligible peer) :=
  decidable_of_iff ((∃ q ∈ s.pool.tx.queue, q.destination = peer) ∧ peer ∉ s.blockedPeers ∧
      s.pool.tx.peers[peer]?.any (·.next ≤ s.pool.now)) (by simp [Eligible, Option.any_eq_true])

variable [Device δ]

-- The pool after the attempt.
def result : UdpPool δ :=
  match s.candidate with
  | none       => s.pool
  | some index => (s.pool.attempt index).fst

-- The datagram that the device has accepted.
def submitted : Option Queued :=
  s.candidate.bind fun index =>
    match (s.pool.attempt index).snd with
    | .accepted => some (s.pool.tx.queue.get index)
    | _         => none

def submission : Option Submission :=
  s.submitted.map fun datagram => { time := s.pool.now, datagram }

end Selection

section

variable [Device δ]

-- The rounds of a flush, up to the one that ends it.
def roundSelections (p : UdpPool δ) (blockedPeers : List SocketAddr) : Nat → List (Selection δ)
  | 0          => []
  | rounds + 1 =>
    let rest :=
      match p.tx.candidate p.now p.config.fairQueue blockedPeers with
      | none       => []
      | some index =>
        let peer := (p.tx.queue.get index).destination
        match p.attempt index with
        | (p, .accepted)  => p.roundSelections blockedPeers rounds
        | (p, .blocked)   => p.roundSelections (blockedPeers ++ [peer]) rounds
        | (_, .failed _)  => []
        | (p, .discarded) =>
          p.roundSelections (if p.config.fairQueue then blockedPeers ++ [peer] else blockedPeers)
            rounds
    { pool := p, blockedPeers } :: rest

variable (p : UdpPool δ)

def flushSelections : List (Selection δ) :=
  match p.advance p.now with
  | (p, .ok ())   => p.roundSelections [] p.config.txBudget
  | (_, .error _) => []

-- A poll flushes once, after the device was polled.
def pollSelections (now lease : Duration) : List (Selection δ) :=
  match p.advance now with
  | (_, .error _) => []
  | (p, .ok ())   =>
    match p.pollDevice now with
    | (_, .error _) => []
    | (p, .ok ())   => (p.expirePeers now lease).flushSelections

def stepSelections : Op δ → List (Selection δ)
  | .flush              => p.flushSelections
  | .poll now lease _ _ => p.pollSelections now lease
  | _                   => []

-- All selections of a run, in their order.
def selections (ops : List (Op δ)) : List (Selection δ) :=
  logs step stepSelections p ops

-- The datagrams that were accepted in a run, in their order.
def submissions (ops : List (Op δ)) : List Submission :=
  (p.selections ops).filterMap (·.submission)

-- Whether an operation replaces the services, and with them the scheduler.
def replaces : Op δ → Bool
  | .replaceServices services =>
    match p.validateServices services with
    | .error _        => false
    | .ok replacement => !p.servesAlready replacement
  | _ => false

-- A run between service replacements.
def Undisturbed (ops : List (Op δ)) : Prop :=
  Along step (fun p op => p.replaces op = false) p ops

end
end UdpPool
