import AsyncNetStack.Device.PacketBuf
import AsyncNetStack.Primitives.Duration

open Std List

abbrev DatagramId := Nat

structure UdpConfig where
  queueCapacity         : Nat
  peerCapacity          : Nat
  serviceCapacity       : Nat
  maxTxPeers            : Nat
  perPeerCapacity       : Nat
  txBudget              : Nat
  fairQueue             : Bool
  bytesPerSecond        : Option Nat
  perPeerBytesPerSecond : Option Nat
  queueLifetime         : Option Duration
  eventCapacity         : Nat

namespace UdpConfig

def default : UdpConfig where
  queueCapacity         := 128
  peerCapacity          := 64
  serviceCapacity       := 256
  maxTxPeers            := 128
  perPeerCapacity       := 128
  txBudget              := 128
  fairQueue             := false
  bytesPerSecond        := none
  perPeerBytesPerSecond := none
  queueLifetime         := none
  eventCapacity         := 0

def invalid (c : UdpConfig) : Bool :=
  c.queueCapacity == 0 || c.peerCapacity == 0 || c.serviceCapacity == 0 || c.maxTxPeers == 0 ||
  c.perPeerCapacity == 0 || c.txBudget == 0 || c.bytesPerSecond == some 0 ||
  c.perPeerBytesPerSecond == some 0 || c.queueLifetime.any (·.isZero)

end UdpConfig

inductive UdpFailure
  | sourceUnavailable
  | invalidDestination
  | queueFull
  | peerQueueFull
  | peerLimit
  | noBuffer
  | invalidPacket
  | deadlineExpired
  | configurationChanged
  | device (kind : ErrorKind)
  deriving DecidableEq

namespace Udp

structure Queued where
  frame       : PacketBuf
  id          : DatagramId
  source      : SocketAddr
  destination : SocketAddr
  deadline    : Option Duration
  generation  : U64

-- The number of datagrams that are queued for a peer, and when the next one may be sent.
structure PeerBudget where
  count : Nat
  next  : Duration

theorem spacing_bound (ns : Nat) :
    min (ns / 10 ^ 9) (2 ^ 64 - 1) * 10 ^ 9 + ns % 10 ^ 9 < 2 ^ 64 * 10 ^ 9 := by
  omega

-- The time that a datagram takes at a rate, rounded up to a nanosecond.
def spacing (bytes : Nat) : Option Nat → Duration
  | none      => .zero
  | some rate =>
    let ns := (bytes * 10 ^ 9 + rate - 1) / rate
    { nanos := min (ns / 10 ^ 9) (2 ^ 64 - 1) * 10 ^ 9 + ns % 10 ^ 9
      bound := spacing_bound ns }

def queuedFor (queue : List Queued) (peer : SocketAddr) : Nat :=
  queue.countP (·.destination = peer)

def budgeted (peers : TreeMap SocketAddr PeerBudget) (peer : SocketAddr) : Nat :=
  (peers[peer]?.map (·.count)).getD 0

section

variable {peers : TreeMap SocketAddr PeerBudget} {peer peer' : SocketAddr}

theorem budgeted_filter {keep : PeerBudget → Bool} (h : ∀ b, keep b = false → b.count = 0) :
    budgeted (peers.filter fun _ b => keep b) peer = budgeted peers peer := by
  rw [budgeted, budgeted, TreeMap.getElem?_filter']
  cases peers[peer]?
  case none   => rfl
  case some b =>
    cases hb : keep b
    case true  => simp [Option.filter, hb]
    case false => simp [Option.filter, hb, h b hb]

theorem budgeted_insert (b : PeerBudget) :
    budgeted (peers.insert peer b) peer' = if peer = peer' then b.count
      else budgeted peers peer' := by
  simp only [budgeted, TreeMap.getElem?_insert, Std.compare_eq_iff_eq]
  split <;> rfl

-- A function of the count is applied to the count of the peer.
theorem budgeted_modify {f : PeerBudget → PeerBudget} {g : Nat → Nat}
    (hf : ∀ b, (f b).count = g b.count) (h0 : g 0 = 0) :
    budgeted (peers.modify peer f) peer' =
      if peer = peer' then g (budgeted peers peer') else budgeted peers peer' := by
  simp only [budgeted, TreeMap.getElem?_modify, Std.compare_eq_iff_eq]
  split
  case isFalse => rfl
  case isTrue heq =>
    rw [heq]
    cases peers[peer']?
    case none   => exact h0.symm
    case some b => exact hf b

theorem queuedFor_append (queue : List Queued) (q : Queued) :
    queuedFor (queue ++ [q]) peer = queuedFor queue peer + if q.destination = peer then 1
      else 0 := by
  simp [queuedFor, countP_append, countP_cons]

theorem queuedFor_eraseIdx {queue : List Queued} (index : Fin queue.length) :
    queuedFor (queue.eraseIdx index) peer =
      queuedFor queue peer - if (queue.get index).destination = peer then 1 else 0 := by
  have := (getElem_cons_eraseIdx_perm index.isLt).countP_eq (·.destination = peer)
  simp only [countP_cons, decide_eq_true_eq] at this
  simp only [queuedFor, get_eq_getElem]
  omega

end

-- The budgets of the peers count the datagrams in the queue. In the source, this is why the entries
-- can be unwrapped.
structure Scheduler where
  queue   : List Queued
  peers   : TreeMap SocketAddr PeerBudget
  next    : Duration
  last    : Option SocketAddr
  counted : ∀ peer, budgeted peers peer = queuedFor queue peer

namespace Scheduler

def new : Scheduler where
  queue   := []
  peers   := ∅
  next    := .zero
  last    := none
  counted := by simp [budgeted, queuedFor]

variable (s : Scheduler)

-- Idle peers whose pace no longer matters are forgotten.
def retain (now : Duration) : Scheduler :=
  { s with
    peers        := s.peers.filter fun _ b => b.count > 0 || b.next > now
    counted peer := by
      rw [budgeted_filter (by simp +contextual), s.counted] }

def admission (peer : SocketAddr) (now : Duration) (cfg : UdpConfig) :
    Scheduler × Except UdpFailure Unit :=
  let s := s.retain now
  if s.queue.length ≥ cfg.queueCapacity then
    (s, .error .queueFull)
  else
    match s.peers[peer]? with
    | some b => (s, if b.count ≥ cfg.perPeerCapacity then .error .peerQueueFull else .ok ())
    | none   => (s, if s.peers.size ≥ cfg.maxTxPeers then .error .peerLimit else .ok ())

def push (q : Queued) : Scheduler :=
  let b := s.peers[q.destination]?.getD { count := 0, next := .zero }
  { s with
    peers        := s.peers.insert q.destination { b with count := b.count + 1 }
    queue        := s.queue ++ [q]
    counted peer := by
      have hb : b.count = budgeted s.peers q.destination := by
        simp only [b, budgeted]
        cases s.peers[q.destination]? <;> rfl
      rw [budgeted_insert, queuedFor_append]
      split
      case isTrue heq => rw [hb, s.counted, heq]
      case isFalse    => rw [s.counted, Nat.add_zero] }

-- The datagram at an index leaves the queue.
def remove (index : Fin s.queue.length) : Scheduler × Queued :=
  let q := s.queue.get index
  ({ s with
      queue        := s.queue.eraseIdx index
      peers        := s.peers.modify q.destination fun b => { b with count := b.count - 1 }
      counted peer := by
        rw [queuedFor_eraseIdx, budgeted_modify (g := (· - 1)) (fun _ => rfl) rfl, s.counted]
        split <;> rfl },
    q)

theorem mem_peers {q : Queued} (h : q ∈ s.queue) : q.destination ∈ s.peers := by
  have hpos : 0 < queuedFor s.queue q.destination := countP_pos_iff.mpr ⟨q, h, by simp⟩
  rw [← s.counted, budgeted] at hpos
  rw [TreeMap.mem_iff_isSome_getElem?]
  cases hb : s.peers[q.destination]?
  case none   => simp [hb] at hpos
  case some b => rfl

-- Whether the pace of its peer allows to send a datagram.
def ready (now : Duration) (blocked : List SocketAddr) (q : Queued) : Bool :=
  !blocked.contains q.destination && s.peers[q.destination]?.any (·.next ≤ now)

-- The key of the fair order: peers after the last one come first, then the peer, then the position.
def before (a b : Fin s.queue.length) : Bool :=
  let passed (i : Fin s.queue.length) :=
    s.last.any fun last => (compare (s.queue.get i).destination last).isLE
  (compare (passed a).toNat (passed b).toNat).then
    ((compare (s.queue.get a).destination (s.queue.get b).destination).then (compare a b)) == .lt

def candidate (now : Duration) (fair : Bool) (blocked : List SocketAddr) :
    Option (Fin s.queue.length) :=
  let indices := List.finRange s.queue.length
  if now < s.next then
    none
  else if !fair then
    indices.head?.filter fun i => s.ready now blocked (s.queue.get i)
  else
    (indices.filter fun i => s.ready now blocked (s.queue.get i)).foldl
      (fun best i => match best with
        | none   => some i
        | some j => some (if s.before i j then i else j))
      none

-- Byte rates are charged only after acceptance.
def accepted (peer : SocketAddr) (bytes : Nat) (now : Duration) (cfg : UdpConfig) : Scheduler :=
  { s with
    last           := some peer
    next           := now.saturatingAdd (spacing bytes cfg.bytesPerSecond)
    peers          := s.peers.modify peer fun b =>
      { b with next := now.saturatingAdd (spacing bytes cfg.perPeerBytesPerSecond) }
    counted peer'  := by
      rw [budgeted_modify (g := id) (by intro; rfl) rfl, s.counted]
      split <;> rfl }

def nextDeadline (fair : Bool) : Option Duration :=
  let ready := (s.queue.take (if fair then s.queue.length else 1)).filterMap fun q =>
    s.peers[q.destination]?.map fun b => max s.next b.next
  (ready.min?.toList ++ s.queue.filterMap (·.deadline)).min?

end Scheduler
end Udp
