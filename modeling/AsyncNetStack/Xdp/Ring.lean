import AsyncNetStack.Primitives.Basic

namespace Xdp

def isPowerOfTwo (n : Nat) : Bool :=
  2 ^ n.log2 == n

def validRingSize (entries : Nat) : Bool :=
  isPowerOfTwo entries && entries ≤ 2 ^ 30

def validateRingSize (entries : Nat) : IoResult Unit :=
  if validRingSize entries then
    .ok ()
  else
    .error (.invalid "ring size must be a power of two <= 2^30")

-- A ring of descriptors in memory that is shared with the kernel. The counters run freely over all
-- 32-bit numbers. The fill and completion rings have addresses as descriptors, and the RX and TX
-- rings pairs of an address and a length.
structure Ring (α : Type) where
  producer : U32
  consumer : U32
  entries  : U32
  desc     : Nat → α
  valid    : validRingSize entries.toNat = true

namespace Ring

variable {α : Type}

-- A fresh ring, in whatever memory it is mapped to.
def new (entries : Nat) (desc : Nat → α) (h : validRingSize entries = true) : Ring α where
  producer := 0
  consumer := 0
  entries  := .ofNat 32 entries
  desc     := desc
  valid    := by
    have hle : entries ≤ 2 ^ 30 := of_decide_eq_true (Bool.and_eq_true_iff.mp h).right
    rw [BitVec.toNat_ofNat, Nat.mod_eq_of_lt (by omega)]
    exact h

def mask (r : Ring α) : U32 :=
  r.entries - 1

def index (r : Ring α) (i : U32) : Nat :=
  (i &&& r.mask).toNat

def readDesc (r : Ring α) (i : U32) : α :=
  r.desc (r.index i)

def writeDesc (r : Ring α) (i : U32) (d : α) : Ring α :=
  { r with desc := Function.update r.desc (r.index i) d }

def writeDescs (r : Ring α) (i : U32) : List α → Ring α
  | []      => r
  | d :: ds => (r.writeDesc i d).writeDescs (i + 1) ds

end Ring

-- The side of a ring that pushes descriptors. The cached consumer is offset by the size of the
-- ring, so that the free slots are its distance from the producer.
structure Producer (α : Type) where
  ring           : Ring α
  cachedProducer : U32
  cachedConsumer : U32

namespace Producer

variable {α : Type}

def new (ring : Ring α) : Producer α where
  ring           := ring
  cachedProducer := 0
  cachedConsumer := ring.entries

variable (p : Producer α)

def free : Nat :=
  (p.cachedConsumer - p.cachedProducer).toNat

def refresh : Producer α :=
  { p with cachedConsumer := p.ring.consumer + p.ring.entries }

-- The consumer of the kernel is loaded only if the cached one does not leave enough slots.
def freeSlots (needed : Nat) : Producer α × Nat :=
  let p := if p.free < needed then p.refresh else p
  (p, p.free)

-- Writes as many descriptors as there are free slots, which the kernel does not see yet.
def write (descs : List α) : Producer α × Nat :=
  let (p, free) := p.freeSlots descs.length
  let n := min descs.length free
  ({ p with
      ring           := p.ring.writeDescs p.cachedProducer (descs.take n)
      cachedProducer := p.cachedProducer + .ofNat 32 n }, n)

def publish (n : Nat) : Producer α :=
  if n > 0 then
    { p with ring := { p.ring with producer := p.cachedProducer } }
  else
    p

def push (descs : List α) : Producer α × Nat :=
  let (p, n) := p.write descs
  (p.publish n, n)

end Producer

-- The side of a ring that pops descriptors.
structure Consumer (α : Type) where
  ring           : Ring α
  cachedConsumer : U32

namespace Consumer

variable {α : Type}

def new (ring : Ring α) : Consumer α where
  ring           := ring
  cachedConsumer := 0

def publish (c : Consumer α) (n : Nat) : Consumer α :=
  if n > 0 then
    { c with ring := { c.ring with consumer := c.cachedConsumer } }
  else
    c

-- How the descriptors of the RX ring are read.
def readRx (c : Consumer α) (max : Nat) : Consumer α × List α :=
  let n := min max (c.ring.producer - c.cachedConsumer).toNat
  ({ c with cachedConsumer := c.cachedConsumer + .ofNat 32 n },
    (List.range n).map fun i => c.ring.readDesc (c.cachedConsumer + .ofNat 32 i))

-- How the descriptors of the completion ring are read: the producer is loaded before the loop.
def readCq (c : Consumer α) (producer : U32) : Nat → Consumer α × List α
  | 0       => (c, [])
  | max + 1 =>
    if c.cachedConsumer = producer then
      (c, [])
    else
      let d := c.ring.readDesc c.cachedConsumer
      let (c, ds) := readCq { c with cachedConsumer := c.cachedConsumer + 1 } producer max
      (c, d :: ds)

def rxPop (c : Consumer α) (max : Nat) : Consumer α × List α :=
  let (c, descs) := c.readRx max
  (c.publish descs.length, descs)

def cqPop (c : Consumer α) (max : Nat) : Consumer α × List α :=
  let (c, descs) := c.readCq c.ring.producer max
  (c.publish descs.length, descs)

end Consumer

-- The rings of the arena, with addresses of frames.
structure UMem where
  fq : Producer U64
  cq : Consumer U64

namespace UMem

def fillFreeSlots (umem : UMem) (needed : Nat) : UMem × Nat :=
  let (fq, free) := umem.fq.freeSlots needed
  ({ umem with fq }, free)

def fillPush (umem : UMem) (addrs : List U64) : UMem × Nat :=
  let (fq, n) := umem.fq.push addrs
  ({ umem with fq }, n)

def cqPop (umem : UMem) (max : Nat) : UMem × List U64 :=
  let (cq, addrs) := umem.cq.cqPop max
  ({ umem with cq }, addrs)

end UMem

-- The rings of the socket, with addresses and lengths of packets.
structure XskSocket where
  tx : Producer (U64 × U32)
  rx : Consumer (U64 × U32)

namespace XskSocket

def txFreeSlots (xsk : XskSocket) (needed : Nat) : XskSocket × Nat :=
  let (tx, free) := xsk.tx.freeSlots needed
  ({ xsk with tx }, free)

def txPush (xsk : XskSocket) (descs : List (U64 × U32)) : XskSocket × Nat :=
  let (tx, n) := xsk.tx.push descs
  ({ xsk with tx }, n)

def rxPop (xsk : XskSocket) (max : Nat) : XskSocket × List (U64 × U32) :=
  let (rx, descs) := xsk.rx.rxPop max
  ({ xsk with rx }, descs)

end XskSocket

-- A fill or TX ring together with the kernel. The kernel consumes descriptors first, and publishes
-- its consumer later. The sequences of all descriptors that were pushed and consumed are a history.
structure Outbound (α : Type) where
  user     : Producer α
  kernel   : U32
  pushed   : List α
  consumed : List α

namespace Outbound

variable {α : Type}

-- Before the first push, with all counters at the same value.
def start (counter entries : U32) (desc : Nat → α) (h : validRingSize entries.toNat = true) :
    Outbound α where
  user     := {
    ring           := { producer := counter, consumer := counter, entries, desc, valid := h }
    cachedProducer := counter
    cachedConsumer := counter + entries }
  kernel   := counter
  pushed   := []
  consumed := []

inductive Kernel
  | consume (n : Nat)
  | publish (n : Nat)
  deriving DecidableEq

def kernelStep (s : Outbound α) : Kernel → Outbound α
  | .consume n =>
    let n := min n (s.user.ring.producer - s.kernel).toNat
    { s with
      kernel   := s.kernel + .ofNat 32 n
      consumed := s.consumed ++
        (List.range n).map fun i => s.user.ring.readDesc (s.kernel + .ofNat 32 i) }
  | .publish n =>
    let n := min n (s.kernel - s.user.ring.consumer).toNat
    { s with user.ring.consumer := s.user.ring.consumer + .ofNat 32 n }

-- The kernel can take steps while a push is at work: after it loaded the consumer and before it
-- stores the producer.
inductive Op (α : Type)
  | push (descs : List α) (meanwhile : List Kernel)
  | kernel (k : Kernel)

def step (s : Outbound α) : Op α → Outbound α
  | .push descs meanwhile =>
    let (user, n) := s.user.write descs
    let s := meanwhile.foldl kernelStep { s with user, pushed := s.pushed ++ descs.take n }
    { s with user := s.user.publish n }
  | .kernel k => s.kernelStep k

end Outbound

-- An RX or completion ring together with the kernel. The kernel writes descriptors first, and
-- publishes its producer later. The descriptors that it wrote are staged until then.
structure Inbound (α : Type) where
  user      : Consumer α
  kernel    : U32
  staged    : List α
  published : List α
  popped    : List α

namespace Inbound

variable {α : Type}

def start (counter entries : U32) (desc : Nat → α) (h : validRingSize entries.toNat = true) :
    Inbound α where
  user      := {
    ring           := { producer := counter, consumer := counter, entries, desc, valid := h }
    cachedConsumer := counter }
  kernel    := counter
  staged    := []
  published := []
  popped    := []

inductive Kernel (α : Type)
  | write (descs : List α)
  | publish (n : Nat)

def kernelStep (s : Inbound α) : Kernel α → Inbound α
  -- There are never more entries than the ring has slots.
  | .write descs =>
    let n := min descs.length
      (s.user.ring.entries.toNat - (s.kernel - s.user.ring.consumer).toNat)
    { s with
      user.ring := s.user.ring.writeDescs s.kernel (descs.take n)
      kernel    := s.kernel + .ofNat 32 n
      staged    := s.staged ++ descs.take n }
  | .publish n =>
    let n := min n (s.kernel - s.user.ring.producer).toNat
    { s with
      user.ring.producer := s.user.ring.producer + .ofNat 32 n
      staged             := s.staged.drop n
      published          := s.published ++ s.staged.take n }

-- Whether a ring is popped like the RX ring or like the completion ring.
inductive Loop
  | rx
  | cq
  deriving DecidableEq

def read (c : Consumer α) (max : Nat) : Loop → Consumer α × List α
  | .rx => c.readRx max
  | .cq => c.readCq c.ring.producer max

inductive Op (α : Type)
  | pop (loop : Loop) (max : Nat) (meanwhile : List (Kernel α))
  | kernel (k : Kernel α)

def step (s : Inbound α) : Op α → Inbound α
  | .pop loop max meanwhile =>
    let (user, descs) := read s.user max loop
    let s := meanwhile.foldl kernelStep { s with user, popped := s.popped ++ descs }
    { s with user := s.user.publish descs.length }
  | .kernel k => s.kernelStep k

end Inbound
end Xdp
