import AsyncNetStack.Device.PacketBuf

namespace Uring

def EINTR : Nat :=
  4

def EAGAIN : Nat :=
  11

-- Where the data of a buffer starts. An address is only ever compared.
structure Address where
  pool   : Option PoolId
  frame  : Nat
  offset : Nat
  deriving DecidableEq

-- The fields of a submission entry that are not always zero.
structure Sqe where
  opcode   : U8
  flags    : U8
  address  : Address
  len      : U32
  userData : U64
  deriving DecidableEq

-- A completion entry. The result is the number of bytes, or a negative error number.
structure Cqe where
  userData : U64
  result   : Int
  deriving DecidableEq

namespace Sqe

def default : Sqe where
  opcode   := 0
  flags    := 0
  address  := ⟨none, 0, 0⟩
  len      := 0
  userData := 0

-- The slot of the request.
def id (sqe : Sqe) : Nat :=
  sqe.userData.toNat

end Sqe

def Cqe.id (cqe : Cqe) : Nat :=
  cqe.userData.toNat

-- The memory that is shared with the kernel, which owns the head of the submission queue and the
-- tail of the completion queue.
structure SqMapping where
  head  : U32
  tail  : U32
  array : Nat → Nat

structure CqMapping where
  head : U32
  tail : U32
  cqes : Nat → Cqe

structure Ring where
  sqEntries : U32
  cqEntries : U32
  sq        : SqMapping
  cq        : CqMapping
  sqes      : Nat → Sqe
  sqTail    : U32
  cqHead    : U32

namespace Ring

-- The kernel gives as many submission entries as it is asked for if their number is a power of two,
-- and twice as many completion entries. All calls to the system are assumed to succeed.
def new (entries : U32) : Ring where
  sqEntries := entries
  cqEntries := 2 * entries
  sq        := { head := 0, tail := 0, array := fun _ => 0 }
  cq        := { head := 0, tail := 0, cqes := fun _ => ⟨0, 0⟩ }
  sqes      := fun _ => .default
  sqTail    := 0
  cqHead    := 0

variable (r : Ring)

def entries : Nat :=
  r.sqEntries.toNat

def sqIndex (i : U32) : Nat :=
  (i &&& (r.sqEntries - 1)).toNat

def cqIndex (i : U32) : Nat :=
  (i &&& (r.cqEntries - 1)).toNat

-- How many entries the kernel has not consumed yet. The subtraction from `entries` must not
-- overflow.
def sqUsed : Nat :=
  (r.sqTail - r.sq.head).toNat

def freeSlots : Nat :=
  r.entries - r.sqUsed

def push (sqe : Sqe) : Ring :=
  let index := r.sqIndex r.sqTail
  { r with
    sqes     := Function.update r.sqes index sqe
    sq.array := Function.update r.sq.array index index
    sqTail   := r.sqTail + 1 }

-- The part of `submit` before the call to the system. The kernel sees the whole batch from here on.
def publish : Ring :=
  { r with sq.tail := r.sqTail }

def pop : Ring × Option Cqe :=
  if r.cqHead = r.cq.tail then
    (r, none)
  else
    ({ r with cqHead := r.cqHead + 1 }, some (r.cq.cqes (r.cqIndex r.cqHead)))

def releaseCompletions : Ring :=
  { r with cq.head := r.cqHead }

-- The kernel consumes the next of the published entries, if there is one.
def consume : Ring × Option Sqe :=
  if r.sq.head = r.sq.tail then
    (r, none)
  else
    ({ r with sq.head := r.sq.head + 1 }, some (r.sqes (r.sq.array (r.sqIndex r.sq.head))))

-- Whether there is no space for another completion. The kernel keeps it back in that case.
def cqFull : Bool :=
  (r.cq.tail - r.cq.head).toNat ≥ r.cqEntries.toNat

-- The kernel posts a completion.
def post (cqe : Cqe) : Ring :=
  { r with
    cq.cqes := Function.update r.cq.cqes (r.cqIndex r.cq.tail) cqe
    cq.tail := r.cq.tail + 1 }

end Ring
end Uring
