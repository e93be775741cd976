import AsyncNetStack.Device.Basic
import AsyncNetStack.Device.FramePool
import AsyncNetStack.Uring.Ring
import AsyncNetStack.Xdp.Ring

namespace Uring

structure UringConfig where
  entries : Nat
  rxDepth : Nat
  deriving DecidableEq

namespace UringConfig

def default : UringConfig where
  entries := 128
  rxDepth := 64

def validate (cfg : UringConfig) : IoResult Unit :=
  if !Xdp.isPowerOfTwo cfg.entries
      || !(2 ≤ cfg.entries && cfg.entries ≤ 4096)
      || cfg.rxDepth ≥ cfg.entries then
    .error (.invalid "invalid io_uring depth")
  else
    .ok ()

end UringConfig

structure UringStats where
  enterCalls       : Nat        := 0
  rxSubmitted      : Nat        := 0
  rxCompleted      : Nat        := 0
  txSubmitted      : Nat        := 0
  txCompleted      : Nat        := 0
  txCompletedBytes : Nat        := 0
  rxErrors         : Nat        := 0
  txErrors         : Nat        := 0
  submitErrors     : Nat        := 0
  lastErrno        : Option Nat := none
  deriving DecidableEq

-- An error is the number of the system, or made up by the device.
inductive Error
  | os (errno : Nat)
  | custom (err : IoError)
  deriving DecidableEq

namespace Error

def rawOsError : Error → Option Nat
  | os errno => some errno
  | custom _ => none

def toIoError : Error → IoError
  | os errno   =>
    { kind := if errno = EAGAIN then .wouldBlock else .other errno, message := "os error" }
  | custom err => err

def truncated : Error :=
  .custom { kind := .invalidData, message := "empty or possibly truncated TUN read" }

-- The kind `WriteZero` has no number of the system.
def shortWrite : Error :=
  .custom { kind := .other 0, message := "short io_uring datagram write" }

end Error

structure Pending where
  buf  : PacketBuf
  read : Bool
  deriving DecidableEq

-- The steps of the kernel. It completes any of the requests that it has consumed, with any result,
-- after it has written any bytes to the buffer of a read.
inductive Move
  | consume
  | complete (k : Nat) (result : Int) (bytes : List U8)
  deriving DecidableEq

-- What the kernel does up to an access to the shared memory, or up to the end of a call of `enter`,
-- together with the error of that call.
structure Turn where
  moves : List Move
  enter : Option Nat

-- The kernel is the sequence of everything that it will ever do.
-- * `inflight`: the requests that the kernel has consumed and not completed
-- * `arrived`: the packets of all reads that were completed with a proper number of bytes (a
-- history)
-- * `panicked`: an assertion, a subtraction or an access by index of the source has failed
structure UringTunDevice where
  ring      : Ring
  pool      : FramePool
  pending   : List (Option Pending)
  free      : List Nat
  ready     : List PacketBuf
  cfg       : UringConfig
  rxPending : Nat
  txPending : Nat
  stats     : UringStats
  error     : Option Error
  inflight  : List Sqe
  arrived   : List PacketBuf
  kernel    : Nat → Turn
  panicked  : Bool

-- The kernel overwrites the part of a buffer that it was asked to read into.
def overwrite (buf : PacketBuf) (bytes : List U8) : PacketBuf :=
  { buf with
    memory := buf.memory.take buf.dataOffset ++ bytes.take buf.tailCapacity ++
      buf.memory.drop (buf.dataOffset + (bytes.take buf.tailCapacity).length)
    bound  := by
      have := buf.bound
      simp only [PacketBuf.tailCapacity, PacketBuf.capacity, List.length_append, List.length_take,
        List.length_drop]
      omega }

-- The packet of a read that was completed with a proper number of bytes.
def packet (op : Pending) (result : Int) : Option PacketBuf :=
  if h : op.read = true ∧ 0 < result ∧ result.toNat < op.buf.tailCapacity then
    some (op.buf.withLen result.toNat (Nat.le_of_lt h.right.right))
  else
    none

-- The packet that a completion will add to `ready`.
def packetOf (pending : List (Option Pending)) (cqe : Cqe) : Option PacketBuf :=
  pending[cqe.id]?.join.bind fun op => packet op cqe.result

namespace UringTunDevice

variable (d : UringTunDevice)

def assert (cond : Bool) : UringTunDevice :=
  { d with panicked := d.panicked || !cond }

def READ : U8 :=
  22

def WRITE : U8 :=
  23

def fill (id : Nat) (bytes : List U8) : UringTunDevice :=
  { d with
    pending := d.pending.modify id (·.map fun op => { op with buf := overwrite op.buf bytes }) }

def move : Move → UringTunDevice
  | .consume =>
    match d.ring.consume with
    | (ring, none)     => { d with ring }
    | (ring, some sqe) => { d with ring, inflight := d.inflight ++ [sqe] }
  | .complete k result bytes =>
    match d.inflight[k]? with
    | none     => d
    | some sqe =>
      if d.ring.cqFull then
        d
      else
        let d := if sqe.opcode = READ then d.fill sqe.id bytes else d
        let cqe := { userData := sqe.userData, result }
        { d with
          ring     := d.ring.post cqe
          inflight := d.inflight.eraseIdx k
          arrived  := d.arrived ++ (packetOf d.pending cqe).toList }

-- The kernel can take steps whenever the shared memory is accessed.
def observe : UringTunDevice :=
  { (d.kernel 0).moves.foldl move d with kernel := fun i => d.kernel (i + 1) }

def recordError (err : Error) : UringTunDevice :=
  { d with
    stats.lastErrno := err.rawOsError
    error           := d.error <|> some err }

-- Dropping a buffer.
def recycle (d : UringTunDevice) (buf : PacketBuf) : UringTunDevice :=
  { d with pool := d.pool.recycle buf }

-- The slot of a completed request is vacated.
def release (id : Nat) (op : Pending) : UringTunDevice :=
  let d := { d with pending := d.pending.set id none, free := id :: d.free }
  if op.read then
    let d := d.assert (1 ≤ d.rxPending)
    { d with rxPending := d.rxPending - 1 }
  else
    let d := d.assert (1 ≤ d.txPending)
    { d with txPending := d.txPending - 1 }

def finishRead (op : Pending) (bytes : Nat) : UringTunDevice :=
  if bytes = 0 || bytes ≥ op.buf.tailCapacity then
    { d with stats.rxErrors := d.stats.rxErrors + 1 }.recordError .truncated |>.recycle op.buf
  else
    match op.buf.setLen bytes with
    | none     => d.assert false
    | some buf =>
      { d with
        stats.rxCompleted := d.stats.rxCompleted + 1
        ready             := d.ready ++ [buf] }

def finishWrite (op : Pending) (bytes : Nat) : UringTunDevice :=
  if bytes ≠ op.buf.len then
    { d with stats.txErrors := d.stats.txErrors + 1 }.recordError .shortWrite |>.recycle op.buf
  else
    { d with
      stats.txCompleted      := d.stats.txCompleted + 1
      stats.txCompletedBytes := d.stats.txCompletedBytes + bytes }.recycle op.buf

def finishError (op : Pending) (errno : Nat) : UringTunDevice :=
  if op.read && (errno == EAGAIN || errno == EINTR) then
    d.recycle op.buf
  else
    let d :=
      if op.read then { d with stats.rxErrors := d.stats.rxErrors + 1 }
      else { d with stats.txErrors := d.stats.txErrors + 1 }
    d.recordError (.os errno) |>.recycle op.buf

-- The body of the loop in `reap`.
def finish (cqe : Cqe) : UringTunDevice :=
  match d.pending[cqe.id]?.join with
  | none    => d.assert false
  | some op =>
    let d := d.release cqe.id op
    if cqe.result < 0 then
      d.finishError op (-cqe.result).toNat
    else if op.read then
      d.finishRead op cqe.result.toNat
    else
      d.finishWrite op cqe.result.toNat

-- Every completion vacates a slot, so there are not more rounds than slots.
def reapRounds (d : UringTunDevice) : Nat → UringTunDevice
  | 0          => d.assert false
  | rounds + 1 =>
    let d := d.observe
    match d.ring.pop with
    | (_, none)        => d
    | (ring, some cqe) => ({ d with ring }.finish cqe).reapRounds rounds

def reap : UringTunDevice :=
  let d := d.reapRounds (d.pending.length + 1)
  { d with ring := d.ring.releaseCompletions }

def takeError : UringTunDevice × Option Error :=
  ({ d with error := none }, d.error)

-- A call of `enter` that is interrupted counts as a success.
def submit : UringTunDevice × Option Error :=
  let d := { d with ring := d.ring.publish }.observe
  match (d.kernel 0).enter with
  | none       => (d.observe, none)
  | some errno =>
    (d.observe, if errno = EINTR || errno = EAGAIN then none else some (.os errno))

def progress : UringTunDevice × Option Error :=
  match d.reap.takeError with
  | (d, some err) => (d, some err)
  | (d, none)     =>
    if d.free.length < d.pending.length then
      match { d with stats.enterCalls := d.stats.enterCalls + 1 }.submit with
      | (d, some err) =>
        ({ d with
            stats.submitErrors := d.stats.submitErrors + 1
            stats.lastErrno    := err.rawOsError }, some err)
      | (d, none) => d.reap.takeError
    else
      d.takeError

-- The request for an operation in the slot `id`.
def request (id : Nat) (op : Pending) : Sqe where
  opcode   := if op.read then READ else WRITE
  flags    := 1
  address  := ⟨op.buf.pool, op.buf.idx, op.buf.dataOffset⟩
  len      := .ofNat 32 (if op.read then op.buf.tailCapacity else op.buf.len)
  userData := .ofNat 64 id

def push (d : UringTunDevice) (sqe : Sqe) : UringTunDevice :=
  let d := d.observe
  let d := d.assert (d.ring.sqUsed ≤ d.ring.entries)
  let d := d.assert (d.ring.freeSlots > 0)
  { d with ring := d.ring.push sqe }

def submitted (read : Bool) : UringTunDevice :=
  if read then
    { d with
      rxPending         := d.rxPending + 1
      stats.rxSubmitted := d.stats.rxSubmitted + 1 }
  else
    { d with
      txPending         := d.txPending + 1
      stats.txSubmitted := d.stats.txSubmitted + 1 }

def queue (buf : PacketBuf) (read : Bool) : UringTunDevice :=
  match d.free with
  | []         => d.assert false
  | id :: free =>
    let op : Pending := { buf, read }
    let d := d.assert (id < d.pending.length)
    { d with free, pending := d.pending.set id (some op) }.push (request id op) |>.submitted read

def freeSlots (d : UringTunDevice) : UringTunDevice × Nat :=
  let d := d.observe
  let d := d.assert (d.ring.sqUsed ≤ d.ring.entries)
  (d, d.ring.freeSlots)

-- Reads are queued as long as there is some of the budget left, which each of them reduces by one.
def refill (d : UringTunDevice) : Nat → UringTunDevice
  | 0          => d
  | budget + 1 =>
    if d.free.isEmpty then
      d
    else
      match d.freeSlots with
      | (d, 0)     => d
      | (d, _ + 1) =>
        match d.pool.alloc with
        | (pool, none)     => { d with pool }
        | (pool, some idx) => ({ d with pool }.queue (pool.emptyBuf idx) true).refill budget

def recv (max : Nat) : UringTunDevice × IoResult (List PacketBuf) :=
  match d.reap.takeError with
  | (d, some err) => (d, .error err.toIoError)
  | (d, none)     =>
    let d := d.refill (d.cfg.rxDepth - (d.rxPending + d.ready.length))
    match d.progress with
    | (d, some err) => (d, .error err.toIoError)
    | (d, none)     => ({ d with ready := d.ready.drop max }, .ok (d.ready.take max))

-- The slots of the accepted frames are replaced by empty buffers.
def sendSlots (slots : List PacketBuf) : UringTunDevice × List PacketBuf × IoResult Nat :=
  match d.reap.takeError with
  | (d, some err) => (d, slots, .error err.toIoError)
  | (d, none)     =>
    let (d, freeSlots) := d.freeSlots
    let n := min (min slots.length d.free.length) freeSlots
    if (slots.take n).any fun f => f.isEmpty || f.len > 2 ^ 32 - 1 then
      (d, slots, .error (.invalid "invalid io_uring TX frame"))
    else
      let d := (slots.take n).foldl (·.queue · false) d
      -- Once accepted, buffers stay with the device even if `enter` fails. The error is reported
      -- later.
      let d :=
        match d.progress with
        | (d, some err) => { d with error := some err }
        | (d, none)     => d
      (d, (slots.take n).map (fun _ => .default) ++ slots.drop n, .ok n)

def send (frames : List PacketBuf) : UringTunDevice × IoResult Nat :=
  let (d, _, result) := d.sendSlots frames
  (d, result)

def alloc (d : UringTunDevice) : UringTunDevice × Option PacketBuf :=
  let (pool, idx) := d.pool.alloc
  ({ d with pool }, idx.map pool.emptyBuf)

def allocBatch (d : UringTunDevice) (max : Nat) : UringTunDevice × List PacketBuf :=
  let (pool, bufs) := d.pool.allocBatch max
  ({ d with pool }, bufs)

instance : Device UringTunDevice where
  pollAt d _  := (d, .ok ())
  recv        := recv
  send        := send
  alloc       := alloc
  recycle     := recycle
  frameSize d := d.pool.frameSize

def start (pool : FramePool) (cfg : UringConfig) (kernel : Nat → Turn) : UringTunDevice where
  ring      := .new (.ofNat 32 cfg.entries)
  pool      := pool
  pending   := List.replicate cfg.entries none
  free      := List.range cfg.entries
  ready     := []
  cfg       := cfg
  rxPending := 0
  txPending := 0
  stats     := {}
  error     := none
  inflight  := []
  arrived   := []
  kernel    := kernel
  panicked  := false

def fromParts (pool : FramePool) (cfg : UringConfig) (kernel : Nat → Turn) :
    IoResult UringTunDevice := do
  cfg.validate
  if cfg.rxDepth ≥ pool.numFrames then
    .error (.invalid "RX depth must leave frames for TX")
  else
    .ok (start pool cfg kernel)

end UringTunDevice

-- The device together with all packets that `recv` has returned so far.
structure Session where
  device    : UringTunDevice
  delivered : List PacketBuf

namespace Session

inductive Op
  | recv (max : Nat)
  | send (frames : List PacketBuf)
  | progress
  | alloc
  | allocBatch (max : Nat)
  | recycle (buf : PacketBuf)

def step (s : Session) : Op → Session
  | .recv max =>
    match s.device.recv max with
    | (device, .ok bufs) => { device, delivered := s.delivered ++ bufs }
    | (device, .error _) => { s with device }
  | .send frames    => { s with device := (s.device.send frames).fst }
  | .progress       => { s with device := s.device.progress.fst }
  | .alloc          => { s with device := s.device.alloc.fst }
  | .allocBatch max => { s with device := (s.device.allocBatch max).fst }
  | .recycle buf    => { s with device := s.device.recycle buf }

end Session
end Uring
