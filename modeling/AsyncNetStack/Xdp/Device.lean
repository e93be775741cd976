import AsyncNetStack.Device.Basic
import AsyncNetStack.Device.FramePool
import AsyncNetStack.Xdp.Ring

namespace Xdp

inductive XdpMode
  | auto
  | copy
  | zeroCopy
  deriving DecidableEq

structure XdpConfig where
  frames        : Nat
  chunkSize     : Nat
  headroom      : Nat
  fillEntries   : Nat
  cqEntries     : Nat
  rxEntries     : Nat
  txEntries     : Nat
  attach        : Bool
  attachGeneric : Bool
  maxQueues     : U32
  mode          : XdpMode
  batchSize     : Nat
  txReserve     : Nat
  deriving DecidableEq

namespace XdpConfig

def default : XdpConfig where
  frames        := 4096
  chunkSize     := 4096
  headroom      := 0
  fillEntries   := 2048
  cqEntries     := 2048
  rxEntries     := 1024
  txEntries     := 1024
  attach        := true
  attachGeneric := false
  maxQueues     := 64
  mode          := .auto
  batchSize     := 64
  txReserve     := 512

def validateRings : List Nat → IoResult Unit
  | []              => .ok ()
  | entries :: rest => do
    validateRingSize entries
    validateRings rest

def invalid (cfg : XdpConfig) (queue : U32) : Bool :=
  cfg.frames < 2 ||
  cfg.txReserve ≥ cfg.frames ||
  cfg.batchSize == 0 ||
  cfg.batchSize > 4096 ||
  !isPowerOfTwo cfg.chunkSize ||
  cfg.chunkSize < 2048 ||
  cfg.chunkSize > 2 ^ 32 - 1 ||
  cfg.headroom > cfg.chunkSize - 256 ||
  cfg.frames * cfg.chunkSize ≥ 2 ^ 64 ||
  cfg.maxQueues == 0 ||
  queue ≥ cfg.maxQueues ||
  (cfg.attachGeneric && cfg.mode == .zeroCopy)

def validate (cfg : XdpConfig) (queue : U32) : IoResult Unit := do
  validateRings [cfg.fillEntries, cfg.cqEntries, cfg.rxEntries, cfg.txEntries]
  if cfg.invalid queue then
    .error (.invalid "invalid XDP configuration")
  else
    .ok ()

theorem validateRings_ok {rings : List Nat} (h : validateRings rings = .ok ()) :
    ∀ entries ∈ rings, validRingSize entries = true := by
  induction rings
  case nil => exact fun _ hm => nomatch hm
  case cons entries rest ih =>
    rw [validateRings, validateRingSize] at h
    split at h
    case isTrue hv  => exact List.forall_mem_cons.mpr ⟨hv, ih h⟩
    case isFalse    => cases h

-- The sizes of all rings are valid.
structure Rings (cfg : XdpConfig) : Prop where
  fill : validRingSize cfg.fillEntries = true
  cq   : validRingSize cfg.cqEntries = true
  rx   : validRingSize cfg.rxEntries = true
  tx   : validRingSize cfg.txEntries = true

theorem validate_ok {cfg : XdpConfig} {queue : U32} (h : cfg.validate queue = .ok ()) :
    validateRings [cfg.fillEntries, cfg.cqEntries, cfg.rxEntries, cfg.txEntries] = .ok () ∧
      cfg.invalid queue = false := by
  rw [validate] at h
  generalize validateRings [cfg.fillEntries, cfg.cqEntries, cfg.rxEntries, cfg.txEntries] = r at h ⊢
  cases r
  case error => cases h
  cases hi : cfg.invalid queue
  case false => exact ⟨rfl, rfl⟩
  case true  => simp [hi, bind, Except.bind] at h

theorem validate_rings {cfg : XdpConfig} {queue : U32} (h : cfg.validate queue = .ok ()) :
    cfg.Rings := by
  have hr := validateRings_ok (validate_ok h).left
  exact {
    fill := hr _ (by simp)
    cq   := hr _ (by simp)
    rx   := hr _ (by simp)
    tx   := hr _ (by simp) }

end XdpConfig

structure XdpCounters where
  rxPackets          : Nat := 0
  txSubmitted        : Nat := 0
  txCompleted        : Nat := 0
  txBackpressure     : Nat := 0
  invalidDescriptors : Nat := 0
  deriving DecidableEq

inductive FrameState
  | free
  | rxKernel
  | app
  | txKernel
  deriving DecidableEq

-- Whether the kernel owns a frame, according to its state.
def FrameState.kernel : FrameState → Bool
  | .rxKernel | .txKernel => true
  | .free     | .app      => false

-- What the kernel has written into the shared memory at some point: its counters, the descriptors
-- of the rings that it produces, and the bytes of received packets. None of this can be relied on.
structure Kernel where
  fqConsumer : U32
  cqProducer : U32
  cqDesc     : Nat → U64
  rxProducer : U32
  rxDesc     : Nat → U64 × U32
  txConsumer : U32
  content    : Nat → Nat → U8

-- The kernel is the sequence of everything that it will ever write. `panicked` records that an
-- assertion, a subtraction or an access by index of the source has failed.
structure XdpDevice where
  xsk       : XskSocket
  pool      : FramePool
  umem      : UMem
  state     : List FrameState
  cfg       : XdpConfig
  rxOwned   : Nat
  rxTarget  : Nat
  txPending : Nat
  counters  : XdpCounters
  kernel    : Nat → Kernel
  panicked  : Bool

namespace XdpDevice

variable (d : XdpDevice)

def assert (cond : Bool) : XdpDevice :=
  { d with panicked := d.panicked || !cond }

-- The kernel can write whenever a ring is accessed. Packets go to frames that it owns.
def observe : XdpDevice :=
  let k := d.kernel 0
  { d with
    umem.fq.ring.consumer := k.fqConsumer
    umem.cq.ring.producer := k.cqProducer
    umem.cq.ring.desc     := k.cqDesc
    xsk.rx.ring.producer  := k.rxProducer
    xsk.rx.ring.desc      := k.rxDesc
    xsk.tx.ring.consumer  := k.txConsumer
    pool.content          := fun i =>
      if d.state[i]? = some .rxKernel then Vector.ofFn fun j => k.content i j else d.pool.content i
    kernel                := fun i => d.kernel (i + 1) }

def invalidDescriptor : XdpDevice :=
  { d with counters.invalidDescriptors := d.counters.invalidDescriptors + 1 }

-- The frame that an address of the completion ring lies in.
def frameOf (addr : U64) : Nat :=
  addr.toNat / d.cfg.chunkSize

-- Returns frames to the free list. They must fit, and in a debug build each one must be in use.
def freeN (d : XdpDevice) (indices : List Nat) : XdpDevice :=
  let d := d.assert (d.pool.available + indices.length ≤ d.pool.numFrames)
  let d := d.assert (indices.all (· < d.pool.numFrames) && (indices ++ d.pool.free).Nodup)
  { d with pool := d.pool.freeN indices }

-- Takes the frames of completed transmissions back.
def reap (d : XdpDevice) : List U64 → XdpDevice × List Nat
  | []            => (d, [])
  | addr :: addrs =>
    let idx := d.frameOf addr
    if d.state[idx]? ≠ some .txKernel then
      d.invalidDescriptor.reap addrs
    else
      let (d, indices) := { d with state := d.state.set idx .free }.reap addrs
      (d, idx :: indices)

def drainCq : XdpDevice × Nat :=
  let d := d.observe
  let (umem, addrs) := d.umem.cqPop d.cfg.batchSize
  let (d, indices) := { d with umem }.reap addrs
  let d := d.assert (indices.length ≤ d.cfg.batchSize)
  let d := d.freeN indices
  let d := d.assert (indices.length ≤ d.txPending)
  ({ d with
      txPending            := d.txPending - indices.length
      counters.txCompleted := d.counters.txCompleted + indices.length }, addrs.length)

def setState (idx : Nat) (s : FrameState) : XdpDevice :=
  let d := d.assert (idx < d.state.length)
  { d with state := d.state.set idx s }

-- A round of refilling moves up to `limit` frames from the free list to the fill ring.
def fill (limit : Nat) : XdpDevice × Nat :=
  let (pool, indices) := d.pool.allocN limit
  let d := { d with pool }.observe
  let (umem, pushed) := d.umem.fillPush (indices.map fun idx => .ofNat 64 (idx * d.cfg.chunkSize))
  let d := (indices.take pushed).foldl (·.setState · .rxKernel) { d with umem }
  let d := d.freeN (indices.drop pushed)
  ({ d with rxOwned := d.rxOwned + pushed }, pushed)

-- Every round but the last uses some of the budget, so there are not more rounds than that.
def fillRounds (d : XdpDevice) : Nat → Nat → XdpDevice
  | 0, _                => d
  | rounds + 1, budget =>
    if budget > 0 then
      let limit := min budget d.cfg.batchSize
      let (d, pushed) := d.fill limit
      if pushed < limit then d else d.fillRounds rounds (budget - pushed)
    else
      d

-- The receive wakeup at the end has no effect on the device.
def refill : XdpDevice :=
  let d := d.assert (d.rxOwned ≤ d.rxTarget)
  let budget := min (d.rxTarget - d.rxOwned) (d.pool.available - d.cfg.txReserve)
  d.fillRounds budget budget

def progress : XdpDevice × Nat :=
  let (d, n) := d.drainCq
  (d.refill, n)

def decodeRx (addr : U64) (len : U32) (chunk frames : Nat) : Option (Nat × Nat) :=
  let idx := addr.toNat / chunk
  let offset := addr.toNat % chunk
  if idx < frames && len > 0 && len.toNat ≤ chunk - offset then some (idx, offset) else none

-- A handle to a frame, unless an assertion fails.
def packetBuf (idx headroom len : Nat) : Option PacketBuf :=
  if idx < d.pool.numFrames then do
    let buf ← (d.pool.emptyBuf idx).setHeadroom headroom
    buf.setLen len
  else
    none

def handOut (idx headroom len : Nat) : XdpDevice × List PacketBuf :=
  let d := d.setState idx .app
  match d.packetBuf idx headroom len with
  | none     => (d.assert false, [])
  | some buf => (d, [buf])

-- Malformed descriptors, and those of frames that the kernel does not own, are ignored.
def accept (d : XdpDevice) : List (U64 × U32) → XdpDevice × List PacketBuf
  | []                   => (d, [])
  | (addr, len) :: descs =>
    match decodeRx addr len d.cfg.chunkSize d.cfg.frames with
    | none               => d.invalidDescriptor.accept descs
    | some (idx, offset) =>
      let d := d.assert (idx < d.state.length)
      if d.state[idx]? ≠ some .rxKernel then
        d.invalidDescriptor.accept descs
      else
        let d := d.assert (1 ≤ d.rxOwned)
        let (d, buf) := { d with rxOwned := d.rxOwned - 1 }.handOut idx offset len.toNat
        let (d, bufs) := d.accept descs
        (d, buf ++ bufs)

def recv (max : Nat) : XdpDevice × IoResult (List PacketBuf) :=
  let (d, _) := d.progress
  let d := d.observe
  let (xsk, descs) := d.xsk.rxPop (min max d.cfg.batchSize)
  let (d, bufs) := { d with xsk }.accept descs
  ({ d with counters.rxPackets := d.counters.rxPackets + bufs.length }, .ok bufs)

def describe (buf : PacketBuf) : U64 × U32 :=
  (.ofNat 64 (buf.idx * d.cfg.chunkSize + buf.dataOffset), .ofNat 32 buf.len)

-- The kernel takes a frame over, together with its memory.
def submit (buf : PacketBuf) : XdpDevice :=
  let d := d.setState buf.idx .txKernel
  { d with
    pool.content := fun i =>
      if h : i = buf.idx ∧ buf.memory.length = d.pool.frameSize then
        ⟨buf.memory.toArray, by simp [h.right]⟩
      else
        d.pool.content i }

-- How many of `count` frames can be sent at once.
def reserve (count : Nat) : XdpDevice × Nat :=
  let (d, _) := d.drainCq
  let requested := min count d.cfg.batchSize
  let d := d.observe
  let (xsk, free) := d.xsk.txFreeSlots requested
  let n := min requested free
  ({ d with
      xsk
      counters.txBackpressure := d.counters.txBackpressure + if n < requested then 1 else 0 }, n)

def transmit (frames : List PacketBuf) : XdpDevice :=
  let descs := frames.map d.describe
  let d := (frames.foldl submit d).observe
  let (xsk, pushed) := d.xsk.txPush descs
  let d := { d with xsk }.assert (pushed == frames.length)
  { d with
    txPending            := d.txPending + frames.length
    counters.txSubmitted := d.counters.txSubmitted + frames.length }

def sendSlots (slots : List PacketBuf) : XdpDevice × List PacketBuf × IoResult Nat :=
  let (d, n) := d.reserve slots.length
  if (slots.take n).any fun buf => !buf.belongsTo d.pool.id || buf.isEmpty then
    (d, slots, .error (.invalid "TX needs a nonempty frame from this XDP device"))
  else
    (d.transmit (slots.take n), (slots.take n).map (fun _ => .default) ++ slots.drop n, .ok n)

def send (frames : List PacketBuf) : XdpDevice × IoResult Nat :=
  let (d, _, result) := d.sendSlots frames
  (d, result)

def alloc (d : XdpDevice) : XdpDevice × Option PacketBuf :=
  let d := if d.pool.available = 0 then d.progress.fst else d
  match d.pool.alloc with
  | (pool, none)     => ({ d with pool }, none)
  | (pool, some idx) =>
    let (d, buf) := { d with pool }.handOut idx d.cfg.headroom 0
    (d, buf.head?)

def handOutAll (d : XdpDevice) : List Nat → XdpDevice × List PacketBuf
  | []             => (d, [])
  | idx :: indices =>
    let (d, buf) := d.handOut idx d.cfg.headroom 0
    let (d, bufs) := d.handOutAll indices
    (d, buf ++ bufs)

def allocBatch (max : Nat) : XdpDevice × List PacketBuf :=
  let (d, _) := d.drainCq
  let (pool, indices) := d.pool.allocN (min max d.cfg.batchSize)
  { d with pool }.handOutAll indices

-- Dropping a handle outside of the device.
def recycle (d : XdpDevice) (buf : PacketBuf) : XdpDevice :=
  if buf.belongsTo d.pool.id then
    let d := d.assert (d.pool.available < d.pool.numFrames)
    let d := d.assert (buf.idx < d.pool.numFrames && buf.idx ∉ d.pool.free)
    { d with pool := d.pool.recycle buf }
  else
    d

instance : Device XdpDevice where
  pollAt d _  := (d, .ok ())
  recv        := recv
  send        := send
  alloc       := alloc
  recycle     := recycle
  frameSize d := d.cfg.chunkSize

-- The device as it is before the first refill. The descriptors which are in the rings at first are
-- never read.
def start (id : PoolId) (cfg : XdpConfig) (kernel : Nat → Kernel) (h : cfg.Rings) : XdpDevice where
  xsk       :=
    { tx := .new (.new cfg.txEntries (fun _ => (0, 0)) h.tx)
      rx := .new (.new cfg.rxEntries (fun _ => (0, 0)) h.rx) }
  pool      := .new id cfg.frames cfg.chunkSize
  umem      :=
    { fq := .new (.new cfg.fillEntries (fun _ => 0) h.fill)
      cq := .new (.new cfg.cqEntries (fun _ => 0) h.cq) }
  state     := List.replicate cfg.frames .free
  cfg       := cfg
  rxOwned   := 0
  rxTarget  := min cfg.fillEntries (cfg.frames - cfg.txReserve)
  txPending := 0
  counters  := {}
  kernel    := kernel
  panicked  := false

-- The calls to the system between validation and the first refill are assumed to succeed.
def withConfig (id : PoolId) (cfg : XdpConfig) (queue : U32) (kernel : Nat → Kernel) :
    IoResult XdpDevice :=
  match h : cfg.validate queue with
  | .error err => .error err
  | .ok ()     => .ok (start id cfg kernel (XdpConfig.validate_rings h)).refill

end XdpDevice

-- The device together with all buffers that the application has. Those of other devices are among
-- them.
structure Application where
  device : XdpDevice
  bufs   : List PacketBuf

namespace Application

-- The application sends the first of its buffers, after it arranged them in any order. It can edit
-- a buffer in any way that leaves the frame and its size alone.
inductive Op
  | recv (max : Nat)
  | send (n : Nat)
  | alloc
  | allocBatch (max : Nat)
  | progress
  | drop (i : Nat)
  | arrange (bufs : List PacketBuf)
  | edit (i : Nat) (buf : PacketBuf)
  | obtain (buf : PacketBuf)

-- Whether a buffer can be the result of editing another one.
def edits (buf buf' : PacketBuf) : Bool :=
  buf'.idx == buf.idx && buf'.pool == buf.pool && buf'.memory.length == buf.memory.length

def step (s : Application) : Op → Application
  | .recv max =>
    match s.device.recv max with
    | (device, .ok bufs) => { device, bufs := bufs ++ s.bufs }
    | (device, .error _) => { s with device }
  | .send n =>
    let (device, slots, _) := s.device.sendSlots (s.bufs.take n)
    { device, bufs := slots ++ s.bufs.drop n }
  | .alloc =>
    let (device, buf) := s.device.alloc
    { device, bufs := buf.toList ++ s.bufs }
  | .allocBatch max =>
    let (device, bufs) := s.device.allocBatch max
    { device, bufs := bufs ++ s.bufs }
  | .progress => { s with device := s.device.progress.fst }
  | .drop i =>
    match s.bufs[i]? with
    | none     => s
    | some buf => { device := s.device.recycle buf, bufs := s.bufs.eraseIdx i }
  | .arrange bufs => if bufs.isPerm s.bufs then { s with bufs } else s
  | .edit i buf =>
    match s.bufs[i]? with
    | none     => s
    | some old => if edits old buf then { s with bufs := s.bufs.set i buf } else s
  | .obtain buf => if buf.belongsTo s.device.pool.id then s else { s with bufs := buf :: s.bufs }

-- The buffers with frames of the device.
def handles (s : Application) : List PacketBuf :=
  s.bufs.filter (·.belongsTo s.device.pool.id)

end Application
end Xdp
