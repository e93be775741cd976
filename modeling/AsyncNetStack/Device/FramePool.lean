import AsyncNetStack.Device.PacketBuf

-- A fixed arena of frames. `free` is a stack with its top in front, and `content` is the memory of
-- the frames that have no handle: a handle carries the memory of its frame itself.
structure FramePool where
  id        : PoolId
  frameSize : Nat
  numFrames : Nat
  free      : List Nat
  content   : Nat → Vector U8 frameSize

namespace FramePool

-- The arena is zeroed once, on construction.
def new (id : PoolId) (numFrames frameSize : Nat) : FramePool where
  id        := id
  frameSize := frameSize
  numFrames := numFrames
  free      := List.range numFrames
  content _ := Vector.replicate frameSize 0

variable (pool : FramePool)

def available : Nat :=
  pool.free.length

def alloc : FramePool × Option Nat :=
  ({ pool with free := pool.free.tail }, pool.free.head?)

-- The indices are copied from the array of the stack, so the former top is the last of them.
def allocN (n : Nat) : FramePool × List Nat :=
  ({ pool with free := pool.free.drop n }, (pool.free.take n).reverse)

def release (idx : Nat) : FramePool :=
  { pool with free := idx :: pool.free }

def freeN (indices : List Nat) : FramePool :=
  { pool with free := indices.reverse ++ pool.free }

def headroom (len : Nat) : Nat :=
  min (min (pool.frameSize / 4) 128) (pool.frameSize - len)

-- A handle to a frame that has none. The assertion `len <= frame_size` of the source is a premise.
def packetBuf (idx len : Nat) (h : len ≤ pool.frameSize) : PacketBuf where
  memory     := (pool.content idx).toList
  dataOffset := pool.headroom len
  len        := len
  idx        := idx
  pool       := some pool.id
  bound      := by simp [headroom]; omega

def emptyBuf (idx : Nat) : PacketBuf :=
  pool.packetBuf idx 0 (Nat.zero_le _)

-- Frames are allocated in rounds of 64 indices, until there are no more. Every round but the last
-- allocates some, so `max` rounds are enough.
def allocRounds (pool : FramePool) : Nat → Nat → FramePool × List PacketBuf
  | 0, _           => (pool, [])
  | rounds + 1, max =>
    if max = 0 then
      (pool, [])
    else
      let limit := min 64 max
      let (pool, indices) := pool.allocN limit
      let bufs := indices.map pool.emptyBuf
      if indices.length < limit then
        (pool, bufs)
      else
        let (pool, rest) := pool.allocRounds rounds (max - limit)
        (pool, bufs ++ rest)

def allocBatch (max : Nat) : FramePool × List PacketBuf :=
  pool.allocRounds max max

-- Dropping a handle returns its frame to the pool it belongs to.
def recycle (buf : PacketBuf) : FramePool :=
  if buf.belongsTo pool.id then
    { pool with
      free    := buf.idx :: pool.free
      content := fun i =>
        if h : i = buf.idx ∧ buf.memory.length = pool.frameSize then
          ⟨buf.memory.toArray, by simp [h.right]⟩
        else
          pool.content i }
  else
    pool

@[simp]
theorem frameSize_recycle (buf : PacketBuf) : (pool.recycle buf).frameSize = pool.frameSize := by
  rw [recycle]
  split <;> rfl

end FramePool
