import AsyncNetStack.Device.Basic
import AsyncNetStack.Device.FramePool
import AsyncNetStack.Lib.Slice

-- The in-memory device with its arena in one piece, as in the code: slots are ranges of the arena.
-- An access that is out of range and an assertion that fails are panics (`none`).
structure LoopbackArena where
  pool      : FramePool
  arena     : List U8
  freeSlots : List Nat
  rx        : List (Nat × Nat)

namespace LoopbackArena

def withCapacity (id : PoolId) (poolFrames kernelSlots : Nat) : Option LoopbackArena :=
  if poolFrames > 0 ∧ kernelSlots > 0 then
    some {
      pool      := .new id poolFrames 2048
      arena     := List.replicate (kernelSlots * 2048) 0
      freeSlots := List.range kernelSlots
      rx        := []
    }
  else
    none

-- Copies bytes to an offset of the whole frame, headroom included.
def overwrite (buf : PacketBuf) (start : Nat) (bytes : List U8) : Option PacketBuf :=
  if h : start + bytes.length ≤ buf.memory.length then
    some { buf with
      memory := buf.memory.take start ++ bytes ++ buf.memory.drop (start + bytes.length)
      bound  := by have := buf.bound; simp; omega }
  else
    none

def copyOut (a : LoopbackArena) (buf : PacketBuf) : Option (LoopbackArena × PacketBuf) :=
  match a.rx with
  | []                => none
  | (slot, len) :: rx => do
    let buf ← if len > buf.tailCapacity then buf.setHeadroom 0 else some buf
    let base := slot * a.pool.frameSize
    let bytes ← Slice.range a.arena base (base + len)
    let buf ← overwrite buf buf.dataOffset bytes
    let buf ← buf.setLen len
    return ({ a with rx, freeSlots := slot :: a.freeSlots }, buf)

def recvInto (a : LoopbackArena) : List PacketBuf → Option (LoopbackArena × List PacketBuf)
  | []          => some (a, [])
  | buf :: bufs => do
    let (a, buf) ← a.copyOut buf
    let (a, bufs) ← a.recvInto bufs
    return (a, buf :: bufs)

def recv (a : LoopbackArena) (max : Nat) : Option (LoopbackArena × List PacketBuf) :=
  let (pool, bufs) := a.pool.allocBatch (min max a.rx.length)
  recvInto { a with pool } bufs

def copyIn (a : LoopbackArena) (sent : Nat) : List PacketBuf → Option (LoopbackArena × IoResult Nat)
  | []              => some (a, .ok sent)
  | frame :: frames =>
    let src := frame.asSlice
    if src.isEmpty || src.length > a.pool.frameSize then
      if sent > 0 then
        some (a, .ok sent)
      else
        some (a, .error (.invalid "invalid loopback frame length"))
    else
      match a.freeSlots with
      | []                => some (a, .ok sent)
      | slot :: freeSlots => do
        let base := slot * a.pool.frameSize
        let arena ← Slice.copy a.arena base (base + src.length) src
        copyIn { a with arena, freeSlots, rx := a.rx ++ [(slot, src.length)] } (sent + 1) frames

def send (a : LoopbackArena) (frames : List PacketBuf) : Option (LoopbackArena × IoResult Nat) := do
  let (a, result) ← a.copyIn 0 frames
  match result with
  | .error err => return (a, .error err)
  | .ok sent   =>
    let sentFrames ← Slice.range frames 0 sent
    return ({ a with pool := sentFrames.foldl .recycle a.pool }, .ok sent)

def alloc (a : LoopbackArena) : LoopbackArena × Option PacketBuf :=
  let (pool, idx) := a.pool.alloc
  ({ a with pool }, idx.map pool.emptyBuf)

-- Dropping a handle outside of the device.
def recycle (a : LoopbackArena) (buf : PacketBuf) : LoopbackArena :=
  { a with pool := a.pool.recycle buf }

end LoopbackArena
