import AsyncNetStack.Device.Basic
import AsyncNetStack.Device.FramePool

-- An in-memory device: `send` copies a payload into a slot of its arena, and `recv` copies it back
-- out into a new frame.
structure LoopbackDevice where
  pool      : FramePool
  arena     : Nat → List U8
  freeSlots : List Nat
  rx        : List (Nat × Nat)

namespace LoopbackDevice

def withCapacity (id : PoolId) (poolFrames kernelSlots : Nat) : LoopbackDevice where
  pool      := .new id poolFrames 2048
  arena _   := List.replicate 2048 0
  freeSlots := List.range kernelSlots
  rx        := []

variable (d : LoopbackDevice)

-- The bytes from the start of a slot on are overwritten.
def write (slot : Nat) (bytes : List U8) : LoopbackDevice :=
  { d with arena := fun i =>
      if i = slot then bytes ++ (d.arena i).drop bytes.length else d.arena i }

-- Copies a payload into an empty frame, without headroom if it does not fit otherwise. A `none` is
-- a failed assertion.
def fill (buf : PacketBuf) (bytes : List U8) : Option PacketBuf := do
  let buf ← if bytes.length > buf.tailCapacity then buf.setHeadroom 0 else some buf
  if h : bytes.length ≤ buf.tailCapacity then
    return (buf.withLen bytes.length h).copyFromSlice 0 bytes (by rw [PacketBuf.len_withLen]; omega)
  else
    none

def recvInto (d : LoopbackDevice) : List PacketBuf → LoopbackDevice × List PacketBuf
  | []          => (d, [])
  | buf :: bufs =>
    match d.rx with
    | []                => (d, buf :: bufs)
    | (slot, len) :: rx =>
      let buf := fill buf ((d.arena slot).take len)
      let (d, bufs) := recvInto { d with rx, freeSlots := slot :: d.freeSlots } bufs
      (d, buf.toList ++ bufs)

def recv (max : Nat) : LoopbackDevice × IoResult (List PacketBuf) :=
  let (pool, bufs) := d.pool.allocBatch (min max d.rx.length)
  let (d, bufs) := recvInto { d with pool } bufs
  (d, .ok bufs)

-- Copies frames into the arena up to the first one that is invalid or finds no slot. Frames in the
-- slots of the caller are untouched so far.
def copyIn (d : LoopbackDevice) (sent : Nat) : List PacketBuf → LoopbackDevice × IoResult Nat
  | []              => (d, .ok sent)
  | frame :: frames =>
    let src := frame.asSlice
    if src.isEmpty || src.length > d.pool.frameSize then
      if sent > 0 then
        (d, .ok sent)
      else
        (d, .error (.invalid "invalid loopback frame length"))
    else
      match d.freeSlots with
      | []                => (d, .ok sent)
      | slot :: freeSlots =>
        let d := write { d with freeSlots } slot src
        copyIn { d with rx := d.rx ++ [(slot, src.length)] } (sent + 1) frames

def recycleFrames (frames : List PacketBuf) : LoopbackDevice :=
  { d with pool := frames.foldl .recycle d.pool }

def sendSlots (slots : List PacketBuf) : LoopbackDevice × List PacketBuf × IoResult Nat :=
  match d.copyIn 0 slots with
  | (d, .error err) => (d, slots, .error err)
  | (d, .ok sent)   =>
    (d.recycleFrames (slots.take sent),
      (slots.take sent).map (fun _ => .default) ++ slots.drop sent, .ok sent)

def send (frames : List PacketBuf) : LoopbackDevice × IoResult Nat :=
  let (d, _, result) := d.sendSlots frames
  (d, result)

def alloc (d : LoopbackDevice) : LoopbackDevice × Option PacketBuf :=
  let (pool, idx) := d.pool.alloc
  ({ d with pool }, idx.map pool.emptyBuf)

-- Dropping a handle outside of the device.
def recycle (d : LoopbackDevice) (buf : PacketBuf) : LoopbackDevice :=
  { d with pool := d.pool.recycle buf }

instance : Device LoopbackDevice where
  pollAt d _  := (d, .ok ())
  recv        := recv
  send        := send
  alloc       := alloc
  recycle     := recycle
  frameSize d := d.pool.frameSize

theorem copyIn_le {d d' : LoopbackDevice} {frames : List PacketBuf} {k n : Nat}
    (h : d.copyIn k frames = (d', .ok n)) : n ≤ k + frames.length := by
  induction frames generalizing d k
  case nil =>
    cases h
    exact Nat.le_refl _
  case cons frame frames ih =>
    rw [copyIn] at h
    dsimp only at h
    split at h
    case isTrue =>
      split at h
      all_goals cases h
      exact Nat.le_add_right ..
    split at h
    case h_1 =>
      cases h
      exact Nat.le_add_right ..
    have := ih h
    rw [List.length_cons]
    omega

instance : LawfulDevice LoopbackDevice where
  send_le {d d' frames n} h := by
    simp only [Device.send, send, sendSlots] at h
    split at h
    case h_1 => cases h
    rename_i heq
    cases h
    exact Nat.zero_add frames.length ▸ copyIn_le heq

end LoopbackDevice
