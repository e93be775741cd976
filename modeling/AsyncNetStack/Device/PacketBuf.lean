import AsyncNetStack.Primitives.Basic

-- Identifies the frame pool (and so the device) a buffer belongs to.
abbrev PoolId := Nat

-- An exclusive handle to one frame: `memory` is the whole frame, headroom included, and the packet
-- is the `len` bytes from `dataOffset` on. A buffer without a pool returns nothing when dropped.
@[ext]
structure PacketBuf where
  memory     : List U8
  dataOffset : Nat
  len        : Nat
  idx        : Nat
  pool       : Option PoolId
  bound      : dataOffset + len ≤ memory.length
  deriving DecidableEq

namespace PacketBuf

-- The empty buffer that a consumed transmit slot is replaced with.
def default : PacketBuf where
  memory     := []
  dataOffset := 0
  len        := 0
  idx        := 0
  pool       := none
  bound      := Nat.le_refl _

variable (buf : PacketBuf)

def capacity : Nat :=
  buf.memory.length

def tailCapacity : Nat :=
  buf.capacity - buf.dataOffset

def isEmpty : Bool :=
  buf.len == 0

def asSlice : List U8 :=
  (buf.memory.drop buf.dataOffset).take buf.len

@[simp]
theorem asSlice_length : buf.asSlice.length = buf.len := by
  have := buf.bound
  simp [asSlice]
  omega

-- The assertions of the source make the following operations partial: `none` is a panic.
def setHeadroom (headroom : Nat) : Option PacketBuf :=
  if h : headroom ≤ buf.capacity - buf.len then
    some { buf with
      dataOffset := headroom
      bound      := by have := buf.bound; simp only [capacity] at h; omega }
  else
    none

def withLen (len : Nat) (h : len ≤ buf.tailCapacity) : PacketBuf :=
  { buf with
    len   := len
    bound := by have := buf.bound; simp only [tailCapacity, capacity] at h; omega }

@[simp]
theorem len_withLen (len : Nat) (h : len ≤ buf.tailCapacity) : (buf.withLen len h).len = len :=
  rfl

def setLen (len : Nat) : Option PacketBuf :=
  if h : len ≤ buf.tailCapacity then some (buf.withLen len h) else none

-- Copies `bytes` over the packet from its `start`-th byte on.
def copyFromSlice (start : Nat) (bytes : List U8)
    (h : start + bytes.length ≤ buf.len) : PacketBuf :=
  { buf with
    memory :=
      buf.memory.take (buf.dataOffset + start) ++ bytes ++
      buf.memory.drop (buf.dataOffset + start + bytes.length)
    bound := by have := buf.bound; simp; omega }

-- Makes `bytes` the packet of a frame without headroom.
def store (bytes : List U8) (h : bytes.length ≤ buf.capacity) : PacketBuf :=
  copyFromSlice
    { buf with dataOffset := 0, len := bytes.length, bound := by rw [Nat.zero_add]; exact h }
    0 bytes (by simp)

def withHeader (bytes : List U8) (h : bytes.length ≤ buf.dataOffset) : PacketBuf :=
  copyFromSlice
    { buf with
      dataOffset := buf.dataOffset - bytes.length
      len        := buf.len + bytes.length
      bound      := by have := buf.bound; omega }
    0 bytes (by simp)

def pushHeader (bytes : List U8) : Option PacketBuf :=
  if h : bytes.length ≤ buf.dataOffset then some (buf.withHeader bytes h) else none

def pullHeader (n : Nat) : Option PacketBuf :=
  if h : n ≤ buf.len then
    some { buf with
      dataOffset := buf.dataOffset + n
      len        := buf.len - n
      bound      := by have := buf.bound; omega }
  else
    none

@[simp]
theorem capacity_copyFromSlice (start : Nat) (bytes : List U8)
    (h : start + bytes.length ≤ buf.len) :
    (buf.copyFromSlice start bytes h).capacity = buf.capacity := by
  have := buf.bound
  simp [copyFromSlice, capacity]
  omega

-- A buffer that is overwritten as a whole.
theorem asSlice_copyFromSlice {bytes : List U8} (h : 0 + bytes.length ≤ buf.len)
    (hlen : bytes.length = buf.len) : (buf.copyFromSlice 0 bytes h).asSlice = bytes := by
  have := buf.bound
  have hfront : (buf.memory.take (buf.dataOffset + 0)).length = buf.dataOffset := by
    rw [List.length_take]
    omega
  rw [asSlice]
  dsimp only [copyFromSlice]
  rw [List.append_assoc, List.drop_left' hfront, List.take_left' hlen]

theorem tailCapacity_withHeader (bytes : List U8) (h : bytes.length ≤ buf.dataOffset) :
    (buf.withHeader bytes h).tailCapacity = buf.tailCapacity + bytes.length := by
  have := buf.bound
  rw [tailCapacity, withHeader, capacity_copyFromSlice]
  simp only [copyFromSlice, capacity, tailCapacity]
  omega

def belongsTo (pool : PoolId) : Bool :=
  buf.pool == some pool

end PacketBuf
