import AsyncNetStack.Device.PacketBuf
import AsyncNetStack.Net.Checksum

abbrev Mac := BitVec 48

namespace Mac

def broadcast : Mac :=
  BitVec.allOnes 48

-- Not zero, and the group bit of the first byte is clear.
def unicast (mac : Mac) : Bool :=
  mac != 0 && !mac.getLsbD 40

def bytes (mac : Mac) : List U8 :=
  be16 (mac.extractLsb' 32 16) ++ be32 (mac.extractLsb' 0 32)

@[simp]
theorem bytes_length (mac : Mac) : mac.bytes.length = 6 :=
  rfl

end Mac

namespace Ethernet

def IPV4 : U16 := 0x0800
def ARP : U16 := 0x0806

structure Header where
  destination : Mac
  source      : Mac
  etherType   : U16
  deriving DecidableEq

def parse : List U8 → Option Header
  | d₀ :: d₁ :: d₂ :: d₃ :: d₄ :: d₅ :: s₀ :: s₁ :: s₂ :: s₃ :: s₄ :: s₅ :: t₀ :: t₁ :: _ =>
    some {
      destination := d₀ ++ d₁ ++ d₂ ++ d₃ ++ d₄ ++ d₅
      source      := s₀ ++ s₁ ++ s₂ ++ s₃ ++ s₄ ++ s₅
      etherType   := t₀ ++ t₁
    }
  | _ => none

namespace Header

def encode (h : Header) : List U8 :=
  h.destination.bytes ++ h.source.bytes ++ be16 h.etherType

@[simp]
theorem encode_length (h : Header) : h.encode.length = 14 :=
  rfl

end Header

-- A frame with room for an Ethernet header, and for padding up to the minimum frame size.
@[ext]
structure Roomy where
  frame    : PacketBuf
  headroom : 14 ≤ frame.dataOffset
  tail     : 60 ≤ frame.tailCapacity + 14
  deriving DecidableEq

theorem Roomy.fits (f : Roomy) (h : Header) : h.encode.length ≤ f.frame.dataOffset := by
  rw [Header.encode_length]
  exact f.headroom

theorem Roomy.tail_withHeader (f : Roomy) (h : Header) :
    60 ≤ (f.frame.withHeader h.encode (f.fits h)).tailCapacity := by
  have := f.tail
  rw [PacketBuf.tailCapacity_withHeader, Header.encode_length]
  omega

-- Replaces the packet by a short one. The minimum padding is enough room for it.
def Roomy.write (f : Roomy) (bytes : List U8) (h : bytes.length ≤ 46) : Roomy :=
  have fits : bytes.length ≤ f.frame.tailCapacity := by have := f.tail; omega
  {
    frame    := (f.frame.withLen bytes.length fits).copyFromSlice 0 bytes
      (by rw [PacketBuf.len_withLen]; omega)
    headroom := f.headroom
    tail     := by
      rw [PacketBuf.tailCapacity, PacketBuf.capacity_copyFromSlice]
      exact f.tail
  }

def roomy? (frame : PacketBuf) : Option Roomy :=
  if h : 14 ≤ frame.dataOffset ∧ 60 ≤ frame.tailCapacity + 14 then
    some ⟨frame, h.left, h.right⟩
  else
    none

-- The caller has checked header space and capacity, so unlike in the source this cannot panic.
def prepend (f : Roomy) (source destination : Mac) (kind : U16) : PacketBuf :=
  let header : Header := { destination, source, etherType := kind }
  let frame := f.frame.withHeader header.encode (f.fits header)
  if h : frame.len < 60 then
    (frame.withLen 60 (f.tail_withHeader header)).copyFromSlice
      frame.len (List.replicate (60 - frame.len) 0)
      (by rw [PacketBuf.len_withLen, List.length_replicate]; omega)
  else
    frame

end Ethernet

namespace Arp

inductive Operation
  | request
  | reply
  deriving DecidableEq

structure Packet where
  operation : Operation
  senderMac : Mac
  senderIp  : Ipv4Addr
  targetMac : Mac
  targetIp  : Ipv4Addr
  deriving DecidableEq

def operation (code : U16) : Option Operation :=
  if code = 1 then some .request else if code = 2 then some .reply else none

namespace Packet

-- Ethernet padding after the message is accepted.
def parse : List U8 → Option Packet
  | 0 :: 1 :: 8 :: 0 :: 6 :: 4 :: o₀ :: o₁ ::
    s₀ :: s₁ :: s₂ :: s₃ :: s₄ :: s₅ :: i₀ :: i₁ :: i₂ :: i₃ ::
    t₀ :: t₁ :: t₂ :: t₃ :: t₄ :: t₅ :: j₀ :: j₁ :: j₂ :: j₃ :: _ =>
    (Arp.operation (o₀ ++ o₁)).map fun operation => {
      operation := operation
      senderMac := s₀ ++ s₁ ++ s₂ ++ s₃ ++ s₄ ++ s₅
      senderIp  := i₀ ++ i₁ ++ i₂ ++ i₃
      targetMac := t₀ ++ t₁ ++ t₂ ++ t₃ ++ t₄ ++ t₅
      targetIp  := j₀ ++ j₁ ++ j₂ ++ j₃
    }
  | _ => none

def encode (p : Packet) : List U8 :=
  ([0, 1, 8, 0, 6, 4] : List U8) ++
  be16 (match p.operation with | .request => 1 | .reply => 2) ++
  p.senderMac.bytes ++ be32 p.senderIp ++ p.targetMac.bytes ++ be32 p.targetIp

@[simp]
theorem encode_length (p : Packet) : p.encode.length = 28 := by
  simp [encode]

end Packet
end Arp
