import AsyncNetStack.Net.Interface

-- Framing as the code does it, on buffers whose bounds are only asserted: `none` is a panic.
namespace Ethernet.Slices

variable (frame : PacketBuf)

-- Overwrites the packet with zeros from its `start`-th byte on.
def fill (start : Nat) : Option PacketBuf :=
  if h : start ≤ frame.len then
    some (frame.copyFromSlice start (List.replicate (frame.len - start) 0)
      (by rw [List.length_replicate]; omega))
  else
    none

def prepend (source destination : Mac) (kind : U16) : Option PacketBuf := do
  let frame ← frame.pushHeader (Header.encode { destination, source, etherType := kind })
  let len := frame.len
  if len < 60 then
    let frame ← frame.setLen 60
    fill frame len
  else
    return frame

-- The inner error is that of a frame which is too small.
def prepareEmpty : Option (IoResult PacketBuf) := do
  let frame ← frame.setLen 0
  let headroom := max frame.dataOffset 14
  if headroom > frame.capacity ∨ frame.capacity - headroom < 46 then
    return .error (.invalid "frame cannot hold Ethernet headers and minimum padding")
  else
    let frame ← frame.setHeadroom headroom
    return .ok frame

-- What `queue_arp` does with the reserved frame. The slices that it copies must have the same
-- length.
def encodeArp (packet : Arp.Packet) (source destination : Mac) : Option PacketBuf := do
  let frame ← frame.setLen 28
  if h : 0 + packet.encode.length ≤ frame.len ∧ packet.encode.length = frame.len then
    prepend (frame.copyFromSlice 0 packet.encode h.left) source destination ARP
  else
    none

-- What `receive_frame` does with a packet for the layer above.
def strip (total : Nat) : Option PacketBuf := do
  let frame ← frame.pullHeader 14
  frame.setLen total

end Ethernet.Slices
