import AsyncNetStack.Net.Ethernet
import AsyncNetStack.Net.Responder
import AsyncNetStack.Transport.TcpSlices

inductive LinkLayer
  | ip
  | ethernet
  deriving DecidableEq

-- The responder on both link layers, as the code reads and writes packets: by indices into a slice,
-- with `none` for a panic.
structure LinkResponder extends Responder where
  mac : Mac

namespace LinkResponder

open Tcp.Slices (read16 read32 putPacket)

-- Skips at most `n` VLAN tags. A frame that ends in one of them is malformed, which is the inner
-- `none`.
def untag (packet : List U8) : Nat → Nat → U16 → Option (Option (Nat × U16))
  | 0, offset, protocol     => some (some (offset, protocol))
  | n + 1, offset, protocol =>
    if protocol ≠ 0x8100 ∧ protocol ≠ 0x88a8 then
      some (some (offset, protocol))
    else if packet.length < offset + 4 then
      some none
    else do
      untag packet n (offset + 4) (← read16 packet (offset + 2))

-- The offset of the network layer, and its protocol.
def locate (packet : List U8) : LinkLayer → Option (Option (Nat × U16))
  | .ip       => some (some (0, 0x0800))
  | .ethernet =>
    if packet.length < 14 then
      some none
    else do
      untag packet 2 14 (← read16 packet 12)

def icmp (body : List U8) : Option (Reply × List U8) := do
  if body.length < 8 || checksum body != 0 then
    return (.malformed, body)
  else if ← body[0]?.map (· != 8) <||> body[1]?.map (· != 0) then
    return (.ignored, body)
  else
    let body ← Slice.set body 0 0
    let body ← Slice.copy body 2 4 [0, 0]
    let body ← Slice.copy body 2 4 (be16 (checksum body))
    return (.icmp, body)

def udp (r : LinkResponder) (source : Ipv4Addr) (body : List U8) : Option (Reply × List U8) := do
  if ← some (decide (body.length < 8)) <||> (read16 body 4).map (·.toNat != body.length) then
    return (.malformed, body)
  else if some (← read16 body 2) ≠ r.udpPort then
    return (.ignored, body)
  else if ← (read16 body 6).map (· != 0) <&&> some (Udp.ipv4Checksum source r.ipv4 body != 0) then
    return (.malformed, body)
  else
    let body ← Slice.swap body 0 2
    let body ← Slice.swap body 1 3
    return (.udp, body)

def body (r : LinkResponder) (protocol : U8) (source : Ipv4Addr) (body : List U8) :
    Option (Reply × List U8) :=
  if protocol = 1 then icmp body
  else if protocol = 17 then r.udp source body
  else some (.ignored, body)

variable (r : LinkResponder)

def header (source : Ipv4Addr) (ihl : Nat) (ip : List U8) : Option (List U8) := do
  let ip ← Slice.copy ip 12 16 (be32 r.ipv4)
  let ip ← Slice.copy ip 16 20 (be32 source)
  let ip ← Slice.set ip 8 64
  let ip ← Slice.copy ip 10 12 [0, 0]
  let sum := checksum (← Slice.range ip 0 ihl)
  Slice.copy ip 10 12 (be16 sum)

-- The checks on the header of a packet.
def refuses (ip : List U8) : Option (Option Reply) := do
  if ← some (decide (ip.length < 20)) <||> ip[0]?.map (fun b : U8 => b >>> 4 != 4) then
    return some .malformed
  else
    let ihl := ((← ip[0]?) &&& 15).toNat * 4
    let total := (← read16 ip 2).toNat
    if ihl < 20 ∨ total < ihl ∨ total > ip.length then
      return some .malformed
    else if checksum (← Slice.range ip 0 ihl) ≠ 0 then
      return some .malformed
    else if (← read16 ip 6) &&& ~~~0x4000#16 ≠ 0 then
      return some .ignored
    else if ← (Slice.range ip 16 20).map (· != be32 r.ipv4) <||> ip[8]?.map (· == 0) then
      return some .ignored
    else if ihl ≠ 20 then
      return some .ignored
    else
      return none

-- Rewrites an IPv4 packet into the answer to it, and returns the length of that.
def answer (ip : List U8) : Option (Reply × List U8 × Nat) := do
  match ← r.refuses ip with
  | some reply => return (reply, ip, 0)
  | none =>
    let ihl := ((← ip[0]?) &&& 15).toNat * 4
    let total := (← read16 ip 2).toNat
    let source ← read32 ip 12
    let (reply, body) ← r.body (← ip[9]?) source (← Slice.range ip ihl total)
    if reply.isReply then
      let ip ← Slice.copy ip ihl total body
      return (reply, ← r.header source ihl ip, total)
    else
      return (reply, ip, 0)

def finishFrame (frame : PacketBuf) (len : Nat) (link : LinkLayer) : Option PacketBuf := do
  let padded := if link = .ethernet then min (max len 60) frame.tailCapacity else len
  let frame ← frame.setLen padded
  let packet := frame.asSlice
  putPacket frame (← Slice.copy packet len packet.length (List.replicate (packet.length - len) 0))

-- The link addresses of an answer.
def address (destination packet : List U8) : Option (List U8) := do
  let packet ← Slice.copy packet 0 6 destination
  Slice.copy packet 6 12 r.mac.bytes

-- The messages that are not requests for the address of the responder.
def ignoresArp (arp : List U8) : Option Bool :=
  (read16 arp 0).map (· != 1)
    <||> (read16 arp 2).map (· != 0x0800)
    <||> (Slice.range arp 4 6).map (· != [6, 4])
    <||> (read16 arp 6).map (· != 1)
    <||> (Slice.range arp 24 28).map (· != be32 r.ipv4)

def arpReply (senderMac senderIp arp : List U8) : Option (List U8) := do
  let arp ← Slice.copy arp 6 8 (be16 2)
  let arp ← Slice.copy arp 8 14 r.mac.bytes
  let arp ← Slice.copy arp 14 18 (be32 r.ipv4)
  let arp ← Slice.copy arp 18 24 senderMac
  Slice.copy arp 24 28 senderIp

def arp (r : LinkResponder) (frame : PacketBuf) (offset : Nat) : Option (PacketBuf × Reply) := do
  let packet := frame.asSlice
  let arp ← Slice.range packet offset packet.length
  if arp.length < 28 then
    return (frame, .malformed)
  else if ← r.ignoresArp arp then
    return (frame, .ignored)
  else
    let senderMac ← Slice.range arp 8 14
    let senderIp ← Slice.range arp 14 18
    let arp ← r.arpReply senderMac senderIp arp
    let packet ← Slice.copy packet offset packet.length arp
    let packet ← r.address senderMac packet
    return (← finishFrame (← putPacket frame packet) (offset + 28) .ethernet, .arp)

-- An answer goes back to the source of the frame.
def exchange (link : LinkLayer) (packet : List U8) : Option (List U8) :=
  if link = .ethernet then do r.address (← Slice.range packet 6 12) packet else some packet

def ip (r : LinkResponder) (frame : PacketBuf) (offset : Nat) (link : LinkLayer) :
    Option (PacketBuf × Reply) := do
  let packet := frame.asSlice
  let (reply, ip, total) ← r.answer (← Slice.range packet offset packet.length)
  if reply.isReply then
    let packet ← Slice.copy packet offset packet.length ip
    let packet ← r.exchange link packet
    return (← finishFrame (← putPacket frame packet) (offset + total) link, reply)
  else
    return (frame, reply)

def respond (frame : PacketBuf) (link : LinkLayer) : Option (PacketBuf × Reply) := do
  match ← locate frame.asSlice link with
  | none                    => return (frame, .malformed)
  | some (offset, protocol) =>
    if protocol = 0x0806 then
      r.arp frame offset
    else if protocol ≠ 0x0800 then
      return (frame, .ignored)
    else
      r.ip frame offset link

end LinkResponder
