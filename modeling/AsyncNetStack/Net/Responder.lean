import AsyncNetStack.Transport.Udp

open List

inductive Reply
  | arp
  | icmp
  | udp
  | ignored
  | malformed
  deriving DecidableEq

def Reply.isReply : Reply → Bool
  | .arp | .icmp | .udp   => true
  | .ignored | .malformed => false

-- An in-place responder for packets without an Ethernet header. Its link address is only used in
-- the presence of one.
structure Responder where
  ipv4    : Ipv4Addr
  udpPort : Option U16

namespace Responder

-- The body of an answer to an ICMP message.
def icmp (body : List U8) : Reply × List U8 :=
  if _h : body.length < 8 then
    (.malformed, body)
  else if checksum body ≠ 0 then
    (.malformed, body)
  else if body[0] ≠ 8 ∨ body[1] ≠ 0 then
    (.ignored, body)
  else
    let blank := [0#8, body[1], 0, 0] ++ body.drop 4
    (.icmp, [0#8, body[1]] ++ be16 (checksum blank) ++ body.drop 4)

-- The body of an answer to a UDP datagram. Exchanging the ports and the addresses preserves the
-- sum.
def udp (r : Responder) (source : Ipv4Addr) (body : List U8) : Reply × List U8 :=
  if _h : body.length < 8 then
    (.malformed, body)
  else if (body[4] ++ body[5] : U16).toNat ≠ body.length then
    (.malformed, body)
  else if some (body[2] ++ body[3]) ≠ r.udpPort then
    (.ignored, body)
  else if (body[6] ++ body[7] : U16) ≠ 0 ∧ Udp.ipv4Checksum source r.ipv4 body ≠ 0 then
    (.malformed, body)
  else
    (.udp, [body[2], body[3], body[0], body[1]] ++ body.drop 4)

variable (r : Responder)

variable (ip : List U8)

-- The header of an answer with the given checksum field.
def header (protocol : U8) (source : Ipv4Addr) (sum : U16) : List U8 :=
  ip.take 8 ++ [64, protocol] ++ be16 sum ++ be32 r.ipv4 ++ be32 source

def body (protocol : U8) (source : Ipv4Addr) (bytes : List U8) : Reply × List U8 :=
  if protocol = 1 then icmp bytes
  else if protocol = 17 then r.udp source bytes
  else (.ignored, bytes)

def headerLen (_h : ¬ip.length < 20) : Nat :=
  (ip[0] &&& 15).toNat * 4

def totalLen (_h : ¬ip.length < 20) : Nat :=
  (ip[2] ++ ip[3] : U16).toNat

def protocolOf (_h : ¬ip.length < 20) : U8 :=
  ip[9]

def sourceOf (_h : ¬ip.length < 20) : Ipv4Addr :=
  ip[12] ++ ip[13] ++ ip[14] ++ ip[15]

def destinationOf (_h : ¬ip.length < 20) : Ipv4Addr :=
  ip[16] ++ ip[17] ++ ip[18] ++ ip[19]

-- The checks on the header of a packet, which all have to be passed for an answer. Fragments and
-- the reserved flag are refused, and options are left to a future layer.
def refuses (h : ¬ip.length < 20) : Option Reply :=
  if ip[0] >>> 4 ≠ 4 then
    some .malformed
  else if headerLen ip h < 20 ∨ totalLen ip h < headerLen ip h ∨ totalLen ip h > ip.length then
    some .malformed
  else if checksum (ip.take (headerLen ip h)) ≠ 0 then
    some .malformed
  else if (ip[6] ++ ip[7] : U16) &&& ~~~0x4000#16 ≠ 0 then
    some .ignored
  else if destinationOf ip h ≠ r.ipv4 ∨ ip[8] = 0 then
    some .ignored
  else if headerLen ip h ≠ 20 then
    some .ignored
  else
    none

-- The answer to an IPv4 packet.
def answer : Reply × List U8 :=
  if h : ip.length < 20 then
    (.malformed, ip)
  else
    match r.refuses ip h with
    | some reply => (reply, ip)
    | none =>
      let protocol := protocolOf ip h
      let source := sourceOf ip h
      let (reply, bytes) := r.body protocol source ((ip.take (totalLen ip h)).drop (headerLen ip h))
      if reply.isReply then
        (reply, r.header ip protocol source (checksum (r.header ip protocol source 0)) ++ bytes)
      else
        (reply, ip)

theorem icmp_length (bytes : List U8) : (icmp bytes).snd.length = bytes.length := by
  rw [icmp]
  split_ifs
  case neg h _ _ =>
    simp only [length_append, be16_length, length_cons, length_nil, length_drop]
    omega
  all_goals rfl

theorem udp_length (source : Ipv4Addr) (bytes : List U8) :
    (r.udp source bytes).snd.length = bytes.length := by
  rw [udp]
  split_ifs
  case neg h _ _ _ =>
    simp only [length_append, length_cons, length_nil, length_drop]
    omega
  all_goals rfl

theorem body_length (protocol : U8) (source : Ipv4Addr) (bytes : List U8) :
    (r.body protocol source bytes).snd.length = bytes.length := by
  rw [body]
  split_ifs
  case pos => exact icmp_length bytes
  case pos => exact r.udp_length source bytes
  case neg => rfl

theorem header_length {ip : List U8} (h : ¬ip.length < 20) (r : Responder) (protocol : U8)
    (source : Ipv4Addr) (sum : U16) : (r.header ip protocol source sum).length = 20 := by
  simp only [header, length_append, length_take, be16_length, be32_length,
    length_cons, length_nil]
  omega

theorem refuses_none {r : Responder} {ip : List U8} {h : ¬ip.length < 20}
    (hr : r.refuses ip h = none) : headerLen ip h = 20 ∧ totalLen ip h ≤ ip.length := by
  rw [refuses] at hr
  split_ifs at hr
  omega

theorem answer_length_le : (r.answer ip).snd.length ≤ ip.length := by
  rw [answer]
  split
  case isTrue => exact Nat.le_refl _
  rename_i h
  split
  case h_1    => exact Nat.le_refl _
  case h_2 hr =>
    have ⟨hihl, htotal⟩ := refuses_none hr
    dsimp only
    split
    case isFalse => exact Nat.le_refl _
    rw [length_append, header_length h, body_length, hihl, length_drop,
      length_take]
    omega

-- Rewrites a packet into the answer to it. Without one, the packet is unchanged.
def respond (frame : PacketBuf) : PacketBuf × Reply :=
  let bytes := (r.answer frame.asSlice).snd
  have h : bytes.length ≤ frame.tailCapacity := by
    have hb := frame.bound
    have hl := r.answer_length_le frame.asSlice
    rw [PacketBuf.asSlice_length] at hl
    simp only [PacketBuf.tailCapacity, PacketBuf.capacity, bytes]
    omega
  ((frame.withLen bytes.length h).copyFromSlice 0 bytes (by rw [PacketBuf.len_withLen]; omega),
    (r.answer frame.asSlice).fst)

end Responder
