import AsyncNetStack.Lib.Slice
import AsyncNetStack.Net.Responder
import AsyncNetStack.Transport.Theorems.Udp

open Udp List

-- The datagram that goes back.
def Udp.Datagram.reply (d : Datagram) : Datagram :=
  ⟨d.destination, d.source, d.payload⟩

namespace Responder

-- The responder at the destination of a datagram.
def serving (d : Datagram) : Responder :=
  ⟨d.destination.ip, some d.destination.port⟩

-- The ports at the front of a datagram are exchanged.
def swapPorts (body : List U8) : List U8 :=
  (body.drop 2).take 2 ++ (body.take 2 ++ body.drop 4)

-- The packet that answers a datagram.
def echo (bytes : List U8) (d : Datagram) (h : 28 ≤ bytes.length) : List U8 :=
  (serving d).header bytes 17 d.source.ip (checksum ((serving d).header bytes 17 d.source.ip 0)) ++
    swapPorts (Wire.datagramBytes bytes h)

theorem swapPorts_eq {body : List U8} (h : 8 ≤ body.length) :
    swapPorts body = [body[2], body[3], body[0], body[1]] ++ body.drop 4 := by
  obtain ⟨b₀, b₁, b₂, b₃, rest, rfl⟩ := Slice.exists_cons₄ (show 4 ≤ body.length by omega)
  rfl

theorem swapPorts_length {body : List U8} (h : 8 ≤ body.length) :
    (swapPorts body).length = body.length := by
  rw [swapPorts_eq h, length_append, length_drop]
  exact Nat.add_sub_of_le (show 4 ≤ body.length by omega)

-- The sum is the same if the ports and the addresses are exchanged.
theorem ipv4Checksum_swap {body : List U8} (h : 8 ≤ body.length) (source destination : Ipv4Addr) :
    ipv4Checksum destination source (swapPorts body) = ipv4Checksum source destination body := by
  obtain ⟨b₀, b₁, b₂, b₃, rest, rfl⟩ := Slice.exists_cons₄ (show 4 ≤ body.length by omega)
  simp only [swapPorts_eq h, ipv4Checksum, cons_append, nil_append, length_cons,
    getElem_cons_succ, getElem_cons_zero, drop_succ_cons, drop_zero,
    sumWords_cons_cons]
  congr 1
  omega

theorem take_eight {bytes : List U8} (h : 8 ≤ bytes.length) : bytes.take 8 =
    [bytes[0], bytes[1], bytes[2], bytes[3], bytes[4], bytes[5], bytes[6], bytes[7]] := by
  apply ext_getElem
  case hl => simp only [length_take, length_cons, length_nil]; omega
  case h =>
    intro i hi _
    rw [length_take] at hi
    rw [getElem_take]
    have : i < 8 := by omega
    interval_cases i <;> rfl

theorem checksum_header {ip : List U8} (h : 8 ≤ ip.length) (r : Responder) (protocol : U8)
    (source : Ipv4Addr) :
    checksum (r.header ip protocol source (checksum (r.header ip protocol source 0))) = 0 := by
  have hfront : 2 ∣ (ip.take 8 ++ [64, protocol]).length := by
    simp only [length_append, length_take, Nat.min_eq_left h, length_cons,
      length_nil]
    decide
  have hheader (sum : U16) : r.header ip protocol source sum =
      (ip.take 8 ++ [64, protocol]) ++ (be16 sum ++ (be32 r.ipv4 ++ be32 source)) := by
    simp only [header, append_assoc]
  rw [checksum, hheader, sumWords_field hfront, ← hheader]
  exact finishSum_complement _

theorem echo_eq (bytes : List U8) (d : Datagram) (h : 28 ≤ bytes.length) :
    ∃ sum : U16, echo bytes d h =
    bytes.take 8 ++ 64 :: 17 :: (be16 sum ++ (be32 d.destination.ip ++ (be32 d.source.ip ++
      swapPorts (Wire.datagramBytes bytes h)))) := by
  exists checksum ((serving d).header bytes 17 d.source.ip 0)
  rw [echo, header]
  simp only [cons_append, nil_append, append_assoc]
  rfl

section

variable {bytes : List U8} {d : Datagram} {h : 28 ≤ bytes.length} (ha : Wire.Accepted bytes d h)
include ha

theorem refuses_accepted : refuses (serving d) bytes (by omega) = none := by
  have hihl : headerLen bytes (by omega) = 20 := by
    rw [headerLen, ha.version]
    decide
  have hversion : ¬(bytes[0] >>> 4 ≠ 4) := by
    rw [ha.version]
    decide
  have htotal : ¬(20 < 20 ∨ totalLen bytes (by omega) < 20 ∨
      totalLen bytes (by omega) > bytes.length) := by
    have : 28 ≤ totalLen bytes (by omega) := ha.total_ge
    have : totalLen bytes (by omega) ≤ bytes.length := ha.total_le
    omega
  have hdestination : ¬(destinationOf bytes (by omega) ≠ (serving d).ipv4 ∨ bytes[8] = 0) :=
    fun h => h.elim (· (congrArg SocketAddr.ip ha.destination.symm)) ha.ttl
  rw [refuses, if_neg hversion, hihl, if_neg htotal, if_neg (· ha.header_sum),
    if_neg (· ha.fragment), if_neg hdestination, if_neg (· rfl)]

theorem datagramBytes_long : 8 ≤ (Wire.datagramBytes bytes h).length := by
  have hge := ha.total_ge
  have hlen := ha.length_datagramBytes
  omega

theorem body_accepted :
    body (serving d) 17 d.source.ip (Wire.datagramBytes bytes h) =
      (.udp, swapPorts (Wire.datagramBytes bytes h)) := by
  have hlong := datagramBytes_long ha
  have hport : bytes[22] ++ bytes[23] = d.destination.port := by rw [ha.destination]
  rw [body, if_neg (by decide), if_pos rfl, udp, dif_neg (by omega), ← swapPorts_eq hlong]
  simp only [Wire.datagramBytes, getElem_drop, getElem_take, Nat.reduceAdd]
  rw [if_neg (by exact (· ha.length)), if_neg (by rw [hport]; exact (· rfl)),
    if_neg (fun hs => ha.sum.elim hs.left hs.right)]

theorem answer_accepted : answer (serving d) bytes = (.udp, echo bytes d h) := by
  have hrefuses := refuses_accepted ha
  have hihl : headerLen bytes (by omega) = 20 := (refuses_none hrefuses).left
  have hsource : sourceOf bytes (by omega) = d.source.ip := by rw [ha.source]; rfl
  have hprotocol : protocolOf bytes (by omega) = 17 := ha.protocol
  have hbody := body_accepted ha
  rw [answer, dif_neg (by omega)]
  simp only [hrefuses, hihl, hsource, hprotocol]
  rw [show (bytes.take (totalLen bytes (by omega))).drop 20 = Wire.datagramBytes bytes h from rfl,
    hbody]
  rfl

theorem echo_length : (echo bytes d h).length = Wire.totalLen bytes h := by
  have hge := ha.total_ge
  have hlen := ha.length_datagramBytes
  rw [echo, length_append, header_length (by omega), swapPorts_length (datagramBytes_long ha), hlen]
  omega

theorem echo_fields (hlen : 28 ≤ (echo bytes d h).length) :
    Wire.Fields (echo bytes d h) d.reply hlen := by
  have ⟨sum, heq⟩ := echo_eq bytes d h
  have hsource : d.source.port = bytes[20] ++ bytes[21] := by rw [ha.source]
  have hdestination : d.destination.port = bytes[22] ++ bytes[23] := by rw [ha.destination]
  rw [take_eight (by omega), swapPorts_eq (datagramBytes_long ha)] at heq
  constructor
  all_goals
    simp only [heq, be16, be32, cons_append, nil_append, getElem_cons_succ,
      getElem_cons_zero, be32_word, Wire.datagramBytes, getElem_drop, getElem_take,
      Nat.reduceAdd]
  case version     => exact ha.version
  case fragment    => exact ha.fragment
  case source      => rw [← hdestination]; rfl
  case destination => rw [← hsource]; rfl
  all_goals decide

omit ha in
theorem echo_totalLen (hlen : 28 ≤ (echo bytes d h).length) :
    Wire.totalLen (echo bytes d h) hlen = Wire.totalLen bytes h := by
  have ⟨sum, heq⟩ := echo_eq bytes d h
  rw [take_eight (by omega)] at heq
  simp only [Wire.totalLen, heq, cons_append, getElem_cons_succ, getElem_cons_zero]

theorem echo_udp (hlen : 28 ≤ (echo bytes d h).length) :
    ((echo bytes d h)[24] ++ (echo bytes d h)[25] : U16) = bytes[24] ++ bytes[25] ∧
    ((echo bytes d h)[26] ++ (echo bytes d h)[27] : U16) = bytes[26] ++ bytes[27] := by
  have ⟨sum, heq⟩ := echo_eq bytes d h
  rw [take_eight (by omega), swapPorts_eq (datagramBytes_long ha)] at heq
  simp only [heq, be16, be32, cons_append, nil_append, getElem_cons_succ,
    Wire.datagramBytes, getElem_drop, getElem_take, Nat.reduceAdd, and_self]

theorem echo_datagramBytes (hlen : 28 ≤ (echo bytes d h).length) :
    Wire.datagramBytes (echo bytes d h) hlen = swapPorts (Wire.datagramBytes bytes h) := by
  rw [Wire.datagramBytes, echo_totalLen, ← echo_length ha, take_length, echo,
    drop_left' (header_length (by omega) ..)]

theorem echo_accepted (hlen : 28 ≤ (echo bytes d h).length) :
    Wire.Accepted (echo bytes d h) d.reply hlen := by
  have hge := ha.total_ge
  have htotal := echo_totalLen hlen
  have hbytes := echo_datagramBytes ha hlen
  have hudp := echo_udp ha hlen
  exact {
    echo_fields ha hlen with
    total_ge   := by rw [htotal]; exact hge
    total_le   := by rw [htotal, echo_length ha]
    header_sum := by
      rw [echo, take_left' (header_length (by omega) ..)]
      exact checksum_header (by omega) ..
    length     := by
      rw [hudp.left, ha.length, hbytes, swapPorts_length (datagramBytes_long ha)]
    sum        := by
      rw [hudp.right, hbytes]
      exact ha.sum.imp_right (ipv4Checksum_swap (datagramBytes_long ha) ..).trans
    payload    := by
      rw [hbytes, swapPorts_eq (datagramBytes_long ha)]
      change d.payload = ((Wire.datagramBytes bytes h).drop 4).drop 4
      rw [drop_drop]
      exact ha.payload
  }

end

-- The packet of an answer, without whatever followed the packet that it answers.
theorem asSlice_respond (r : Responder) (frame : PacketBuf) :
    (r.respond frame).fst.asSlice = (r.answer frame.asSlice).snd := by
  rw [respond]
  exact PacketBuf.asSlice_copyFromSlice _ (by simp) (PacketBuf.len_withLen ..).symm

-- A datagram that was accepted is always answered.
theorem respond_parsed {frame : PacketBuf} {d : Datagram}
    (h : Wire.parseIpv4 frame.asSlice = .ok d) : (respond (serving d) frame).snd = .udp := by
  have ⟨hlen, ha⟩ := Wire.parseIpv4_ok h
  exact congrArg Prod.fst (answer_accepted ha)

end Responder
