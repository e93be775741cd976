import AsyncNetStack.Net.Theorems.Checksum
import AsyncNetStack.Transport.Udp

open List

namespace Udp.Wire

-- The length that the header of a packet gives, and the UDP datagram in it.
def totalLen (bytes : List U8) (_h : 28 ≤ bytes.length) : Nat :=
  (bytes[2] ++ bytes[3] : U16).toNat

def datagramBytes (bytes : List U8) (h : 28 ≤ bytes.length) : List U8 :=
  (bytes.take (totalLen bytes h)).drop 20

-- The fields at fixed places.
structure Fields (bytes : List U8) (d : Datagram) (h : 28 ≤ bytes.length) : Prop where
  version     : bytes[0] = 0x45
  protocol    : bytes[9] = 17
  fragment    : (bytes[6] ++ bytes[7] : U16) &&& ~~~0x4000#16 = 0
  ttl         : bytes[8] ≠ 0
  source      : d.source =
                  ⟨bytes[12] ++ bytes[13] ++ bytes[14] ++ bytes[15], bytes[20] ++ bytes[21]⟩
  destination : d.destination =
                  ⟨bytes[16] ++ bytes[17] ++ bytes[18] ++ bytes[19], bytes[22] ++ bytes[23]⟩

-- The packets that stand for a datagram. A checksum of zero means that there is none.
structure Accepted (bytes : List U8) (d : Datagram) (h : 28 ≤ bytes.length) : Prop
    extends Fields bytes d h where
  total_ge   : 28 ≤ totalLen bytes h
  total_le   : totalLen bytes h ≤ bytes.length
  header_sum : checksum (bytes.take 20) = 0
  length     : (bytes[24] ++ bytes[25] : U16).toNat = (datagramBytes bytes h).length
  sum        : (bytes[26] ++ bytes[27] : U16) = 0 ∨
                 ipv4Checksum d.source.ip d.destination.ip (datagramBytes bytes h) = 0
  payload    : d.payload = (datagramBytes bytes h).drop 8

theorem parseIpv4_ok {bytes : List U8} {d : Datagram} (h : parseIpv4 bytes = .ok d) :
    ∃ hlen, Accepted bytes d hlen := by
  rw [parseIpv4] at h
  split at h
  case isTrue => cases h
  rename_i hlen
  split at h
  case isTrue => cases h
  rename_i h₁
  dsimp only at h
  split at h
  case isTrue => cases h
  rename_i h₂
  split at h
  case isTrue => cases h
  rename_i h₃
  cases h
  simp only [not_or, not_and, ne_eq, not_not, not_lt, getElem_drop,
    getElem_take] at h₁ h₂ h₃ ⊢
  refine ⟨by omega, ?_⟩
  exact {
    version     := h₁.left
    protocol    := h₁.right.left
    fragment    := h₂.right.right.left
    ttl         := h₁.right.right
    source      := rfl
    destination := rfl
    total_ge    := h₂.left
    total_le    := h₂.right.left
    header_sum  := h₂.right.right.right
    length      := h₃.left
    sum         := by
      by_cases hz : (bytes[26] ++ bytes[27] : U16) = 0
      case pos => exact .inl hz
      case neg => exact .inr (h₃.right hz)
    payload     := rfl
  }

section

variable {bytes : List U8} {d : Datagram} {h : 28 ≤ bytes.length} (ha : Accepted bytes d h)
include ha

theorem Accepted.datagram_eq : d = {
    source      := ⟨bytes[12] ++ bytes[13] ++ bytes[14] ++ bytes[15], bytes[20] ++ bytes[21]⟩
    destination := ⟨bytes[16] ++ bytes[17] ++ bytes[18] ++ bytes[19], bytes[22] ++ bytes[23]⟩
    payload     := (datagramBytes bytes h).drop 8 } := by
  rw [← ha.source, ← ha.destination, ← ha.payload]

theorem Accepted.length_datagramBytes : (datagramBytes bytes h).length = totalLen bytes h - 20 := by
  rw [datagramBytes, length_drop, length_take, Nat.min_eq_left ha.total_le]

theorem Accepted.parseIpv4_eq : parseIpv4 bytes = .ok d := by
  have hge := ha.total_ge
  have hle := ha.total_le
  have hlen := ha.length
  have hsum := ha.sum
  rw [ha.source, ha.destination] at hsum
  simp only [datagramBytes, totalLen] at hsum hge hle hlen
  have h₁ : ¬(bytes[0] ≠ 0x45 ∨ bytes[9] ≠ 17 ∨ bytes[8] = 0) := by
    simp only [not_or, ne_eq, not_not]
    exact ⟨ha.version, ha.protocol, ha.ttl⟩
  have h₂ : ¬((bytes[2] ++ bytes[3] : U16).toNat < 28 ∨
      (bytes[2] ++ bytes[3] : U16).toNat > bytes.length ∨
      (bytes[6] ++ bytes[7] : U16) &&& ~~~0x4000#16 ≠ 0 ∨ checksum (bytes.take 20) ≠ 0) := by
    simp only [not_or, ne_eq, not_not, not_lt]
    exact ⟨hge, hle, ha.fragment, ha.header_sum⟩
  rw [parseIpv4, dif_neg (by omega), if_neg h₁]
  dsimp only
  rw [dif_neg h₂]
  simp only [getElem_drop, getElem_take, Nat.reduceAdd]
  rw [if_neg (by
    rintro (hl | ⟨hz, hs⟩)
    case inl => exact hl hlen
    case inr => exact hsum.elim hz hs)]
  exact congrArg Except.ok ha.datagram_eq.symm

end

section Encode

variable (d : Datagram) (identification : U16)

theorem ipHeader_length (sum : U16) : (ipHeader d identification sum).length = 20 := by
  simp [ipHeader]

theorem udpBytes_length (sum : U16) : (udpBytes d sum).length = d.payload.length + 8 := by
  simp [udpBytes]
  omega

theorem sumWords_ipHeader (sum : U16) :
    sumWords (ipHeader d identification sum) =
      sumWords (ipHeader d identification 0) + sum.toNat := by
  simp only [ipHeader, be16, be32, cons_append, nil_append, sumWords_cons_cons, be16_word,
    show (0 : U16).toNat = 0 from rfl]
  omega

theorem checksum_ipHeader :
    checksum (ipHeader d identification (checksum (ipHeader d identification 0))) = 0 := by
  rw [checksum, sumWords_ipHeader]
  exact finishSum_complement _

theorem sumWords_udpBytes (sum : U16) :
    sumWords (udpBytes d sum) = sumWords (udpBytes d 0) + sum.toNat := by
  simp only [udpBytes, be16, cons_append, nil_append, sumWords_cons_cons, be16_word,
    show (0 : U16).toNat = 0 from rfl]
  omega

-- The checksum field of a datagram.
def sumField (d : Datagram) : U16 :=
  let sum := ipv4Checksum d.source.ip d.destination.ip (udpBytes d 0)
  if sum = 0 then 0xffff else sum

theorem sumField_ne_zero : sumField d ≠ 0 := by
  rw [sumField]
  split
  case isTrue => decide
  case isFalse h => exact h

theorem ipv4Checksum_udpBytes :
    ipv4Checksum d.source.ip d.destination.ip (udpBytes d (sumField d)) = 0 := by
  have hsum (x : U16) : ipv4Checksum d.source.ip d.destination.ip (udpBytes d x) =
      finishSum (sumWords (be32 d.source.ip) + sumWords (be32 d.destination.ip) + 17 +
        (udpBytes d 0).length + sumWords (udpBytes d 0) + x.toNat) := by
    rw [ipv4Checksum, udpBytes_length, ← udpBytes_length d 0, sumWords_udpBytes, ← Nat.add_assoc]
  rw [hsum, sumField]
  split
  case isTrue hz  => exact finishSum_complement_ones hz
  case isFalse hz => exact finishSum_complement _

theorem encode_eq : encode d identification =
    ipHeader d identification (checksum (ipHeader d identification 0)) ++ udpBytes d (sumField d) :=
  rfl

theorem encode_fields (trailing : List U8) (h : 28 ≤ (encode d identification ++ trailing).length) :
    Fields (encode d identification ++ trailing) d h := by
  constructor
  all_goals
    simp only [encode, ipHeader, udpBytes, be16, be32, cons_append, nil_append,
      getElem_cons_succ, getElem_cons_zero, be16_word, be32_word]
  all_goals decide

theorem length_encode (trailing : List U8) (h : 28 ≤ (encode d identification ++ trailing).length) :
    ((encode d identification ++ trailing)[24] ++ (encode d identification ++ trailing)[25] : U16) =
      BitVec.ofNat 16 (total d - 20) := by
  simp only [encode, ipHeader, udpBytes, be16, be32, cons_append, nil_append,
    getElem_cons_succ, getElem_cons_zero, be16_word]

theorem sum_encode (trailing : List U8) (h : 28 ≤ (encode d identification ++ trailing).length) :
    ((encode d identification ++ trailing)[26] ++ (encode d identification ++ trailing)[27] : U16) =
      sumField d := by
  simp only [encode_eq, ipHeader, udpBytes, be16, be32, cons_append, nil_append,
    getElem_cons_succ, getElem_cons_zero, be16_word]

variable {d}

theorem totalLen_encode (h : total d ≤ 65535) (trailing : List U8)
    (hlen : 28 ≤ (encode d identification ++ trailing).length) :
    totalLen (encode d identification ++ trailing) hlen = total d := by
  simp only [totalLen, encode, ipHeader, be16, append_assoc, cons_append, nil_append,
    getElem_cons_succ, getElem_cons_zero, be16_word, BitVec.toNat_ofNat]
  omega

-- Whatever follows a packet is cut off by its length.
theorem accepted_encode (h : total d ≤ 65535) (trailing : List U8) :
    ∃ hlen, Accepted (encode d identification ++ trailing) d hlen := by
  have hlen : 28 ≤ (encode d identification ++ trailing).length := by
    rw [length_append, encode_length, total]
    omega
  have htotal := totalLen_encode identification h trailing hlen
  have hbytes : datagramBytes (encode d identification ++ trailing) hlen =
      udpBytes d (sumField d) := by
    rw [datagramBytes, htotal, take_left' (encode_length ..), encode_eq,
      drop_left' (ipHeader_length ..)]
  refine ⟨hlen, ?_⟩
  exact {
    encode_fields d identification trailing hlen with
    total_ge   := by rw [htotal, total]; omega
    total_le   := by rw [htotal, length_append, encode_length]; omega
    header_sum := by
      rw [encode_eq, append_assoc, take_left' (ipHeader_length ..)]
      exact checksum_ipHeader ..
    length     := by
      have := total.eq_def d
      rw [hbytes, udpBytes_length, length_encode d identification trailing hlen, BitVec.toNat_ofNat]
      omega
    sum        := by
      rw [hbytes]
      exact .inr (ipv4Checksum_udpBytes d)
    payload    := by
      rw [hbytes]
      rfl
  }

theorem build (frame : PacketBuf) (h₁ : total d ≤ 65535) (h₂ : total d ≤ frame.tailCapacity) :
    ∃ frame', buildIpv4 frame d identification = .ok frame' ∧
      frame'.asSlice = encode d identification := by
  rw [buildIpv4, dif_pos ⟨h₁, h₂⟩]
  refine ⟨_, rfl, ?_⟩
  apply PacketBuf.asSlice_copyFromSlice
  rw [PacketBuf.len_withLen, encode_length]

end Encode

end Udp.Wire
