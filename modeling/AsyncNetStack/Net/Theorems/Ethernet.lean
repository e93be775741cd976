import AsyncNetStack.Device.Theorems.PacketBuf
import AsyncNetStack.Net.Ethernet
import AsyncNetStack.Net.Theorems.Checksum

open List

theorem extractLsb'_extractLsb' {w s n t k : Nat} (x : BitVec w) (h : t + k ≤ n) :
    (x.extractLsb' s n).extractLsb' t k = x.extractLsb' (s + t) k := by
  ext i hi
  simp only [BitVec.getElem_extractLsb', BitVec.getLsbD_extractLsb']
  rw [decide_eq_true (by omega), Bool.true_and, Nat.add_assoc]

theorem Mac.bytes_eq (mac : Mac) : mac.bytes =
    [mac.extractLsb' 40 8, mac.extractLsb' 32 8, mac.extractLsb' 24 8, mac.extractLsb' 16 8,
      mac.extractLsb' 8 8, mac.extractLsb' 0 8] := by
  simp (disch := decide) only [Mac.bytes, be16, be32, extractLsb'_extractLsb', cons_append,
    nil_append, Nat.reduceAdd]

theorem Mac.bytes_word (mac : Mac) : (mac.extractLsb' 40 8 ++ mac.extractLsb' 32 8 ++
    mac.extractLsb' 24 8 ++ mac.extractLsb' 16 8 ++ mac.extractLsb' 8 8 ++
    mac.extractLsb' 0 8 : Mac) = mac := by
  have h₁ : (mac.extractLsb' 40 8 ++ mac.extractLsb' 32 8 : U16) = mac.extractLsb' 32 16 :=
    BitVec.extractLsb'_append_extractLsb'_eq_extractLsb' rfl
  have h₂ : (mac.extractLsb' 32 16 ++ mac.extractLsb' 24 8 : BitVec 24) = mac.extractLsb' 24 24 :=
    BitVec.extractLsb'_append_extractLsb'_eq_extractLsb' rfl
  have h₃ : (mac.extractLsb' 24 24 ++ mac.extractLsb' 16 8 : U32) = mac.extractLsb' 16 32 :=
    BitVec.extractLsb'_append_extractLsb'_eq_extractLsb' rfl
  have h₄ : (mac.extractLsb' 16 32 ++ mac.extractLsb' 8 8 : BitVec 40) = mac.extractLsb' 8 40 :=
    BitVec.extractLsb'_append_extractLsb'_eq_extractLsb' rfl
  have h₅ : (mac.extractLsb' 8 40 ++ mac.extractLsb' 0 8 : Mac) = mac.extractLsb' 0 48 :=
    BitVec.extractLsb'_append_extractLsb'_eq_extractLsb' rfl
  rw [h₁, h₂, h₃, h₄, h₅, BitVec.extractLsb'_eq_self]

theorem Mac.bytes_append (a b c d e f : U8) :
    Mac.bytes (a ++ b ++ c ++ d ++ e ++ f) = [a, b, c, d, e, f] := by
  simp (disch := decide) only [Mac.bytes_eq, BitVec.extractLsb'_append_eq_of_le,
    BitVec.extractLsb'_append_eq_of_add_le, BitVec.extractLsb'_eq_self, Nat.reduceSub]

namespace Ethernet

theorem parse_encode (h : Header) (rest : List U8) : parse (h.encode ++ rest) = some h := by
  simp only [Header.encode, Mac.bytes_eq, be16, cons_append, nil_append, parse,
    Mac.bytes_word, be16_word]

theorem roomy_frame {slot : PacketBuf} {frame : Roomy} (h : roomy? slot = some frame) :
    frame.frame = slot := by
  rw [roomy?] at h
  split at h
  case isFalse => cases h
  cases h
  rfl

-- A framed packet is padded with zeros to the minimum size of a frame.
theorem asSlice_prepend (f : Roomy) (source destination : Mac) (kind : U16) :
    (prepend f source destination kind).asSlice =
      Header.encode ⟨destination, source, kind⟩ ++
      (f.frame.asSlice ++ List.replicate (46 - f.frame.len) 0) := by
  have hlen (h : Header) : (f.frame.withHeader h.encode (f.fits h)).len = f.frame.len + 14 := rfl
  rw [prepend]
  split
  case isTrue h =>
    rw [hlen] at h
    have hpad : f.frame.len + 14 + (List.replicate (60 - (f.frame.len + 14)) 0#8).length = 60 := by
      rw [length_replicate]
      omega
    refine (PacketBuf.asSlice_extend _ hpad).trans ?_
    have hsub : 60 - (f.frame.len + 14) = 46 - f.frame.len := by omega
    rw [PacketBuf.asSlice_withHeader, append_assoc, hlen, hsub]
  case isFalse h =>
    rw [hlen] at h
    rw [PacketBuf.asSlice_withHeader, Nat.sub_eq_zero_of_le (by omega), replicate_zero,
      append_nil]

theorem parse_prepend (f : Roomy) (source destination : Mac) (kind : U16) :
    parse (prepend f source destination kind).asSlice = some ⟨destination, source, kind⟩ := by
  rw [asSlice_prepend, parse_encode]

end Ethernet

namespace Arp.Packet

theorem parse_cons (o₀ o₁ s₀ s₁ s₂ s₃ s₄ s₅ i₀ i₁ i₂ i₃ t₀ t₁ t₂ t₃ t₄ t₅ j₀ j₁ j₂ j₃ : U8)
    (rest : List U8) :
    parse (0 :: 1 :: 8 :: 0 :: 6 :: 4 :: o₀ :: o₁ :: s₀ :: s₁ :: s₂ :: s₃ :: s₄ :: s₅ ::
      i₀ :: i₁ :: i₂ :: i₃ :: t₀ :: t₁ :: t₂ :: t₃ :: t₄ :: t₅ :: j₀ :: j₁ :: j₂ :: j₃ :: rest) =
    (Arp.operation (o₀ ++ o₁)).map fun operation => {
      operation := operation
      senderMac := s₀ ++ s₁ ++ s₂ ++ s₃ ++ s₄ ++ s₅
      senderIp  := i₀ ++ i₁ ++ i₂ ++ i₃
      targetMac := t₀ ++ t₁ ++ t₂ ++ t₃ ++ t₄ ++ t₅
      targetIp  := j₀ ++ j₁ ++ j₂ ++ j₃
    } :=
  rfl

theorem parse_encode (p : Packet) (rest : List U8) : parse (p.encode ++ rest) = some p := by
  obtain ⟨operation, senderMac, senderIp, targetMac, targetIp⟩ := p
  cases operation
  all_goals
    simp only [encode, Mac.bytes_eq, be16, be32, cons_append, nil_append]
    refine (parse_cons ..).trans ?_
    simp only [Mac.bytes_word, be16_word, be32_word]
    rfl

end Arp.Packet
