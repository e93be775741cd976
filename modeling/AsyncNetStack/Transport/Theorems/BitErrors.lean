import AsyncNetStack.Transport.Theorems.Tcp
import AsyncNetStack.Transport.Theorems.Udp

open List

-- Inverts the `j`-th bit of the `i`-th byte.
def flipBit (bytes : List U8) (i : Nat) (j : Fin 8) : List U8 :=
  bytes.modify i (· ^^^ BitVec.twoPow 8 j)

section

variable {bytes : List U8} {i : Nat} {j : Fin 8}

@[simp]
theorem length_flipBit : (flipBit bytes i j).length = bytes.length :=
  length_modify ..

theorem getElem_flipBit {k : Nat} {h' : k < (flipBit bytes i j).length} (h : k < bytes.length)
    (hne : i ≠ k) : (flipBit bytes i j)[k] = bytes[k] :=
  getElem_modify_ne _ _ hne _

theorem take_flipBit (n : Nat) : (flipBit bytes i j).take n = flipBit (bytes.take n) i j :=
  take_modify ..

theorem drop_flipBit {n : Nat} (h : n ≤ i) :
    (flipBit bytes i j).drop n = flipBit (bytes.drop n) (i - n) j :=
  drop_modify_of_ge _ _ _ _ h

theorem drop_flipBit_of_lt {n : Nat} (h : i < n) : (flipBit bytes i j).drop n = bytes.drop n :=
  drop_modify_of_lt _ _ _ _ h

theorem toNat_flip : ∀ (x : U8) (j : Fin 8),
    (x ^^^ BitVec.twoPow 8 j).toNat = x.toNat + 2 ^ (j : Nat) ∨
    x.toNat = (x ^^^ BitVec.twoPow 8 j).toNat + 2 ^ (j : Nat) := by
  decide +kernel

-- The sum changes by a power of two, which depends on the place of the bit in its word.
theorem sumWords_flipBit (h : i < bytes.length) (j : Fin 8) :
    ∃ k < 16, sumWords (flipBit bytes i j) = sumWords bytes + 2 ^ k ∨
      sumWords bytes = sumWords (flipBit bytes i j) + 2 ^ k := by
  fun_induction sumWords bytes generalizing i
  case case1 => exact absurd h (Nat.not_lt_zero _)
  case case2 last =>
    have hi : i = 0 := by simpa using h
    subst hi
    refine ⟨j + 8, by omega, ?_⟩
    have hflip := toNat_flip last j
    simp only [flipBit, modify_zero_cons, sumWords, Nat.shiftLeft_eq, Nat.pow_add]
    omega
  case case3 hi lo bytes ih =>
    rcases i with _ | _ | i
    case zero =>
      refine ⟨j + 8, by omega, ?_⟩
      have hflip := toNat_flip hi j
      simp only [flipBit, modify_zero_cons, sumWords_cons_cons, word_toNat, Nat.pow_add]
      omega
    case succ.zero =>
      refine ⟨j, by omega, ?_⟩
      have hflip := toNat_flip lo j
      simp only [flipBit, modify_succ_cons, modify_zero_cons, sumWords_cons_cons, word_toNat]
      omega
    case succ.succ =>
      obtain ⟨k, hk, hnear⟩ := ih (i := i) (by simpa using h)
      refine ⟨k, hk, ?_⟩
      simp only [flipBit, modify_succ_cons, sumWords_cons_cons] at hnear ⊢
      omega

-- So a valid sum becomes invalid.
theorem finishSum_flipBit {c : Nat} (hv : finishSum (c + sumWords bytes) = 0) (h : i < bytes.length)
    (j : Fin 8) : finishSum (c + sumWords (flipBit bytes i j)) ≠ 0 := by
  have ⟨k, hk, hnear⟩ := sumWords_flipBit h j
  apply finishSum_near hv hk
  omega

theorem checksum_flipBit (hv : checksum bytes = 0) (h : i < bytes.length) (j : Fin 8) :
    checksum (flipBit bytes i j) ≠ 0 := by
  have hflip :=
    finishSum_flipBit (show finishSum (0 + sumWords bytes) = 0 by rwa [Nat.zero_add]) h j
  rwa [Nat.zero_add] at hflip

theorem Tcp.ipv4Checksum_flipBit {source destination : Ipv4Addr}
    (hv : ipv4Checksum source destination bytes = 0) (h : i < bytes.length) (j : Fin 8) :
    ipv4Checksum source destination (flipBit bytes i j) ≠ 0 := by
  rw [ipv4Checksum, length_flipBit]
  exact finishSum_flipBit hv h j

theorem Udp.ipv4Checksum_flipBit {source destination : Ipv4Addr}
    (hv : ipv4Checksum source destination bytes = 0) (h : i < bytes.length) (j : Fin 8) :
    ipv4Checksum source destination (flipBit bytes i j) ≠ 0 := by
  rw [ipv4Checksum, length_flipBit]
  exact finishSum_flipBit hv h j

end

namespace Tcp.Wire

variable {bytes : List U8} {segment segment' : Segment} {i : Nat} {h : 40 ≤ bytes.length}

-- A bit of the header is covered by its sum, and every other bit by the sum of the segment.
theorem Accepted.not_flipped (ha : Accepted bytes segment h) (hi : i < totalLen bytes h) (j : Fin 8)
    (h' : 40 ≤ (flipBit bytes i j).length) : ¬Accepted (flipBit bytes i j) segment' h' := by
  intro ha'
  have hle := ha.total_le
  by_cases hheader : i < 20
  case pos =>
    have hsum := ha'.header_sum
    rw [take_flipBit] at hsum
    exact checksum_flipBit ha.header_sum (by rw [length_take]; omega) j hsum
  case neg =>
    have htotal : totalLen (flipBit bytes i j) h' = totalLen bytes h := by
      simp (disch := omega) only [totalLen, getElem_flipBit]
    have hbytes :
        segmentBytes (flipBit bytes i j) h' = flipBit (segmentBytes bytes h) (i - 20) j := by
      rw [segmentBytes, segmentBytes, htotal, take_flipBit, drop_flipBit (by omega)]
    have hsource : segment'.source.ip = segment.source.ip := by
      rw [ha.source, ha'.source]
      simp (disch := omega) only [getElem_flipBit]
    have hdestination : segment'.destination.ip = segment.destination.ip := by
      rw [ha.destination, ha'.destination]
      simp (disch := omega) only [getElem_flipBit]
    have hsum := ha'.sum
    rw [hsource, hdestination, hbytes] at hsum
    refine ipv4Checksum_flipBit ha.sum ?_ j hsum
    rw [segmentBytes, length_drop, length_take]
    omega

end Tcp.Wire

namespace Udp.Wire

variable {bytes : List U8} {d d' : Datagram} {i : Nat} {h : 28 ≤ bytes.length}

-- A bit of the checksum of a datagram may also turn it off, which does not change the datagram.
theorem Accepted.eq_of_flipped (ha : Accepted bytes d h) (hi : i < totalLen bytes h)
    (hs : (bytes[26] ++ bytes[27] : U16) ≠ 0) {j : Fin 8} {h' : 28 ≤ (flipBit bytes i j).length}
    (ha' : Accepted (flipBit bytes i j) d' h') : d' = d := by
  have hle := ha.total_le
  by_cases hheader : i < 20
  case pos =>
    have hsum := ha'.header_sum
    rw [take_flipBit] at hsum
    exact absurd hsum (checksum_flipBit ha.header_sum (by rw [length_take]; omega) j)
  case neg =>
    have htotal : totalLen (flipBit bytes i j) h' = totalLen bytes h := by
      simp (disch := omega) only [totalLen, getElem_flipBit]
    have hbytes : datagramBytes (flipBit bytes i j) h' =
        flipBit (datagramBytes bytes h) (i - 20) j := by
      rw [datagramBytes, datagramBytes, htotal, take_flipBit, drop_flipBit (by omega)]
    have hsource : d'.source.ip = d.source.ip := by
      rw [ha.source, ha'.source]
      simp (disch := omega) only [getElem_flipBit]
    have hdestination : d'.destination.ip = d.destination.ip := by
      rw [ha.destination, ha'.destination]
      simp (disch := omega) only [getElem_flipBit]
    have hflip : ipv4Checksum d.source.ip d.destination.ip
        (flipBit (datagramBytes bytes h) (i - 20) j) ≠ 0 := by
      apply ipv4Checksum_flipBit (ha.sum.resolve_left hs)
      rw [ha.length_datagramBytes]
      omega
    have hoff := ha'.sum
    rw [hsource, hdestination, hbytes] at hoff
    replace hoff := hoff.resolve_right hflip
    have hfield : i = 26 ∨ i = 27 := by
      by_contra hne
      rw [not_or] at hne
      simp (disch := omega) only [getElem_flipBit] at hoff
      exact hs hoff
    rw [ha.datagram_eq, ha'.datagram_eq, hbytes, drop_flipBit_of_lt (by omega)]
    simp (disch := omega) only [getElem_flipBit]

end Udp.Wire

theorem Tcp.Wire.Encodable.flip_fails {segment : Segment} (he : Encodable segment) {i : Nat}
    (hi : i < (encode segment).length) (j : Fin 8) :
    ∃ e, parseIpv4 (flipBit (encode segment) i j) = .error e := by
  cases hparse : parseIpv4 (flipBit (encode segment) i j)
  case error e => exact ⟨e, rfl⟩
  have ⟨hlen, ha⟩ := he.accepted []
  have htotal := he.totalLen_encode [] hlen
  rw [encode_length] at hi
  rw [← (encode segment).append_nil] at hparse
  have ⟨hlen', ha'⟩ := Accepted.of_parseIpv4 hparse
  exact absurd ha' (ha.not_flipped (by omega) j hlen')

theorem Udp.Wire.flip_harmless {d : Datagram} (identification : U16) (h : total d ≤ 65535) {i : Nat}
    (hi : i < (encode d identification).length) (j : Fin 8) :
    parseIpv4 (flipBit (encode d identification) i j) = .ok d ∨
    ∃ e, parseIpv4 (flipBit (encode d identification) i j) = .error e := by
  cases hparse : parseIpv4 (flipBit (encode d identification) i j)
  case error e => exact .inr ⟨e, rfl⟩
  case ok d' =>
    have ⟨hlen, ha⟩ := accepted_encode identification h []
    have htotal := totalLen_encode identification h [] hlen
    have hsum := sum_encode d identification [] hlen
    rw [encode_length] at hi
    rw [← (encode d identification).append_nil] at hparse
    have ⟨hlen', ha'⟩ := parseIpv4_ok hparse
    have hne := sumField_ne_zero d
    rw [← hsum] at hne
    exact .inl (congrArg Except.ok (ha.eq_of_flipped (by omega) hne ha'))

-- What was built is parsed back, and a single bit that is inverted is noticed or does not matter.
theorem wire_detects_bit_errors (frame : PacketBuf) :
    (∀ (d : Udp.Datagram) (identification : U16),
      Udp.Wire.total d ≤ 65535 → Udp.Wire.total d ≤ frame.tailCapacity →
      ∃ frame', Udp.Wire.buildIpv4 frame d identification = .ok frame' ∧
        (∀ trailing, Udp.Wire.parseIpv4 (frame'.asSlice ++ trailing) = .ok d) ∧
        ∀ i < frame'.len, ∀ j,
          Udp.Wire.parseIpv4 (flipBit frame'.asSlice i j) = .ok d ∨
          ∃ e, Udp.Wire.parseIpv4 (flipBit frame'.asSlice i j) = .error e) ∧
    (∀ segment : Tcp.Segment, Tcp.Buildable frame segment →
      ∃ frame', Tcp.Slices.buildIpv4 frame segment = some (frame', .ok ()) ∧
        ∀ i < frame'.len, ∀ j,
          ∃ e, Tcp.Slices.parseIpv4 (flipBit frame'.asSlice i j) = some (.error e)) := by
  constructor
  case left =>
    intro d identification h₁ h₂
    have ⟨frame', hbuild, hbytes⟩ := Udp.Wire.build identification frame h₁ h₂
    refine ⟨frame', hbuild, ?_, ?_⟩
    case refine_1 =>
      intro trailing
      have ⟨_, ha⟩ := Udp.Wire.accepted_encode identification h₁ trailing
      rw [hbytes, ha.parseIpv4_eq]
    case refine_2 =>
      intro i hi j
      rw [← frame'.asSlice_length, hbytes] at hi
      rw [hbytes]
      exact Udp.Wire.flip_harmless identification h₁ hi j
  case right =>
    intro segment h
    have ⟨frame', hbuild, hbytes⟩ := h.build
    refine ⟨frame', by rw [Tcp.Slices.buildIpv4_eq, hbuild], ?_⟩
    intro i hi j
    rw [← frame'.asSlice_length, hbytes] at hi
    have ⟨e, he⟩ := h.toEncodable.flip_fails hi j
    exact ⟨e, by rw [Tcp.Slices.parseIpv4_eq, hbytes, he]⟩
