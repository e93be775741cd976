import AsyncNetStack.Transport.Theorems.Options

namespace Tcp.Slices

section

variable {tcp : List U8} {headerLen : Nat}

theorem length_drop_header (h : headerLen ≤ tcp.length) (i : Nat) :
    ((tcp.take headerLen).drop i).length = headerLen - i := by
  rw [List.length_drop, List.length_take, Nat.min_eq_left h]

theorem drop_option (h : headerLen ≤ tcp.length) {offset : Nat} (hi : offset + 2 ≤ headerLen)
    {kind len : U8} (hkind : tcp[offset]? = some kind) (hlen : tcp[offset + 1]? = some len) :
    (tcp.take headerLen).drop offset =
      kind :: len :: (tcp.take headerLen).drop (offset + 2) := by
  have ⟨_, hkind⟩ := List.getElem?_eq_some_iff.mp hkind
  have ⟨_, hlen⟩ := List.getElem?_eq_some_iff.mp hlen
  rw [Slice.drop_take_eq_cons (by omega) h,
    Slice.drop_take_eq_cons (show offset + 1 < headerLen by omega) h, hkind, hlen]

theorem drop_mss (h : headerLen ≤ tcp.length) {offset : Nat} (hi : offset + 4 ≤ headerLen)
    {kind len : U8} (hkind : tcp[offset]? = some kind) (hlen : tcp[offset + 1]? = some len)
    (h₄ : len.toNat = 4) :
    (tcp.take headerLen).drop offset =
      kind :: 4 :: tcp[offset + 2] :: tcp[offset + 3] ::
        (tcp.take headerLen).drop (offset + 4) := by
  have hlen' : len = 4 := BitVec.eq_of_toNat_eq h₄
  rw [drop_option h (by omega) hkind hlen,
    Slice.drop_take_eq_cons (show offset + 2 < headerLen by omega) h,
    Slice.drop_take_eq_cons (show offset + 2 + 1 < headerLen by omega) h, hlen']

-- The offset stands for the options that are left.
theorem parseOptions_eq (h : headerLen ≤ tcp.length) (mss : Option U16) (offset : Nat) :
    parseOptions tcp headerLen mss offset =
      some (Wire.parseOptions mss ((tcp.take headerLen).drop offset)) := by
  fun_induction parseOptions tcp headerLen mss offset
  case case1 hi hnone =>
    rw [List.getElem?_eq_none_iff] at hnone
    omega
  case case2 hi hkind =>
    have ⟨_, hkind⟩ := List.getElem?_eq_some_iff.mp hkind
    rw [Slice.drop_take_eq_cons hi h, hkind, Wire.parseOptions_endOfList]
  case case3 hi hkind _ ih =>
    have ⟨_, hkind⟩ := List.getElem?_eq_some_iff.mp hkind
    rw [ih, Slice.drop_take_eq_cons hi h, hkind, Wire.parseOptions_nop]
  case case4 offset hi kind hkind h₀ h₁ hend =>
    have ⟨_, hkind⟩ := List.getElem?_eq_some_iff.mp hkind
    have hnil : (tcp.take headerLen).drop (offset + 1) = [] := by
      apply List.eq_nil_of_length_eq_zero
      rw [length_drop_header h]
      omega
    rw [Slice.drop_take_eq_cons hi h, hkind, hnil, Wire.parseOptions_single h₀ h₁]
  case case5 hi _ _ _ _ _ hnone =>
    rw [List.getElem?_eq_none_iff] at hnone
    omega
  case case6 offset hi kind hkind h₀ h₁ hend len hlen hcut =>
    have := length_drop_header h (offset + 2)
    rw [drop_option h (by omega) hkind hlen, Wire.parseOptions_cut h₀ h₁ (by omega)]
  case case7 mss offset hi hend len hlen hcut hcheck hkind _ _ =>
    by_cases h₄ : len.toNat = 4
    case pos =>
      have hmss := hcheck.resolve_left (· h₄)
      rw [drop_mss h (by omega) hkind hlen h₄, Wire.parseOptions_mss, if_pos (.inl hmss)]
    case neg =>
      have := length_drop_header h (offset + 2)
      rw [drop_option h (by omega) hkind hlen, Wire.parseOptions_mss_length (by omega) h₄]
  case case8 offset hi hend len hlen hcut hcheck hnone _ _ _ =>
    have h₄ : len.toNat = 4 := by_contra fun h₄ => hcheck (.inl h₄)
    rw [read16_eq (by omega)] at hnone
    cases hnone
  case case9 offset hi hend len hlen hcut hcheck hkind _ _ hvalue =>
    have h₄ : len.toNat = 4 := by_contra fun h₄ => hcheck (.inl h₄)
    rw [read16_eq (by omega)] at hvalue
    rw [drop_mss h (by omega) hkind hlen h₄, Wire.parseOptions_mss,
      if_pos (.inr (Option.some.inj hvalue))]
  case case10 mss offset hi hend len hlen hcut hcheck value hvalue hne hkind _ _ ih =>
    simp only [not_or, ne_eq, not_not] at hcheck
    rw [read16_eq (by omega)] at hvalue
    cases hvalue
    rw [ih, drop_mss h (by omega) hkind hlen hcheck.left, Wire.parseOptions_mss,
      if_neg (by simp only [not_or]; exact ⟨hcheck.right, hne⟩), hcheck.left]
  case case11 offset hi kind hkind h₀ h₁ hend len hlen hcut h₂ ih =>
    have := length_drop_header h (offset + 2)
    rw [ih, drop_option h (by omega) hkind hlen, Wire.parseOptions_other h₀ h₁ h₂ (by omega),
      List.drop_drop]
    congr 3
    omega
  case case12 mss offset hi =>
    rw [List.drop_eq_nil_of_le (by rw [List.length_take]; omega), Wire.parseOptions_nil]

end

theorem malformed_eq {bytes : List U8} (h : 40 ≤ bytes.length) :
    malformed bytes = some (decide (bytes[0] ≠ 0x45 ∨ bytes[9] ≠ 6 ∨ bytes[8] = 0)) := by
  have hlen : ¬bytes.length < 40 := by omega
  simp only [malformed, hlen, List.getElem?_eq_getElem (show 0 < bytes.length by omega),
    List.getElem?_eq_getElem (show 9 < bytes.length by omega),
    List.getElem?_eq_getElem (show 8 < bytes.length by omega), Option.map_some, Slice.orM_some]
  congr 1
  rw [Bool.eq_iff_iff]
  simp

theorem invalid_eq {bytes : List U8} (h : 40 ≤ bytes.length) (total : Nat) :
    invalid bytes total = some (decide (total < 40 ∨ total > bytes.length ∨
      checksum (bytes.take 20) ≠ 0 ∨ (bytes[6] ++ bytes[7] : U16) &&& ~~~0x4000#16 ≠ 0)) := by
  simp only [invalid, Slice.range_of_le (show 0 ≤ 20 by decide) (show 20 ≤ bytes.length by omega),
    List.drop_zero, read16_eq (show 6 + 1 < bytes.length by omega), Option.map_some, Slice.orM_some]
  congr 1
  rw [Bool.eq_iff_iff]
  simp

-- No access is out of range.
theorem parseTcp_eq (source destination : Ipv4Addr) {tcp : List U8} (h : 20 ≤ tcp.length) :
    parseTcp source destination tcp = some (
      if (tcp[12] >>> 4).toNat * 4 < 20 ∨ (tcp[12] >>> 4).toNat * 4 > tcp.length ∨
          ipv4Checksum source destination tcp ≠ 0 then
        .error Wire.invalidSegment
      else do
        let mss ← Wire.parseOptions none ((tcp.take ((tcp[12] >>> 4).toNat * 4)).drop 20)
        return {
          source         := { ip := source, port := tcp[0] ++ tcp[1] }
          destination    := { ip := destination, port := tcp[2] ++ tcp[3] }
          sequence       := tcp[4] ++ tcp[5] ++ tcp[6] ++ tcp[7]
          acknowledgment := tcp[8] ++ tcp[9] ++ tcp[10] ++ tcp[11]
          flags          := tcp[13]
          window         := tcp[14] ++ tcp[15]
          mss            := mss
          payload        := tcp.drop ((tcp[12] >>> 4).toNat * 4)
        }) := by
  rw [parseTcp, List.getElem?_eq_getElem (show 12 < tcp.length by omega)]
  simp only [Option.bind_eq_bind, Option.bind_some]
  by_cases hc : (tcp[12] >>> 4).toNat * 4 < 20 ∨ (tcp[12] >>> 4).toNat * 4 > tcp.length ∨
      ipv4Checksum source destination tcp ≠ 0
  case pos =>
    rw [if_pos hc, if_pos (by simpa [or_assoc] using hc)]
    rfl
  case neg =>
    rw [if_neg hc, if_neg (by simpa [not_or, or_assoc] using hc)]
    simp only [not_or, not_lt, ne_eq, not_not] at hc
    rw [parseOptions_eq hc.right.left, Option.bind_some]
    cases Wire.parseOptions none ((tcp.take ((tcp[12] >>> 4).toNat * 4)).drop 20)
    case error => rfl
    case ok mss =>
      dsimp only
      rw [read16_eq (show 0 + 1 < tcp.length by omega),
        read16_eq (show 2 + 1 < tcp.length by omega), read32_eq (show 4 + 3 < tcp.length by omega),
        read32_eq (show 8 + 3 < tcp.length by omega),
          List.getElem?_eq_getElem (show 13 < tcp.length by omega),
        read16_eq (show 14 + 1 < tcp.length by omega),
        Slice.range_of_le hc.right.left (Nat.le_refl _), List.take_length]
      rfl

theorem parseIpv4_eq (bytes : List U8) : parseIpv4 bytes = some (Wire.parseIpv4 bytes) := by
  by_cases hlen : bytes.length < 40
  case pos => simp [parseIpv4, Wire.parseIpv4, malformed, hlen, orM, toBool]
  case neg =>
    rw [Wire.parseIpv4, dif_neg hlen, parseIpv4, malformed_eq (by omega), Option.bind_eq_bind,
      Option.bind_some]
    by_cases h₁ : bytes[0] ≠ 0x45 ∨ bytes[9] ≠ 6 ∨ bytes[8] = 0
    case pos =>
      rw [if_pos h₁, if_pos (decide_eq_true h₁)]
      rfl
    case neg =>
      rw [if_neg h₁, if_neg (by rw [decide_eq_true_iff]; exact h₁),
        read16_eq (show 2 + 1 < bytes.length by omega), Option.bind_eq_bind, Option.bind_some]
      dsimp only
      rw [invalid_eq (by omega), Option.bind_some]
      split
      case isTrue h₂ =>
        rw [decide_eq_true_iff] at h₂
        rw [dif_pos h₂]
        rfl
      case isFalse h₂ =>
        rw [decide_eq_true_iff] at h₂
        have ht := h₂
        simp only [not_or] at ht
        rw [dif_neg h₂, read32_eq (show 12 + 3 < bytes.length by omega),
          read32_eq (show 16 + 3 < bytes.length by omega), Slice.range_of_le (by omega) (by omega)]
        simp only [Option.bind_eq_bind, Option.bind_some]
        rw [parseTcp_eq _ _ (by rw [List.length_drop, List.length_take]; omega)]

end Tcp.Slices

namespace Tcp.Wire

-- The part of a packet that its header gives the length of, and the TCP segment in it.
def totalLen (bytes : List U8) (_h : 40 ≤ bytes.length) : Nat :=
  (bytes[2] ++ bytes[3] : U16).toNat

def segmentBytes (bytes : List U8) (h : 40 ≤ bytes.length) : List U8 :=
  (bytes.take (totalLen bytes h)).drop 20

def dataOffset (bytes : List U8) (_h : 40 ≤ bytes.length) : Nat :=
  (bytes[32] >>> 4).toNat

-- The fields at fixed places.
structure Fields (bytes : List U8) (segment : Segment) (h : 40 ≤ bytes.length) : Prop where
  version        : bytes[0] = 0x45
  protocol       : bytes[9] = 6
  fragment       : (bytes[6] ++ bytes[7] : U16) &&& ~~~0x4000#16 = 0
  ttl            : bytes[8] ≠ 0
  source         : segment.source =
                     ⟨bytes[12] ++ bytes[13] ++ bytes[14] ++ bytes[15], bytes[20] ++ bytes[21]⟩
  destination    : segment.destination =
                     ⟨bytes[16] ++ bytes[17] ++ bytes[18] ++ bytes[19], bytes[22] ++ bytes[23]⟩
  sequence       : segment.sequence = bytes[24] ++ bytes[25] ++ bytes[26] ++ bytes[27]
  acknowledgment : segment.acknowledgment = bytes[28] ++ bytes[29] ++ bytes[30] ++ bytes[31]
  flags          : segment.flags = bytes[33]
  window         : segment.window = bytes[34] ++ bytes[35]

-- The packets that stand for a segment.
structure Accepted (bytes : List U8) (segment : Segment) (h : 40 ≤ bytes.length) : Prop
    extends Fields bytes segment h where
  total_ge   : 40 ≤ totalLen bytes h
  total_le   : totalLen bytes h ≤ bytes.length
  header_sum : checksum (bytes.take 20) = 0
  offset_ge  : 20 ≤ 4 * dataOffset bytes h
  offset_le  : 4 * dataOffset bytes h ≤ (segmentBytes bytes h).length
  sum        : ipv4Checksum segment.source.ip segment.destination.ip (segmentBytes bytes h) = 0
  options    : Options (((segmentBytes bytes h).take (4 * dataOffset bytes h)).drop 20)
                 segment.mss.toList
  payload    : segment.payload = (segmentBytes bytes h).drop (4 * dataOffset bytes h)

variable {bytes : List U8}

theorem Accepted.of_parseIpv4 {segment : Segment}
    (h : parseIpv4 bytes = .ok segment) : ∃ h, Accepted bytes segment h := by
  rw [parseIpv4] at h
  split at h
  case isTrue => cases h
  rename_i hlen
  split at h
  case isTrue => cases h
  rename_i h₁
  dsimp only at h
  split at h
  case isTrue => cases h
  rename_i h₂
  split at h
  case isTrue => cases h
  rename_i h₃
  generalize hopt : parseOptions none _ = result at h
  cases result
  case error => cases h
  case ok mss =>
    cases h
    have ⟨values, hv, hr⟩ := (parseOptions_ok_iff _ _).mp hopt
    cases hr
    simp only [not_or, ne_eq, not_not, not_lt, List.getElem_drop, List.getElem_take] at h₁ h₂ h₃
    simp only [List.getElem_drop, List.getElem_take, Nat.mul_comm _ 4] at hv h₃ ⊢
    refine ⟨by omega, ?_⟩
    exact {
      version        := h₁.left
      protocol       := h₁.right.left
      ttl            := h₁.right.right
      total_ge       := h₂.left
      total_le       := h₂.right.left
      header_sum     := h₂.right.right.left
      fragment       := h₂.right.right.right
      offset_ge      := h₃.left
      offset_le      := h₃.right.left
      sum            := h₃.right.right
      options        := hv
      source         := rfl
      destination    := rfl
      sequence       := rfl
      acknowledgment := rfl
      flags          := rfl
      window         := rfl
      payload        := rfl
    }

theorem Accepted.segment_eq {segment : Segment} {h : 40 ≤ bytes.length}
    (ha : Accepted bytes segment h) : segment = {
      source         := ⟨bytes[12] ++ bytes[13] ++ bytes[14] ++ bytes[15], bytes[20] ++ bytes[21]⟩
      destination    := ⟨bytes[16] ++ bytes[17] ++ bytes[18] ++ bytes[19], bytes[22] ++ bytes[23]⟩
      sequence       := bytes[24] ++ bytes[25] ++ bytes[26] ++ bytes[27]
      acknowledgment := bytes[28] ++ bytes[29] ++ bytes[30] ++ bytes[31]
      flags          := bytes[33]
      window         := bytes[34] ++ bytes[35]
      mss            := segment.mss
      payload        := (segmentBytes bytes h).drop (4 * dataOffset bytes h) } := by
  rw [← ha.source, ← ha.destination, ← ha.sequence, ← ha.acknowledgment, ← ha.flags, ← ha.window,
    ← ha.payload]

theorem Accepted.parseIpv4_eq {segment : Segment} {h : 40 ≤ bytes.length}
    (ha : Accepted bytes segment h) : parseIpv4 bytes = .ok segment := by
  have hopt : parseOptions none _ = .ok segment.mss :=
    (parseOptions_ok_iff _ _).mpr ⟨_, ha.options, rfl⟩
  have hsum := ha.sum
  have hge := ha.total_ge
  have hle := ha.total_le
  have hoff := ha.offset_le
  have hoff' := ha.offset_ge
  rw [ha.source, ha.destination] at hsum
  simp only [dataOffset, segmentBytes, totalLen] at hopt hsum hge hle hoff hoff'
  have h₁ : ¬(bytes[0] ≠ 0x45 ∨ bytes[9] ≠ 6 ∨ bytes[8] = 0) := by
    simp only [not_or, ne_eq, not_not]
    exact ⟨ha.version, ha.protocol, ha.ttl⟩
  have h₂ : ¬((bytes[2] ++ bytes[3] : U16).toNat < 40 ∨
      (bytes[2] ++ bytes[3] : U16).toNat > bytes.length ∨ checksum (bytes.take 20) ≠ 0 ∨
      (bytes[6] ++ bytes[7] : U16) &&& ~~~0x4000#16 ≠ 0) := by
    simp only [not_or, ne_eq, not_not, not_lt]
    exact ⟨hge, hle, ha.header_sum, ha.fragment⟩
  rw [parseIpv4, dif_neg (by omega), if_neg h₁]
  dsimp only
  rw [dif_neg h₂]
  simp only [List.getElem_drop, List.getElem_take, Nat.mul_comm _ 4, Nat.reduceAdd]
  rw [if_neg (by simp only [hsum, not_or]; exact ⟨by omega, by omega, (· rfl)⟩), hopt]
  exact congrArg Except.ok ha.segment_eq.symm

theorem parseIpv4_ok_iff (bytes : List U8) (segment : Segment) :
    parseIpv4 bytes = .ok segment ↔ ∃ h, Accepted bytes segment h :=
  ⟨Accepted.of_parseIpv4, fun ⟨_, ha⟩ => ha.parseIpv4_eq⟩

section Encode

variable (segment : Segment)

theorem headerLen_eq : headerLen segment = if segment.mss.isSome then 24 else 20 := by
  rw [headerLen]
  cases segment.mss <;> rfl

theorem ipHeader_length (total : Nat) (sum : U16) : (ipHeader segment total sum).length = 20 := by
  simp [ipHeader]

theorem tcpBytes_length (sum : U16) :
    (tcpBytes segment sum).length = headerLen segment + segment.payload.length := by
  simp [tcpBytes, headerLen]
  omega

theorem sumWords_ipHeader (total : Nat) (sum : U16) :
    sumWords (ipHeader segment total sum) = sumWords (ipHeader segment total 0) + sum.toNat := by
  simp only [ipHeader, be16, be32, List.cons_append, List.nil_append, sumWords_cons_cons, be16_word,
    show (0 : U16).toNat = 0 from rfl]
  omega

theorem tcpBytes_eq (sum : U16) : ∃ front, front.length = 20 ∧
    tcpBytes segment sum = front ++ mssOption segment.mss ++ segment.payload :=
  ⟨_, rfl, rfl⟩

theorem tcpBytes_options (sum : U16) :
    ((tcpBytes segment sum).take (headerLen segment)).drop 20 = mssOption segment.mss := by
  have ⟨front, hlen, heq⟩ := tcpBytes_eq segment sum
  rw [heq, List.take_left' (by rw [List.length_append, hlen, headerLen]), List.drop_left' hlen]

theorem tcpBytes_payload (sum : U16) :
    (tcpBytes segment sum).drop (headerLen segment) = segment.payload := by
  have ⟨front, hlen, heq⟩ := tcpBytes_eq segment sum
  rw [heq, List.drop_left' (by rw [List.length_append, hlen, headerLen])]

theorem checksum_ipHeader (total : Nat) :
    checksum (ipHeader segment total (checksum (ipHeader segment total 0))) = 0 := by
  rw [checksum, sumWords_ipHeader]
  exact finishSum_complement _

theorem sumWords_tcpBytes (sum : U16) :
    sumWords (tcpBytes segment sum) = sumWords (tcpBytes segment 0) + sum.toNat := by
  simp only [tcpBytes, be16, be32, List.cons_append, List.nil_append, sumWords_cons_cons, be16_word,
    show (0 : U16).toNat = 0 from rfl]
  omega

theorem ipv4Checksum_tcpBytes (source destination : Ipv4Addr) :
    ipv4Checksum source destination
      (tcpBytes segment (ipv4Checksum source destination (tcpBytes segment 0))) = 0 := by
  rw [ipv4Checksum, tcpBytes_length, sumWords_tcpBytes, ← tcpBytes_length segment 0,
    ← Nat.add_assoc]
  exact finishSum_complement _

theorem encode_fields (trailing : List U8) (h : 40 ≤ (encode segment ++ trailing).length) :
    Fields (encode segment ++ trailing) segment h := by
  constructor
  all_goals
    simp only [encode, ipHeader, tcpBytes, be16, be32, List.append_assoc, List.cons_append,
      List.nil_append, List.getElem_cons_succ, List.getElem_cons_zero, be16_word, be32_word]
  all_goals decide

theorem dataOffset_encode (trailing : List U8) (h : 40 ≤ (encode segment ++ trailing).length) :
    4 * dataOffset (encode segment ++ trailing) h = headerLen segment := by
  simp only [dataOffset, encode, ipHeader, tcpBytes, be16, be32, List.append_assoc,
    List.cons_append, List.nil_append, List.getElem_cons_succ, List.getElem_cons_zero, headerLen_eq]
  split <;> rfl

theorem mssOption_options {mss : Option U16} (h : ∀ value ∈ mss, value ≠ 0) :
    Options (mssOption mss) mss.toList := by
  cases mss
  case none => exact .nil
  case some value =>
    have hopt := Options.mss value (h value rfl) .nil
    rwa [List.append_nil] at hopt

-- The segments that fit a packet.
structure Encodable (segment : Segment) : Prop where
  mss   : ∀ value ∈ segment.mss, value ≠ 0 ∧ has segment.flags SYN
  total : total segment ≤ 65535

variable {segment}

theorem Encodable.totalLen_encode (he : Encodable segment) (trailing : List U8)
    (h : 40 ≤ (encode segment ++ trailing).length) :
    totalLen (encode segment ++ trailing) h = Wire.total segment := by
  have := he.total
  simp only [totalLen, encode, ipHeader, be16, List.append_assoc, List.cons_append, List.nil_append,
    List.getElem_cons_succ, List.getElem_cons_zero, be16_word, BitVec.toNat_ofNat]
  omega

-- Whatever follows a packet is cut off by its length.
theorem Encodable.accepted (he : Encodable segment) (trailing : List U8) :
    ∃ h, Accepted (encode segment ++ trailing) segment h := by
  have hlen : 40 ≤ (encode segment ++ trailing).length := by
    rw [List.length_append, encode_length, Wire.total, headerLen]
    omega
  have htotal := he.totalLen_encode trailing hlen
  have hbytes : segmentBytes (encode segment ++ trailing) hlen = tcpBytes segment
      (ipv4Checksum segment.source.ip segment.destination.ip (tcpBytes segment 0)) := by
    rw [segmentBytes, htotal, List.take_left' (encode_length segment), encode,
      List.drop_left' (ipHeader_length ..)]
  have hoffset := dataOffset_encode segment trailing hlen
  refine ⟨hlen, ?_⟩
  exact {
    encode_fields segment trailing hlen with
    total_ge   := by rw [htotal, Wire.total, headerLen]; omega
    total_le   := by rw [htotal, List.length_append, encode_length]; omega
    header_sum := by
      rw [encode, List.append_assoc, List.take_left' (ipHeader_length ..)]
      exact checksum_ipHeader ..
    offset_ge  := by rw [hoffset, headerLen]; omega
    offset_le  := by rw [hoffset, hbytes, tcpBytes_length]; omega
    sum        := by
      rw [hbytes]
      exact ipv4Checksum_tcpBytes ..
    options    := by
      rw [hbytes, hoffset, tcpBytes_options]
      exact mssOption_options fun value hv => (he.mss value hv).left
    payload    := by rw [hbytes, hoffset, tcpBytes_payload]
  }

end Encode

end Tcp.Wire

namespace Tcp.Slices

variable (segment : Segment)

theorem writeIp_eq (total : Nat) (rest : List U8) :
    writeIp segment total (List.replicate 20 0 ++ rest) = some
      (Wire.ipHeader segment total (checksum (Wire.ipHeader segment total 0)) ++ rest) := by
  simp [writeIp, Slice.set, Slice.copy, Slice.range, Wire.ipHeader, be16, be32, List.replicate]

variable {segment}

theorem writeTcp_eq {rest : List U8} (h : rest.length = segment.payload.length) :
    writeTcp segment (Wire.headerLen segment) (List.replicate (Wire.headerLen segment) 0 ++ rest) =
      some (Wire.tcpBytes segment
        (ipv4Checksum segment.source.ip segment.destination.ip (Wire.tcpBytes segment 0))) := by
  cases hm : segment.mss
  case none =>
    simp [writeTcp, writeMss, Slice.set, Slice.copy, Wire.tcpBytes, Wire.headerLen, Wire.mssOption,
      be16, be32, List.replicate, hm, h]
  simp [writeTcp, writeMss, Slice.set, Slice.copy, Wire.tcpBytes, Wire.headerLen, Wire.mssOption,
    be16, be32, List.replicate, hm, h]

theorem writePacket_eq {bytes : List U8} (h : bytes.length = Wire.total segment) :
    writePacket segment (Wire.headerLen segment) (Wire.total segment) bytes =
      some (Wire.encode segment) := by
  have hrest : (bytes.drop (20 + Wire.headerLen segment)).length = segment.payload.length := by
    rw [List.length_drop, h, Wire.total]
    omega
  have hblank : Slice.copy bytes 0 (20 + Wire.headerLen segment)
      (List.replicate (20 + Wire.headerLen segment) 0) =
      some (List.replicate 20 0 ++ (List.replicate (Wire.headerLen segment) 0 ++
        bytes.drop (20 + Wire.headerLen segment))) := by
    rw [Slice.copy, if_pos ⟨Nat.zero_le _, by rw [h, Wire.total]; omega, List.length_replicate⟩,
      List.take_zero, List.nil_append, List.replicate_add, List.append_assoc]
  simp only [writePacket, hblank, Option.bind_eq_bind, Option.bind_some, writeIp_eq,
    Slice.range_tail (Wire.ipHeader_length ..), writeTcp_eq hrest]
  apply Slice.copy_tail (Wire.ipHeader_length ..)
  rw [Wire.tcpBytes_length, List.length_append, List.length_replicate, hrest]

-- The frame is written as a whole, or not at all.
theorem buildIpv4_eq (frame : PacketBuf) (segment : Segment) :
    buildIpv4 frame segment = some (
      match Wire.buildIpv4 frame segment with
      | .ok frame' => (frame', .ok ())
      | .error e   => (frame, .error e)) := by
  have hheader : (if segment.mss.isSome then 24 else 20) = Wire.headerLen segment :=
    (Wire.headerLen_eq segment).symm
  rw [buildIpv4, Wire.buildIpv4, hheader]
  split
  case isTrue => rfl
  by_cases hfit : Wire.total segment ≤ 65535 ∧ Wire.total segment ≤ frame.tailCapacity
  case neg =>
    rw [dif_neg hfit]
    exact if_neg hfit
  case pos =>
    have hwrite := writePacket_eq
      (((frame.withLen _ hfit.right).asSlice_length).trans (frame.len_withLen _ hfit.right))
    have hput : putPacket (frame.withLen _ hfit.right) (Wire.encode segment) =
        some ((frame.withLen _ hfit.right).copyFromSlice 0 (Wire.encode segment)
          (by simp [PacketBuf.withLen])) :=
      dif_pos (Wire.encode_length segment)
    refine (if_pos hfit).trans ?_
    change (frame.setLen (Wire.total segment)).bind _ = _
    rw [PacketBuf.setLen, dif_pos hfit.right, Option.bind_some]
    change (writePacket segment (Wire.headerLen segment) (Wire.total segment) _).bind _ = _
    rw [hwrite, Option.bind_some]
    change (putPacket _ _).bind _ = _
    rw [hput, dif_pos hfit]
    rfl

end Tcp.Slices

namespace Tcp

variable {frame : PacketBuf}

theorem Wire.buildIpv4_error {segment : Segment} {e : IoError}
    (h : buildIpv4 frame segment = .error e) : e = invalidBuild := by
  rw [buildIpv4] at h
  split_ifs at h
  case pos => exact (Except.error.inj h).symm
  case neg => exact (Except.error.inj h).symm

-- The conditions under which a segment can be written into a frame.
structure Buildable (frame : PacketBuf) (segment : Segment) : Prop extends
    Wire.Encodable segment where
  capacity : Wire.total segment ≤ frame.tailCapacity

theorem Buildable.build {segment : Segment} (h : Buildable frame segment) :
    ∃ frame', Wire.buildIpv4 frame segment = .ok frame' ∧ frame'.asSlice = Wire.encode segment := by
  have hmss : ¬(segment.mss = some 0 ∨ (segment.mss.isSome ∧ ¬has segment.flags SYN)) := by
    rintro (hz | ⟨hs, hf⟩)
    case inl => exact (h.mss 0 hz).left rfl
    have ⟨value, hv⟩ := Option.isSome_iff_exists.mp hs
    exact hf (h.mss value hv).right
  rw [Wire.buildIpv4, if_neg hmss, dif_pos ⟨h.total, h.capacity⟩]
  refine ⟨_, rfl, ?_⟩
  apply PacketBuf.asSlice_copyFromSlice
  rw [PacketBuf.len_withLen, Wire.encode_length]

theorem Buildable.of_build {frame' : PacketBuf} {segment : Segment}
    (h : Wire.buildIpv4 frame segment = .ok frame') : Buildable frame segment := by
  rw [Wire.buildIpv4] at h
  split at h
  case isTrue => cases h
  rename_i hmss
  split at h
  case isFalse => cases h
  rename_i hfit
  simp only [not_or, not_and, not_not] at hmss
  exact {
    mss      := fun value hv => ⟨fun hz => hmss.left (hz ▸ hv), hmss.right (by rw [hv]; rfl)⟩
    total    := hfit.left
    capacity := hfit.right }

theorem Buildable.round_trip {segment : Segment} (h : Buildable frame segment) :
    ∃ frame', Slices.buildIpv4 frame segment = some (frame', .ok ()) ∧
      ∀ trailing, Slices.parseIpv4 (frame'.asSlice ++ trailing) = some (.ok segment) := by
  have ⟨frame', hbuild, hbytes⟩ := h.build
  refine ⟨frame', by rw [Slices.buildIpv4_eq, hbuild], ?_⟩
  intro trailing
  have ⟨_, ha⟩ := h.toEncodable.accepted trailing
  rw [Slices.parseIpv4_eq, hbytes, ha.parseIpv4_eq]

-- Building and parsing are inverse to each other, and a segment that cannot be built leaves the
-- frame as it is.
theorem wire_round_trip (frame : PacketBuf) (segment : Segment) :
    (Buildable frame segment →
      ∃ frame', Slices.buildIpv4 frame segment = some (frame', .ok ()) ∧
        ∀ trailing, Slices.parseIpv4 (frame'.asSlice ++ trailing) = some (.ok segment)) ∧
    (¬Buildable frame segment →
      Slices.buildIpv4 frame segment = some (frame, .error Wire.invalidBuild)) := by
  constructor
  case left => exact Buildable.round_trip
  case right =>
    intro h
    rw [Slices.buildIpv4_eq]
    cases hbuild : Wire.buildIpv4 frame segment
    case ok    => exact absurd (.of_build hbuild) h
    case error => rw [Wire.buildIpv4_error hbuild]

-- A packet is accepted if and only if it is well-formed, and it is read without leaving its bounds.
theorem parse_accepts_grammar (bytes : List U8) :
    ∃ result, Slices.parseIpv4 bytes = some result ∧
      ∀ segment, result = .ok segment ↔ ∃ h, Wire.Accepted bytes segment h :=
  ⟨_, Slices.parseIpv4_eq bytes, Wire.parseIpv4_ok_iff bytes⟩

end Tcp
