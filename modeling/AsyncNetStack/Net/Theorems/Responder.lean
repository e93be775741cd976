import AsyncNetStack.Net.ResponderSlices
import AsyncNetStack.Net.Theorems.Ethernet
import AsyncNetStack.Udp.Theorems.Wire

open List Option

open Tcp.Slices (read16 read32 putPacket read16_eq read32_eq)

namespace LinkResponder

variable {r : LinkResponder} {ip packet : List U8} {frame : PacketBuf}
variable {reply : Reply} {bytes : List U8}

-- No access of the code to the body of a packet is out of range.
theorem icmp_eq (body : List U8) : icmp body = some (Responder.icmp body) := by
  rw [icmp, Responder.icmp]
  split
  case isTrue h =>
    rw [Bool.or_eq_true, decide_eq_true_eq, bne_iff_ne] at h
    split
    case isTrue => rfl
    case isFalse hlen =>
      rw [if_pos (h.resolve_left hlen)]
      rfl
  case isFalse h =>
    rw [Bool.or_eq_true, decide_eq_true_eq, bne_iff_ne, not_or, not_not] at h
    rw [dif_neg h.left, if_neg (not_not.mpr h.right)]
    obtain ⟨b₀, b₁, b₂, b₃, rest, rfl⟩ := Slice.exists_cons₄ (show 4 ≤ body.length by omega)
    simp [Slice.set, Slice.copy, Slice.orM_some]
    split <;> rfl

theorem udp_eq (source : Ipv4Addr) (body : List U8) :
    r.udp source body = some (r.toResponder.udp source body) := by
  rw [udp, Responder.udp]
  by_cases h : body.length < 8
  case pos =>
    rw [dif_pos h, decide_eq_true h]
    rfl
  case neg =>
    rw [dif_neg h]
    obtain ⟨b₀, b₁, b₂, b₃, l, rfl⟩ := Slice.exists_cons₄ (show 4 ≤ body.length by omega)
    obtain ⟨b₄, b₅, b₆, b₇, rest, rfl⟩ := Slice.exists_cons₄ (show 4 ≤ l.length by simp at h; omega)
    rw [decide_eq_false h]
    simp [Slice.swap, read16, Slice.orM_some, Slice.andM_some]
    split_ifs <;> rfl

theorem body_eq (protocol : U8) (source : Ipv4Addr) (body : List U8) :
    r.body protocol source body = some (r.toResponder.body protocol source body) := by
  rw [LinkResponder.body, Responder.body, icmp_eq, udp_eq]
  split_ifs <;> rfl

-- The bytes of a word.
theorem range_eq_be32 {l : List U8} {i : Nat} {w : U32} (h : i + 3 < l.length)
    (hw : read32 l i = some w) : Slice.range l i (i + 4) = some (be32 w) := by
  rw [read32_eq h] at hw
  rw [← Option.some.inj hw, be32_append, Slice.range_of_le (by omega) (by omega),
    Slice.drop_take_eq_cons (by omega) (by omega), Slice.drop_take_eq_cons (by omega) (by omega),
    Slice.drop_take_eq_cons (by omega) (by omega), Slice.drop_take_eq_cons (by omega) (by omega),
      drop_of_length_le (by rw [length_take]; omega)]

-- The checks on a header that is long enough.
theorem refuses_eq (h : ¬ip.length < 20) : r.refuses ip = some (r.toResponder.refuses ip h) := by
  have hdestination : (Slice.range ip 16 20).map (· != be32 r.ipv4) =
      some (Responder.destinationOf ip h != r.ipv4) := by
    rw [show 20 = 16 + 4 from rfl, range_eq_be32 (by omega) (read32_eq (by omega)), map_some,
      some_inj, Bool.eq_iff_iff, bne_iff_ne, bne_iff_ne, ne_eq, be32_inj]
    rfl
  simp only [refuses, Responder.refuses, decide_eq_false h,
    List.getElem?_eq_getElem (show 0 < ip.length by omega),
    List.getElem?_eq_getElem (show 8 < ip.length by omega), hdestination,
    map_some, Slice.orM_some, bind_eq_bind, bind_some,
    read16_eq (show 2 + 1 < ip.length by omega), read16_eq (show 6 + 1 < ip.length by omega),
    Nat.reduceAdd, Bool.false_or, Bool.or_eq_true, bne_iff_ne, beq_iff_eq]
  split
  case isTrue => rfl
  split
  case isTrue h₂ =>
    replace h₂ :
        Responder.headerLen ip h < 20 ∨ Responder.totalLen ip h < Responder.headerLen ip h ∨
      Responder.totalLen ip h > ip.length := h₂
    rw [if_pos h₂]
    rfl
  rename_i h₂
  replace h₂ : ¬(Responder.headerLen ip h < 20 ∨
    Responder.totalLen ip h < Responder.headerLen ip h ∨ Responder.totalLen ip h > ip.length) :=
    h₂
  have hihl : (ip[0] &&& 15).toNat * 4 = Responder.headerLen ip h := rfl
  rw [if_neg h₂, hihl, Slice.range_of_le (Nat.zero_le _) (by omega), drop_zero,
    bind_some]
  simp only [apply_ite some]
  rfl

theorem refuses_short (h : ip.length < 20) : r.refuses ip = some (some .malformed) := by
  rw [refuses, decide_eq_true h]
  rfl

theorem header_eq (h : ¬ip.length < 20) (source : Ipv4Addr) :
    r.header source 20 ip = some (r.toResponder.header ip (Responder.protocolOf ip h) source
      (checksum (r.toResponder.header ip (Responder.protocolOf ip h) source 0)) ++ ip.drop 20) := by
  obtain ⟨b₀, b₁, b₂, b₃, l, rfl⟩ := Slice.exists_cons₄ (show 4 ≤ ip.length by omega)
  obtain ⟨b₄, b₅, b₆, b₇, l, rfl⟩ := Slice.exists_cons₄ (show 4 ≤ l.length by simp at h; omega)
  obtain ⟨b₈, b₉, b₁₀, b₁₁, l, rfl⟩ := Slice.exists_cons₄ (show 4 ≤ l.length by simp at h; omega)
  obtain ⟨b₁₂, b₁₃, b₁₄, b₁₅, l, rfl⟩ := Slice.exists_cons₄ (show 4 ≤ l.length by simp at h; omega)
  obtain ⟨b₁₆, b₁₇, b₁₈, b₁₉, l, rfl⟩ := Slice.exists_cons₄ (show 4 ≤ l.length by simp at h; omega)
  simp [header, Responder.header, Responder.protocolOf, Slice.copy, Slice.set, Slice.range, be16,
    be32]

-- The header of an answer only depends on the start of the packet.
theorem header_congr {ip' : List U8} (h : ip'.take 20 = ip.take 20) (protocol : U8)
    (source : Ipv4Addr) (sum : U16) :
    r.toResponder.header ip' protocol source sum = r.toResponder.header ip protocol source sum := by
  have h8 := congrArg (List.take 8) h
  rw [take_take, take_take] at h8
  rw [Responder.header, Responder.header, show ip'.take 8 = ip.take 8 from h8]

theorem refuses_isReply {h : ¬ip.length < 20}
    (hr : r.toResponder.refuses ip h = some reply) : reply.isReply = false := by
  rw [Responder.refuses] at hr
  split_ifs at hr
  all_goals cases hr
  all_goals rfl

-- The packets that pass all checks.
structure Passes (r : LinkResponder) (ip : List U8) (h : ¬ip.length < 20) : Prop where
  ihl         : Responder.headerLen ip h = 20
  total_ge    : 20 ≤ Responder.totalLen ip h
  total_le    : Responder.totalLen ip h ≤ ip.length
  destination : Responder.destinationOf ip h = r.ipv4

theorem passes_of_refuses {h : ¬ip.length < 20} (hr : r.toResponder.refuses ip h = none) :
    Passes r ip h := by
  rw [Responder.refuses] at hr
  split_ifs at hr
  case neg _ hlen _ _ hdestination hihl =>
    exact ⟨not_not.mp hihl, by omega, by omega, not_not.mp (not_or.mp hdestination).left⟩

-- The header of the answer to a packet.
def answerHeader (r : LinkResponder) (ip : List U8) (h : ¬ip.length < 20) : List U8 :=
  let protocol := Responder.protocolOf ip h
  let source := Responder.sourceOf ip h
  r.toResponder.header ip protocol source (checksum (r.toResponder.header ip protocol source 0))

theorem answerHeader_length (h : ¬ip.length < 20) : (r.answerHeader ip h).length = 20 :=
  Responder.header_length h ..

-- The answer to the body of a packet, which has the length of that body.
def answerBody (r : LinkResponder) (ip : List U8) (h : ¬ip.length < 20) : Reply × List U8 :=
  r.toResponder.body (Responder.protocolOf ip h) (Responder.sourceOf ip h)
    ((ip.take (Responder.totalLen ip h)).drop 20)

theorem answerBody_length {h : ¬ip.length < 20} (hp : Passes r ip h) :
    (r.answerBody ip h).snd.length = Responder.totalLen ip h - 20 := by
  rw [answerBody, Responder.body_length, length_drop, length_take_of_le hp.total_le]

theorem answer_unfold {h : ¬ip.length < 20} (hr : r.toResponder.refuses ip h = none) :
    r.toResponder.answer ip = if (r.answerBody ip h).fst.isReply then
        ((r.answerBody ip h).fst, r.answerHeader ip h ++ (r.answerBody ip h).snd)
      else
        ((r.answerBody ip h).fst, ip) := by
  rw [Responder.answer, dif_neg h, hr]
  simp only [(passes_of_refuses hr).ihl]
  rfl

-- The answer to a packet that passes all checks. The bytes behind the packet stay where they are.
theorem answer_of_refuses {h : ¬ip.length < 20} (hr : r.toResponder.refuses ip h = none) :
    r.answer ip = some (if (r.answerBody ip h).fst.isReply then
      ((r.answerBody ip h).fst,
        r.answerHeader ip h ++ ((r.answerBody ip h).snd ++ ip.drop (Responder.totalLen ip h)),
        Responder.totalLen ip h)
    else
      ((r.answerBody ip h).fst, ip, 0)) := by
  have hp := passes_of_refuses hr
  have hihl : (ip[0] &&& 15).toNat * 4 = 20 := hp.ihl
  have htotal : (ip[2] ++ ip[3] : U16).toNat = Responder.totalLen ip h := rfl
  have hsource : ip[12] ++ ip[13] ++ ip[14] ++ ip[15] = Responder.sourceOf ip h := rfl
  have hbody : r.toResponder.body ip[9] (Responder.sourceOf ip h)
    ((ip.take (Responder.totalLen ip h)).drop 20) = r.answerBody ip h := rfl
  have hlen := answerBody_length hp
  simp only [answer, refuses_eq h, hr, bind_eq_bind, bind_some,
    List.getElem?_eq_getElem (show 0 < ip.length by omega),
    List.getElem?_eq_getElem (show 9 < ip.length by omega),
    read16_eq (show 2 + 1 < ip.length by omega), read32_eq (show 12 + 3 < ip.length by omega),
    Nat.reduceAdd, hihl, htotal, hsource, Slice.range_of_le hp.total_ge hp.total_le, body_eq, hbody]
  split
  case isTrue hreply =>
    generalize r.answerBody ip h = o at hlen hreply
    have hcopy := Slice.copy_of_le hp.total_ge hp.total_le hlen
    have hfront := length_take_of_le (show 20 ≤ ip.length by omega)
    have hl : ¬(ip.take 20 ++ o.snd ++ ip.drop (Responder.totalLen ip h)).length < 20 := by
      rw [append_assoc, length_append, hfront]
      omega
    have hnine :
        Responder.protocolOf (ip.take 20 ++ o.snd ++ ip.drop (Responder.totalLen ip h)) hl =
        Responder.protocolOf ip h := by
      simp only [Responder.protocolOf, append_assoc]
      rw [getElem_append_left (by omega), getElem_take]
    have hwrite := header_eq (r := r) hl (Responder.sourceOf ip h)
    rw [hnine, append_assoc, header_congr (take_left' hfront),
      header_congr (take_left' hfront), drop_left' hfront] at hwrite
    rw [hcopy, bind_some, append_assoc, hwrite]
    rfl
  case isFalse => rfl

-- The code answers as the responder does, and it leaves the bytes behind the packet where they are.
theorem answer_eq (ha : r.toResponder.answer ip = (reply, bytes)) :
    r.answer ip =
      some (if reply.isReply then (reply, bytes ++ ip.drop bytes.length, bytes.length)
        else (reply, ip, 0)) := by
  by_cases h : ip.length < 20
  case pos =>
    rw [Responder.answer, dif_pos h] at ha
    cases ha
    rw [answer, refuses_short h]
    rfl
  case neg =>
    cases hr : r.toResponder.refuses ip h
    case some reply' =>
      rw [Responder.answer, dif_neg h, hr] at ha
      cases ha
      rw [answer, refuses_eq h, hr, if_neg (by rw [refuses_isReply hr]; exact Bool.false_ne_true)]
      rfl
    case none =>
      have hp := passes_of_refuses hr
      have hlen := answerBody_length hp
      have hge := hp.total_ge
      rw [answer_unfold hr] at ha
      rw [answer_of_refuses hr]
      generalize r.answerBody ip h = o at ha hlen
      split at ha
      case isTrue hreply =>
        cases ha
        have htotal : (r.answerHeader ip h ++ o.snd).length = Responder.totalLen ip h := by
          rw [length_append, answerHeader_length]
          omega
        rw [htotal, append_assoc]
      case isFalse hreply =>
        cases ha
        rw [if_neg hreply, if_neg hreply]

-- What makes an answer to an ICMP message well-formed. The parameters are the two packets without
-- the bytes behind them.
structure IcmpAnswer (request reply : List U8) : Prop where
  header_sum  : checksum (reply.take 20) = 0
  body_sum    : checksum (reply.drop 20) = 0
  source      : (reply.take 16).drop 12 = (request.take 20).drop 16
  destination : (reply.take 20).drop 16 = (request.take 16).drop 12
  kind        : reply[20]? = some 0
  code        : reply[21]? = request[21]?
  rest        : reply.drop 24 = request.drop 24

-- A packet is answered if it passes all checks, and if there is an answer to its body.
theorem answer_reply (ha : r.toResponder.answer ip = (reply, bytes))
    (hreply : reply.isReply = true) :
    ∃ (h : ¬ip.length < 20) (body : List U8),
      Passes r ip h ∧ r.answerBody ip h = (reply, body) ∧ bytes = r.answerHeader ip h ++ body := by
  by_cases h : ip.length < 20
  case pos =>
    rw [Responder.answer, dif_pos h] at ha
    cases ha
    cases hreply
  case neg =>
    cases hr : r.toResponder.refuses ip h
    case some reply' =>
      rw [Responder.answer, dif_neg h, hr] at ha
      cases ha
      rw [refuses_isReply hr] at hreply
      cases hreply
    case none =>
      rw [answer_unfold hr] at ha
      split at ha
      case isTrue =>
        cases ha
        exact ⟨h, _, passes_of_refuses hr, rfl, rfl⟩
      case isFalse hn =>
        cases ha
        exact absurd hreply hn

theorem body_icmp {protocol : U8} {source : Ipv4Addr} {body : List U8}
    (h : r.toResponder.body protocol source body = (.icmp, bytes)) :
    8 ≤ body.length ∧ checksum bytes = 0 ∧ bytes[0]? = some 0 ∧ bytes[1]? = body[1]? ∧
      bytes.drop 4 = body.drop 4 := by
  have hudp : (r.toResponder.udp source body).fst ≠ .icmp := by
    rw [Responder.udp]
    split_ifs
    all_goals exact Reply.noConfusion
  rw [Responder.body] at h
  split_ifs at h
  case pos =>
    rw [Responder.icmp] at h
    split at h
    case isTrue => cases h
    rename_i hlen
    split_ifs at h
    case neg =>
      cases h
      refine ⟨by omega, ?_, rfl, ?_, rfl⟩
      · rw [checksum, append_assoc, sumWords_field (by simp)]
        exact finishSum_complement _
      · exact (List.getElem?_eq_getElem (show 1 < body.length by omega)).symm
    all_goals cases h
  case pos => exact absurd (congrArg Prod.fst h) hudp
  case neg => cases h

theorem drop_take_be32 {l : List U8} {i : Nat} {w : U32} (h : i + 3 < l.length)
    (hw : read32 l i = some w) : (l.take (i + 4)).drop i = be32 w := by
  have hr := range_eq_be32 h hw
  rw [Slice.range_of_le (by omega) (by omega)] at hr
  exact Option.some.inj hr

-- The addresses in the header of an answer.
theorem answerHeader_addresses (h : ¬ip.length < 20) (body : List U8) :
    ((r.answerHeader ip h ++ body).take 16).drop 12 = be32 r.ipv4 ∧
    ((r.answerHeader ip h ++ body).take 20).drop 16 = be32 (Responder.sourceOf ip h) := by
  rw [answerHeader]
  generalize Responder.protocolOf ip h = protocol
  generalize checksum (r.toResponder.header ip protocol (Responder.sourceOf ip h) 0) = sum
  have hfront : (ip.take 8 ++ [64#8, protocol] ++ be16 sum).length = 12 := by
    rw [length_append, length_append, length_take_of_le (by omega)]
    rfl
  rw [Responder.header]
  generalize ip.take 8 ++ [64#8, protocol] ++ be16 sum = front at hfront ⊢
  constructor
  · rw [drop_take, append_assoc, append_assoc, drop_left' hfront]
    exact take_left' rfl
  · rw [drop_take, append_assoc, drop_left' (by rw [length_append, hfront]; rfl)]
    exact take_left' rfl

theorem answer_icmp (ha : r.toResponder.answer ip = (.icmp, bytes)) :
    IcmpAnswer (ip.take bytes.length) bytes := by
  obtain ⟨h, body, hp, hb, rfl⟩ := answer_reply ha rfl
  have ⟨hlen, hsum, hkind, hcode, hrest⟩ := body_icmp hb
  have hbody := answerBody_length hp
  rw [hb] at hbody
  dsimp only at hbody
  rw [length_drop, length_take_of_le hp.total_le] at hlen
  have hheader := answerHeader_length (r := r) h
  have hvalid : checksum (r.answerHeader ip h) = 0 := Responder.checksum_header (by omega) ..
  have ⟨hsource, hdestination⟩ := answerHeader_addresses (r := r) h body
  generalize r.answerHeader ip h = header at *
  have hn : (header ++ body).length = Responder.totalLen ip h := by
    rw [length_append]
    omega
  have hword (i : Nat) (hi : i + 4 ≤ 20) :
      ((ip.take (header ++ body).length).take (i + 4)).drop i = (ip.take (i + 4)).drop i := by
    rw [take_take, Nat.min_eq_left (by omega)]
  refine ⟨?_, ?_, ?_, ?_, ?_, ?_, ?_⟩
  · rw [take_left' hheader]
    exact hvalid
  · rw [drop_left' hheader]
    exact hsum
  · rw [hsource, hword 16 (by decide), drop_take_be32 (by omega) (read32_eq (by omega)),
      ← hp.destination]
    rfl
  · rw [hdestination, hword 12 (by decide), drop_take_be32 (by omega) (read32_eq (by omega))]
    rfl
  · rw [List.getElem?_append_right (by omega), hheader]
    exact hkind
  · rw [List.getElem?_append_right (by omega), hheader, hn]
    exact hcode.trans List.getElem?_drop
  · rw [drop_append, hheader, drop_of_length_le (by omega), nil_append, hn]
    exact hrest.trans drop_drop

-- The length of an answer is the length of the packet that it answers.
theorem answer_length (ha : r.toResponder.answer ip = (reply, bytes))
    (hreply : reply.isReply = true) :
    ∃ total, read16 ip 2 = some total ∧ bytes.length = total.toNat := by
  obtain ⟨h, body, hp, hb, rfl⟩ := answer_reply ha hreply
  have hge := hp.total_ge
  have hbody := answerBody_length hp
  rw [hb] at hbody
  dsimp only at hbody
  refine ⟨_, read16_eq (by omega), ?_⟩
  show _ = Responder.totalLen ip h
  rw [length_append, answerHeader_length]
  omega

end LinkResponder
