import AsyncNetStack.Net.Theorems.Responder

open List Option

open Tcp.Slices (read16 read32 putPacket read16_eq read32_eq)

namespace LinkResponder

variable {r : LinkResponder} {frame frame' : PacketBuf} {packet bytes : List U8} {offset n : Nat}
  {link : LinkLayer} {protocol : U16}

theorem putPacket_eq (h : bytes.length = frame.len) :
    ∃ frame', putPacket frame bytes = some frame' ∧ frame'.asSlice = bytes ∧
    frame'.len = frame.len ∧
      frame'.tailCapacity = frame.tailCapacity := by
  refine ⟨_, dif_pos h, PacketBuf.asSlice_copyFromSlice _ _ h, rfl, ?_⟩
  rw [PacketBuf.tailCapacity, PacketBuf.capacity_copyFromSlice]
  rfl

theorem len_le_tailCapacity (frame : PacketBuf) : frame.len ≤ frame.tailCapacity := by
  have := frame.bound
  rw [PacketBuf.tailCapacity, PacketBuf.capacity]
  omega

-- The length of a frame whose packet ends at `n`.
def paddedLen (link : LinkLayer) (n capacity : Nat) : Nat :=
  if link = .ethernet then min (max n 60) capacity else n

theorem le_paddedLen (h : n ≤ frame.len) (link : LinkLayer) :
    n ≤ paddedLen link n frame.tailCapacity ∧
    paddedLen link n frame.tailCapacity ≤ frame.tailCapacity := by
  have hcap := len_le_tailCapacity frame
  rw [paddedLen]
  split
  case isTrue  => omega
  case isFalse => omega

theorem finishFrame_eq (h : n ≤ frame.len) (link : LinkLayer) :
    ∃ frame', finishFrame frame n link = some frame' ∧
      frame'.asSlice = frame.asSlice.take n ++
        List.replicate (paddedLen link n frame.tailCapacity - n) 0 := by
  obtain ⟨hge, hle⟩ := le_paddedLen h link
  have hrun : finishFrame frame n link = (frame.setLen (paddedLen link n frame.tailCapacity)).bind
      fun frame => (Slice.copy frame.asSlice n frame.asSlice.length
        (List.replicate (frame.asSlice.length - n) 0)).bind (putPacket frame) := rfl
  rw [hrun]
  generalize paddedLen link n frame.tailCapacity = padded at hge hle
  have hlen : (frame.withLen padded hle).asSlice.length = padded := PacketBuf.asSlice_length _
  have htake : (frame.withLen padded hle).asSlice.take n = frame.asSlice.take n := by
    rw [PacketBuf.asSlice, PacketBuf.asSlice, take_take, take_take, Nat.min_eq_left h,
      PacketBuf.len_withLen, Nat.min_eq_left hge]
    rfl
  have hbytes : (frame.asSlice.take n ++ List.replicate (padded - n) 0#8).length = padded := by
    rw [length_append, length_take_of_le (by rw [PacketBuf.asSlice_length]; exact h),
      length_replicate]
    omega
  obtain ⟨frame', hput, hslice, _⟩ :=
    putPacket_eq (show _ = (frame.withLen padded hle).len from hbytes)
  refine ⟨frame', ?_, hslice⟩
  rw [PacketBuf.setLen, dif_pos hle, bind_some, hlen,
    Slice.copy_of_le hge hlen.ge length_replicate, htake, drop_of_length_le hlen.le,
    append_nil, bind_some]
  exact hput

theorem address_eq {destination : List U8} (h : 12 ≤ packet.length) (hd : destination.length = 6) :
    r.address destination packet = some (destination ++ (r.mac.bytes ++ packet.drop 12)) := by
  have hl : 12 ≤ (destination ++ packet.drop 6).length := by
    rw [length_append, length_drop, hd]
    omega
  rw [address, Slice.copy_of_le (by decide) (by omega) hd, take_zero, nil_append]
  show Slice.copy (destination ++ packet.drop 6) 6 12 r.mac.bytes = _
  rw [Slice.copy_of_le (by decide) hl (Mac.bytes_length _), take_left' hd,
    drop_append, drop_of_length_le (by omega), hd, nil_append, drop_drop,
    append_assoc]

-- A frame with `k` VLAN tags in front of a network layer.
structure Tagged (packet : List U8) (k : Nat) (protocol : U16) : Prop where
  count  : k ≤ 2
  length : 14 + 4 * k ≤ packet.length
  tags   : ∀ i < k, ∃ tag, read16 packet (12 + 4 * i) = some tag ∧ (tag = 0x8100 ∨ tag = 0x88a8)
  inner  : read16 packet (12 + 4 * k) = some protocol

-- Where the network layer of a packet is.
inductive NetworkAt (packet : List U8) : LinkLayer → Nat → U16 → Prop
  | ip : NetworkAt packet .ip 0 0x0800
  | ethernet {k : Nat} {protocol : U16} :
      Tagged packet k protocol → NetworkAt packet .ethernet (14 + 4 * k) protocol

theorem untag_eq {k : Nat} (h : Tagged packet k protocol) (hn : k + n = 2) :
    untag packet n (14 + 4 * k) protocol = some none ∨
    ∃ k' protocol', untag packet n (14 + 4 * k) protocol = some (some (14 + 4 * k', protocol')) ∧
      Tagged packet k' protocol' := by
  induction n generalizing k protocol
  case zero => exact .inr ⟨k, protocol, rfl, h⟩
  case succ n ih =>
    rw [untag]
    split
    case isTrue => exact .inr ⟨k, protocol, rfl, h⟩
    rename_i htag
    split
    case isTrue => exact .inl rfl
    rename_i hlen
    rw [not_and_or, not_not, not_not] at htag
    obtain ⟨protocol', hnext⟩ : ∃ p, read16 packet (14 + 4 * k + 2) = some p :=
      ⟨_, read16_eq (by omega)⟩
    have hinner : 14 + 4 * k + 2 = 12 + 4 * (k + 1) := by omega
    rw [hnext]
    rw [hinner] at hnext
    refine ih (k := k + 1) ⟨by omega, by omega, fun i hi => ?_, hnext⟩ (by omega)
    rcases Nat.lt_succ_iff_lt_or_eq.mp hi with hi | rfl
    case inl => exact h.tags i hi
    case inr => exact ⟨protocol, h.inner, htag⟩

theorem locate_eq (packet : List U8) (link : LinkLayer) :
    locate packet link = some none ∨
    ∃ offset protocol, locate packet link = some (some (offset, protocol)) ∧
      NetworkAt packet link offset protocol := by
  cases link
  case ip => exact .inr ⟨0, 0x0800, rfl, .ip⟩
  case ethernet =>
    rw [locate]
    split
    case isTrue => exact .inl rfl
    case isFalse hlen =>
      have hinner : read16 packet 12 = some (packet[12] ++ packet[13]) := read16_eq (by omega)
      have htagged : Tagged packet 0 (packet[12] ++ packet[13]) :=
        ⟨by decide, by omega, fun _ hi => absurd hi (Nat.not_lt_zero _), hinner⟩
      rw [hinner]
      rcases untag_eq htagged (n := 2) rfl with he | ⟨k, protocol, he, ht⟩
      case inl => exact .inl he
      case inr => exact .inr ⟨_, protocol, he, .ethernet ht⟩

theorem NetworkAt.le (h : NetworkAt packet link offset protocol) : offset ≤ packet.length := by
  cases h
  case ip          => exact Nat.zero_le _
  case ethernet ht => exact ht.length

-- The link layer of an answer.
structure Addressed (r : LinkResponder) (offset : Nat) (requester request reply : List U8) :
    Prop where
  destination : reply.take 6 = requester
  source      : (reply.take 12).drop 6 = r.mac.bytes
  tags        : (reply.take offset).drop 12 = (request.take offset).drop 12

-- The end of an answer.
structure Ended (link : LinkLayer) (n capacity : Nat) (reply : List U8) : Prop where
  length  : reply.length = paddedLen link n capacity
  padding : ∀ b ∈ reply.drop n, b = 0

-- What the responder may do to a frame.
inductive WellFormed (r : LinkResponder) (link : LinkLayer) (frame : PacketBuf) :
    Reply → PacketBuf → Prop
  | unchanged {reply : Reply} (h : reply.isReply = false) : WellFormed r link frame reply frame
  | ipv4 {reply : Reply} {frame' : PacketBuf} {offset : Nat} {total : U16}
      (reply_eq : reply = .icmp ∨ reply = .udp)
      (located  : NetworkAt frame.asSlice link offset 0x0800)
      (total_eq : read16 frame.asSlice (offset + 2) = some total)
      (icmp     : reply = .icmp →
                  IcmpAnswer ((frame.asSlice.take (offset + total.toNat)).drop offset)
                    ((frame'.asSlice.take (offset + total.toNat)).drop offset))
      (address  : link = .ethernet →
                  Addressed r offset ((frame.asSlice.take 12).drop 6) frame.asSlice frame'.asSlice)
      (ended    : Ended link (offset + total.toNat) frame.tailCapacity frame'.asSlice) :
      WellFormed r link frame reply frame'
  | arp {frame' : PacketBuf} {offset : Nat} {request : Arp.Packet}
      (located   : NetworkAt frame.asSlice link offset 0x0806)
      (request_eq : Arp.Packet.parse (frame.asSlice.drop offset) = some request)
      (operation : request.operation = .request)
      (target    : request.targetIp = r.ipv4)
      (reply     : Arp.Packet.parse (frame'.asSlice.drop offset) =
                   some ⟨.reply, r.mac, r.ipv4, request.senderMac, request.senderIp⟩)
      (address   : Addressed r offset request.senderMac.bytes frame.asSlice frame'.asSlice)
      (ended     : Ended .ethernet (offset + 28) frame.tailCapacity frame'.asSlice) :
      WellFormed r link frame .arp frame'

-- A packet is written back, and the frame ends behind its answer.
theorem finish_eq {front tail : List U8} (h : (front ++ (bytes ++ tail)).length = frame.len)
    (link : LinkLayer) :
    ∃ frame', (putPacket frame (front ++ (bytes ++ tail))).bind
        (finishFrame · (front.length + bytes.length) link) = some frame' ∧
      frame'.asSlice = front ++ bytes ++
        List.replicate (paddedLen link (front.length + bytes.length) frame.tailCapacity -
          (front.length + bytes.length)) 0 := by
  have ⟨frame₁, hput, hslice, hlen, hcap⟩ := putPacket_eq h
  have hn : front.length + bytes.length ≤ frame₁.len := by
    rw [hlen, ← h, length_append, length_append]
    omega
  have ⟨frame', hfinish, hslice'⟩ := finishFrame_eq hn link
  refine ⟨frame', ?_, ?_⟩
  · rw [hput, bind_some]
    exact hfinish
  · rw [hslice', hslice, hcap, ← append_assoc, take_left' length_append]

theorem ended_of_eq {front : List U8} {reply : List U8}
    (hb : front.length + bytes.length ≤ frame.len)
    (h : reply = front ++ bytes ++
      List.replicate (paddedLen link (front.length + bytes.length) frame.tailCapacity -
        (front.length + bytes.length)) 0) :
    Ended link (front.length + bytes.length) frame.tailCapacity reply := by
  have ⟨hge, _⟩ := le_paddedLen hb link
  subst h
  constructor
  case length =>
    rw [length_append, length_append, length_replicate]
    omega
  case padding =>
    intro b hm
    rw [drop_left' length_append] at hm
    exact eq_of_mem_replicate hm

theorem addressed_of_eq {requester rest : List U8} (hle : offset ≤ packet.length)
    (hr : requester.length = 6) :
    Addressed r offset requester packet
      (requester ++ (r.mac.bytes ++ ((packet.take offset).drop 12 ++ rest))) := by
  have htags : ((packet.take offset).drop 12).length = offset - 12 := by
    rw [length_drop, length_take_of_le hle]
  constructor
  case destination => rw [take_left' hr]
  case source =>
    rw [drop_take, drop_left' hr]
    exact take_left' (Mac.bytes_length _)
  case tags =>
    rw [drop_take, ← append_assoc,
      drop_left' (by rw [length_append, hr, Mac.bytes_length]), take_left' htags]

theorem read16_drop (packet : List U8) (offset i : Nat) :
    read16 (packet.drop offset) i = read16 packet (offset + i) := by
  simp only [read16, List.getElem?_drop, Nat.add_assoc]

theorem NetworkAt.ethernet_le (h : NetworkAt packet .ethernet offset protocol) : 14 ≤ offset := by
  cases h
  omega

theorem isReply_answer {ip : List U8} {reply : Reply}
    (ha : r.toResponder.answer ip = (reply, bytes)) (hreply : reply.isReply = true) :
    reply = .icmp ∨ reply = .udp := by
  obtain ⟨h, body, -, hb, -⟩ := answer_reply ha hreply
  rw [answerBody, Responder.body] at hb
  split_ifs at hb
  case pos =>
    rw [Responder.icmp] at hb
    split_ifs at hb
    all_goals cases hb
    all_goals first | exact .inl rfl | cases hreply
  case pos =>
    rw [Responder.udp] at hb
    split_ifs at hb
    all_goals cases hb
    all_goals first | exact .inr rfl | cases hreply
  case neg =>
    cases hb
    cases hreply

-- What is in front of an answer on Ethernet.
theorem address_front {requester : List U8} (ip : List U8)
    (hat : NetworkAt packet .ethernet offset protocol) (hr : requester.length = 6) :
    ∃ front, front.length = offset ∧
      r.address requester (packet.take offset ++ ip) = some (front ++ ip) ∧
      ∀ rest, Addressed r offset requester packet (front ++ rest) := by
  have hoff := hat.ethernet_le
  have hle := hat.le
  have hfront : (packet.take offset).length = offset := length_take_of_le hle
  have hheader : 12 ≤ (packet.take offset ++ ip).length := by
    rw [length_append]
    omega
  have haddress := address_eq (r := r) hheader hr
  rw [drop_append_of_le_length (by omega)] at haddress
  refine ⟨requester ++ (r.mac.bytes ++ (packet.take offset).drop 12), ?_, ?_, fun rest => ?_⟩
  · rw [length_append, length_append, hr, Mac.bytes_length, length_drop, hfront]
    omega
  · rw [haddress, append_assoc, append_assoc]
  · rw [append_assoc, append_assoc]
    exact addressed_of_eq hle hr

-- The same on both link layers, for an answer that goes back to the source of the frame.
theorem exchange_eq (ip : List U8) (hat : NetworkAt packet link offset 0x0800) :
    ∃ front, front.length = offset ∧
      r.exchange link (packet.take offset ++ ip) = some (front ++ ip) ∧
      (link = .ethernet → ∀ rest,
        Addressed r offset ((packet.take 12).drop 6) packet (front ++ rest)) := by
  cases link
  case ip =>
    cases hat
    exact ⟨[], rfl, rfl, fun h => nomatch h⟩
  case ethernet =>
    have hoff := hat.ethernet_le
    have hle := hat.le
    have hfront : (packet.take offset).length = offset := length_take_of_le hle
    have hmac : ((packet.take 12).drop 6).length = 6 := by
      rw [length_drop, length_take_of_le (by omega)]
    have hrange : Slice.range (packet.take offset ++ ip) 6 12 = some ((packet.take 12).drop 6) := by
      rw [Slice.range_of_le (by decide) (by rw [length_append]; omega),
        take_append_of_le_length (by omega), take_take, Nat.min_eq_left (by omega)]
    have ⟨front, hlen, haddress, haddressed⟩ := address_front (r := r) ip hat hmac
    refine ⟨front, hlen, ?_, fun _ => haddressed⟩
    rw [exchange, if_pos rfl, hrange]
    exact haddress

-- An answer is written in front of the old bytes behind it, and the frame is cut off there.
theorem rewrite_eq {front : List U8} (hf : front.length = offset)
    (hb : offset + bytes.length ≤ frame.len) (link : LinkLayer) :
    ∃ frame',
      (putPacket frame (front ++ (bytes ++ (frame.asSlice.drop offset).drop bytes.length))).bind
        (finishFrame · (offset + bytes.length) link) = some frame' ∧
      (∃ padding, frame'.asSlice = front ++ (bytes ++ padding)) ∧
      Ended link (offset + bytes.length) frame.tailCapacity frame'.asSlice := by
  have hlen := PacketBuf.asSlice_length frame
  subst hf
  have hwhole : (front ++ (bytes ++ (frame.asSlice.drop front.length).drop bytes.length)).length =
      frame.len := by
    rw [length_append, length_append, length_drop, length_drop]
    omega
  have ⟨frame', hfinish, hslice⟩ := finish_eq hwhole link
  refine ⟨frame', hfinish, ⟨_, hslice.trans (append_assoc ..)⟩, ended_of_eq hb hslice⟩

theorem ip_wellFormed (hat : NetworkAt frame.asSlice link offset 0x0800) :
    ∃ frame' reply, r.ip frame offset link = some (frame', reply) ∧
    WellFormed r link frame reply frame' := by
  have hoff := hat.le
  have hlen := PacketBuf.asSlice_length frame
  have hrange := Slice.range_from hoff
  obtain ⟨reply, bytes, ha⟩ :
      ∃ reply bytes, r.toResponder.answer (frame.asSlice.drop offset) = (reply, bytes) :=
      ⟨_, _, rfl⟩
  have hanswer := answer_eq ha
  cases hreply : reply.isReply
  case false =>
    rw [if_neg (by rw [hreply]; exact Bool.false_ne_true)] at hanswer
    refine ⟨frame, reply, ?_, .unchanged hreply⟩
    simp only [ip, hrange, bind_eq_bind, bind_some, hanswer, hreply]
    rfl
  case true =>
    rw [if_pos hreply] at hanswer
    have hle := r.toResponder.answer_length_le (frame.asSlice.drop offset)
    rw [ha, length_drop] at hle
    dsimp only at hle
    have ⟨total, htotal, hbytes⟩ := answer_length ha hreply
    rw [read16_drop] at htotal
    have hcopy := Slice.copy_from (bytes ++ (frame.asSlice.drop offset).drop bytes.length) hoff (by
      rw [length_append, length_drop, length_drop]
      omega)
    have ⟨front, hfront, hexchange, haddressed⟩ := exchange_eq (r := r)
      (bytes ++ (frame.asSlice.drop offset).drop bytes.length) hat
    have ⟨frame', hrewrite, ⟨padding, hslice⟩, hend⟩ :=
      rewrite_eq hfront (show offset + bytes.length ≤ frame.len by omega) link
    refine ⟨frame', reply, ?_, .ipv4 (isReply_answer ha hreply) hat htotal ?_ ?_ (hbytes ▸ hend)⟩
    · simp only [ip, hrange, bind_eq_bind, bind_some, hanswer, hreply, if_true, hcopy,
        hexchange]
      rw [← bind_assoc, hrewrite]
      rfl
    · intro hicmp
      have hreq : (frame.asSlice.take (offset + total.toNat)).drop offset =
          (frame.asSlice.drop offset).take bytes.length := by
        rw [drop_take, Nat.add_sub_cancel_left, hbytes]
      have hrep : (frame'.asSlice.take (offset + total.toNat)).drop offset = bytes := by
        rw [hslice, drop_take, drop_left' hfront, Nat.add_sub_cancel_left, ← hbytes,
          take_left' rfl]
      rw [hreq, hrep]
      exact answer_icmp (hicmp ▸ ha)
    · intro hlink
      rw [hslice]
      exact haddressed hlink _

theorem eq_of_append_eq {a b c d : U8} (h : a ++ b = (c ++ d : U16)) : a = c ∧ b = d := by
  have hb := congrArg be16 h
  rw [be16_append, be16_append] at hb
  simpa using hb

theorem ignoresArp_eq {arp : List U8} (h : 28 ≤ arp.length) :
    ∃ b, r.ignoresArp arp = some b ∧ (b = false → ∃ request : Arp.Packet,
      Arp.Packet.parse arp = some request ∧ request.operation = .request ∧
      request.targetIp = r.ipv4 ∧
      Slice.range arp 8 14 = some request.senderMac.bytes ∧
      Slice.range arp 14 18 = some (be32 request.senderIp) ∧
      r.arpReply request.senderMac.bytes (be32 request.senderIp) arp =
        some (Arp.Packet.encode ⟨.reply, r.mac, r.ipv4, request.senderMac, request.senderIp⟩ ++
          arp.drop 28)) := by
  obtain ⟨b₀, b₁, b₂, b₃, l, rfl⟩ := Slice.exists_cons₄ (show 4 ≤ arp.length by omega)
  obtain ⟨b₄, b₅, o₀, o₁, l, rfl⟩ := Slice.exists_cons₄ (show 4 ≤ l.length by simp at h; omega)
  obtain ⟨s₀, s₁, s₂, s₃, l, rfl⟩ := Slice.exists_cons₄ (show 4 ≤ l.length by simp at h; omega)
  obtain ⟨s₄, s₅, i₀, i₁, l, rfl⟩ := Slice.exists_cons₄ (show 4 ≤ l.length by simp at h; omega)
  obtain ⟨i₂, i₃, t₀, t₁, l, rfl⟩ := Slice.exists_cons₄ (show 4 ≤ l.length by simp at h; omega)
  obtain ⟨t₂, t₃, t₄, t₅, l, rfl⟩ := Slice.exists_cons₄ (show 4 ≤ l.length by simp at h; omega)
  obtain ⟨j₀, j₁, j₂, j₃, l, rfl⟩ := Slice.exists_cons₄ (show 4 ≤ l.length by simp at h; omega)
  refine ⟨b₀ ++ b₁ != 1#16 || (b₂ ++ b₃ != 0x0800#16 || ([b₄, b₅] != [6, 4] || (o₀ ++ o₁ != 1#16 ||
    [j₀, j₁, j₂, j₃] != be32 r.ipv4))), ?_, ?_⟩
  · simp [ignoresArp, read16, Slice.range, Slice.orM_some]
  · intro hb
    simp only [Bool.or_eq_false_iff, bne_eq_false_iff_eq] at hb
    obtain ⟨hhw, hproto, hsizes, hop, htarget⟩ := hb
    obtain ⟨rfl, rfl⟩ := eq_of_append_eq (c := 0) (d := 1) hhw
    obtain ⟨rfl, rfl⟩ := eq_of_append_eq (c := 8) (d := 0) hproto
    obtain ⟨rfl, rfl⟩ := eq_of_append_eq (c := 0) (d := 1) hop
    obtain ⟨rfl, rfl⟩ : b₄ = 6 ∧ b₅ = 4 := by simpa using hsizes
    rw [← be32_append, be32_inj] at htarget
    refine ⟨⟨.request, s₀ ++ s₁ ++ s₂ ++ s₃ ++ s₄ ++ s₅, i₀ ++ i₁ ++ i₂ ++ i₃,
      t₀ ++ t₁ ++ t₂ ++ t₃ ++ t₄ ++ t₅, j₀ ++ j₁ ++ j₂ ++ j₃⟩, Arp.Packet.parse_cons .., rfl,
      htarget, ?_, ?_, ?_⟩
    · rw [Mac.bytes_append]
      exact Slice.range_of_le (by decide) (by simp)
    · rw [be32_append]
      exact Slice.range_of_le (by decide) (by simp)
    · simp [arpReply, Slice.copy, Arp.Packet.encode, be16, be32, Mac.bytes_eq]

theorem NetworkAt.link_eq (h : NetworkAt packet link offset 0x0806) : link = .ethernet := by
  cases h
  rfl

theorem arp_wellFormed (hat : NetworkAt frame.asSlice link offset 0x0806) :
    ∃ frame' reply, r.arp frame offset = some (frame', reply) ∧
    WellFormed r link frame reply frame' := by
  have hle := hat.le
  have hlen := PacketBuf.asSlice_length frame
  obtain rfl := hat.link_eq
  have hrange := Slice.range_from hle
  simp only [arp, hrange, bind_eq_bind, bind_some]
  split
  case isTrue => exact ⟨frame, .malformed, rfl, .unchanged rfl⟩
  rename_i hshort
  have ⟨b, hignores, hrequest⟩ := ignoresArp_eq (r := r) (Nat.not_lt.mp hshort)
  rw [hignores]
  cases b
  case true => exact ⟨frame, .ignored, rfl, .unchanged rfl⟩
  case false =>
    obtain ⟨request, hparse, hop, htarget, hmac, hip, hreply⟩ := hrequest rfl
    have hparse' := Arp.Packet.parse_encode
      ⟨.reply, r.mac, r.ipv4, request.senderMac, request.senderIp⟩
    have hmessage := Arp.Packet.encode_length
      ⟨.reply, r.mac, r.ipv4, request.senderMac, request.senderIp⟩
    generalize Arp.Packet.encode ⟨.reply, r.mac, r.ipv4, request.senderMac, request.senderIp⟩ =
      message at hreply hparse' hmessage
    rw [length_drop] at hshort
    have hcopy := Slice.copy_from (message ++ (frame.asSlice.drop offset).drop 28) hle (by
      rw [length_append, length_drop, length_drop]
      omega)
    have ⟨front, hfront, haddress, haddressed⟩ := address_front (r := r)
      (message ++ (frame.asSlice.drop offset).drop 28) hat (Mac.bytes_length request.senderMac)
    have ⟨frame', hrewrite, ⟨padding, hslice⟩, hend⟩ :=
      rewrite_eq hfront (show offset + message.length ≤ frame.len by omega) .ethernet
    rw [hmessage] at hrewrite hend
    refine ⟨frame', .arp, ?_, .arp hat hparse hop htarget ?_ ?_ hend⟩
    · simp only [bind_some, Bool.false_eq_true, if_false, hmac, hip, hreply, hcopy, haddress]
      rw [← bind_assoc, hrewrite]
      rfl
    · rw [hslice, drop_left' hfront]
      exact hparse' padding
    · rw [hslice]
      exact haddressed _

-- The responder never panics, whatever it receives.
theorem respond_wellFormed (r : LinkResponder) (frame : PacketBuf) (link : LinkLayer) :
    ∃ frame' reply, r.respond frame link = some (frame', reply) ∧
      WellFormed r link frame reply frame' := by
  rcases locate_eq frame.asSlice link with hl | ⟨offset, protocol, hl, hat⟩
  all_goals simp only [respond, hl, bind_eq_bind, bind_some]
  case inl => exact ⟨frame, .malformed, rfl, .unchanged rfl⟩
  by_cases harp : protocol = 0x0806
  case pos =>
    rw [if_pos harp]
    exact arp_wellFormed (harp ▸ hat)
  case neg =>
    rw [if_neg harp]
    by_cases hip : protocol = 0x0800
    case pos =>
      rw [if_neg (not_not.mpr hip)]
      exact ip_wellFormed (hip ▸ hat)
    case neg =>
      rw [if_pos hip]
      exact ⟨frame, .ignored, rfl, .unchanged rfl⟩

end LinkResponder
