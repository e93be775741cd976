import AsyncNetStack.Udp.Pool
import AsyncNetStack.Udp.Theorems.Wire

open Udp

namespace Responder

variable {frame : PacketBuf} {d : Datagram}

-- An answer has valid checksums, although the one of the datagram is taken over.
structure Answers (bytes reply : List U8) (d : Datagram) (h : 28 ≤ bytes.length)
    (h' : 28 ≤ reply.length) : Prop where
  length     : reply.length = Wire.totalLen bytes h
  header_sum : checksum (reply.take 20) = 0
  sum_eq     : (reply[26] ++ reply[27] : U16) = bytes[26] ++ bytes[27]
  sum        : (reply[26] ++ reply[27] : U16) = 0 ∨
                 ipv4Checksum d.destination.ip d.source.ip (reply.drop 20) = 0

theorem echo_answers {bytes : List U8} {h : 28 ≤ bytes.length} (ha : Wire.Accepted bytes d h)
    (h' : 28 ≤ (echo bytes d h).length) : Answers bytes (echo bytes d h) d h h' := by
  have hecho := echo_accepted ha h'
  have hbytes : Wire.datagramBytes (echo bytes d h) h' = (echo bytes d h).drop 20 := by
    rw [Wire.datagramBytes, echo_totalLen, ← echo_length ha, List.take_length]
  exact {
    length     := echo_length ha
    header_sum := hecho.header_sum
    sum_eq     := (echo_udp ha h').right
    sum        := by
      rw [← hbytes]
      exact hecho.sum
  }

-- Every datagram that is accepted gets an answer, which is accepted as the datagram that goes back.
-- So the pool does not lose an echo that it has admitted.
theorem echo_agrees_with_parse (h : Wire.parseIpv4 frame.asSlice = .ok d) :
    ((serving d).respond frame).snd = .udp ∧
    Wire.parseIpv4 ((serving d).respond frame).fst.asSlice = .ok d.reply ∧
    (∃ hb hr, Answers frame.asSlice ((serving d).respond frame).fst.asSlice d hb hr) ∧
    ∀ {δ : Type} (p p' : UdpPool δ), p.admission d.destination d.source {} = (p', .ok ()) →
      p.echo d frame =
        let (p, result) := p'.enqueue ((serving d).respond frame).fst d.destination d.source {}
        (p, result.map fun _ => ()) := by
  have ⟨hb, ha⟩ := Wire.parseIpv4_ok h
  have hreply := respond_parsed h
  have hslice : ((serving d).respond frame).fst.asSlice = echo frame.asSlice d hb := by
    rw [asSlice_respond, answer_accepted ha]
  have hr : 28 ≤ (echo frame.asSlice d hb).length := by
    rw [echo_length ha]
    exact ha.total_ge
  refine ⟨hreply, ?_, ?_, ?_⟩
  case refine_1 =>
    rw [hslice]
    exact (echo_accepted ha hr).parseIpv4_eq
  case refine_2 =>
    rw [hslice]
    exact ⟨hb, hr, echo_answers ha hr⟩
  case refine_3 =>
    intro δ p p' hadm
    rw [UdpPool.echo, hadm]
    exact if_pos (congrArg Reply.isReply hreply)

-- A datagram in a frame without headroom.
def packed (d : Datagram) : PacketBuf where
  memory     := Wire.encode d 0
  dataOffset := 0
  len        := Wire.total d
  idx        := 0
  pool       := none
  bound      := by rw [Nat.zero_add, Wire.encode_length]

theorem parse_packed (h : Wire.total d ≤ 65535) : Wire.parseIpv4 (packed d).asSlice = .ok d := by
  have ⟨_, ha⟩ := Wire.accepted_encode 0 h []
  have hslice : (packed d).asSlice = Wire.encode d 0 ++ [] := by
    rw [PacketBuf.asSlice, List.append_nil]
    exact List.take_of_length_le (Wire.encode_length d 0).le
  rw [hslice]
  exact ha.parseIpv4_eq

def hello : Datagram where
  source      := ⟨0x0a000001, 12345⟩
  destination := ⟨0x0a000002, 9000⟩
  payload     := [104, 101, 108, 108, 111]

theorem echo_agrees_with_parse_hello :
    Wire.parseIpv4 (packed hello).asSlice = .ok hello ∧
    Wire.parseIpv4 ((serving hello).respond (packed hello)).fst.asSlice = .ok hello.reply :=
  have h := parse_packed (show Wire.total hello ≤ 65535 by decide)
  ⟨h, (echo_agrees_with_parse h).right.left⟩

end Responder
