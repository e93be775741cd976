import AsyncNetStack.Lib.Serial
import AsyncNetStack.Net.Checksum
import AsyncNetStack.Device.PacketBuf

open List

namespace Tcp

def FIN : U8 := 0x01
def SYN : U8 := 0x02
def RST : U8 := 0x04
def PSH : U8 := 0x08
def ACK : U8 := 0x10
def URG : U8 := 0x20

-- `flags & mask != 0`
def has (flags mask : U8) : Bool :=
  flags &&& mask != 0

structure Segment where
  source         : SocketAddr
  destination    : SocketAddr
  sequence       : U32
  acknowledgment : U32
  flags          : U8
  window         : U16
  mss            : Option U16
  payload        : List U8
  deriving DecidableEq

-- The sequence space which a segment of `n` bytes with the given flags occupies.
def seqLen (flags : U8) (n : Nat) : U32 :=
  BitVec.ofNat 32 n + (if has flags SYN then 1 else 0) + (if has flags FIN then 1 else 0)

def Segment.sequenceLen (segment : Segment) : U32 :=
  seqLen segment.flags segment.payload.length

def ipv4Checksum (source destination : Ipv4Addr) (segment : List U8) : U16 :=
  finishSum <|
    sumWords (be32 source) + sumWords (be32 destination) + 6 + segment.length + sumWords segment

namespace Wire

def invalidSegment : IoError :=
  { kind := .invalidData, message := "invalid IPv4 TCP segment" }

-- The options are walked over as a list: its head is the byte at the current offset.
def parseOptions (mss : Option U16) : List U8 → IoResult (Option U16)
  | [] => .ok mss
  | kind :: rest =>
    if kind = 0 then
      .ok mss
    else if kind = 1 then
      parseOptions mss rest
    else
      match rest with
      | [] => .error invalidSegment
      | len :: body =>
        if len.toNat < 2 ∨ body.length < len.toNat - 2 then
          .error invalidSegment
        else if kind = 2 then
          match body with
          | hi :: lo :: tail =>
            if len.toNat ≠ 4 ∨ mss.isSome ∨ hi ++ lo = 0#16 then
              .error invalidSegment
            else
              parseOptions (some (hi ++ lo)) tail
          | _ => .error invalidSegment
        else
          parseOptions mss (body.drop (len.toNat - 2))
termination_by bytes => bytes.length
decreasing_by
  all_goals (subst_vars; simp only [length_cons, length_drop]; omega)

def parseIpv4 (bytes : List U8) : IoResult Segment :=
  if h : bytes.length < 40 then
    .error invalidSegment
  else if bytes[0] ≠ 0x45 ∨ bytes[9] ≠ 6 ∨ bytes[8] = 0 then
    .error invalidSegment
  else
    let total := (bytes[2] ++ bytes[3] : U16).toNat
    if ht : total < 40 ∨ total > bytes.length
        ∨ checksum (bytes.take 20) ≠ 0 ∨ (bytes[6] ++ bytes[7] : U16) &&& ~~~0x4000#16 ≠ 0 then
      .error invalidSegment
    else
      let source      : Ipv4Addr := bytes[12] ++ bytes[13] ++ bytes[14] ++ bytes[15]
      let destination : Ipv4Addr := bytes[16] ++ bytes[17] ++ bytes[18] ++ bytes[19]
      let tcp := (bytes.take total).drop 20
      have : 20 ≤ tcp.length := by simp only [tcp, length_drop, length_take]; omega
      let headerLen := (tcp[12] >>> 4).toNat * 4
      if headerLen < 20 ∨ headerLen > tcp.length ∨ ipv4Checksum source destination tcp ≠ 0 then
        .error invalidSegment
      else do
        let mss ← parseOptions none ((tcp.take headerLen).drop 20)
        return {
          source         := { ip := source, port := tcp[0] ++ tcp[1] }
          destination    := { ip := destination, port := tcp[2] ++ tcp[3] }
          sequence       := tcp[4] ++ tcp[5] ++ tcp[6] ++ tcp[7]
          acknowledgment := tcp[8] ++ tcp[9] ++ tcp[10] ++ tcp[11]
          flags          := tcp[13]
          window         := tcp[14] ++ tcp[15]
          mss            := mss
          payload        := tcp.drop headerLen
        }

variable (segment : Segment)

-- The bytes of the IPv4 header with the given checksum field.
def ipHeader (total : Nat) (sum : U16) : List U8 :=
  [0x45, 0] ++ be16 (BitVec.ofNat 16 total) ++ [0, 0] ++ [0x40, 0] ++ [64, 6] ++ be16 sum ++
  be32 segment.source.ip ++ be32 segment.destination.ip

def mssOption : Option U16 → List U8
  | none     => []
  | some mss => [2, 4] ++ be16 mss

def headerLen : Nat :=
  20 + (mssOption segment.mss).length

-- The bytes of the TCP header with the given checksum field, and the payload.
def tcpBytes (sum : U16) : List U8 :=
  be16 segment.source.port ++ be16 segment.destination.port ++
  be32 segment.sequence ++ be32 segment.acknowledgment ++
  [BitVec.ofNat 8 (headerLen segment / 4) <<< 4, segment.flags] ++
  be16 segment.window ++ be16 sum ++ [0, 0] ++
  mssOption segment.mss ++ segment.payload

def total : Nat :=
  segment.payload.length + (20 + headerLen segment)

def encode : List U8 :=
  let ipSum  := checksum (ipHeader segment (total segment) 0)
  let tcpSum := ipv4Checksum segment.source.ip segment.destination.ip (tcpBytes segment 0)
  ipHeader segment (total segment) ipSum ++ tcpBytes segment tcpSum

@[simp]
theorem encode_length : (encode segment).length = total segment := by
  simp only [encode, ipHeader, tcpBytes, total, headerLen, length_append, be16_length,
    be32_length, length_cons, length_nil]
  omega

def invalidBuild : IoError :=
  .invalid "TCP segment exceeds capacity or has invalid MSS"

def buildIpv4 (frame : PacketBuf) (segment : Segment) : IoResult PacketBuf :=
  if segment.mss = some 0 ∨ (segment.mss.isSome ∧ ¬has segment.flags SYN) then
    .error invalidBuild
  else if h : total segment ≤ 65535 ∧ total segment ≤ frame.tailCapacity then
    .ok <| (frame.withLen (total segment) h.right).copyFromSlice 0 (encode segment)
      (by simp [PacketBuf.withLen])
  else
    .error invalidBuild

end Wire
end Tcp
