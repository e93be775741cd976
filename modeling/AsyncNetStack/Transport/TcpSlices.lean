import AsyncNetStack.Lib.Slice
import AsyncNetStack.Transport.Tcp

-- The wire format of TCP as the code reads and writes it: by indices into a slice, with `none` for
-- a panic.
namespace Tcp.Slices

open Wire

variable (bytes : List U8)

def read16 (offset : Nat) : Option U16 := do
  let hi ← bytes[offset]?
  let lo ← bytes[offset + 1]?
  return hi ++ lo

def read32 (offset : Nat) : Option U32 := do
  let b₀ ← bytes[offset]?
  let b₁ ← bytes[offset + 1]?
  let b₂ ← bytes[offset + 2]?
  let b₃ ← bytes[offset + 3]?
  return b₀ ++ b₁ ++ b₂ ++ b₃

theorem read16_eq {bytes : List U8} {i : Nat} (h : i + 1 < bytes.length) :
    read16 bytes i = some (bytes[i] ++ bytes[i + 1]) := by
  simp [read16, h, show i < bytes.length by omega]

theorem read32_eq {bytes : List U8} {i : Nat} (h : i + 3 < bytes.length) :
    read32 bytes i = some (bytes[i] ++ bytes[i + 1] ++ bytes[i + 2] ++ bytes[i + 3]) := by
  simp [read32, h, show i < bytes.length by omega, show i + 1 < bytes.length by omega,
    show i + 2 < bytes.length by omega]

-- The loop over the options, from `offset` on.
def parseOptions (tcp : List U8) (headerLen : Nat) (mss : Option U16) (offset : Nat) :
    Option (IoResult (Option U16)) :=
  if offset < headerLen then
    match tcp[offset]? with
    | none => none
    | some kind =>
      if kind = 0 then
        some (.ok mss)
      else if kind = 1 then
        parseOptions tcp headerLen mss (offset + 1)
      else if offset + 2 > headerLen then
        some (.error invalidSegment)
      else
        match tcp[offset + 1]? with
        | none => none
        | some len =>
          if len.toNat < 2 ∨ offset + len.toNat > headerLen then
            some (.error invalidSegment)
          else if kind = 2 then
            if len.toNat ≠ 4 ∨ mss.isSome then
              some (.error invalidSegment)
            else
              match read16 tcp (offset + 2) with
              | none => none
              | some value =>
                if value = 0 then some (.error invalidSegment)
                else parseOptions tcp headerLen (some value) (offset + len.toNat)
          else
            parseOptions tcp headerLen mss (offset + len.toNat)
  else
    some (.ok mss)
termination_by headerLen - offset

-- The checks of the IPv4 header. A disjunction stops at its first operand that holds.
def malformed : Option Bool :=
  some (bytes.length < 40)
    <||> bytes[0]?.map (· != 0x45)
    <||> bytes[9]?.map (· != 6)
    <||> bytes[8]?.map (· == 0)

def invalid (total : Nat) : Option Bool :=
  some (total < 40)
    <||> some (total > bytes.length)
    <||> (Slice.range bytes 0 20).map (checksum · != 0)
    <||> (read16 bytes 6).map (· &&& ~~~0x4000#16 != 0)

-- The part of `parse_ipv4` that comes after the IPv4 header.
def parseTcp (source destination : Ipv4Addr) (tcp : List U8) : Option (IoResult Segment) := do
  let headerLen := ((← tcp[12]?) >>> 4).toNat * 4
  if headerLen < 20 || headerLen > tcp.length || ipv4Checksum source destination tcp != 0 then
    return .error invalidSegment
  else
    match ← parseOptions tcp headerLen none 20 with
    | .error e => return .error e
    | .ok mss =>
      return .ok {
        source         := { ip := source, port := ← read16 tcp 0 }
        destination    := { ip := destination, port := ← read16 tcp 2 }
        sequence       := ← read32 tcp 4
        acknowledgment := ← read32 tcp 8
        flags          := ← tcp[13]?
        window         := ← read16 tcp 14
        mss            := mss
        payload        := ← Slice.range tcp headerLen tcp.length
      }

def parseIpv4 : Option (IoResult Segment) := do
  if ← malformed bytes then
    return .error invalidSegment
  else
    let total := (← read16 bytes 2).toNat
    if ← invalid bytes total then
      return .error invalidSegment
    else
      let source ← read32 bytes 12
      let destination ← read32 bytes 16
      parseTcp source destination (← Slice.range bytes 20 total)

-- Completes the header of a packet that starts with zeros.
def writeIp (segment : Segment) (total : Nat) (bytes : List U8) : Option (List U8) := do
  let bytes ← Slice.set bytes 0 0x45
  let bytes ← Slice.copy bytes 2 4 (be16 (BitVec.ofNat 16 total))
  let bytes ← Slice.set bytes 6 0x40
  let bytes ← Slice.set bytes 8 64
  let bytes ← Slice.set bytes 9 6
  let bytes ← Slice.copy bytes 12 16 (be32 segment.source.ip)
  let bytes ← Slice.copy bytes 16 20 (be32 segment.destination.ip)
  let sum := checksum (← Slice.range bytes 0 20)
  Slice.copy bytes 10 12 (be16 sum)

def writeMss (mss : Option U16) (tcp : List U8) : Option (List U8) :=
  match mss with
  | none     => some tcp
  | some mss => do
    let tcp ← Slice.copy tcp 20 22 [2, 4]
    Slice.copy tcp 22 24 (be16 mss)

def writeTcp (segment : Segment) (tcpHeader : Nat) (tcp : List U8) : Option (List U8) := do
  let tcp ← Slice.copy tcp 0 2 (be16 segment.source.port)
  let tcp ← Slice.copy tcp 2 4 (be16 segment.destination.port)
  let tcp ← Slice.copy tcp 4 8 (be32 segment.sequence)
  let tcp ← Slice.copy tcp 8 12 (be32 segment.acknowledgment)
  let tcp ← Slice.set tcp 12 (BitVec.ofNat 8 (tcpHeader / 4) <<< 4)
  let tcp ← Slice.set tcp 13 segment.flags
  let tcp ← Slice.copy tcp 14 16 (be16 segment.window)
  let tcp ← writeMss segment.mss tcp
  let tcp ← Slice.copy tcp tcpHeader tcp.length segment.payload
  let sum := ipv4Checksum segment.source.ip segment.destination.ip tcp
  Slice.copy tcp 16 18 (be16 sum)

def writePacket (segment : Segment) (tcpHeader total : Nat) (bytes : List U8) :
    Option (List U8) := do
  let bytes ← Slice.copy bytes 0 (20 + tcpHeader) (List.replicate (20 + tcpHeader) 0)
  let bytes ← writeIp segment total bytes
  let tcp ← writeTcp segment tcpHeader (← Slice.range bytes 20 bytes.length)
  Slice.copy bytes 20 bytes.length tcp

-- The packet of a buffer after it was written to.
def putPacket (frame : PacketBuf) (bytes : List U8) : Option PacketBuf :=
  if h : bytes.length = frame.len then
    some (frame.copyFromSlice 0 bytes (by rw [Nat.zero_add]; exact h.le))
  else
    none

-- Writes a segment into a frame, and returns the frame in the state it is left in.
def buildIpv4 (frame : PacketBuf) (segment : Segment) : Option (PacketBuf × IoResult Unit) :=
  if segment.mss = some 0 ∨ (segment.mss.isSome ∧ ¬has segment.flags SYN) then
    some (frame, .error invalidBuild)
  else
    let tcpHeader := if segment.mss.isSome then 24 else 20
    let total := segment.payload.length + (20 + tcpHeader)
    if total ≤ 65535 ∧ total ≤ frame.tailCapacity then do
      let frame ← frame.setLen total
      let bytes ← writePacket segment tcpHeader total frame.asSlice
      return (← putPacket frame bytes, .ok ())
    else
      some (frame, .error invalidBuild)

end Tcp.Slices
