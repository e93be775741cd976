import AsyncNetStack.Net.Checksum
import AsyncNetStack.Device.PacketBuf

open List

namespace Udp

structure Datagram where
  source      : SocketAddr
  destination : SocketAddr
  payload     : List U8
  deriving DecidableEq

def ipv4Checksum (source destination : Ipv4Addr) (datagram : List U8) : U16 :=
  finishSum <|
    sumWords (be32 source) + sumWords (be32 destination) + 17 + datagram.length + sumWords datagram

namespace Wire

variable (datagram : Datagram)

def total : Nat :=
  datagram.payload.length + 28

-- The bytes of the IPv4 header with the given checksum field.
def ipHeader (identification sum : U16) : List U8 :=
  [0x45, 0] ++ be16 (BitVec.ofNat 16 (total datagram)) ++ be16 identification ++ [0x40, 0] ++
  [64, 17] ++ be16 sum ++ be32 datagram.source.ip ++ be32 datagram.destination.ip

-- The bytes of the UDP header with the given checksum field, and the payload.
def udpBytes (sum : U16) : List U8 :=
  be16 datagram.source.port ++ be16 datagram.destination.port ++
  be16 (BitVec.ofNat 16 (total datagram - 20)) ++ be16 sum ++ datagram.payload

-- A checksum of zero would mean that there is none.
def encode (identification : U16) : List U8 :=
  let ipSum := checksum (ipHeader datagram identification 0)
  let sum   := ipv4Checksum datagram.source.ip datagram.destination.ip (udpBytes datagram 0)
  ipHeader datagram identification ipSum ++ udpBytes datagram (if sum = 0 then 0xffff else sum)

@[simp]
theorem encode_length (identification : U16) :
    (encode datagram identification).length = total datagram := by
  simp only [encode, ipHeader, udpBytes, total, length_append, be16_length, be32_length,
    length_cons, length_nil]
  omega

def buildIpv4 (frame : PacketBuf) (datagram : Datagram) (identification : U16) :
    IoResult PacketBuf :=
  if h : total datagram ≤ 65535 ∧ total datagram ≤ frame.tailCapacity then
    .ok <| (frame.withLen (total datagram) h.right).copyFromSlice 0 (encode datagram identification)
      (by simp [PacketBuf.withLen])
  else
    .error (.invalid "UDP packet exceeds frame capacity")

def invalidDatagram : IoError :=
  { kind := .invalidData, message := "invalid or unsupported IPv4 UDP" }

def parseIpv4 (bytes : List U8) : IoResult Datagram :=
  if h : bytes.length < 28 then
    .error invalidDatagram
  else if bytes[0] ≠ 0x45 ∨ bytes[9] ≠ 17 ∨ bytes[8] = 0 then
    .error invalidDatagram
  else
    let total := (bytes[2] ++ bytes[3] : U16).toNat
    if ht : total < 28 ∨ total > bytes.length
        ∨ (bytes[6] ++ bytes[7] : U16) &&& ~~~0x4000#16 ≠ 0 ∨ checksum (bytes.take 20) ≠ 0 then
      .error invalidDatagram
    else
      let source      : Ipv4Addr := bytes[12] ++ bytes[13] ++ bytes[14] ++ bytes[15]
      let destination : Ipv4Addr := bytes[16] ++ bytes[17] ++ bytes[18] ++ bytes[19]
      let udp := (bytes.take total).drop 20
      have : 8 ≤ udp.length := by simp only [udp, length_drop, length_take]; omega
      if (udp[4] ++ udp[5] : U16).toNat ≠ udp.length ∨
          ((udp[6] ++ udp[7] : U16) ≠ 0 ∧ ipv4Checksum source destination udp ≠ 0) then
        .error invalidDatagram
      else
        .ok {
          source      := { ip := source, port := udp[0] ++ udp[1] }
          destination := { ip := destination, port := udp[2] ++ udp[3] }
          payload     := udp.drop 8
        }

end Wire
end Udp
