import AsyncNetStack.Lib.Slice
import AsyncNetStack.Primitives.Basic

-- The decoder of `telemetry-client.py`. What would raise an exception there is `none` here.
namespace Telemetry.Collector

def states : List String :=
  ["SynSent", "SynReceived", "Established", "FinWait1", "FinWait2", "CloseWait", "Closing",
    "LastAck", "TimeWait", "Closed", "Reset", "TimedOut", "Failed"]

def waits : List String :=
  ["Application", "Acknowledgment", "PeerWindow", "CongestionWindow", "FlightLimit", "Device",
    "Handshake", "Closing", "Terminal", "Ready"]

def metrics : List String :=
  ["send_buffered", "receive_buffered", "cwnd", "ssthresh", "bytes_in_flight",
    "outstanding_segments", "rto_us", "timeout_retransmissions", "receive_window", "peer_window"]

structure Record where
  timestampUs : Nat
  connection  : Nat
  state       : String
  wait        : String
  localAddr   : String
  remoteAddr  : String
  metrics     : List (String × Nat)
  deriving DecidableEq

structure Report where
  count       : Nat
  session     : Nat
  sequence    : Nat
  progress    : Nat
  dropped     : Nat
  errors      : Nat
  overwritten : Nat
  records     : List Record
  deriving DecidableEq

-- An unsigned integer in network byte order.
def number (bytes : List U8) : Nat :=
  bytes.foldl (fun n b => n * 256 + b.toNat) 0

-- `struct.unpack_from` for the widths of a format in network byte order, which has no padding.
def unpackFrom (data : List U8) (offset : Nat) : List Nat → Option (List Nat)
  | []              => some []
  | width :: widths => do
    let bytes ← Slice.range data offset (offset + width)
    let values ← unpackFrom data (offset + width) widths
    return number bytes :: values

def inetNtoa (packed : List U8) : Option String :=
  if packed.length = 4 then some (".".intercalate (packed.map (toString ·.toNat))) else none

-- Slices in Python end where the data does.
def slice (data : List U8) (start stop : Nat) : List U8 :=
  (data.take stop).drop start

-- The loop breaks at a record with an unknown state or wait, for which there is no value here.
def decodeRecord (r : List U8) : Option (Option Record) := do
  let [timestamp, connection] ← unpackFrom r 0 [8, 8] | none
  let state ← r[16]?
  let wait ← r[17]?
  if state.toNat ≥ states.length || wait.toNat ≥ waits.length then
    return none
  let [localPort, remotePort] ← unpackFrom r 28 [2, 2] | none
  let stateName ← states[state.toNat]?
  let waitName ← waits[wait.toNat]?
  let localIp ← inetNtoa (slice r 20 24)
  let remoteIp ← inetNtoa (slice r 24 28)
  let values ← unpackFrom r 32 (List.replicate 10 8)
  return some {
    timestampUs := timestamp
    connection
    state       := stateName
    wait        := waitName
    localAddr   := localIp ++ ":" ++ toString localPort
    remoteAddr  := remoteIp ++ ":" ++ toString remotePort
    metrics     := metrics.zip values }

def decodeRecords (data : List U8) : List Nat → Option (Option (List Record))
  | []           => some (some [])
  | i :: indices => do
    match ← decodeRecord (slice data (56 + i * 112) (56 + (i + 1) * 112)) with
    | none        => return none
    | some record =>
      let records ← decodeRecords data indices
      return records.map (record :: ·)

-- A datagram that is not accepted is skipped.
def decode (data : List U8) : Option (Option Report) :=
  if data.length < 56 || data.take 6 != [0x4e, 0x53, 0x54, 0x4c, 1, 0] then
    some none
  else do
    let [count, session, sequence, progress, dropped, errors, overwritten] ←
      unpackFrom data 6 (2 :: List.replicate 6 8) | none
    if count > 10 || data.length != 56 + count * 112 then
      return none
    let records ← decodeRecords data (List.range count)
    return records.map fun records =>
      { count, session, sequence, progress, dropped, errors, overwritten, records }

-- `recvfrom` cuts a longer datagram off.
def collect (packet : List U8) : Option (Option Report) :=
  decode (packet.take 2048)

end Telemetry.Collector
