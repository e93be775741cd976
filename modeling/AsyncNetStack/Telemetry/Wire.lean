import AsyncNetStack.Lib.Slice
import AsyncNetStack.Tcp.Pool

namespace Telemetry

def headerSize : Nat := 56
def recordSize : Nat := 112
def batchSize  : Nat := 10

def be64 (x : U64) : List U8 :=
  [x.extractLsb' 56 8, x.extractLsb' 48 8, x.extractLsb' 40 8, x.extractLsb' 32 8,
    x.extractLsb' 24 8, x.extractLsb' 16 8, x.extractLsb' 8 8, x.extractLsb' 0 8]

@[simp]
theorem be64_length (x : U64) : (be64 x).length = 8 :=
  rfl

-- The counters that the producer and the exporter share.
structure Counters where
  progress         : U64
  dropped          : U64
  sendErrors       : U64
  sourceOverwrites : U64
  deriving DecidableEq

def Counters.zero : Counters where
  progress         := 0
  dropped          := 0
  sendErrors       := 0
  sourceOverwrites := 0

def put (bytes : List U8) (offset : Nat) (value : U64) : Option (List U8) :=
  Slice.copy bytes offset (offset + 8) (be64 value)

def micros (d : Duration) : U64 :=
  .ofNat 64 (min (d.nanos / 1000) (2 ^ 64 - 1))

def state : TcpState → U8
  | .synSent     => 0
  | .synReceived => 1
  | .established => 2
  | .finWait1    => 3
  | .finWait2    => 4
  | .closeWait   => 5
  | .closing     => 6
  | .lastAck     => 7
  | .timeWait    => 8
  | .closed      => 9
  | .reset       => 10
  | .timedOut    => 11
  | .failed      => 12

def wait : TcpWait → U8
  | .application      => 0
  | .acknowledgment   => 1
  | .peerWindow       => 2
  | .congestionWindow => 3
  | .flightLimit      => 4
  | .device           => 5
  | .handshake        => 6
  | .closing          => 7
  | .terminal         => 8
  | .ready            => 9

def values (s : ConnectionStatus) : List U64 :=
  let f := s.flow
  [.ofNat 64 s.sendBuffered, .ofNat 64 s.receiveBuffered, .ofNat 64 f.congestionWindow,
    .ofNat 64 f.slowStartThreshold, .ofNat 64 f.bytesInFlight, .ofNat 64 f.outstandingSegments,
    micros f.retransmissionTimeout, .ofNat 64 f.timeoutRetransmissions,
      f.advertisedWindow.setWidth 64,
    f.peerWindow.setWidth 64]

-- The two bytes behind the code of the wait are reserved.
def writeRecord (record : List U8) (event : TcpEvent) : Option (List U8) := do
  let s := event.status
  let record ← put record 0 (micros event.time)
  let record ← put record 8 (.ofNat 64 event.connection)
  let record ← Slice.set record 16 (state s.state)
  let record ← Slice.set record 17 (wait s.flow.wait)
  let record ← Slice.copy record 20 24 (be32 s.localAddr.ip)
  let record ← Slice.copy record 24 28 (be32 s.remoteAddr.ip)
  let record ← Slice.copy record 28 30 (be16 s.localAddr.port)
  let record ← Slice.copy record 30 32 (be16 s.remoteAddr.port)
  (values s).zipIdx.foldlM (fun record (value, i) => put record (32 + i * 8) value) record

def writeHeader (bytes : List U8) (session : Vector U8 8) (sequence : U64) (counters : Counters)
    (count : Nat) : Option (List U8) := do
  let bytes ← Slice.copy bytes 0 4 [0x4e, 0x53, 0x54, 0x4c]
  let bytes ← Slice.set bytes 4 1
  let bytes ← Slice.copy bytes 6 8 (be16 (.ofNat 16 count))
  let bytes ← Slice.copy bytes 8 16 session.toList
  let bytes ← put bytes 16 sequence
  let bytes ← put bytes 24 counters.progress
  let bytes ← put bytes 32 counters.dropped
  let bytes ← put bytes 40 counters.sendErrors
  put bytes 48 counters.sourceOverwrites

-- A record is a slice of the buffer that is written in place.
def writeAt (bytes : List U8) (event : TcpEvent) (index : Nat) : Option (List U8) := do
  let start := headerSize + index * recordSize
  let stop := headerSize + (index + 1) * recordSize
  let record ← Slice.range bytes start stop
  let record ← writeRecord record event
  Slice.copy bytes start stop record

-- The datagram for a batch, with the counters as they are loaded. There is none for a batch that
-- does not fit: `send` would panic.
def datagram (session : Vector U8 8) (sequence : U64) (counters : Counters)
    (events : List TcpEvent) :
    Option (List U8) := do
  let bytes := List.replicate (headerSize + recordSize * batchSize) 0
  let bytes ← writeHeader bytes session sequence counters events.length
  let bytes ← events.zipIdx.foldlM (fun bytes e => writeAt bytes e.fst e.snd) bytes
  Slice.range bytes 0 (headerSize + recordSize * events.length)

end Telemetry
