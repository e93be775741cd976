import AsyncNetStack.Lib.Transition
import AsyncNetStack.Tcp.Connection

open Serial Tcp

-- The calls which the owner of a connection makes on its own initiative.
inductive Call
  | write (bytes : List U8)
  | read (size : Nat)
  | close (now : Duration)
  | tick (now : Duration)
  | transmit (now : Duration) (outcome : Submission)

-- All operations on a connection. Segments come from the network and are arbitrary.
inductive Op
  | call (call : Call)
  | input (segment : Segment) (now : Duration)
  | fail (state : { s : TcpState // s.isFailure })

namespace Connection

-- The payload of all flights, in order.
def outstanding (c : Connection) : List U8 :=
  c.flights.flatMap (·.payload)

end Connection

-- A connection together with the history of its run. No transition depends on the history.
-- * `iss`, `irs`: the initial sequence numbers of this end and of its peer
-- * `written`: the bytes accepted by `write`
-- * `acked`: the bytes which acknowledgments took off the flights
-- * `appended`: the bytes appended to `received`
-- * `returned`: the bytes returned by `read`
-- * `closed`: `close` was called (successfully)
-- * `emitted`: the segments accepted by the device
-- * `promised`: the right edge of the last emitted window, as an offset into the peer's stream
structure Endpoint where
  conn     : Connection
  iss      : U32
  irs      : U32
  written  : List U8
  acked    : List U8
  appended : List U8
  returned : List U8
  closed   : Bool
  emitted  : List Segment
  promised : Option Nat

-- How a connection comes into being.
inductive Opening
  | active (localAddr remoteAddr : SocketAddr) (iss : U32) (now : Duration)
  | passive (syn : Segment) (iss : U32) (now : Duration)

namespace Endpoint

def «open» (cfg : TcpConfig) : Opening → Endpoint
  | .active localAddr remoteAddr iss now => init (.active localAddr remoteAddr iss now cfg) iss 0
  | .passive syn iss now                 => init (.passive syn iss now cfg) iss syn.sequence
where
  init (conn : Connection) (iss irs : U32) : Endpoint := {
    conn, iss, irs
    written  := []
    acked    := []
    appended := []
    returned := []
    closed   := false
    emitted  := []
    promised := none
  }

-- The offset into the peer's stream that `receiveNext` stands for. The FIN counts as a byte.
def receiveOffset (e : Endpoint) : Nat :=
  e.appended.length + e.conn.peerEof.toNat

-- The right edge of the receive window, as an offset into the peer's stream.
def rightEdge (e : Endpoint) (cfg : TcpConfig) : Nat :=
  e.receiveOffset + (e.conn.advertisedWindow cfg).toNat

def write (e : Endpoint) (bytes : List U8) (cfg : TcpConfig) : Endpoint :=
  match e.conn.write bytes cfg with
  | (conn, .ok n)    => { e with conn, written := e.written ++ bytes.take n }
  | (conn, .error _) => { e with conn }

def read (e : Endpoint) (size : Nat) : Endpoint :=
  match e.conn.read size with
  | (conn, .ok bytes) => { e with conn, returned := e.returned ++ bytes }
  | (conn, .error _)  => { e with conn }

def close (e : Endpoint) (now : Duration) (cfg : TcpConfig) : Endpoint :=
  match e.conn.close now cfg with
  | (conn, .ok _)    => { e with conn, closed := true }
  | (conn, .error _) => { e with conn }

def transmit (e : Endpoint) (now : Duration) (outcome : Submission) (cfg : TcpConfig) : Endpoint :=
  match e.conn.emission now cfg, outcome with
  | some segment, .accepted =>
    { e with
      conn     := (e.conn.transmitted now cfg .accepted).fst
      emitted  := e.emitted ++ [segment]
      promised := some (e.receiveOffset + segment.window.toNat) }
  | _, _ =>
    { e with conn := (e.conn.transmitted now cfg outcome).fst }

-- A failure discards the buffers, and so takes nothing off the flights and appends nothing.
def input (e : Endpoint) (segment : Segment) (now : Duration) (cfg : TcpConfig) : Endpoint :=
  let conn := e.conn.input segment now cfg
  if conn.state.isFailure then
    { e with conn }
  else
    { e with
      conn
      irs      :=
        if e.conn.state = .synSent ∧ conn.state ≠ .synSent then segment.sequence else e.irs
      acked    :=
        e.acked ++ e.conn.outstanding.take (e.conn.outstanding.length - conn.outstanding.length)
      appended := e.appended ++ conn.received.drop e.conn.received.length }

def call (cfg : TcpConfig) (e : Endpoint) : Call → Endpoint
  | .write bytes          => e.write bytes cfg
  | .read size            => e.read size
  | .close now            => e.close now cfg
  | .tick now             => { e with conn := e.conn.tick now cfg }
  | .transmit now outcome => e.transmit now outcome cfg

def step (cfg : TcpConfig) (e : Endpoint) : Op → Endpoint
  | .call c            => e.call cfg c
  | .input segment now => e.input segment now cfg
  | .fail state        => { e with conn := e.conn.fail state }

-- The endpoint after a run.
def run (cfg : TcpConfig) (o : Opening) (ops : List Op) : Endpoint :=
  Transition.exec (step cfg) («open» cfg o) ops

end Endpoint
