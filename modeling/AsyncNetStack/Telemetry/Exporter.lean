import AsyncNetStack.Lib.Trace
import AsyncNetStack.Telemetry.Wire

namespace Telemetry

-- The values of an event are within the ranges of their types.
structure Event.Fits (event : TcpEvent) : Prop where
  connection             : event.connection < 2 ^ 64
  sendBuffered           : event.status.sendBuffered < 2 ^ 64
  receiveBuffered        : event.status.receiveBuffered < 2 ^ 64
  congestionWindow       : event.status.flow.congestionWindow < 2 ^ 64
  slowStartThreshold     : event.status.flow.slowStartThreshold < 2 ^ 64
  bytesInFlight          : event.status.flow.bytesInFlight < 2 ^ 64
  outstandingSegments    : event.status.flow.outstandingSegments < 2 ^ 64
  timeoutRetransmissions : event.status.flow.timeoutRetransmissions < 2 ^ 64

-- Where the thread of the exporter is in its loop. Before it takes the records, it reads whether it
-- has to stop. A batch is a slice of the pending records, which are only cleared after the last
-- one.
inductive Phase
  | parked
  | loaded (stopping : Bool)
  | sending (stopping : Bool) (batches : List (List TcpEvent))
  | finished
  | panicked

-- The producer and the exporter, which are interleaved at the accesses to what they share. Only the
-- counters for a datagram are loaded in one step.
structure Exporter where
  capacity : Nat
  session  : Vector U8 8
  records  : List TcpEvent
  stopped  : Bool
  counters : Counters
  sequence : U64
  phase    : Phase

namespace Exporter

def start (capacity : Nat) (session : Vector U8 8) : Exporter where
  capacity := capacity
  session  := session
  records  := []
  stopped  := false
  counters := .zero
  sequence := 0
  phase    := .parked

-- `contended` is whether the lock is taken, `due` whether it is time for a heartbeat, and `result`
-- is what the socket returns.
inductive Op
  | record (event : TcpEvent) (fits : Event.Fits event) (contended : Bool)
  | progress (sourceOverwrites : U64)
  | stop
  | load
  | swap (due : Bool)
  | send (result : IoResult Nat)
  | park

variable (x : Exporter)

-- The producer consumes its handle to stop the exporter.
def record (event : TcpEvent) (contended : Bool) : Exporter × Bool :=
  if !contended && x.records.length < x.capacity then
    ({ x with records := x.records ++ [event] }, true)
  else
    ({ x with counters.dropped := x.counters.dropped + 1 }, false)

def progress (x : Exporter) (sourceOverwrites : U64) : Exporter :=
  { x with
    counters.progress         := x.counters.progress + 1
    counters.sourceOverwrites := sourceOverwrites }

-- Without records, there is a datagram only if a heartbeat is due, or at the end.
def batches (records : List TcpEvent) (due stopping : Bool) : List (List TcpEvent) :=
  (if records.isEmpty && (due || stopping) then [[]] else []) ++ Slice.chunks batchSize records

def swap (due stopping : Bool) : Exporter :=
  { x with records := [], phase := .sending stopping (batches x.records due stopping) }

def send (stopping : Bool) (batch : List TcpEvent) (rest : List (List TcpEvent))
    (result : IoResult Nat) : Exporter :=
  match datagram x.session x.sequence x.counters batch with
  | none       => { x with phase := .panicked }
  | some bytes =>
    let x := { x with sequence := x.sequence + 1, phase := .sending stopping rest }
    if result.toOption = some bytes.length then
      x
    else
      { x with counters.sendErrors := x.counters.sendErrors + 1 }

def step : Op → Exporter
  | .record event _ contended  => if x.stopped then x else (x.record event contended).fst
  | .progress sourceOverwrites => if x.stopped then x else x.progress sourceOverwrites
  | .stop                      => { x with stopped := true }
  | .load =>
    match x.phase with
    | .parked => { x with phase := .loaded x.stopped }
    | _       => x
  | .swap due =>
    match x.phase with
    | .loaded stopping => x.swap due stopping
    | _                => x
  | .send result =>
    match x.phase with
    | .sending stopping (batch :: rest) => x.send stopping batch rest result
    | _                                 => x
  | .park =>
    match x.phase with
    | .sending stopping [] => { x with phase := if stopping then .finished else .parked }
    | _                    => x

-- The events that are accepted from the producer.
def accepted : Op → List TcpEvent
  | .record event _ contended =>
    if !x.stopped && (x.record event contended).snd then [event] else []
  | _                         => []

-- A datagram that is handed to the socket, with what it was made of.
structure Datagram where
  sequence : U64
  counters : Counters
  batch    : List TcpEvent
  bytes    : List U8

def written : Op → List Datagram
  | .send _ =>
    match x.phase with
    | .sending _ (batch :: _) =>
      ((datagram x.session x.sequence x.counters batch).map fun bytes =>
        ⟨x.sequence, x.counters, batch, bytes⟩).toList
    | _ => []
  | _ => []

end Exporter

end Telemetry
