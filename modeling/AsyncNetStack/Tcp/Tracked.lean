import AsyncNetStack.Tcp.Endpoint

open Tcp

-- A submission of a flight that the device has accepted.
-- * `flight`: the number of the flight, counted over all flights of the connection
-- * `persist`: whether it was sent as a probe of a closed window
structure Entry where
  flight  : Nat
  time    : Duration
  persist : Bool
  deriving DecidableEq

-- An endpoint together with the history of its flights. No transition depends on the history.
-- * `born`: how many flights have been started
-- * `log`: the submissions of all flights, in order
structure Tracked extends Endpoint where
  born : Nat
  log  : List Entry

namespace Tracked

def «open» (cfg : TcpConfig) (o : Opening) : Tracked where
  toEndpoint := .open cfg o
  born       := (Endpoint.open cfg o).conn.flights.length
  log        := []

-- The number of the flight at the given index. Flights join at the back, and leave from the front.
def number (s : Tracked) (index : Nat) : Nat :=
  s.born - s.conn.flights.length + index

-- The flights that are staged, with those that this starts.
def staged (s : Tracked) (cfg : TcpConfig) (now : Duration) : Tracked :=
  { s with
    conn := (s.conn.stage now cfg).fst
    born := s.born + ((s.conn.stage now cfg).fst.flights.length - s.conn.flights.length) }

-- The submission of the flight at the given index.
def entry (s : Tracked) (index : Option Nat) (now : Duration) : Option Entry :=
  index.bind fun i => s.conn.flights[i]?.map fun f =>
    { flight := s.number i, time := now, persist := f.persist }

-- The submission that an operation adds to the log, if any.
def submission (cfg : TcpConfig) (s : Tracked) : Op → Option Entry
  | .call (.transmit now .accepted) =>
    if (s.conn.emission now cfg).isSome then
      (s.staged cfg now).entry (s.conn.stage now cfg).snd now
    else
      none
  | _ => none

def step (cfg : TcpConfig) (s : Tracked) (op : Op) : Tracked where
  toEndpoint := s.toEndpoint.step cfg op
  born       :=
    s.born + ((s.toEndpoint.step cfg op).conn.flights.length - s.conn.flights.length)
  log        := s.log ++ (s.submission cfg op).toList

-- The history after a run.
def run (cfg : TcpConfig) (o : Opening) (ops : List Op) : Tracked :=
  Transition.exec (step cfg) («open» cfg o) ops

end Tracked
