import AsyncNetStack.Tcp.Endpoint

open Tcp

-- The two ends of a connection.
inductive Side
  | active
  | passive

-- Two connections that talk to each other. The passive one comes into being when the SYN of the
-- active one arrives.
structure Pair where
  active  : Endpoint
  passive : Option Endpoint

namespace Pair

-- The network has a copy of every emitted segment, and delivers any of them at any time, any number
-- of times, or never.
inductive Event
  | call (side : Side) (call : Call)
  | accept (index : Nat) (iss : U32) (now : Duration)
  | deliver (side : Side) (index : Nat) (now : Duration)

-- The configurations of both ends.
structure Configs where
  active  : TcpConfig
  passive : TcpConfig

def «open» (cfg : Configs) (localAddr remoteAddr : SocketAddr) (iss : U32) (now : Duration) :
    Pair where
  active  := .open cfg.active (.active localAddr remoteAddr iss now)
  passive := none

def accept (cfg : Configs) (p : Pair) (index : Nat) (iss : U32) (now : Duration) : Pair :=
  match p.passive, p.active.emitted[index]? with
  | none, some syn =>
    if has syn.flags SYN then
      { p with passive := some (.open cfg.passive (.passive syn iss now)) }
    else
      p
  | _, _ => p

def deliver (cfg : Configs) (p : Pair) : Side → Nat → Duration → Pair
  | .active, index, now =>
    match p.passive.bind (·.emitted[index]?) with
    | some segment => { p with active := p.active.input segment now cfg.active }
    | none         => p
  | .passive, index, now =>
    match p.active.emitted[index]? with
    | some segment => { p with passive := p.passive.map (·.input segment now cfg.passive) }
    | none         => p

def step (cfg : Configs) (p : Pair) : Event → Pair
  | .call .active call      => { p with active := p.active.call cfg.active call }
  | .call .passive call     => { p with passive := p.passive.map (·.call cfg.passive call) }
  | .accept index iss now   => p.accept cfg index iss now
  | .deliver side index now => p.deliver cfg side index now

-- The pair after a run.
def run (cfg : Configs) (localAddr remoteAddr : SocketAddr) (iss : U32) (now : Duration)
    (events : List Event) : Pair :=
  Transition.exec (step cfg) («open» cfg localAddr remoteAddr iss now) events

def endpoint (p : Pair) : Side → Option Endpoint
  | .active  => p.active
  | .passive => p.passive

-- The bytes that the `write` of a side has accepted.
def written (p : Pair) (side : Side) : List U8 :=
  (p.endpoint side).elim [] (·.written)

end Pair

def Side.other : Side → Side
  | active  => passive
  | passive => active
