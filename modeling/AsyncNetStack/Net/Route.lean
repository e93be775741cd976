import AsyncNetStack.Primitives.Basic

namespace Ipv4Addr

def unicast (ip : Ipv4Addr) : Bool :=
  !ip.isUnspecified && !ip.isBroadcast && !ip.isMulticast && !ip.isLoopback

-- The network mask of a prefix of at most 32 bits.
def mask (prefixLen : Nat) : U32 :=
  if prefixLen = 0 then 0 else BitVec.allOnes 32 <<< (32 - prefixLen)

end Ipv4Addr

open Ipv4Addr

-- Routes are only built by `Route::new`, which rejects invalid arguments and clears the host bits.
@[ext]
structure Route where
  network         : Ipv4Addr
  prefixLen       : Nat
  gateway         : Option Ipv4Addr
  prefix_le       : prefixLen ≤ 32
  network_masked  : network &&& mask prefixLen = network
  gateway_unicast : gateway.all unicast

namespace Route

instance : DecidableEq Route := fun r₁ r₂ =>
  decidable_of_iff (r₁.network = r₂.network ∧ r₁.prefixLen = r₂.prefixLen ∧ r₁.gateway = r₂.gateway)
    (by rw [Route.ext_iff])

def new (address : Ipv4Addr) (prefixLen : Nat) (gateway : Option Ipv4Addr) : IoResult Route :=
  if h : prefixLen ≤ 32 ∧ gateway.all unicast then
    .ok {
      network         := address &&& mask prefixLen
      prefixLen       := prefixLen
      gateway         := gateway
      prefix_le       := h.left
      network_masked  := by rw [BitVec.and_assoc, BitVec.and_self]
      gateway_unicast := h.right
    }
  else
    .error (.invalid "invalid IPv4 route")

def contains (r : Route) (ip : Ipv4Addr) : Bool :=
  ip &&& mask r.prefixLen == r.network

def nextHop (r : Route) (destination : Ipv4Addr) : Ipv4Addr :=
  r.gateway.getD destination

def samePrefix (r₁ r₂ : Route) : Bool :=
  r₁.network == r₂.network && r₁.prefixLen == r₂.prefixLen

end Route

structure RouteTable where
  entries : List Route
  limit   : Nat

namespace RouteTable

def new (limit : Nat) : RouteTable where
  entries := []
  limit   := limit

-- Replaces the route with the same prefix, if there is one.
def insert (t : RouteTable) (route : Route) : IoResult RouteTable :=
  match t.entries.findIdx? (·.samePrefix route) with
  | some i => .ok { t with entries := t.entries.set i route }
  | none   =>
    if t.entries.length = t.limit then
      .error (.blocked "route table full")
    else
      .ok { t with entries := t.entries ++ [route] }

-- `max_by_key` returns the last one of several maximal elements.
def lookup (t : RouteTable) (destination : Ipv4Addr) : Option Route :=
  (t.entries.filter (·.contains destination)).foldl
    (fun best r => if best.all (·.prefixLen ≤ r.prefixLen) then some r else best) none

def remove (t : RouteTable) (address : Ipv4Addr) (prefixLen : Nat) :
    IoResult (RouteTable × Bool) :=
  match Route.new address prefixLen none with
  | .error e => .error e
  | .ok key  =>
    let entries := t.entries.filter (!·.samePrefix key)
    .ok ({ t with entries }, entries.length != t.entries.length)

end RouteTable
