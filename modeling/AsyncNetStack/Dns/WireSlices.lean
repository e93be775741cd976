import AsyncNetStack.Dns.Wire
import AsyncNetStack.Lib.Fallible

open Fallible

-- The decoder with all of its operations that can panic: names and words are read with checks, but
-- the octets of an address are read by index, and lengths are differences. The outer `none` is a
-- panic, and the inner one is a malformed message.
namespace Dns.Wire.Slices

abbrev Decode (α : Type) : Type :=
  OptionT Option α

-- `b[index]`
def index (b : List U8) (index : Nat) : Decode U8 :=
  .lift b[index]?

-- `m - n`
def sub (m n : Nat) : Decode Nat :=
  .lift (if n ≤ m then some (m - n) else none)

def scan (b : List U8) (s : Scan) (r : Record) : Decode Scan :=
  if r.kind = 1 then do
    let len ← sub r.stop r.start
    if len ≠ 4 then
      failure
    else
      let b₀ ← index b r.start
      let b₁ ← index b (r.start + 1)
      let b₂ ← index b (r.start + 2)
      let b₃ ← index b (r.start + 3)
      let ip := b₀ ++ b₁ ++ b₂ ++ b₃
      return { s.count r with
        addresses := if s.addresses.contains ip then s.addresses else s.addresses ++ [ip] }
  else if r.kind = 5 then do
    let (target, next) ← checked (name b r.start)
    if next ≠ r.stop || target.isEmpty || s.target.any (· ≠ lower target) then
      failure
    else
      return { s.count r with target := some (lower target) }
  else
    return s

def follow (b : List U8) (records : List Record) (question : Name) (missing : Bool) (current : Name)
    (seen : List Name) (ttl : Nat) : Nat → Decode Answer
  | 0          => return .failure .aliasLimit
  | rounds + 1 =>
    if seen.contains current then
      return .failure .aliasLimit
    else do
      let seen := seen ++ [current]
      let s ← (records.filter fun r => !r.authority && r.owner = current).foldlM (scan b)
        { addresses := [], target := none, ttl }
      if !s.addresses.isEmpty then
        if s.target.isSome || missing then
          failure
        else
          return .addresses current s.addresses s.ttl
      else
        match s.target with
        | some target => follow b records question missing target seen s.ttl rounds
        | none        =>
          let ttl ← checked (absence b records current s.ttl)
          if missing then
            return .negative .notFound ttl
          else if current ≠ question && ttl.isNone then
            let hops ← sub seen.length 1
            return .aliased current s.ttl hops
          else
            return .negative .noData ttl

def response (b : List U8) (id : U16) (question : Name) (aliasBudget : Nat) : Decode Answer := do
  let (flags, pos) ← checked (header b id question)
  match serverError flags with
  | some err => return .failure err
  | none     =>
    let records ← checked (contents b pos)
    follow b records question (flags &&& 15 = 3) question [] (2 ^ 32 - 1) (min aliasBudget 8 + 1)

end Dns.Wire.Slices
