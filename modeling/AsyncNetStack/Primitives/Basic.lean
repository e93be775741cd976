import Mathlib

-- Fixed-width machine words. A `usize` that cannot overflow is modeled as a natural number.
abbrev U8  := BitVec 8
abbrev U16 := BitVec 16
abbrev U32 := BitVec 32
abbrev U64 := BitVec 64

-- The kinds of `std::io::Error` which the code distinguishes, and all others under a raw code.
inductive ErrorKind
  | notFound
  | permissionDenied
  | connectionReset
  | notConnected
  | addrInUse
  | addrNotAvailable
  | wouldBlock
  | invalidInput
  | invalidData
  | timedOut
  | other (code : Nat)
  deriving DecidableEq, Repr

structure IoError where
  kind    : ErrorKind
  message : String
  deriving DecidableEq, Repr

abbrev IoResult (α : Type) := Except IoError α

namespace IoError

def invalid (message : String) : IoError :=
  { kind := .invalidInput, message }

def blocked (message : String) : IoError :=
  { kind := .wouldBlock, message }

end IoError

abbrev Ipv4Addr := BitVec 32

namespace Ipv4Addr

def isUnspecified (ip : Ipv4Addr) : Bool :=
  ip == 0#32

def isBroadcast (ip : Ipv4Addr) : Bool :=
  ip == BitVec.allOnes 32

-- 224.0.0.0/4
def isMulticast (ip : Ipv4Addr) : Bool :=
  ip >>> 28 == 14#32

-- 127.0.0.0/8
def isLoopback (ip : Ipv4Addr) : Bool :=
  ip >>> 24 == 127#32

end Ipv4Addr

@[ext]
structure SocketAddr where
  ip   : Ipv4Addr
  port : U16
  deriving DecidableEq, Repr

namespace SocketAddr

-- `SocketAddrV4` is ordered by address first and by port second.
instance : Ord SocketAddr where
  compare := compareLex (compareOn ip) (compareOn port)

instance : Std.TransOrd SocketAddr :=
  inferInstanceAs <| Std.TransCmp (compareLex (compareOn ip) (compareOn port))

instance : Std.LawfulEqOrd SocketAddr where
  compare_self := Std.ReflCmp.compare_self
  eq_of_compare {a b} h := by
    simp only [compare, compareLex_eq_eq, compareOn] at h
    exact SocketAddr.ext (Std.LawfulEqOrd.eq_of_compare h.left)
      (Std.LawfulEqOrd.eq_of_compare h.right)

end SocketAddr

-- Addition on an unsigned word of `w` bits that stops at its maximum.
def saturatingAdd (w : Nat) (a b : Nat) : Nat :=
  min (a + b) (2 ^ w - 1)
