import AsyncNetStack.Net.Checksum

inductive ResolveError
  | invalidName
  | busy
  | timeout
  | notFound
  | noData
  | serverFailure
  | refused
  | protocolError
  | tcpRequired
  | aliasLimit
  | cancelled
  | networkChanged
  | localError (kind : ErrorKind)
  deriving DecidableEq

namespace Dns

-- The bytes of the text of a name, with dots between its labels.
abbrev Name := List U8

namespace Wire

-- The records that a message is made of. Times to live are in seconds.
structure Record where
  owner     : Name
  kind      : U16
  ttl       : Nat
  start     : Nat
  stop      : Nat
  authority : Bool

-- What a response says about a name.
inductive Answer
  | addresses (canonical : Name) (addresses : List Ipv4Addr) (ttl : Nat)
  | aliased (target : Name) (ttl hops : Nat)
  | negative (error : ResolveError) (ttl : Option Nat)
  | failure (error : ResolveError)
  deriving DecidableEq

def DOT : U8 := 0x2e

def isHostByte (b : U8) : Bool :=
  (0x30 ≤ b && b ≤ 0x39) || (0x41 ≤ b && b ≤ 0x5a) || (0x61 ≤ b && b ≤ 0x7a) || b = 0x2d || b = 0x5f

def lower (name : Name) : Name :=
  name.map fun b => if 0x41 ≤ b && b ≤ 0x5a then b + 0x20 else b

def normalize (input : List U8) : Except ResolveError Name :=
  let name := if input.getLast? = some DOT then input.dropLast else input
  if name.isEmpty || name.length > 253 ||
      (name.splitOn DOT).any fun label =>
        label.isEmpty || label.length > 63 || !label.all isHostByte then
    .error .invalidName
  else
    .ok (lower name)

-- A recursive query for the addresses of a host.
def query (id : U16) (name : Name) : List U8 :=
  be16 id ++ [1, 0, 0, 1, 0, 0, 0, 0, 0, 0] ++
  (name.splitOn DOT).flatMap (fun label => BitVec.ofNat 8 label.length :: label) ++ [0, 0, 1, 0, 1]

variable (b : List U8)

def word (pos : Nat) : Option U16 :=
  match b.drop pos with
  | b₀ :: b₁ :: _ => some (b₀ ++ b₁)
  | _             => none

def long (pos : Nat) : Option U32 :=
  match b.drop pos with
  | b₀ :: b₁ :: b₂ :: b₃ :: _ => some (b₀ ++ b₁ ++ b₂ ++ b₃)
  | _                         => none

-- The rounds bound both compression loops and chains of labels. The position behind the name is the
-- one behind the first pointer.
def labels (b : List U8) (pos : Nat) (next : Option Nat) (out : Name) : Nat → Option (Name × Nat)
  | 0          => none
  | rounds + 1 => do
    let len ← b[pos]?
    if len &&& 0xc0 = 0xc0 then
      let target := ((← word b pos) &&& 0x3fff).toNat
      if target < 12 || target ≥ pos then
        none
      else
        labels b target (next.or (some (pos + 2))) out rounds
    else if len = 0 then
      some (out, next.getD (pos + 1))
    else
      let label := (b.drop (pos + 1)).take len.toNat
      let out := (if out.isEmpty then out else out ++ [DOT]) ++ label
      if len.toNat > 63 || label.length < len.toNat || !label.all isHostByte ||
        out.length > 253 then
        none
      else
        labels b (pos + 1 + len.toNat) next out rounds

def name (start : Nat) : Option (Name × Nat) :=
  labels b start none [] 128

-- A record with its class. A time to live whose first bit is set counts as zero.
def record (pos : Nat) (authority : Bool) : Option (U16 × Record) := do
  let (owner, pos) ← name b pos
  let kind ← word b pos
  let cls  ← word b (pos + 2)
  let ttl  ← long b (pos + 4)
  let len  ← word b (pos + 8)
  let start := pos + 10
  if start + len.toNat ≤ b.length then
    some (cls, {
      owner     := lower owner
      kind
      ttl       := if ttl.msb then 0 else ttl.toNat
      start
      stop      := start + len.toNat
      authority
    })
  else
    none

-- The records of the answer and authority sections, and the position behind all sections.
def sections (b : List U8) (answers authority i pos : Nat) (records : List Record) :
    Nat → Option (List Record × Nat)
  | 0          => some (records, pos)
  | rounds + 1 => do
    let (cls, r) ← record b pos (answers ≤ i)
    let records := if cls = 1 && i < answers + authority then records ++ [r] else records
    sections b answers authority (i + 1) r.stop records rounds

-- What was found on the way along a chain of aliases.
structure Scan where
  addresses : List Ipv4Addr
  target    : Option Name
  ttl       : Nat

def Scan.count (s : Scan) (r : Record) : Scan :=
  { s with ttl := min s.ttl r.ttl }

-- A host can have many addresses, but only one alias.
def scan (s : Scan) (r : Record) : Option Scan :=
  if r.kind = 1 then
    if r.stop - r.start ≠ 4 then
      none
    else
      (long b r.start).map fun ip =>
        { s.count r with
          addresses := if s.addresses.contains ip then s.addresses else s.addresses ++ [ip] }
  else if r.kind = 5 then
    (name b r.start).bind fun (target, next) =>
      if next ≠ r.stop || target.isEmpty || s.target.any (· ≠ lower target) then
        none
      else
        some { s.count r with target := some (lower target) }
  else
    some s

-- Whether a zone contains a name.
def encloses (owner current : Name) : Bool :=
  owner.isEmpty || current = owner || (DOT :: owner).isSuffixOf current

-- The authorities of a name, which vouch for its absence.
def authorities (records : List Record) (current : Name) : List Record :=
  records.filter fun r => r.authority && r.kind = 6 && encloses r.owner current

-- The shortest time for which they do so.
def authority (ttl : Nat) (least : Option Nat) (r : Record) : Option (Option Nat) := do
  let (_, next) ← name b r.start
  let (_, next) ← name b next
  if next + 20 ≠ r.stop then
    none
  else
    let value := min (min r.ttl (← long b (next + 16)).toNat) ttl
    some (some (least.elim value (min · value)))

def absence (records : List Record) (current : Name) (ttl : Nat) : Option (Option Nat) :=
  (authorities records current).foldlM (authority b ttl) none

-- Follows the aliases from the question on. The flag says that the last name does not exist.
def follow (b : List U8) (records : List Record) (question : Name) (missing : Bool) (current : Name)
    (seen : List Name) (ttl : Nat) : Nat → Option Answer
  | 0          => some (.failure .aliasLimit)
  | rounds + 1 =>
    if seen.contains current then
      some (.failure .aliasLimit)
    else do
      let seen := seen ++ [current]
      let s ← (records.filter fun r => !r.authority && r.owner = current).foldlM (scan b)
        { addresses := [], target := none, ttl }
      if !s.addresses.isEmpty then
        if s.target.isSome || missing then
          none
        else
          some (.addresses current s.addresses s.ttl)
      else
        match s.target with
        | some target => follow b records question missing target seen s.ttl rounds
        | none        =>
          let ttl ← absence b records current s.ttl
          if missing then
            some (.negative .notFound ttl)
          else if current ≠ question && ttl.isNone then
            some (.aliased current s.ttl (seen.length - 1))
          else
            some (.negative .noData ttl)

-- The flags of a message and the position behind its question, if it is a response to the question.
def header (id : U16) (question : Name) : Option (U16 × Nat) :=
  if b.length < 12 || b.length > 512 || word b 0 ≠ some id then
    none
  else do
    let flags ← word b 2
    if flags &&& 0x8000 = 0 || flags &&& 0x7800 ≠ 0 || flags &&& 0x0040 ≠ 0 ||
        word b 4 ≠ some 1 then
      none
    else
      let (q, pos) ← name b 12
      if lower q ≠ lower question || word b pos ≠ some 1 || word b (pos + 2) ≠ some 1 then
        none
      else
        some (flags, pos + 4)

-- The errors that a server reports come before the records.
def serverError (flags : U16) : Option ResolveError :=
  if flags &&& 0x0200 ≠ 0 then
    some .tcpRequired
  else if flags &&& 15 = 2 then
    some .serverFailure
  else if flags &&& 15 = 5 then
    some .refused
  else if flags &&& 15 ≠ 0 && flags &&& 15 ≠ 3 then
    some .protocolError
  else
    none

-- The records of a message, which has nothing behind them.
def contents (pos : Nat) : Option (List Record) := do
  let answers   := (← word b 6).toNat
  let authority := (← word b 8).toNat
  let total     := answers + authority + (← word b 10).toNat
  if total > 64 then
    none
  else
    let (records, pos) ← sections b answers authority 0 pos [] total
    if pos ≠ b.length then none else some records

-- What comes of the records.
def outcome (records : List Record) (question : Name) (missing : Bool)
    (aliasBudget : Nat) : Option Answer :=
  follow b records question missing question [] (2 ^ 32 - 1) (min aliasBudget 8 + 1)

-- There is no answer if a response is malformed, or is not one to the question.
def response (id : U16) (question : Name) (aliasBudget : Nat) : Option Answer := do
  let (flags, pos) ← header b id question
  match serverError flags with
  | some err => some (.failure err)
  | none     => outcome b (← contents b pos) question (flags &&& 15 = 3) aliasBudget

end Wire
end Dns
