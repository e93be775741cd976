import AsyncNetStack.Dns.Wire

-- What a response says, apart from how it is decoded.
namespace Dns.Wire

def kindA : U16 := 1

def kindCname : U16 := 5

variable (b : List U8)

def rcode : Option U16 :=
  (word b 2).map (· &&& 15)

-- The records of a response that are looked at, and whether the name at the end does not exist.
def reading (id : U16) (question : Name) : Option (List Record × Bool) := do
  let (flags, pos) ← header b id question
  if (serverError flags).isSome then
    none
  else
    return (← contents b pos, flags &&& 15 = 3)

-- Records that stand one behind the other, with their classes.
def entries (b : List U8) (pos : Nat) : Nat → List (U16 × Record)
  | 0     => []
  | n + 1 =>
    match record b pos false with
    | none          => []
    | some (cls, r) => (cls, r) :: entries b r.stop n

-- The records of the internet class in the answer section, which stands behind the question.
def answerSection : List Record :=
  match name b 12, word b 6 with
  | some (_, pos), some answers =>
    ((entries b (pos + 4) answers.toNat).filter (·.fst = 1)).map Prod.snd
  | _, _ => []

def owned (records : List Record) (owner : Name) (kind : U16) : List Record :=
  records.filter fun r => r.owner = owner && r.kind = kind

def rdata (r : Record) : List U8 :=
  (b.take r.stop).drop r.start

-- The name that an alias stands for. It fills the data of the record.
def aliased (r : Record) : Option Name :=
  (name b r.start).bind fun (target, next) => if next = r.stop then some (lower target) else none

-- A name is an alias of another one, and nothing else.
structure Link (b : List U8) (records : List Record) (n₁ n₂ : Name) : Prop where
  owns     : owned records n₁ kindCname ≠ []
  targets  : ∀ r ∈ owned records n₁ kindCname, aliased b r = some n₂
  hostless : owned records n₁ kindA = []

-- The names from a question to the one that it is an alias of.
structure Chain (b : List U8) (records : List Record) (question : Name) (names : List Name)
    (canonical : Name) : Prop where
  head  : names.head? = some question
  last  : names.getLast? = some canonical
  nodup : names.Nodup
  links : names.IsChain (Link b records)

-- The addresses of a host that is no alias.
structure Hosted (b : List U8) (records : List Record) (canonical : Name)
    (addresses : List Ipv4Addr) : Prop where
  unaliased : owned records canonical kindCname = []
  nodup     : addresses.Nodup
  complete  : ∀ r ∈ owned records canonical kindA, ∃ ip ∈ addresses, rdata b r = be32 ip
  sound     : ∀ ip ∈ addresses, ∃ r ∈ owned records canonical kindA, rdata b r = be32 ip

-- The records that addresses rest on: the aliases on the way, and the addresses themselves.
def basis (records : List Record) (names : List Name) (canonical : Name) : List Record :=
  names.flatMap (owned records · kindCname) ++ owned records canonical kindA

-- The records that an answer rests on. The absence of a name is vouched for by its authorities.
inductive Rests (b : List U8) (id : U16) (question : Name) : Answer → List Record → Prop
  | addresses {canonical : Name} {addresses : List Ipv4Addr} {ttl : Nat} {names : List Name}
      (chain : Chain b (answerSection b) question names canonical) :
      Rests b id question (.addresses canonical addresses ttl)
      (basis (answerSection b) names canonical)
  | aliased {target : Name} {ttl hops : Nat} {names : List Name}
      (chain : Chain b (answerSection b) question names target) :
      Rests b id question (.aliased target ttl hops) (basis (answerSection b) names target)
  | negative {error : ResolveError} {ttl : Option Nat} {names : List Name} {last : Name}
      {records : List Record} {missing : Bool}
      (read      : reading b id question = some (records, missing))
      (chain     : Chain b (answerSection b) question names last)
      (unaliased : owned (answerSection b) last kindCname = []) :
      Rests b id question (.negative error ttl)
        (basis (answerSection b) names last ++ authorities records last)

-- How long an answer lasts.
def Answer.lifetime : Answer → Option Nat
  | .addresses _ _ ttl => some ttl
  | .aliased _ ttl _   => some ttl
  | .negative _ ttl    => ttl
  | .failure _         => none

-- Answers that say the same. They can list addresses in different orders.
inductive Answer.Agrees : Answer → Answer → Prop
  | addresses {canonical : Name} {addresses₁ addresses₂ : List Ipv4Addr} {ttl : Nat}
      (same : ∀ ip, ip ∈ addresses₁ ↔ ip ∈ addresses₂) :
      Agrees (.addresses canonical addresses₁ ttl) (.addresses canonical addresses₂ ttl)
  | aliased {target : Name} {ttl hops : Nat} :
      Agrees (.aliased target ttl hops) (.aliased target ttl hops)
  | negative {error : ResolveError} {ttl : Option Nat} :
      Agrees (.negative error ttl) (.negative error ttl)
  | failure {error : ResolveError} :
      Agrees (.failure error) (.failure error)

-- The names that `follow` goes along.
def visited (b : List U8) (records : List Record) (current : Name) (seen : List Name) (ttl : Nat) :
    Nat → List Name
  | 0          => seen
  | rounds + 1 =>
    if seen.contains current then
      seen
    else
      let seen := seen ++ [current]
      match (records.filter fun r => !r.authority && r.owner = current).foldlM (scan b)
          { addresses := [], target := none, ttl } with
      | none   => seen
      | some s =>
        if !s.addresses.isEmpty then
          seen
        else
          match s.target with
          | some target => visited b records target seen s.ttl rounds
          | none        => seen

-- The number of aliases that are followed in a response.
def hops (id : U16) (question : Name) (aliasBudget : Nat) : Nat :=
  (reading b id question).elim 0 fun o =>
    (visited b o.fst question [] (2 ^ 32 - 1) (min aliasBudget 8 + 1)).length - 1

end Dns.Wire
