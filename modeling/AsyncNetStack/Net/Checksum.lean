import AsyncNetStack.Primitives.Basic

-- Big-endian words.
def be16 (x : U16) : List U8 :=
  [x.extractLsb' 8 8, x.extractLsb' 0 8]

def be32 (x : U32) : List U8 :=
  [x.extractLsb' 24 8, x.extractLsb' 16 8, x.extractLsb' 8 8, x.extractLsb' 0 8]

@[simp]
theorem be16_length (x : U16) : (be16 x).length = 2 :=
  rfl

@[simp]
theorem be32_length (x : U32) : (be32 x).length = 4 :=
  rfl

-- The sum of the 16-bit words, where an odd last byte is the high half of a word.
def sumWords : List U8 → Nat
  | []             => 0
  | [last]         => last.toNat <<< 8
  | hi :: lo :: bs => (hi ++ lo).toNat + sumWords bs

-- Adds the carries back in until the sum fits 16 bits.
def foldCarries (sum : Nat) : Nat :=
  if _h : sum >>> 16 = 0 then sum else foldCarries ((sum &&& 0xffff) + sum >>> 16)
termination_by sum
decreasing_by
  have : sum &&& 0xffff = sum % 2 ^ 16 := Nat.and_two_pow_sub_one_eq_mod sum 16
  simp only [Nat.shiftRight_eq_div_pow] at *
  omega

def finishSum (sum : Nat) : U16 :=
  ~~~(BitVec.ofNat 16 (foldCarries sum))

-- The Internet checksum: zero for a valid message that contains its own checksum.
def checksum (bytes : List U8) : U16 :=
  finishSum (sumWords bytes)
