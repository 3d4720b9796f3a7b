import ContractHost.Bytes

/-!
# SipHash-1-3

The digest of a byte string is SipHash with one round per block and three at the end, under the
zero key.  What is hashed is the length of the byte string in eight bytes, followed by the bytes.

## Main definitions

* `SipHash.hash` — the hash of a byte string under two key words.
* `digest` — the digest of a byte string.
* `digestText` — its sixteen hexadecimal digits.
-/

namespace ContractHost

namespace SipHash

/-- The four words of the state. -/
structure State where
  /-- The first word. -/
  v₀ : UInt64
  /-- The second word. -/
  v₁ : UInt64
  /-- The third word. -/
  v₂ : UInt64
  /-- The fourth word. -/
  v₃ : UInt64

/-- Rotates a word to the left by `n` bits, `0 < n < 64`. -/
def rotate (x : UInt64) (n : UInt64) : UInt64 :=
  (x <<< n) ||| (x >>> (64 - n))

/-- One round. -/
def State.round (s : State) : State :=
  let v₀ := s.v₀ + s.v₁
  let v₁ := rotate s.v₁ 13 ^^^ v₀
  let v₀ := rotate v₀ 32
  let v₂ := s.v₂ + s.v₃
  let v₃ := rotate s.v₃ 16 ^^^ v₂
  let v₀ := v₀ + v₃
  let v₃ := rotate v₃ 21 ^^^ v₀
  let v₂ := v₂ + v₁
  let v₁ := rotate v₁ 17 ^^^ v₂
  let v₂ := rotate v₂ 32
  ⟨v₀, v₁, v₂, v₃⟩

/-- Takes a block into the state, with one round. -/
def State.absorb (s : State) (block : UInt64) : State :=
  let s := State.round { s with v₃ := s.v₃ ^^^ block }
  { s with v₀ := s.v₀ ^^^ block }

/-- The state for two key words. -/
def State.start (k₀ k₁ : UInt64) : State :=
  ⟨k₀ ^^^ 0x736f6d6570736575, k₁ ^^^ 0x646f72616e646f6d, k₀ ^^^ 0x6c7967656e657261,
    k₁ ^^^ 0x7465646279746573⟩

/-- The word that up to eight bytes spell, least significant first. -/
def word (b : Bytes) : UInt64 :=
  b.foldr (fun x w => (w <<< 8) ||| x.toUInt64) 0

/-- Takes all whole blocks into the state, and then the last bytes together with the length. -/
def State.absorbAll (length : Nat) (s : State) : Bytes → State
  | a :: b :: c :: d :: e :: f :: g :: h :: rest =>
    (s.absorb (word [a, b, c, d, e, f, g, h])).absorbAll length rest
  | last => s.absorb (word last ||| (UInt64.ofNat length <<< 56))

/-- The final mixing, with three rounds. -/
def State.finish (s : State) : UInt64 :=
  let s := State.round (State.round (State.round { s with v₂ := s.v₂ ^^^ 0xff }))
  s.v₀ ^^^ s.v₁ ^^^ s.v₂ ^^^ s.v₃

/-- The hash of a byte string under two key words. -/
def hash (k₀ k₁ : UInt64) (b : Bytes) : UInt64 :=
  ((State.start k₀ k₁).absorbAll b.length b).finish

end SipHash

/-- A length in eight bytes, least significant first. -/
def lengthBytes (n : Nat) : Bytes :=
  (List.range 8).map fun i => UInt8.ofNat (n >>> (8 * i))

/-- The digest of a byte string. -/
def digest (b : Bytes) : UInt64 :=
  SipHash.hash 0 0 (lengthBytes b.length ++ b)

/-- The sixteen lower case hexadecimal digits of a digest. -/
def digestText (h : UInt64) : String :=
  let digits := Nat.toDigits 16 h.toNat
  String.ofList (List.replicate (16 - digits.length) '0' ++ digits)

end ContractHost
