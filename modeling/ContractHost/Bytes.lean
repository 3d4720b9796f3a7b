/-!
# Byte strings and their fixed-width fields

Contracts and the host exchange byte strings.  Numbers inside them are 32 bits wide and written
with the least significant byte first.

## Main definitions

* `Bytes` — a byte string.
* `Bytes.ofWord`, `Bytes.toWord?` — the four byte form of a 32 bit word and its inverse.
* `Bytes.ofInt32`, `Bytes.toInt32?` — the same for signed numbers.
-/

namespace ContractHost

/-- A byte string. -/
abbrev Bytes := List UInt8

namespace Bytes

/-- The four bytes of a word, least significant first. -/
def ofWord (w : UInt32) : Bytes :=
  [w.toUInt8, (w >>> 8).toUInt8, (w >>> 16).toUInt8, (w >>> 24).toUInt8]

/-- The word that four bytes spell, least significant first. -/
def wordOf (a b c d : UInt8) : UInt32 :=
  a.toUInt32 ||| (b.toUInt32 <<< 8) ||| (c.toUInt32 <<< 16) ||| (d.toUInt32 <<< 24)

/-- The word in a byte string of exactly four bytes. -/
def toWord? : Bytes → Option UInt32
  | [a, b, c, d] => some (wordOf a b c d)
  | _ => none

/-- The four bytes of a signed number in two's complement. -/
def ofInt32 (n : Int32) : Bytes :=
  ofWord n.toUInt32

/-- The signed number in a byte string of exactly four bytes. -/
def toInt32? (b : Bytes) : Option Int32 :=
  (toWord? b).map UInt32.toInt32

/-- The length of a byte string as a 32 bit word, modulo `2 ^ 32`. -/
def lengthWord (b : Bytes) : UInt32 :=
  UInt32.ofNat b.length

@[simp] theorem length_ofWord (w : UInt32) : (ofWord w).length = 4 := rfl

@[simp] theorem length_ofInt32 (n : Int32) : (ofInt32 n).length = 4 := rfl

@[simp] theorem toWord?_ofWord (w : UInt32) : toWord? (ofWord w) = some w := by
  simp only [toWord?, ofWord, wordOf]
  congr 1
  apply UInt32.toBitVec_inj.1
  have h8 : (8 : UInt32).toBitVec % 32 = 8#32 := rfl
  have h16 : (16 : UInt32).toBitVec % 32 = 16#32 := rfl
  have h24 : (24 : UInt32).toBitVec % 32 = 24#32 := rfl
  ext i hi
  have hw : w.toBitVec[i] = w.toBitVec.getLsbD i := rfl
  simp only [UInt32.toBitVec_or, UInt32.toBitVec_shiftLeft, UInt8.toBitVec_toUInt32,
    UInt32.toBitVec_toUInt8, UInt32.toBitVec_shiftRight, h8, h16, h24, hw, BitVec.getElem_or,
    BitVec.getElem_setWidth, BitVec.getLsbD_setWidth, BitVec.shiftLeft_eq',
    BitVec.ushiftRight_eq', BitVec.getElem_shiftLeft, BitVec.getLsbD_ushiftRight,
    BitVec.toNat_ofNat]
  by_cases h1 : i < 8
  · simp [h1, show i < 16 by omega, show i < 24 by omega]
  · by_cases h2 : i < 16 <;> by_cases h3 : i < 24 <;> simp [h1, h2, h3] <;> grind

@[simp] theorem toInt32?_ofInt32 (n : Int32) : toInt32? (ofInt32 n) = some n := by
  simp [toInt32?, ofInt32]

end Bytes

end ContractHost
