import ContractHost.Bytes

/-!
# UTF-8

Text travels as UTF-8.  A byte string is either read strictly, and refused when it is not the
encoding of any text, or leniently, where every broken piece becomes one replacement character.

A broken piece is a maximal one: the longest beginning of a well formed sequence that the bytes
offer, or a single byte where no sequence begins.

## Main definitions

* `Utf8.encode` — the bytes of a text.
* `Utf8.decode?` — the text that a byte string encodes.
* `Utf8.decodeLossy` — the text of any byte string, broken pieces replaced.
-/

namespace ContractHost.Utf8

/-- The bytes of a text. -/
def encode (s : String) : Bytes :=
  s.toByteArray.data.toList

/-- The text that a byte string encodes, if there is one. -/
def decode? (b : Bytes) : Option String :=
  String.fromUTF8? b.toByteArray

@[simp] theorem toByteArray_encode (s : String) : (encode s).toByteArray = s.toByteArray := by
  apply ByteArray.ext
  simp [encode, List.data_toByteArray]

@[simp] theorem decode?_encode (s : String) : decode? (encode s) = some s := by
  simp only [decode?, toByteArray_encode, String.fromUTF8?, dif_pos s.isValidUTF8]
  rfl

theorem encode_of_decode? {b : Bytes} {s : String} (h : decode? b = some s) : encode s = b := by
  simp only [decode?, String.fromUTF8?] at h
  split at h
  · obtain rfl := Option.some.inj h
    simp [encode, String.fromUTF8]
  · simp at h

theorem decode?_eq_some_iff {b : Bytes} {s : String} : decode? b = some s ↔ b = encode s :=
  ⟨fun h => (encode_of_decode? h).symm, fun h => h ▸ decode?_encode s⟩

theorem encode_injective {s t : String} (h : encode s = encode t) : s = t := by
  simpa using congrArg decode? h

/-- What is written in place of a broken piece. -/
def replacement : Char := '\uFFFD'

/-- A multi-byte sequence of which only the beginning has been read. -/
structure Unfinished where
  /-- How many bytes are still to come. -/
  missing : Nat
  /-- The bits read so far. -/
  code : Nat
  /-- The least byte that may come next. -/
  lower : UInt8 := 0x80
  /-- The greatest byte that may come next. -/
  upper : UInt8 := 0xBF

/-- What the first byte of a sequence says: a whole character, the beginning of a longer sequence,
or nothing well formed. -/
def lead (b : UInt8) : List Char × Option Unfinished :=
  if b < 0x80 then ([Char.ofNat b.toNat], none)
  else if 0xC2 ≤ b ∧ b ≤ 0xDF then ([], some { missing := 1, code := b.toNat % 0x20 })
  else if b = 0xE0 then ([], some { missing := 2, code := 0, lower := 0xA0 })
  else if b = 0xED then ([], some { missing := 2, code := 0xD, upper := 0x9F })
  else if 0xE1 ≤ b ∧ b ≤ 0xEF then ([], some { missing := 2, code := b.toNat % 0x10 })
  else if b = 0xF0 then ([], some { missing := 3, code := 0, lower := 0x90 })
  else if b = 0xF4 then ([], some { missing := 3, code := 4, upper := 0x8F })
  else if 0xF1 ≤ b ∧ b ≤ 0xF3 then ([], some { missing := 3, code := b.toNat % 8 })
  else ([replacement], none)

/-- Reads one more byte: the characters that are now settled, and the sequence left open. -/
def feed (pending : Option Unfinished) (b : UInt8) : List Char × Option Unfinished :=
  match pending with
  | none => lead b
  | some p =>
    if p.lower ≤ b ∧ b ≤ p.upper then
      let code := p.code * 0x40 + b.toNat % 0x40
      if p.missing ≤ 1 then ([Char.ofNat code], none)
      else ([], some { missing := p.missing - 1, code })
    else
      let (settled, next) := lead b
      (replacement :: settled, next)

/-- A repair under way. -/
structure Repair where
  /-- The settled characters, the last one first. -/
  settled : List Char := []
  /-- The sequence that the bytes so far leave open. -/
  pending : Option Unfinished := none

/-- Takes one more byte into account. -/
def Repair.step (r : Repair) (b : UInt8) : Repair :=
  let (more, pending) := feed r.pending b
  ⟨more.reverse ++ r.settled, pending⟩

/-- The characters of a byte string, each broken piece replaced. -/
def repair (b : Bytes) : List Char :=
  let r := b.foldl Repair.step {}
  (if r.pending.isSome then replacement :: r.settled else r.settled).reverse

/-- The text of any byte string: the text it encodes, or else its repaired characters. -/
def decodeLossy (b : Bytes) : String :=
  match decode? b with
  | some s => s
  | none => String.ofList (repair b)

theorem decodeLossy_of_decode? {b : Bytes} {s : String} (h : decode? b = some s) :
    decodeLossy b = s := by
  simp [decodeLossy, h]

end ContractHost.Utf8
