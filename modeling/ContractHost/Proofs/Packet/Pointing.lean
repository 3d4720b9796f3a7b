import ContractHost.Proofs.Packet.Faults

/-!
# Where the errors of a packet point

An error about a packet names a place, and whoever reads the error looks there.  At the place
stands the field that is cut off, the length that is none, or the text that is not UTF-8.

There is one exception.  The length of a number is checked last, when the reader is done with the
length field and with the number.  A number that has not four bytes is then reported with its
length, but with the place of the number itself, four bytes behind the length.

## Main definitions

* `Packet.numberAt?` — the number that four bytes of a byte string spell.

## Main results

* `Packet.decode_error_place` — **every error points at the fault**, but that of a number of a wrong
  length.
* `Packet.decode_error_misplaced` — such a number.
-/

namespace ContractHost.Packet

/-- The number that the four bytes at `offset` spell. -/
def numberAt? (b : Bytes) (offset : Nat) : Option Int :=
  (Bytes.toInt32? ((b.drop offset).take 4)).map Int32.toInt

theorem numberAt?_append (before left : Bytes) (w : UInt32) :
    numberAt? (before ++ (Bytes.ofWord w ++ left)) before.length = some w.toInt32.toInt := by
  rw [numberAt?, List.drop_left, List.take_left' (Bytes.length_ofWord w), Bytes.toInt32?,
    Bytes.toWord?_ofWord]
  rfl

/-- Right before a value stands its length. -/
theorem Lead.length_before {read : Bytes} {tag : UInt32} {n : Nat} (h : Lead read (.value tag n)) :
    ∃ before w, read = before ++ Bytes.ofWord w ∧ w.toInt32.toInt = n := by
  cases h with
  | @valueLength before _ _ hn h =>
    obtain ⟨⟨hpos, -⟩, hlen⟩ :=
      (Bytes.length_range_iff (by decide : maxValueLength < 2 ^ 31)).mpr ⟨hn, rfl⟩
    exact ⟨before, UInt32.ofNat n, rfl, by omega⟩

namespace Fault

variable {before rest : Bytes} {offset : Nat} {len : Int}

/-- A truncated field begins at the place, and needs more bytes than there are from there on. -/
theorem truncated_place (h : Fault before.length rest (.truncated offset)) :
    ∃ read left f, rest = read ++ left ∧ Lead read f ∧ offset = (before ++ read).length ∧
      offset ≤ (before ++ rest).length ∧ (before ++ rest).length < offset + f.size := by
  cases h with
  | @truncated read left f hlead hleft =>
    refine ⟨read, left, f, rfl, hlead, List.length_append.symm, ?_, ?_⟩
    · simp only [List.length_append]
      omega
    · simp only [List.length_append]
      omega

/-- An invalid length stands at the place, or it is that of a number and stands four bytes before
the place. -/
theorem invalidLength_place (h : Fault before.length rest (.invalidLength len offset)) :
    ∃ read left f, rest = read ++ left ∧ Lead read f ∧ offset = (before ++ read).length ∧
      ((numberAt? (before ++ rest) offset = some len ∧
          ∃ max : Nat, f.limit? = some max ∧ ¬ (0 ≤ len ∧ len ≤ max)) ∨
        (f = .value ValueKind.int32.tag len.toNat ∧ len.toNat ≤ left.length ∧ len ≠ 4 ∧
          4 ≤ offset ∧ numberAt? (before ++ rest) (offset - 4) = some len)) := by
  cases h with
  | @noLength read f max w left hlead hlimit hw =>
    have hoffset : before.length + read.length = (before ++ read).length := by simp
    refine ⟨read, Bytes.ofWord w ++ left, f, by simp, hlead, hoffset, .inl ⟨?_, max, hlimit, hw⟩⟩
    rw [hoffset, List.append_assoc, ← List.append_assoc]
    exact numberAt?_append (before ++ read) left w
  | @noNumber read field left hlead hfield =>
    obtain ⟨first, w, rfl, hw⟩ := hlead.length_before
    refine ⟨first ++ Bytes.ofWord w, field ++ left, _, by simp, hlead, by simp,
      .inr ⟨rfl, by simp, ?_, ?_, ?_⟩⟩
    · omega
    · simp only [List.length_append, Bytes.length_ofWord]
      omega
    · have hnumber := numberAt?_append (before ++ first) (field ++ left) w
      rw [hw] at hnumber
      simpa [Nat.add_assoc, ← Nat.add_assoc] using hnumber

/-- Invalid UTF-8 is a key or a text that begins at the place. -/
theorem invalidUtf8_place (h : Fault before.length rest (.invalidUtf8 offset)) :
    ∃ read field left f, rest = read ++ (field ++ left) ∧ Lead read f ∧
      offset = (before ++ read).length ∧ f.IsText ∧ field.length = f.size ∧
      Utf8.decode? field = none := by
  cases h with
  | @noText read field f left hlead htext hsize hfield =>
    exact ⟨read, field, left, f, by simp, hlead, by simp, htext, hsize, hfield⟩

end Fault

/-- **Every error points at the fault**, but that of a number of a wrong length, which points
behind its length.  When a byte string is refused, all before the failing item is the written form
of a packet that is read, and some sound fields of the failing item lead up to the field that the
error names.

* A truncated field needs more bytes than there are from its place on.
* An invalid length is what the four bytes at its place spell, and it is no length within the limit
  of this length field.  Or the value is a number that is there in full and has not four bytes; then
  the place is that of the number, and its length stands four bytes before.
* Invalid UTF-8 is a key or a text that begins at the place and is not the encoding of any text. -/
theorem decode_error_place {b : Bytes} {e : PacketError} (h : decode b = .error e) :
    ∃ l rest, b = encode ⟨l⟩ ++ rest ∧ decode (encode ⟨l⟩) = .ok ⟨l⟩ ∧
      (∀ offset, e = .truncated offset → ∃ read left f,
        rest = read ++ left ∧ Lead read f ∧ offset = (encode ⟨l⟩ ++ read).length ∧
          offset ≤ b.length ∧ b.length < offset + f.size) ∧
      (∀ len offset, e = .invalidLength len offset → ∃ read left f,
        rest = read ++ left ∧ Lead read f ∧ offset = (encode ⟨l⟩ ++ read).length ∧
          ((numberAt? b offset = some len ∧
              ∃ max : Nat, f.limit? = some max ∧ ¬ (0 ≤ len ∧ len ≤ max)) ∨
            (f = .value ValueKind.int32.tag len.toNat ∧ len.toNat ≤ left.length ∧ len ≠ 4 ∧
              4 ≤ offset ∧ numberAt? b (offset - 4) = some len))) ∧
      (∀ offset, e = .invalidUtf8 offset → ∃ read field left f,
        rest = read ++ (field ++ left) ∧ Lead read f ∧ offset = (encode ⟨l⟩ ++ read).length ∧
          f.IsText ∧ field.length = f.size ∧ Utf8.decode? field = none) := by
  obtain ⟨l, rest, rfl, hl, -, h⟩ := decode_eq_error_iff.mp h
  have hfault (hroom : e ≠ .tooManyItems (maxItems + 1)) : Fault (encode ⟨l⟩).length rest e :=
    h.elim (fun hfull => absurd hfull.2 hroom) And.right
  refine ⟨l, rest, rfl, decode_encode hl, ?_, ?_, ?_⟩
  · rintro offset rfl
    exact (hfault nofun).truncated_place
  · rintro len offset rfl
    exact (hfault nofun).invalidLength_place
  · rintro offset rfl
    exact (hfault nofun).invalidUtf8_place

/-- The length of a key is negative. -/
theorem decode_error_place_negative :
    decode [1, 0, 0, 0, 255, 255, 255, 255] = .error (.invalidLength (-1) 4) ∧
      numberAt? [1, 0, 0, 0, 255, 255, 255, 255] 4 = some (-1) := by
  have hdecode : decode [1, 0, 0, 0, 255, 255, 255, 255] = .error (.invalidLength (-1) 4) := by
    refine decode_eq_error_iff.mpr ⟨[], _, rfl, by decide, by decide, .inr ⟨by decide, ?_⟩⟩
    exact .noLength (w := 4294967295) [] (.originTag .user .start) rfl (by decide)
  obtain ⟨l, rest, -, -, -, hlength, -⟩ := decode_error_place hdecode
  obtain ⟨read, left, f, -, -, -, h⟩ := hlength (-1) 4 rfl
  rcases h with ⟨h, -⟩ | ⟨-, -, -, -, h⟩
  · exact ⟨hdecode, h⟩
  · exact absurd h (by decide)

/-- An item whose value is a number by its tag, and is written in five bytes. -/
def fiveByteNumber : Bytes :=
  [1, 0, 0, 0, 1, 0, 0, 0, 97, 0, 0, 0, 0, 5, 0, 0, 0, 1, 2, 3, 4, 5]

/-- Where the error about the length of a number points, there is no such length. -/
theorem decode_error_misplaced :
    decode fiveByteNumber = .error (.invalidLength 5 17) ∧
      numberAt? fiveByteNumber 17 ≠ some 5 ∧ numberAt? fiveByteNumber 13 = some 5 := by
  refine ⟨?_, by decide, by decide⟩
  refine decode_eq_error_iff.mpr ⟨[], fiveByteNumber, rfl, by decide, by decide,
    .inr ⟨by decide, ?_⟩⟩
  have hsmall : ([1, 2, 3, 4, 5] : Bytes).length ≤ maxValueLength := by decide
  exact .noNumber [] (.valueLength hsmall (.kindTag ValueKind.int32.tag
    (.key "a" (.keyLength (by decide) (.originTag .user .start))))) (by decide)

end ContractHost.Packet
