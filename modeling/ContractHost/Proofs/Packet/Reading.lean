import ContractHost.Packet.Decoding
import Mathlib.Algebra.Group.Nat.Defs

/-!
# Reading accepts exactly what writing produces

A packet has one written form only.  The reader walks over six fields, so the statement is built
from one statement per field: reading a field succeeds exactly when what is left to read begins
with the written form of the field, and it then goes on behind it.  The offset of the reader stays
free throughout, since an item may begin anywhere.

## Main definitions

* `Item.WithinLimits`, `Packet.WithinLimits` — what a reader accepts.

## Main results

* `Packet.Reader.item_eq_ok_iff` — the specification of reading an item.
* `Packet.decode_eq_ok_iff` — the specification of reading a packet.
* `Packet.decode_exact` — **reading and writing undo each other**, within the limits.
* `Packet.encode_injOn` — writing is one to one, far beyond the limits.
-/

namespace Except

/-- Two steps succeed together exactly when the first succeeds, and the second does on what the
first gives. -/
theorem bind_eq_ok_iff {ε α β : Type} {x : Except ε α} {f : α → Except ε β} {b : β} :
    (x >>= f) = .ok b ↔ ∃ a, x = .ok a ∧ f a = .ok b := by
  cases x with
  | error e =>
    constructor
    · intro h
      cases h
    · rintro ⟨a, h, -⟩
      cases h
  | ok a =>
    constructor
    · intro h
      exact ⟨a, rfl, h⟩
    · rintro ⟨a', h, h'⟩
      cases h
      exact h'

end Except

namespace ContractHost

/-! ### Limits -/

/-- The key and the value are no longer than a reader accepts. -/
def Item.WithinLimits (i : Item) : Prop :=
  (Utf8.encode i.key).length ≤ Packet.maxKeyLength ∧
    i.value.toBytes.length ≤ Packet.maxValueLength

/-- There are no more items than a reader accepts, and none is too long. -/
def Packet.WithinLimits (p : Packet) : Prop :=
  p.items.length ≤ Packet.maxItems ∧ ∀ i ∈ p.items, i.WithinLimits

instance (i : Item) : Decidable i.WithinLimits :=
  inferInstanceAs (Decidable (_ ∧ _))

instance (p : Packet) : Decidable p.WithinLimits :=
  inferInstanceAs (Decidable (_ ∧ _))

/-! ### Words -/

namespace Bytes

/-- Four bytes are the written form of the word that they spell. -/
theorem ofWord_wordOf (a b c d : UInt8) : ofWord (wordOf a b c d) = [a, b, c, d] := by
  simp only [ofWord, wordOf, List.cons.injEq, and_true]
  -- bit by bit: only one of the four shifted bytes reaches each place
  refine ⟨?_, ?_, ?_, ?_⟩ <;> apply UInt8.toBitVec_inj.1 <;> ext i hi
  · simp [UInt32.toBitVec_shiftLeft]
  all_goals
    simp [UInt32.toBitVec_shiftLeft, UInt32.toBitVec_shiftRight]
    grind

theorem toWord?_eq_some_iff {b : Bytes} {w : UInt32} : toWord? b = some w ↔ b = ofWord w := by
  constructor
  · intro h
    match b, h with
    | [a, b, c, d], h =>
      rw [← Option.some.inj h]
      exact (ofWord_wordOf a b c d).symm
  · rintro rfl
    exact toWord?_ofWord w

theorem toInt32?_eq_some_iff {b : Bytes} {n : Int32} : toInt32? b = some n ↔ b = ofInt32 n := by
  rw [toInt32?, Option.map_eq_some_iff]
  constructor
  · rintro ⟨w, hw, rfl⟩
    rw [toWord?_eq_some_iff.mp hw, ofInt32, UInt32.toUInt32_toInt32]
  · rintro rfl
    exact ⟨n.toUInt32, toWord?_ofWord _, Int32.toInt32_toUInt32 n⟩

/-- A length field holds a length of at most `max` exactly when the number it spells is one. -/
theorem length_range_iff {w : UInt32} {n max : Nat} (hmax : max < 2 ^ 31) :
    (0 ≤ w.toInt32.toInt ∧ w.toInt32.toInt ≤ max) ∧ w.toInt32.toInt.toNat = n ↔
      n ≤ max ∧ w = UInt32.ofNat n := by
  have hw : w.toInt32.toInt = if 2 * w.toNat < 2 ^ 32 then (w.toNat : Int)
      else (w.toNat : Int) - 2 ^ 32 := BitVec.toInt_eq_toNat_cond w.toBitVec
  have hlt : w.toNat < 2 ^ 32 := w.toNat_lt
  rw [← UInt32.toNat_inj, UInt32.toNat_ofNat', hw]
  split <;> omega

end Bytes

/-! ### Fields -/

namespace Packet.Reader

theorem take_eq_ok_iff {r r' : Reader} {n : Nat} {field : Bytes} :
    r.take n = .ok (field, r') ↔
      field.length = n ∧ r.rest = field ++ r'.rest ∧ r'.offset = r.offset + n := by
  obtain ⟨offset, rest⟩ := r
  obtain ⟨offset', rest'⟩ := r'
  simp only [take]
  constructor
  · intro h
    split at h
    · rename_i hlen
      cases h
      exact ⟨hlen, (List.take_append_drop n rest).symm, rfl⟩
    · cases h
  · rintro ⟨rfl, rfl, rfl⟩
    simp

theorem word_eq_ok_iff {r r' : Reader} {w : UInt32} :
    r.word = .ok (w, r') ↔ r.rest = Bytes.ofWord w ++ r'.rest ∧ r'.offset = r.offset + 4 := by
  rw [word, Except.bind_eq_ok_iff]
  constructor
  · rintro ⟨⟨field, r₁⟩, htake, h⟩
    obtain ⟨-, hrest, hoffset⟩ := take_eq_ok_iff.mp htake
    dsimp only at h
    cases hw : Bytes.toWord? field with
    | none => rw [hw] at h; cases h
    | some w₁ =>
      rw [hw] at h
      cases h
      rw [Bytes.toWord?_eq_some_iff.mp hw] at hrest
      exact ⟨hrest, hoffset⟩
  · rintro ⟨hrest, hoffset⟩
    refine ⟨(Bytes.ofWord w, r'), take_eq_ok_iff.mpr ⟨rfl, hrest, hoffset⟩, ?_⟩
    dsimp only
    rw [Bytes.toWord?_ofWord]
    rfl

theorem length_eq_ok_iff {r r' : Reader} {n max : Nat} (hmax : max < 2 ^ 31) :
    r.length max = .ok (n, r') ↔
      n ≤ max ∧ r.rest = Bytes.ofWord (UInt32.ofNat n) ++ r'.rest ∧ r'.offset = r.offset + 4 := by
  rw [length, Except.bind_eq_ok_iff]
  constructor
  · rintro ⟨⟨w, r₁⟩, hword, h⟩
    obtain ⟨hrest, hoffset⟩ := word_eq_ok_iff.mp hword
    dsimp only at h
    split at h
    · rename_i hrange
      cases h
      obtain ⟨hn, hw⟩ := (Bytes.length_range_iff hmax).mp ⟨hrange, rfl⟩
      rw [hw] at hrest
      exact ⟨hn, hrest, hoffset⟩
    · cases h
  · rintro ⟨hn, hrest, hoffset⟩
    refine ⟨(UInt32.ofNat n, r'), word_eq_ok_iff.mpr ⟨hrest, hoffset⟩, ?_⟩
    obtain ⟨hrange, hlen⟩ := (Bytes.length_range_iff hmax).mpr ⟨hn, rfl⟩
    dsimp only
    rw [if_pos hrange, hlen]
    rfl

/-- A field is the value `v` exactly when it is the byte form of `v` under the tag of its kind. -/
theorem value_eq_ok_iff {tag : UInt32} {offset : Nat} {field : Bytes} {v : Value} :
    value tag offset field = .ok v ↔ tag = v.kind.tag ∧ field = v.toBytes := by
  constructor
  · intro h
    rw [value] at h
    split at h
    · rename_i htag
      cases hn : Bytes.toInt32? field with
      | none => rw [hn] at h; cases h
      | some n =>
        rw [hn] at h
        cases h
        exact ⟨htag, Bytes.toInt32?_eq_some_iff.mp hn⟩
    · split at h
      · rename_i htag
        cases hs : Utf8.decode? field with
        | none => rw [hs] at h; cases h
        | some s =>
          rw [hs] at h
          cases h
          exact ⟨htag, Utf8.decode?_eq_some_iff.mp hs⟩
      · split at h
        · rename_i htag
          cases h
          exact ⟨htag, rfl⟩
        · cases h
  · rintro ⟨rfl, rfl⟩
    cases v with
    | int32 n => simp [value, Value.kind, Value.toBytes, pure, Except.pure]
    | text s => simp [value, Value.kind, Value.toBytes, ValueKind.tag, pure, Except.pure]
    | bytes b => simp [value, Value.kind, Value.toBytes, ValueKind.tag, pure, Except.pure]

/-! ### Items -/

theorem ofTag?_eq_some_iff {tag : UInt32} {o : Origin} :
    Origin.ofTag? tag = some o ↔ tag = o.tag := by
  constructor
  · intro h
    rw [Origin.ofTag?] at h
    split at h
    · rename_i htag
      cases h
      exact htag
    · split at h
      · rename_i htag
        cases h
        exact htag
      · cases h
  · rintro rfl
    exact Origin.ofTag?_tag o

/-- The written form of an item, as the six fields that the reader walks over. -/
theorem encode_append (i : Item) (rest : Bytes) :
    i.encode ++ rest =
      Bytes.ofWord i.origin.tag ++ (Bytes.ofWord (Utf8.encode i.key).lengthWord ++
        (Utf8.encode i.key ++ (Bytes.ofWord i.value.kind.tag ++
          (Bytes.ofWord i.value.toBytes.lengthWord ++ (i.value.toBytes ++ rest))))) := by
  simp [Item.encode]

/-- **The specification of reading an item**: it succeeds exactly when what is left begins with
the written form of an item within the limits, and goes on behind that. -/
theorem item_eq_ok_iff {r r' : Reader} {i : Item} :
    r.item = .ok (i, r') ↔
      i.WithinLimits ∧ r.rest = i.encode ++ r'.rest ∧ r'.offset = r.offset + i.encode.length := by
  constructor
  · intro h
    rw [item] at h
    obtain ⟨⟨originTag, r₁⟩, horiginTag, h⟩ := Except.bind_eq_ok_iff.mp h
    dsimp only at h
    cases horigin : Origin.ofTag? originTag with
    | none => rw [horigin] at h; cases h
    | some origin =>
      rw [horigin] at h
      obtain ⟨⟨keyLength, r₂⟩, hkeyLength, h⟩ := Except.bind_eq_ok_iff.mp h
      obtain ⟨⟨keyField, r₃⟩, hkeyField, h⟩ := Except.bind_eq_ok_iff.mp h
      dsimp only at h
      cases hkey : Utf8.decode? keyField with
      | none => rw [hkey] at h; cases h
      | some key =>
        rw [hkey] at h
        obtain ⟨⟨kindTag, r₄⟩, hkindTag, h⟩ := Except.bind_eq_ok_iff.mp h
        obtain ⟨⟨valueLength, r₅⟩, hvalueLength, h⟩ := Except.bind_eq_ok_iff.mp h
        obtain ⟨⟨valueField, r₆⟩, hvalueField, h⟩ := Except.bind_eq_ok_iff.mp h
        obtain ⟨v, hvalue, h⟩ := Except.bind_eq_ok_iff.mp h
        cases h
        -- every field is the written form of its part of the item
        obtain rfl := ofTag?_eq_some_iff.mp horigin
        obtain rfl := Utf8.decode?_eq_some_iff.mp hkey
        obtain ⟨rfl, rfl⟩ := value_eq_ok_iff.mp hvalue
        obtain ⟨hrest₁, hoffset₁⟩ := word_eq_ok_iff.mp horiginTag
        obtain ⟨hkeyMax, hrest₂, hoffset₂⟩ := (length_eq_ok_iff (by decide)).mp hkeyLength
        obtain ⟨rfl, hrest₃, hoffset₃⟩ := take_eq_ok_iff.mp hkeyField
        obtain ⟨hrest₄, hoffset₄⟩ := word_eq_ok_iff.mp hkindTag
        obtain ⟨hvalueMax, hrest₅, hoffset₅⟩ := (length_eq_ok_iff (by decide)).mp hvalueLength
        obtain ⟨rfl, hrest₆, hoffset₆⟩ := take_eq_ok_iff.mp hvalueField
        refine ⟨⟨hkeyMax, hvalueMax⟩, ?_, ?_⟩
        · rw [encode_append, hrest₁, hrest₂, hrest₃, hrest₄, hrest₅, hrest₆]
          rfl
        · rw [Item.length_encode]
          dsimp only at *
          omega
  · rintro ⟨⟨hkey, hvalue⟩, hrest, hoffset⟩
    rw [encode_append] at hrest
    rw [Item.length_encode] at hoffset
    rw [item]
    refine Except.bind_eq_ok_iff.mpr
      ⟨(i.origin.tag, ⟨r.offset + 4, _⟩), word_eq_ok_iff.mpr ⟨hrest, rfl⟩, ?_⟩
    dsimp only
    rw [Origin.ofTag?_tag]
    refine Except.bind_eq_ok_iff.mpr
      ⟨(_, ⟨_, _⟩), (length_eq_ok_iff (by decide)).mpr ⟨hkey, rfl, rfl⟩, ?_⟩
    refine Except.bind_eq_ok_iff.mpr ⟨(_, ⟨_, _⟩), take_eq_ok_iff.mpr ⟨rfl, rfl, rfl⟩, ?_⟩
    dsimp only
    rw [Utf8.decode?_encode]
    refine Except.bind_eq_ok_iff.mpr ⟨(_, ⟨_, _⟩), word_eq_ok_iff.mpr ⟨rfl, rfl⟩, ?_⟩
    refine Except.bind_eq_ok_iff.mpr
      ⟨(_, ⟨_, _⟩), (length_eq_ok_iff (by decide)).mpr ⟨hvalue, rfl, rfl⟩, ?_⟩
    refine Except.bind_eq_ok_iff.mpr ⟨(_, r'), take_eq_ok_iff.mpr ⟨rfl, rfl, ?_⟩, ?_⟩
    · dsimp only
      omega
    · exact Except.bind_eq_ok_iff.mpr ⟨i.value, value_eq_ok_iff.mpr ⟨rfl, rfl⟩, rfl⟩

/-! ### Packets -/

/-- Only the packet without items is written as nothing. -/
theorem encode_eq_nil_iff {l : List Item} : encode ⟨l⟩ = [] ↔ l = [] := by
  cases l with
  | nil => simp
  | cons i l =>
    have hlen := Item.length_encode i
    constructor
    · intro h
      rw [encode_cons, List.append_eq_nil_iff] at h
      rw [h.1, List.length_nil] at hlen
      omega
    · intro h
      cases h

/-- **The specification of reading items up to the end.**  The induction is on the room that is
left; the reader stays free, because it stands behind the items read before. -/
theorem items_eq_ok_iff : ∀ (room : Nat) (r : Reader) (l : List Item),
    items room r = .ok l ↔
      r.rest = encode ⟨l⟩ ∧ l.length ≤ room ∧ ∀ i ∈ l, i.WithinLimits := by
  intro room
  induction room with
  | zero =>
    intro r l
    rw [items, Nat.le_zero, List.length_eq_zero_iff]
    split
    · rename_i hempty
      rw [List.isEmpty_iff] at hempty
      constructor
      · intro h
        cases h
        exact ⟨hempty, rfl, by simp⟩
      · rintro ⟨-, rfl, -⟩
        rfl
    · rename_i hempty
      rw [List.isEmpty_iff] at hempty
      constructor
      · intro h
        cases h
      · rintro ⟨hrest, rfl, -⟩
        exact absurd hrest hempty
  | succ room ih =>
    intro r l
    rw [items]
    split
    · rename_i hempty
      rw [List.isEmpty_iff] at hempty
      constructor
      · intro h
        cases h
        exact ⟨hempty, by simp, by simp⟩
      · rintro ⟨hrest, -⟩
        rw [hempty, eq_comm, encode_eq_nil_iff] at hrest
        rw [hrest]
    · rename_i hempty
      rw [List.isEmpty_iff] at hempty
      constructor
      · intro h
        obtain ⟨⟨i, r'⟩, hitem, h⟩ := Except.bind_eq_ok_iff.mp h
        obtain ⟨more, hmore, h⟩ := Except.bind_eq_ok_iff.mp h
        cases h
        obtain ⟨hi, hrest, -⟩ := item_eq_ok_iff.mp hitem
        obtain ⟨hrest', hlen, hl⟩ := (ih _ _).mp hmore
        refine ⟨?_, by simpa using hlen, List.forall_mem_cons.mpr ⟨hi, hl⟩⟩
        rw [hrest, hrest', encode_cons]
      · rintro ⟨hrest, hlen, hl⟩
        cases l with
        | nil => exact absurd hrest hempty
        | cons i more =>
          obtain ⟨hi, hmore⟩ := List.forall_mem_cons.mp hl
          refine Except.bind_eq_ok_iff.mpr ⟨(i, ⟨_, encode ⟨more⟩⟩),
            item_eq_ok_iff.mpr ⟨hi, hrest, rfl⟩, ?_⟩
          refine Except.bind_eq_ok_iff.mpr ⟨more, (ih _ _).mpr ⟨rfl, ?_, hmore⟩, rfl⟩
          simpa using hlen

end Packet.Reader

namespace Packet

/-- **The specification of reading a packet**: what is read is the one packet within the limits
that has these bytes for its written form. -/
theorem decode_eq_ok_iff {b : Bytes} {p : Packet} :
    decode b = .ok p ↔ p.encode = b ∧ p.WithinLimits := by
  rw [decode, Except.bind_eq_ok_iff]
  constructor
  · rintro ⟨l, hl, h⟩
    cases h
    obtain ⟨hb, hlen, hlimits⟩ := (Reader.items_eq_ok_iff _ _ _).mp hl
    exact ⟨hb.symm, hlen, hlimits⟩
  · rintro ⟨hb, hlen, hlimits⟩
    exact ⟨p.items, (Reader.items_eq_ok_iff _ _ _).mpr ⟨hb.symm, hlen, hlimits⟩, rfl⟩

/-- Reading undoes writing, within the limits. -/
theorem decode_encode {p : Packet} (h : p.WithinLimits) : decode p.encode = .ok p :=
  decode_eq_ok_iff.mpr ⟨rfl, h⟩

/-- Writing undoes reading. -/
theorem encode_of_decode {b : Bytes} {p : Packet} (h : decode b = .ok p) : p.encode = b :=
  (decode_eq_ok_iff.mp h).1

/-- **Reading and writing undo each other.**  A byte string is read as a packet exactly when it is
the written form of that packet and the packet is within the limits.  So reading gives back every
packet within the limits, writing gives back every byte string that is read, and no two byte
strings are read as one packet. -/
theorem decode_exact (b : Bytes) (p : Packet) :
    (decode b = .ok p ↔ p.encode = b ∧ p.WithinLimits) ∧
    (decode p.encode = .ok p ↔ p.WithinLimits) ∧
    (decode b = .ok p → p.encode = b) ∧
    ∀ b' : Bytes, decode b = .ok p → decode b' = .ok p → b = b' := by
  refine ⟨decode_eq_ok_iff, ⟨fun h => (decode_eq_ok_iff.mp h).2, decode_encode⟩,
    encode_of_decode, fun b' h h' => ?_⟩
  rw [← encode_of_decode h, ← encode_of_decode h']

end Packet

/-! ### Writing is one to one -/

/-- The lengths of the key and of the value can be written down. -/
def Item.Addressable (i : Item) : Prop :=
  (Utf8.encode i.key).length < 2 ^ 32 ∧ i.value.toBytes.length < 2 ^ 32

theorem Item.WithinLimits.addressable {i : Item} (h : i.WithinLimits) : i.Addressable := by
  obtain ⟨hkey, hvalue⟩ := h
  unfold Packet.maxKeyLength at hkey
  unfold Packet.maxValueLength at hvalue
  unfold Addressable
  omega

theorem Bytes.ofWord_injective {v w : UInt32} (h : ofWord v = ofWord w) : v = w :=
  Option.some.inj ((toWord?_eq_some_iff.2 rfl).symm.trans (toWord?_eq_some_iff.2 h))

theorem Bytes.length_eq_of_lengthWord {b c : Bytes} (hb : b.length < 2 ^ 32)
    (hc : c.length < 2 ^ 32) (h : b.lengthWord = c.lengthWord) : b.length = c.length := by
  have hnat := congrArg UInt32.toNat h
  unfold lengthWord at hnat
  rwa [UInt32.toNat_ofNat', UInt32.toNat_ofNat', Nat.mod_eq_of_lt hb, Nat.mod_eq_of_lt hc] at hnat

theorem Value.eq_of_toBytes {v w : Value} (hkind : v.kind = w.kind)
    (hbytes : v.toBytes = w.toBytes) : v = w := by
  cases v with
  | int32 n =>
    cases w with
    | int32 m =>
      have hn : Bytes.toInt32? (Bytes.ofInt32 n) = some m := Bytes.toInt32?_eq_some_iff.2 hbytes
      exact congrArg Value.int32
        (Option.some.inj ((Bytes.toInt32?_eq_some_iff.2 rfl).symm.trans hn))
    | text s => cases hkind
    | bytes b => cases hkind
  | text s =>
    cases w with
    | int32 m => cases hkind
    | text t => exact congrArg Value.text (Utf8.encode_injective hbytes)
    | bytes b => cases hkind
  | bytes b =>
    cases w with
    | int32 m => cases hkind
    | text t => cases hkind
    | bytes c => exact congrArg Value.bytes hbytes

/-- Where an item ends can be told from what is written. -/
theorem Item.encode_append_inj {i j : Item} {rest rest' : Bytes} (hi : i.Addressable)
    (hj : j.Addressable) (h : i.encode ++ rest = j.encode ++ rest') : i = j ∧ rest = rest' := by
  unfold Item.encode at h
  simp only [List.append_assoc] at h
  obtain ⟨horigin, h⟩ := List.append_inj h (by simp)
  obtain ⟨hkeyLength, h⟩ := List.append_inj h (by simp)
  obtain ⟨hkey, h⟩ := List.append_inj h
    (Bytes.length_eq_of_lengthWord hi.1 hj.1 (Bytes.ofWord_injective hkeyLength))
  obtain ⟨hkind, h⟩ := List.append_inj h (by simp)
  obtain ⟨hvalueLength, h⟩ := List.append_inj h (by simp)
  obtain ⟨hvalue, hrest⟩ := List.append_inj h
    (Bytes.length_eq_of_lengthWord hi.2 hj.2 (Bytes.ofWord_injective hvalueLength))
  refine ⟨?_, hrest⟩
  have horigin : i.origin = j.origin := by
    have htag := congrArg Origin.ofTag? (Bytes.ofWord_injective horigin)
    rw [Origin.ofTag?_tag, Origin.ofTag?_tag] at htag
    exact Option.some.inj htag
  have hsame : i.value = j.value :=
    Value.eq_of_toBytes (ValueKind.tag_injective (Bytes.ofWord_injective hkind)) hvalue
  obtain ⟨origin, key, value⟩ := i
  obtain ⟨origin', key', value'⟩ := j
  cases horigin
  cases hsame
  cases Utf8.encode_injective hkey
  rfl

/-- **Two packets of which all lengths can be written down are written differently.** -/
theorem Packet.encode_injOn {p q : Packet} (hp : ∀ i ∈ p.items, i.Addressable)
    (hq : ∀ i ∈ q.items, i.Addressable) (h : p.encode = q.encode) : p = q := by
  obtain ⟨l⟩ := p
  obtain ⟨m⟩ := q
  refine congrArg Packet.mk ?_
  induction l generalizing m with
  | nil => exact (Reader.encode_eq_nil_iff.1 h.symm).symm
  | cons i l ih =>
    cases m with
    | nil => exact Reader.encode_eq_nil_iff.1 h
    | cons j m =>
      rw [encode_cons, encode_cons] at h
      obtain ⟨hi, hl⟩ := List.forall_mem_cons.1 hp
      obtain ⟨hj, hm⟩ := List.forall_mem_cons.1 hq
      obtain ⟨rfl, hrest⟩ := Item.encode_append_inj hi hj h
      exact congrArg (i :: ·) (ih hl m hm hrest)

end ContractHost
