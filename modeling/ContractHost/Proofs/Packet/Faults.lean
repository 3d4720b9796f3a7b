import ContractHost.Proofs.Packet.Reading

/-!
# What is wrong with a packet

A reader that gives up has read some items, and of the next one some fields.  So a fault is
described by the field at which the reader stands: which bytes of the item lead up to it, how many
bytes it needs, and what it may hold.  The description does not mention the reader, and the reader
fails exactly where there is a fault, with the error that describes it.

## Main definitions

* `Packet.Field`, `Packet.Lead` — a field of an item, and the bytes that lead up to it.
* `Packet.Fault` — what can be wrong with an item.

## Main results

* `Packet.Reader.item_eq_error_iff` — the specification of failing to read an item.
* `Packet.decode_eq_error_iff` — the specification of failing to read a packet.
-/

namespace Except

/-- Of two steps one fails exactly when the first fails, or it succeeds and the second fails on
what it gives. -/
theorem bind_eq_error_iff {ε α β : Type} {x : Except ε α} {f : α → Except ε β} {e : ε} :
    (x >>= f) = .error e ↔ x = .error e ∨ ∃ a, x = .ok a ∧ f a = .error e := by
  cases x with
  | error e' =>
    constructor
    · intro h
      cases h
      exact .inl rfl
    · rintro (h | ⟨a, h, -⟩)
      · cases h
        rfl
      · cases h
  | ok a =>
    constructor
    · intro h
      exact .inr ⟨a, rfl, h⟩
    · rintro (h | ⟨a', h, h'⟩)
      · cases h
      · cases h
        exact h'

end Except

namespace ContractHost.Packet

/-! ### Fields -/

/-- The fields of an item, in the order in which they are read.  The length of a key is known from
the field before it.  So are the tag and the length of a value. -/
inductive Field
  /-- The tag of the origin. -/
  | originTag
  /-- The length of the key. -/
  | keyLength
  /-- The key. -/
  | key (length : Nat)
  /-- The tag of the kind of value. -/
  | kindTag
  /-- The length of the value. -/
  | valueLength (tag : UInt32)
  /-- The value. -/
  | value (tag : UInt32) (length : Nat)

namespace Field

/-- How many bytes a field needs. -/
def size : Field → Nat
  | originTag | keyLength | kindTag | valueLength _ => 4
  | key length | value _ length => length

/-- The longest length that a length field may spell. -/
def limit? : Field → Option Nat
  | keyLength => some maxKeyLength
  | valueLength _ => some maxValueLength
  | _ => none

/-- The field is a key, or a value that is a text. -/
def IsText : Field → Prop
  | key _ => True
  | value tag _ => tag = ValueKind.text.tag
  | _ => False

end Field

/-- An item begins with the bytes `read`, all of them sound fields, and the field `f` is next.  The
tag of a value may be that of no kind, since it is not checked before the value is there. -/
inductive Lead : Bytes → Field → Prop
  /-- Nothing leads up to the first field. -/
  | start : Lead [] .originTag
  /-- The tag of an origin leads on. -/
  | originTag {read : Bytes} (o : Origin) (h : Lead read .originTag) :
      Lead (read ++ Bytes.ofWord o.tag) .keyLength
  /-- So does a length that a key may have, -/
  | keyLength {read : Bytes} {n : Nat} (hn : n ≤ maxKeyLength) (h : Lead read .keyLength) :
      Lead (read ++ Bytes.ofWord (UInt32.ofNat n)) (.key n)
  /-- a text of this length, -/
  | key {read : Bytes} (key : String) (h : Lead read (.key (Utf8.encode key).length)) :
      Lead (read ++ Utf8.encode key) .kindTag
  /-- any tag of a value, -/
  | kindTag {read : Bytes} (tag : UInt32) (h : Lead read .kindTag) :
      Lead (read ++ Bytes.ofWord tag) (.valueLength tag)
  /-- and a length that a value may have. -/
  | valueLength {read : Bytes} {tag : UInt32} {n : Nat} (hn : n ≤ maxValueLength)
      (h : Lead read (.valueLength tag)) :
      Lead (read ++ Bytes.ofWord (UInt32.ofNat n)) (.value tag n)

/-- The number that a word spells is not a length of at most `max`. -/
def NoLength (w : UInt32) (max : Nat) : Prop :=
  ¬ (0 ≤ w.toInt32.toInt ∧ w.toInt32.toInt ≤ max)

instance (w : UInt32) (max : Nat) : Decidable (NoLength w max) :=
  inferInstanceAs (Decidable (¬ _))

/-- What is wrong with an item that begins at `start`, where the given bytes are left. -/
inductive Fault (start : Nat) : Bytes → PacketError → Prop
  /-- A field needs more bytes than there are. -/
  | truncated {read left : Bytes} {f : Field} (h : Lead read f) (hleft : left.length < f.size) :
      Fault start (read ++ left) (.truncated (start + read.length))
  /-- No origin has the tag. -/
  | unknownOrigin {read : Bytes} {tag : UInt32} (left : Bytes) (h : Lead read .originTag)
      (htag : Origin.ofTag? tag = none) :
      Fault start (read ++ Bytes.ofWord tag ++ left) (.unknownOrigin tag.toInt32.toInt)
  /-- A length field spells no length within its limit. -/
  | noLength {read : Bytes} {f : Field} {max : Nat} {w : UInt32} (left : Bytes) (h : Lead read f)
      (hlimit : f.limit? = some max) (hw : NoLength w max) :
      Fault start (read ++ Bytes.ofWord w ++ left)
        (.invalidLength w.toInt32.toInt (start + read.length))
  /-- A key or a text is not the encoding of any text. -/
  | noText {read field : Bytes} {f : Field} (left : Bytes) (h : Lead read f) (htext : f.IsText)
      (hsize : field.length = f.size) (hfield : Utf8.decode? field = none) :
      Fault start (read ++ field ++ left) (.invalidUtf8 (start + read.length))
  /-- A number does not have four bytes.  The place is that of the number. -/
  | noNumber {read field : Bytes} (left : Bytes)
      (h : Lead read (.value ValueKind.int32.tag field.length)) (hfield : field.length ≠ 4) :
      Fault start (read ++ field ++ left) (.invalidLength field.length (start + read.length))
  /-- No kind of value has the tag. -/
  | unknownKind {read field : Bytes} {tag : UInt32} (left : Bytes)
      (h : Lead read (.value tag field.length)) (htag : ∀ k : ValueKind, tag ≠ k.tag) :
      Fault start (read ++ field ++ left) (.unknownValueKind tag.toInt32.toInt)

/-! ### Reading a field fails -/

namespace Reader

/-- Only four bytes spell a word, -/
theorem toWord?_eq_none_iff {b : Bytes} : Bytes.toWord? b = none ↔ b.length ≠ 4 := by
  constructor
  · rintro h hlength
    match b, hlength with
    | [_, _, _, _], _ => cases h
  · intro hlength
    cases hw : Bytes.toWord? b with
    | none => rfl
    | some w =>
      rw [Bytes.toWord?_eq_some_iff.mp hw, Bytes.length_ofWord] at hlength
      exact absurd rfl hlength

/-- and a number. -/
theorem toInt32?_eq_none_iff {b : Bytes} : Bytes.toInt32? b = none ↔ b.length ≠ 4 := by
  rw [Bytes.toInt32?, Option.map_eq_none_iff, toWord?_eq_none_iff]

theorem take_eq_error_iff {r : Reader} {n : Nat} {e : PacketError} :
    r.take n = .error e ↔ r.rest.length < n ∧ e = .truncated r.offset := by
  rw [take]
  split
  · rename_i h
    rw [List.length_take] at h
    constructor
    · intro he
      cases he
    · omega
  · rename_i h
    rw [List.length_take] at h
    constructor
    · intro he
      cases he
      exact ⟨by omega, rfl⟩
    · rintro ⟨-, rfl⟩
      rfl

theorem word_eq_error_iff {r : Reader} {e : PacketError} :
    r.word = .error e ↔ r.rest.length < 4 ∧ e = .truncated r.offset := by
  rw [word, Except.bind_eq_error_iff, take_eq_error_iff, or_iff_left]
  -- four bytes always spell a word
  rintro ⟨⟨field, r'⟩, htake, h⟩
  obtain ⟨hlength, -, -⟩ := take_eq_ok_iff.mp htake
  dsimp only at h
  cases hw : Bytes.toWord? field with
  | some w => rw [hw] at h; cases h
  | none => exact toWord?_eq_none_iff.mp hw hlength

theorem length_eq_error_iff {r : Reader} {max : Nat} {e : PacketError} :
    r.length max = .error e ↔ (r.rest.length < 4 ∧ e = .truncated r.offset) ∨
      ∃ w left, r.rest = Bytes.ofWord w ++ left ∧ NoLength w max ∧
        e = .invalidLength w.toInt32.toInt r.offset := by
  rw [length, Except.bind_eq_error_iff, word_eq_error_iff]
  refine or_congr Iff.rfl ?_
  -- four bytes are there, so the length they spell is the fault
  constructor
  · rintro ⟨⟨w, r'⟩, hword, h⟩
    dsimp only at h
    split at h
    · cases h
    · rename_i hw
      cases h
      exact ⟨w, r'.rest, (word_eq_ok_iff.mp hword).1, hw, rfl⟩
  · rintro ⟨w, left, hrest, hw, rfl⟩
    refine ⟨(w, ⟨r.offset + 4, left⟩), word_eq_ok_iff.mpr ⟨hrest, rfl⟩, ?_⟩
    dsimp only
    rw [if_neg hw]
    rfl

theorem value_eq_error_iff {tag : UInt32} {offset : Nat} {field : Bytes} {e : PacketError} :
    value tag offset field = .error e ↔
      (tag = ValueKind.int32.tag ∧ field.length ≠ 4 ∧ e = .invalidLength field.length offset) ∨
      (tag = ValueKind.text.tag ∧ Utf8.decode? field = none ∧ e = .invalidUtf8 offset) ∨
      ((∀ k : ValueKind, tag ≠ k.tag) ∧ e = .unknownValueKind tag.toInt32.toInt) := by
  constructor
  · intro h
    rw [value] at h
    split at h
    · rename_i htag
      cases hn : Bytes.toInt32? field with
      | some n => rw [hn] at h; cases h
      | none =>
        rw [hn] at h
        cases h
        exact .inl ⟨htag, toInt32?_eq_none_iff.mp hn, rfl⟩
    · rename_i hint
      split at h
      · rename_i htag
        cases hs : Utf8.decode? field with
        | some s => rw [hs] at h; cases h
        | none =>
          rw [hs] at h
          cases h
          exact .inr (.inl ⟨htag, rfl, rfl⟩)
      · rename_i htext
        split at h
        · cases h
        · rename_i hbytes
          cases h
          refine .inr (.inr ⟨fun k => ?_, rfl⟩)
          cases k with
          | int32 => exact hint
          | text => exact htext
          | bytes => exact hbytes
  · -- and back: with the tag known, the reader goes just that way
    rintro (⟨rfl, hlength, rfl⟩ | ⟨rfl, hfield, rfl⟩ | ⟨htag, rfl⟩)
    · rw [value, if_pos rfl, toInt32?_eq_none_iff.mpr hlength]
      rfl
    · rw [value, if_neg (by decide), if_pos rfl, hfield]
      rfl
    · rw [value, if_neg (htag _), if_neg (htag _), if_neg (htag _)]
      rfl

/-! ### Where the reader gives up there is a fault -/

/-- The reader stands at the field `f` of an item that begins at `start` with the bytes `whole`. -/
def Stands (start : Nat) (whole : Bytes) (f : Field) (r : Reader) : Prop :=
  ∃ read, Lead read f ∧ whole = read ++ r.rest ∧ r.offset = start + read.length

section Stands

variable {start : Nat} {whole : Bytes} {r r' : Reader}

theorem stands_start (r : Reader) : Stands r.offset r.rest .originTag r :=
  ⟨[], .start, rfl, rfl⟩

/-- Behind a sound field the reader stands at the field that comes next. -/
theorem Stands.next {f f' : Field} {field : Bytes} (h : Stands start whole f r)
    (hfield : r.rest = field ++ r'.rest ∧ r'.offset = r.offset + field.length)
    (hlead : ∀ read, Lead read f → Lead (read ++ field) f') : Stands start whole f' r' := by
  obtain ⟨read, hread, rfl, hoffset⟩ := h
  refine ⟨read ++ field, hlead read hread, ?_, ?_⟩
  · rw [hfield.1, List.append_assoc]
  · rw [hfield.2, hoffset, List.length_append]
    omega

theorem Stands.truncated {f : Field} (h : Stands start whole f r)
    (hleft : r.rest.length < f.size) : Fault start whole (.truncated r.offset) := by
  obtain ⟨read, hread, rfl, hoffset⟩ := h
  rw [hoffset]
  exact .truncated hread hleft

theorem Stands.fault_of_length {f : Field} {max : Nat} {e : PacketError}
    (h : Stands start whole f r) (hsize : f.size = 4) (hlimit : f.limit? = some max)
    (he : r.length max = .error e) : Fault start whole e := by
  obtain ⟨hleft, rfl⟩ | ⟨w, left, hrest, hw, rfl⟩ := length_eq_error_iff.mp he
  · exact h.truncated (by omega)
  · obtain ⟨read, hread, rfl, hoffset⟩ := h
    rw [hrest, hoffset, ← List.append_assoc]
    exact .noLength left hread hlimit hw

theorem Stands.noText {f : Field} {field : Bytes} (h : Stands start whole f r) (htext : f.IsText)
    (hsize : field.length = f.size) (hrest : r.rest = field ++ r'.rest)
    (hfield : Utf8.decode? field = none) : Fault start whole (.invalidUtf8 r.offset) := by
  obtain ⟨read, hread, rfl, hoffset⟩ := h
  rw [hrest, hoffset, ← List.append_assoc]
  exact .noText r'.rest hread htext hsize hfield

theorem Stands.fault_of_value {tag : UInt32} {field : Bytes} {e : PacketError}
    (h : Stands start whole (.value tag field.length) r) (hrest : r.rest = field ++ r'.rest)
    (he : value tag r.offset field = .error e) : Fault start whole e := by
  obtain ⟨rfl, hlength, rfl⟩ | ⟨rfl, hfield, rfl⟩ | ⟨htag, rfl⟩ := value_eq_error_iff.mp he
  · obtain ⟨read, hread, rfl, hoffset⟩ := h
    rw [hrest, hoffset, ← List.append_assoc]
    exact .noNumber r'.rest hread hlength
  · exact h.noText rfl rfl hrest hfield
  · obtain ⟨read, hread, rfl, hoffset⟩ := h
    rw [hrest, ← List.append_assoc]
    exact .unknownKind r'.rest hread htag

end Stands

/-- Where the reader gives up, there is a fault.  The reader stands at one field after the other; it
fails there, or it goes on to the next. -/
theorem fault_of_item {r : Reader} {e : PacketError} (h : r.item = .error e) :
    Fault r.offset r.rest e := by
  rw [item] at h
  -- field by field; each stands where the ones before it have left off
  have horigin := stands_start r
  obtain h | ⟨⟨tag, r₁⟩, htag, h⟩ := Except.bind_eq_error_iff.mp h
  · obtain ⟨hleft, rfl⟩ := word_eq_error_iff.mp h
    exact horigin.truncated hleft
  have htag := word_eq_ok_iff.mp htag
  dsimp only at h
  cases ho : Origin.ofTag? tag with
  | none =>
    rw [ho] at h
    cases h
    rw [htag.1]
    exact .unknownOrigin r₁.rest .start ho
  | some o =>
  obtain rfl := ofTag?_eq_some_iff.mp ho
  rw [ho] at h
  have hkeyLength := horigin.next htag fun _ => .originTag o
  obtain h | ⟨⟨n, r₂⟩, hn, h⟩ := Except.bind_eq_error_iff.mp h
  · exact hkeyLength.fault_of_length rfl rfl h
  obtain ⟨hmax, hn⟩ := (length_eq_ok_iff (by decide)).mp hn
  have hkey := hkeyLength.next hn fun _ => .keyLength hmax
  obtain h | ⟨⟨field, r₃⟩, hfield, h⟩ := Except.bind_eq_error_iff.mp h
  · obtain ⟨hleft, rfl⟩ := take_eq_error_iff.mp h
    exact hkey.truncated hleft
  obtain ⟨rfl, hfield⟩ := take_eq_ok_iff.mp hfield
  dsimp only at h
  cases htext : Utf8.decode? field with
  | none =>
    rw [htext] at h
    cases h
    exact hkey.noText trivial rfl hfield.1 htext
  | some key =>
  obtain rfl := Utf8.decode?_eq_some_iff.mp htext
  rw [htext] at h
  have hkindTag := hkey.next hfield fun _ => .key key
  obtain h | ⟨⟨kind, r₄⟩, hkind, h⟩ := Except.bind_eq_error_iff.mp h
  · obtain ⟨hleft, rfl⟩ := word_eq_error_iff.mp h
    exact hkindTag.truncated hleft
  have hvalueLength := hkindTag.next (word_eq_ok_iff.mp hkind) fun _ => .kindTag kind
  obtain h | ⟨⟨n, r₅⟩, hn, h⟩ := Except.bind_eq_error_iff.mp h
  · exact hvalueLength.fault_of_length rfl rfl h
  obtain ⟨hmax, hn⟩ := (length_eq_ok_iff (by decide)).mp hn
  have hvalue := hvalueLength.next hn fun _ => .valueLength hmax
  obtain h | ⟨⟨field, r₆⟩, hfield, h⟩ := Except.bind_eq_error_iff.mp h
  · obtain ⟨hleft, rfl⟩ := take_eq_error_iff.mp h
    exact hvalue.truncated hleft
  obtain ⟨rfl, hfield⟩ := take_eq_ok_iff.mp hfield
  obtain h | ⟨v, -, h⟩ := Except.bind_eq_error_iff.mp h
  · exact hvalue.fault_of_value hfield.1 h
  · cases h

end Reader

/-! ### Where there is a fault the reader gives up -/

/-- Reading the bytes of a field fails.  A tag, a text and a value are checked only after that. -/
def Field.Fails : Field → Reader → PacketError → Prop
  | .originTag, r, e | .kindTag, r, e => r.word = .error e
  | .keyLength, r, e => r.length maxKeyLength = .error e
  | .valueLength _, r, e => r.length maxValueLength = .error e
  | .key n, r, e | .value _ n, r, e => r.take n = .error e

/-- It fails when there are too few, -/
theorem Field.fails_of_short {f : Field} {r : Reader} (h : r.rest.length < f.size) :
    f.Fails r (.truncated r.offset) := by
  cases f with
  | originTag | kindTag => exact Reader.word_eq_error_iff.mpr ⟨h, rfl⟩
  | keyLength | valueLength tag => exact Reader.length_eq_error_iff.mpr (.inl ⟨h, rfl⟩)
  | key n | value tag n => exact Reader.take_eq_error_iff.mpr ⟨h, rfl⟩

/-- and when a length field spells no length. -/
theorem Field.fails_of_noLength {f : Field} {max s : Nat} {w : UInt32} {left : Bytes}
    (hlimit : f.limit? = some max) (hw : NoLength w max) :
    f.Fails ⟨s, Bytes.ofWord w ++ left⟩ (.invalidLength w.toInt32.toInt s) := by
  cases f with
  | keyLength | valueLength tag =>
    cases hlimit
    exact Reader.length_eq_error_iff.mpr (.inr ⟨w, left, rfl, hw, rfl⟩)
  | originTag | key n | kindTag | value tag n => cases hlimit

namespace Reader

theorem word_append (s : Nat) (w : UInt32) (left : Bytes) :
    word ⟨s, Bytes.ofWord w ++ left⟩ = .ok (w, ⟨s + 4, left⟩) :=
  word_eq_ok_iff.mpr ⟨rfl, rfl⟩

theorem take_append (s : Nat) (field left : Bytes) :
    take ⟨s, field ++ left⟩ field.length = .ok (field, ⟨s + field.length, left⟩) :=
  take_eq_ok_iff.mpr ⟨rfl, rfl, rfl⟩

theorem keyLength_append {n : Nat} (hn : n ≤ maxKeyLength) (s : Nat) (left : Bytes) :
    length ⟨s, Bytes.ofWord (UInt32.ofNat n) ++ left⟩ maxKeyLength = .ok (n, ⟨s + 4, left⟩) :=
  (length_eq_ok_iff (by decide)).mpr ⟨hn, rfl, rfl⟩

theorem valueLength_append {n : Nat} (hn : n ≤ maxValueLength) (s : Nat) (left : Bytes) :
    length ⟨s, Bytes.ofWord (UInt32.ofNat n) ++ left⟩ maxValueLength = .ok (n, ⟨s + 4, left⟩) :=
  (length_eq_ok_iff (by decide)).mpr ⟨hn, rfl, rfl⟩

section Item

variable {s : Nat} {read left field : Bytes} {tag : UInt32} {e : PacketError}

/-- When it fails for the field that comes next, reading the item fails. -/
theorem item_of_fails {f : Field} (h : Lead read f)
    (he : f.Fails ⟨s + read.length, left⟩ e) : item ⟨s, read ++ left⟩ = .error e := by
  -- the lead tells which fields were read before, so the reader gets to the one that fails
  cases f with
  | originTag =>
    cases h
    have he : word ⟨s, left⟩ = .error e := he
    simp only [item, bind, Except.bind, List.nil_append, he]
  | keyLength =>
    cases h with | originTag o h => ?_
    cases h
    simp only [Field.Fails, item, bind, Except.bind, List.nil_append, Bytes.length_ofWord,
      word_append, Origin.ofTag?_tag] at he ⊢
    rw [he]
  | key n =>
    cases h with | keyLength hn h => ?_
    cases h with | originTag o h => ?_
    cases h
    simp only [Field.Fails, item, bind, Except.bind, List.nil_append, List.append_assoc,
      List.length_append, Bytes.length_ofWord, ← Nat.add_assoc, word_append, Origin.ofTag?_tag,
      keyLength_append hn] at he ⊢
    rw [he]
  | kindTag =>
    cases h with | key key h => ?_
    cases h with | keyLength hn h => ?_
    cases h with | originTag o h => ?_
    cases h
    simp only [Field.Fails, item, bind, Except.bind, List.nil_append, List.append_assoc,
      List.length_append, Bytes.length_ofWord, ← Nat.add_assoc, word_append, Origin.ofTag?_tag,
      keyLength_append hn, take_append, Utf8.decode?_encode] at he ⊢
    rw [he]
  | valueLength tag =>
    cases h with | kindTag tag h => ?_
    cases h with | key key h => ?_
    cases h with | keyLength hn h => ?_
    cases h with | originTag o h => ?_
    cases h
    simp only [Field.Fails, item, bind, Except.bind, List.nil_append, List.append_assoc,
      List.length_append, Bytes.length_ofWord, ← Nat.add_assoc, word_append, Origin.ofTag?_tag,
      keyLength_append hn, take_append, Utf8.decode?_encode] at he ⊢
    rw [he]
  | value tag n =>
    cases h with | valueLength hv h => ?_
    cases h with | kindTag tag h => ?_
    cases h with | key key h => ?_
    cases h with | keyLength hn h => ?_
    cases h with | originTag o h => ?_
    cases h
    simp only [Field.Fails, item, bind, Except.bind, List.nil_append, List.append_assoc,
      List.length_append, Bytes.length_ofWord, ← Nat.add_assoc, word_append, Origin.ofTag?_tag,
      keyLength_append hn, take_append, Utf8.decode?_encode, valueLength_append hv] at he ⊢
    rw [he]

theorem item_of_noText (h : Lead read (.key field.length)) (hfield : Utf8.decode? field = none) :
    item ⟨s, read ++ (field ++ left)⟩ = .error (.invalidUtf8 (s + read.length)) := by
  cases h with | keyLength hn h => ?_
  cases h with | originTag o h => ?_
  cases h
  simp only [item, bind, Except.bind, List.nil_append, List.append_assoc, List.length_append,
    Bytes.length_ofWord, ← Nat.add_assoc, word_append, Origin.ofTag?_tag, keyLength_append hn,
    take_append, hfield]
  rfl

theorem item_of_noValue (h : Lead read (.value tag field.length))
    (he : value tag (s + read.length) field = .error e) :
    item ⟨s, read ++ (field ++ left)⟩ = .error e := by
  cases h with | valueLength hv h => ?_
  cases h with | kindTag tag h => ?_
  cases h with | key key h => ?_
  cases h with | keyLength hn h => ?_
  cases h with | originTag o h => ?_
  cases h
  simp only [item, bind, Except.bind, List.nil_append, List.append_assoc, List.length_append,
    Bytes.length_ofWord, ← Nat.add_assoc, word_append, Origin.ofTag?_tag, keyLength_append hn,
    take_append, Utf8.decode?_encode, valueLength_append hv] at he ⊢
  rw [he]

/-- Where there is a fault, the reader gives up. -/
theorem item_of_fault {b : Bytes} (h : Fault s b e) : item ⟨s, b⟩ = .error e := by
  -- every fault is that of a field or of the value as a whole
  cases h with
  | truncated h hleft => exact item_of_fails h (Field.fails_of_short hleft)
  | unknownOrigin left h htag =>
    cases h
    simp [item, bind, Except.bind, word_append, htag]
    rfl
  | noLength left h hlimit hw =>
    rw [List.append_assoc]
    exact item_of_fails h (Field.fails_of_noLength hlimit hw)
  | @noText read field f left h htext hsize hfield =>
    rw [List.append_assoc]
    cases f with
    | key n =>
      obtain rfl : field.length = n := hsize
      exact item_of_noText h hfield
    | value tag n =>
      obtain rfl : field.length = n := hsize
      exact item_of_noValue h (value_eq_error_iff.mpr (.inr (.inl ⟨htext, hfield, rfl⟩)))
    | originTag | keyLength | kindTag | valueLength tag => cases htext
  | noNumber left h hfield =>
    rw [List.append_assoc]
    exact item_of_noValue h (value_eq_error_iff.mpr (.inl ⟨rfl, hfield, rfl⟩))
  | unknownKind left h htag =>
    rw [List.append_assoc]
    exact item_of_noValue h (value_eq_error_iff.mpr (.inr (.inr ⟨htag, rfl⟩)))

end Item

/-- **The specification of failing to read an item**: it fails exactly where there is a fault. -/
theorem item_eq_error_iff {r : Reader} {e : PacketError} :
    r.item = .error e ↔ Fault r.offset r.rest e :=
  ⟨fault_of_item, item_of_fault⟩

section Items

variable {r : Reader} {room : Nat}

theorem items_of_nil (h : r.rest = []) : r.items room = .ok [] := by
  cases room <;> rw [items, if_pos (List.isEmpty_iff.mpr h)]

theorem items_zero (h : r.rest ≠ []) : r.items 0 = .error (.tooManyItems (maxItems + 1)) := by
  rw [items, if_neg (mt List.isEmpty_iff.mp h)]

theorem items_succ (h : r.rest ≠ []) : r.items (room + 1) = (do
    let (item, r') ← r.item
    let more ← r'.items room
    pure (item :: more)) := by
  rw [items, if_neg (mt List.isEmpty_iff.mp h)]

end Items

/-- **The specification of failing to read items up to the end.**  Some items are read, and then
there is no room for another one, or a fault in it.  The induction is on the room that is left. -/
theorem items_eq_error_iff : ∀ (room : Nat) (r : Reader) (e : PacketError),
    items room r = .error e ↔
      ∃ l rest, r.rest = encode ⟨l⟩ ++ rest ∧ (∀ i ∈ l, i.WithinLimits) ∧ rest ≠ [] ∧
        ((l.length = room ∧ e = .tooManyItems (maxItems + 1)) ∨
          (l.length < room ∧ Fault (r.offset + (encode ⟨l⟩).length) rest e)) := by
  intro room
  -- by induction on the room left; once it is used up anything further is one item too many
  induction room with
  | zero =>
    intro r e
    by_cases hempty : r.rest = []
    · rw [items_of_nil hempty]
      refine iff_of_false nofun ?_
      rintro ⟨l, rest, hrest, -, hne, -⟩
      exact hne (List.append_eq_nil_iff.mp (hrest.symm.trans hempty)).2
    · rw [items_zero hempty]
      constructor
      · intro h
        cases h
        exact ⟨[], r.rest, rfl, by simp, hempty, .inl ⟨rfl, rfl⟩⟩
      · rintro ⟨l, rest, -, -, -, ⟨-, rfl⟩ | ⟨hlen, -⟩⟩
        · rfl
        · omega
  | succ room ih =>
    intro r e
    by_cases hempty : r.rest = []
    · rw [items_of_nil hempty]
      refine iff_of_false nofun ?_
      rintro ⟨l, rest, hrest, -, hne, -⟩
      exact hne (List.append_eq_nil_iff.mp (hrest.symm.trans hempty)).2
    · rw [items_succ hempty, Except.bind_eq_error_iff, item_eq_error_iff]
      constructor
      · rintro (hfault | ⟨⟨i, r'⟩, hitem, h⟩)
        · exact ⟨[], r.rest, rfl, by simp, hempty, .inr ⟨by simp, by simpa using hfault⟩⟩
        · obtain h | ⟨more, -, h⟩ := Except.bind_eq_error_iff.mp h
          · obtain ⟨hi, hrest, hoffset⟩ := item_eq_ok_iff.mp hitem
            obtain ⟨l, rest, hrest', hl, hne, h⟩ := (ih _ _).mp h
            refine ⟨i :: l, rest, ?_, List.forall_mem_cons.mpr ⟨hi, hl⟩, hne, ?_⟩
            · rw [hrest, hrest', encode_cons, List.append_assoc]
            · rw [hoffset, Nat.add_assoc, ← List.length_append] at h
              simpa using h
          · cases h
      · rintro ⟨l, rest, hrest, hl, hne, h⟩
        cases l with
        | nil =>
          obtain ⟨hlen, -⟩ | ⟨-, hfault⟩ := h
          · cases hlen
          · rw [hrest]
            exact .inl (by simpa using hfault)
        | cons i more =>
          obtain ⟨hi, hmore⟩ := List.forall_mem_cons.mp hl
          rw [encode_cons, List.append_assoc] at hrest
          refine .inr ⟨(i, ⟨_, encode ⟨more⟩ ++ rest⟩), item_eq_ok_iff.mpr ⟨hi, hrest, rfl⟩,
            Except.bind_eq_error_iff.mpr (.inl ((ih _ _).mpr
              ⟨more, rest, rfl, hmore, hne, ?_⟩))⟩
          dsimp only
          rw [Nat.add_assoc, ← List.length_append]
          simpa using h

end Reader

/-- **The specification of failing to read a packet**: it begins with some items within the limits,
and behind them there is a fault, or an item too many. -/
theorem decode_eq_error_iff {b : Bytes} {e : PacketError} :
    decode b = .error e ↔
      ∃ l rest, b = encode ⟨l⟩ ++ rest ∧ (⟨l⟩ : Packet).WithinLimits ∧ rest ≠ [] ∧
        ((l.length = maxItems ∧ e = .tooManyItems (maxItems + 1)) ∨
          (l.length < maxItems ∧ Fault (encode ⟨l⟩).length rest e)) := by
  rw [decode, Except.bind_eq_error_iff, Reader.items_eq_error_iff]
  constructor
  · rintro (⟨l, rest, hrest, hl, hne, h⟩ | ⟨l, -, h⟩)
    · rw [Nat.zero_add] at h
      have hlen : l.length ≤ maxItems := by rcases h with ⟨h, -⟩ | ⟨h, -⟩ <;> omega
      exact ⟨l, rest, hrest, ⟨hlen, hl⟩, hne, h⟩
    · cases h
  · rintro ⟨l, rest, hrest, hl, hne, h⟩
    refine .inl ⟨l, rest, hrest, hl.2, hne, ?_⟩
    rwa [Nat.zero_add]

end ContractHost.Packet
