import ContractHost.Packet.Encoding

/-!
# Reading a packet

The reader walks the six fields of each item and keeps count of the offset it has reached, so that
an error says where the fault is.  Each check is made as soon as its field is read: an origin
before the key's length, the key's text before the tag of the value.  Only the kind of the value
is checked last, once the value is there.

## Main definitions

* `Packet.decode` — the packet that a byte string writes down, or what is wrong with it.
* `Packet.Reader` — what is left to read, and its offset.
-/

namespace ContractHost.Packet

/-- What is left to read. -/
structure Reader where
  /-- The offset of the first byte that is left. -/
  offset : Nat
  /-- The bytes that are left. -/
  rest : Bytes

namespace Reader

/-- Reads a field of `n` bytes. -/
def take (r : Reader) (n : Nat) : Except PacketError (Bytes × Reader) :=
  let field := r.rest.take n
  if field.length = n then .ok (field, ⟨r.offset + n, r.rest.drop n⟩)
  else .error (.truncated r.offset)

/-- Reads a word. -/
def word (r : Reader) : Except PacketError (UInt32 × Reader) := do
  let (field, r') ← r.take 4
  match Bytes.toWord? field with
  | some w => pure (w, r')
  | none => throw (.truncated r.offset)

/-- Reads a length of at most `max`. -/
def length (r : Reader) (max : Nat) : Except PacketError (Nat × Reader) := do
  let (w, r') ← r.word
  let len := w.toInt32.toInt
  if 0 ≤ len ∧ len ≤ max then pure (len.toNat, r')
  else throw (.invalidLength len r.offset)

/-- The value in a field of which the tag says the kind.  `offset` is where the field begins. -/
def value (tag : UInt32) (offset : Nat) (field : Bytes) : Except PacketError Value :=
  if tag = ValueKind.int32.tag then
    match Bytes.toInt32? field with
    | some n => pure (.int32 n)
    | none => throw (.invalidLength field.length offset)
  else if tag = ValueKind.text.tag then
    match Utf8.decode? field with
    | some s => pure (.text s)
    | none => throw (.invalidUtf8 offset)
  else if tag = ValueKind.bytes.tag then pure (.bytes field)
  else throw (.unknownValueKind tag.toInt32.toInt)

/-- Reads an item. -/
def item (r : Reader) : Except PacketError (Item × Reader) := do
  let (originTag, r) ← r.word
  let some origin := Origin.ofTag? originTag
    | throw (.unknownOrigin originTag.toInt32.toInt)
  let (keyLength, r) ← r.length maxKeyLength
  let keyOffset := r.offset
  let (keyField, r) ← r.take keyLength
  let some key := Utf8.decode? keyField
    | throw (.invalidUtf8 keyOffset)
  let (kindTag, r) ← r.word
  let (valueLength, r) ← r.length maxValueLength
  let valueOffset := r.offset
  let (valueField, r) ← r.take valueLength
  let value ← value kindTag valueOffset valueField
  pure (⟨origin, key, value⟩, r)

/-- Reads items up to the end, at most `room` of them. -/
def items (room : Nat) (r : Reader) : Except PacketError (List Item) :=
  if r.rest.isEmpty then .ok []
  else match room with
    | 0 => .error (.tooManyItems (maxItems + 1))
    | room + 1 => do
      let (item, r') ← r.item
      let more ← r'.items room
      pure (item :: more)

end Reader

/-- The packet that a byte string writes down, or what is wrong with it. -/
def decode (b : Bytes) : Except PacketError Packet := do
  let items ← Reader.items maxItems ⟨0, b⟩
  pure ⟨items⟩

end ContractHost.Packet
