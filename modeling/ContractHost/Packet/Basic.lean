import ContractHost.OrderedMap
import ContractHost.Text.Utf8

/-!
# Packets

A packet is an ordered list of keyed items.  Requests, replies and parameters all travel as
packets.  Every item says whether the host or the contract introduced its key, and holds a number,
a text or a byte string.

## Main definitions

* `Origin`, `Value`, `Item`, `Packet` — the parts of a packet.
* `Packet.maxItems`, `maxKeyLength`, `maxValueLength` — what a reader accepts.
* `PacketError` — why a byte string is no packet, or a packet has not the item that is asked for.
-/

namespace ContractHost

/-- Who introduced a key. -/
inductive Origin
  /-- The host. -/
  | system
  /-- A contract or its caller. -/
  | user
  deriving Repr, DecidableEq, Inhabited

/-- The kinds of values. -/
inductive ValueKind
  /-- A signed 32 bit number. -/
  | int32
  /-- A text. -/
  | text
  /-- A byte string. -/
  | bytes
  deriving Repr, DecidableEq, Inhabited

/-- The value of an item. -/
inductive Value
  /-- A signed 32 bit number. -/
  | int32 (n : Int32)
  /-- A text. -/
  | text (s : String)
  /-- A byte string. -/
  | bytes (b : Bytes)
  deriving DecidableEq, Inhabited

/-- A keyed value. -/
structure Item where
  /-- Who introduced the key. -/
  origin : Origin
  /-- The key. -/
  key : String
  /-- The value. -/
  value : Value
  deriving DecidableEq, Inhabited

/-- An ordered list of items. -/
structure Packet where
  /-- The items, in the order in which they are written. -/
  items : List Item := []
  deriving DecidableEq, Inhabited

/-- Why a byte string is no packet, or a packet has not the item that is asked for. -/
inductive PacketError
  /-- The field that starts at `offset` needs more bytes than there are. -/
  | truncated (offset : Nat)
  /-- A length is negative, above its limit, or wrong for its value. -/
  | invalidLength (len : Int) (offset : Nat)
  /-- The bytes that start at `offset` are not the encoding of a text. -/
  | invalidUtf8 (offset : Nat)
  /-- No origin has this tag. -/
  | unknownOrigin (tag : Int)
  /-- No kind of value has this tag. -/
  | unknownValueKind (tag : Int)
  /-- There are more items than a packet may have. -/
  | tooManyItems (count : Nat)
  /-- No item has the key. -/
  | missingKey (key : String)
  /-- The first item with the key holds a value of another kind. -/
  | kindMismatch (key : String) (expected : ValueKind)
  deriving Repr, DecidableEq, Inhabited

/-- The number that stands for an origin. -/
def Origin.tag : Origin → UInt32
  | .system => 0
  | .user => 1

/-- The origin that a number stands for. -/
def Origin.ofTag? (tag : UInt32) : Option Origin :=
  if tag = 0 then some .system else if tag = 1 then some .user else none

@[simp] theorem Origin.ofTag?_tag (o : Origin) : ofTag? o.tag = some o := by
  cases o <;> rfl

/-- The number that stands for a kind of value. -/
def ValueKind.tag : ValueKind → UInt32
  | .int32 => 0
  | .text => 1
  | .bytes => 2

theorem ValueKind.tag_injective {k l : ValueKind} (h : k.tag = l.tag) : k = l := by
  cases k <;> cases l <;> simp_all [tag]

/-- How a kind of value is called in messages. -/
def ValueKind.name : ValueKind → String
  | .int32 => "int32"
  | .text => "string"
  | .bytes => "bytes"

/-- The kind of a value. -/
def Value.kind : Value → ValueKind
  | .int32 _ => .int32
  | .text _ => .text
  | .bytes _ => .bytes

/-- The byte form of a value: a number in four bytes, a text in UTF-8. -/
def Value.toBytes : Value → Bytes
  | .int32 n => Bytes.ofInt32 n
  | .text s => Utf8.encode s
  | .bytes b => b

/-- The wording of an error. -/
def PacketError.message : PacketError → String
  | .truncated offset => s!"truncated input at offset {offset}"
  | .invalidLength len offset => s!"invalid length {len} at offset {offset}"
  | .invalidUtf8 offset => s!"invalid utf-8 at offset {offset}"
  | .unknownOrigin tag => s!"unknown key type {tag}"
  | .unknownValueKind tag => s!"unknown value type {tag}"
  | .tooManyItems count => s!"too many items: {count}"
  | .missingKey key => s!"missing key: {key}"
  | .kindMismatch key expected => s!"key {key} is not of type {expected.name}"

namespace Packet

/-- The most items a reader accepts. -/
def maxItems : Nat := 128

/-- The longest key a reader accepts, in bytes. -/
def maxKeyLength : Nat := 64

/-- The longest value a reader accepts, in bytes. -/
def maxValueLength : Nat := 1048576

/-- The packet with one more item at its end. -/
def push (p : Packet) (origin : Origin) (key : String) (value : Value) : Packet :=
  ⟨p.items ++ [⟨origin, key, value⟩]⟩

/-- A packet of contract items, each holding the bytes under its key. -/
def ofMap (m : OrderedMap String Bytes) : Packet :=
  ⟨m.entries.map fun e => ⟨.user, e.1, .bytes e.2⟩⟩

/-- The contract items as a map from keys to byte forms; of two items with one key the later
counts. -/
def toMap (p : Packet) : OrderedMap String Bytes :=
  .ofList ((p.items.filter (·.origin = .user)).map fun i => (i.key, i.value.toBytes))

end Packet

end ContractHost
