import ContractHost.Ledger.Access
import ContractHost.Packet.Encoding

/-!
# Stored keys

A contract names a piece of state by a key and a field.  In the ledger the two are one byte string
with a separator between them; without a field the separator is left out.  Reading a stored key
takes the first separator for the one that was put in.

## Main definitions

* `StateKey.join`, `StateKey.split` — the stored form of a key with a field, and its parts.
* `StateKey.encodePair` — a stored pair as a packet.
* `Row.encode` — a row as a packet.
-/

namespace ContractHost

namespace StateKey

/-- The byte between key and field. -/
def separator : UInt8 := 0x23

/-- The stored form of a key with a field; an empty field leaves no trace. -/
def join (key field : String) : Bytes :=
  if field = "" then Utf8.encode key
  else Utf8.encode key ++ separator :: Utf8.encode field

/-- The parts of a stored key as texts: what stands before the first separator and what follows it.
Without a separator all of it is the key. -/
def split (stored : Bytes) : String × String :=
  match stored.dropWhile (· != separator) with
  | [] => (Utf8.decodeLossy stored, "")
  | _ :: field => (Utf8.decodeLossy (stored.takeWhile (· != separator)), Utf8.decodeLossy field)

/-- A stored pair as a packet of key, field and value. -/
def encodePair (pair : Pair) : Bytes :=
  let (key, field) := split pair.1
  Packet.encode ⟨[⟨.user, "key", .text key⟩, ⟨.user, "field", .text field⟩,
    ⟨.user, "value", .bytes pair.2⟩]⟩

end StateKey

/-- A row as a packet. -/
def Row.encode (row : Row) : Bytes :=
  (Packet.ofMap row).encode

end ContractHost
