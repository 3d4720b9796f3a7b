import ContractHost.Packet.Basic

/-!
# Looking up items

Of several items with one key only the first is ever seen, whoever introduced it.

## Main definitions

* `Packet.get?` — the value of the first item with a key.
* `Packet.getInt32`, `getText`, `getTextOrEmpty`, `getBytes` — the same with the kind that is
  wanted.
-/

namespace ContractHost.Packet

/-- The value of the first item with a key. -/
def get? (p : Packet) (key : String) : Option Value :=
  (p.items.find? (·.key = key)).map (·.value)

/-- The number under a key. -/
def getInt32 (p : Packet) (key : String) : Except PacketError Int32 :=
  match p.get? key with
  | some (.int32 n) => .ok n
  | some _ => .error (.kindMismatch key .int32)
  | none => .error (.missingKey key)

/-- The text under a key. -/
def getText (p : Packet) (key : String) : Except PacketError String :=
  match p.get? key with
  | some (.text s) => .ok s
  | some _ => .error (.kindMismatch key .text)
  | none => .error (.missingKey key)

/-- The text under a key, empty where there is no item. -/
def getTextOrEmpty (p : Packet) (key : String) : Except PacketError String :=
  match p.get? key with
  | none => .ok ""
  | some _ => p.getText key

/-- The bytes under a key; a text counts as its UTF-8 bytes. -/
def getBytes (p : Packet) (key : String) : Except PacketError Bytes :=
  match p.get? key with
  | some (.bytes b) => .ok b
  | some (.text s) => .ok (Utf8.encode s)
  | some (.int32 _) => .error (.kindMismatch key .bytes)
  | none => .error (.missingKey key)

end ContractHost.Packet
