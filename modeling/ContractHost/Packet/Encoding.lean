import ContractHost.Packet.Basic

/-!
# The written form of a packet

Items are written one after another.  An item is six fields: the tag of its origin, the length of
its key, the key, the tag of its kind of value, the length of the value, and the value.  Tags and
lengths are 32 bit words.  Writing applies no limit; a length above the word's range is written
modulo `2 ^ 32`.

## Main definitions

* `Packet.encode` — the written form of a packet.
* `Packet.ofParams` — the packet of parameters that a contract method is called with.
* `Packet.handleOffset` — where in it the handle's text begins.
-/

namespace ContractHost

/-- The written form of an item. -/
def Item.encode (i : Item) : Bytes :=
  let key := Utf8.encode i.key
  let value := i.value.toBytes
  Bytes.ofWord i.origin.tag ++ Bytes.ofWord key.lengthWord ++ key ++
    Bytes.ofWord i.value.kind.tag ++ Bytes.ofWord value.lengthWord ++ value

theorem Item.length_encode (i : Item) :
    i.encode.length = 16 + (Utf8.encode i.key).length + i.value.toBytes.length := by
  simp only [encode, List.length_append, Bytes.length_ofWord]
  omega

namespace Packet

/-- The written form of a packet. -/
def encode (p : Packet) : Bytes :=
  p.items.flatMap Item.encode

@[simp] theorem encode_nil : encode ⟨[]⟩ = [] := rfl

@[simp] theorem encode_cons (i : Item) (l : List Item) :
    encode ⟨i :: l⟩ = i.encode ++ encode ⟨l⟩ := rfl

/-- The parameters of a call.  The invocation's handle comes first, as its decimal text under
`handleKey`; the other parameters follow in the order of their names, and one that is named like
the handle is left out. -/
def ofParams (handleKey : String) (handle : Int32) (params : OrderedMap String Bytes) : Packet :=
  ⟨⟨.user, handleKey, .bytes (Utf8.encode (toString handle.toInt))⟩ ::
    (ofMap (params.filter fun name _ => name != handleKey)).items⟩

/-- Where the first value begins in a packet whose first key is `key`: after two words, the key,
and two more words. -/
def handleOffset (key : String) : Nat :=
  4 + 4 + (Utf8.encode key).length + 4 + 4

end Packet

end ContractHost
