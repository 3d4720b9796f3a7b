import ContractHost.Proofs.Packet.Params
import ContractHost.Proofs.Text.Order
import Mathlib

/-!
# The layout of written parameters

A contract need not read a packet to find the handle of its invocation.  The handle is the first
item, so its text begins at a place that depends on its key alone, and the four bytes before that
place hold the length of the text.

The other parameters follow in the order of their names.  None of them is named like the handle,
whatever parameters were given, so nobody can pass a handle of his own.

## Main results

* `Packet.drop_handleOffset`, `drop_lengthOffset` — the value of the first item, and its length.
* `Packet.pairwise_encode_keys` — the names of the other parameters, in the order of their bytes.
* `Packet.ofParams_layout` — **where the handle is found, and what stands behind it.**
-/

namespace ContractHost

namespace Packet

/-! ### The first item -/

/-- **The length of the first value stands before its place.** -/
theorem drop_lengthOffset (i : Item) (l : List Item) :
    (encode ⟨i :: l⟩).drop (handleOffset i.key - 4) =
      Bytes.ofWord i.value.toBytes.lengthWord ++ (i.value.toBytes ++ encode ⟨l⟩) := by
  have hfields : encode ⟨i :: l⟩ =
      (Bytes.ofWord i.origin.tag ++ Bytes.ofWord (Utf8.encode i.key).lengthWord ++
        Utf8.encode i.key ++ Bytes.ofWord i.value.kind.tag) ++
      (Bytes.ofWord i.value.toBytes.lengthWord ++ (i.value.toBytes ++ encode ⟨l⟩)) := by
    rw [encode_cons, Item.encode]
    simp only [List.append_assoc]
  rw [hfields]
  apply List.drop_left'
  simp only [List.length_append, Bytes.length_ofWord, handleOffset]
  omega

/-- **The first value stands at its place**, and the other items behind it. -/
theorem drop_handleOffset (i : Item) (l : List Item) :
    (encode ⟨i :: l⟩).drop (handleOffset i.key) = i.value.toBytes ++ encode ⟨l⟩ := by
  have hplace : handleOffset i.key = handleOffset i.key - 4 + 4 := by
    unfold handleOffset
    omega
  rw [hplace, ← List.drop_drop, drop_lengthOffset]
  exact List.drop_left' (Bytes.length_ofWord _)

/-! ### The handle -/

/-- The length of a handle's text can be written down as a number. -/
theorem length_handle (handle : Int32) :
    (Utf8.encode (toString handle.toInt)).lengthWord.toInt32.toInt =
      (Utf8.encode (toString handle.toInt)).length := by
  obtain ⟨⟨hpos, -⟩, hlength⟩ := (Bytes.length_range_iff
    (by decide : maxValueLength < 2 ^ 31)).mpr
    ⟨length_handle_le handle, rfl⟩
  unfold Bytes.lengthWord
  omega

/-- The text of a handle says which handle it is. -/
theorem toInt?_handle (handle : Int32) :
    (Utf8.decode? (Utf8.encode (toString handle.toInt))).bind String.toInt? =
      some handle.toInt := by
  rw [Utf8.decode?_encode, Option.bind_some, Int.toString_eq_repr, Int.toInt?_repr]

/-! ### The other parameters -/

/-- Names that ascend are in the order of their bytes. -/
theorem pairwise_encode_keys (m : OrderedMap String Bytes) :
    (m.keys.map Utf8.encode).Pairwise (· < ·) := by
  unfold OrderedMap.keys
  rw [List.pairwise_map, List.pairwise_map]
  refine m.ascending.imp fun h => Utf8.encode_lt_encode_iff.mpr ?_
  exact compareOfLessAndEq_eq_lt.mp h

/-- An item beside the handle is one of the other parameters. -/
theorem mem_others_iff (handleKey : String) (params : OrderedMap String Bytes) (i : Item) :
    i ∈ (params.erase handleKey).entries.map (fun e => ⟨.user, e.1, .bytes e.2⟩) ↔
      i.key ≠ handleKey ∧ ∃ b, params.get? i.key = some b ∧ i = ⟨.user, i.key, .bytes b⟩ := by
  -- what is left is every parameter but the one under the key of the handle
  have hentry (name : String) (b : Bytes) : (name, b) ∈ (params.erase handleKey).entries ↔
      name ≠ handleKey ∧ params.get? name = some b := by
    rw [OrderedMap.mem_entries_iff, OrderedMap.get?_erase_ite]
    split
    · rename_i h
      simp [h]
    · rename_i h
      simp [Ne.symm h]
  rw [List.mem_map]
  constructor
  · rintro ⟨⟨name, b⟩, he, rfl⟩
    obtain ⟨hname, hfound⟩ := (hentry name b).mp he
    exact ⟨hname, b, hfound, rfl⟩
  · rintro ⟨hname, b, hfound, hi⟩
    exact ⟨(i.key, b), (hentry i.key b).mpr ⟨hname, hfound⟩, hi.symm⟩

/-- **Where the handle is found, and what stands behind it.**  In the written parameters of a call,
whatever the key of the handle, the handle and the parameters are, the four bytes before the place
of the handle spell the length of its decimal text; the text stands at the place, and it says which
handle it is.  The handle is the first item.  The others are the parameters that were given, but one
that is named like the handle, in the order of the bytes of their names.  So the map of the packet
is that of the parameters with the text of the handle put in. -/
theorem ofParams_layout (handleKey : String) (handle : Int32) (params : OrderedMap String Bytes) :
    let text := Utf8.encode (toString handle.toInt)
    let written := (ofParams handleKey handle params).encode
    let others := (ofParams handleKey handle params).items.tail
    (∃ n : Int32, (written.drop (handleOffset handleKey - 4)).take 4 = Bytes.ofInt32 n ∧
      n.toInt = text.length) ∧
    (written.drop (handleOffset handleKey)).take text.length = text ∧
    (Utf8.decode? text).bind String.toInt? = some handle.toInt ∧
    (ofParams handleKey handle params).items = ⟨.user, handleKey, .bytes text⟩ :: others ∧
    (∀ i ∈ others, i.key ≠ handleKey) ∧
    (∀ i : Item, i ∈ others ↔
      i.key ≠ handleKey ∧ ∃ b, params.get? i.key = some b ∧ i = ⟨.user, i.key, .bytes b⟩) ∧
    (others.map fun i => Utf8.encode i.key).Pairwise (· < ·) ∧
    (ofParams handleKey handle params).toMap = params.insert handleKey text := by
  intro text written others
  have hitems := items_ofParams handleKey handle params
  have hothers : others = (params.erase handleKey).entries.map fun e => ⟨.user, e.1, .bytes e.2⟩ :=
    congrArg List.tail hitems
  -- the handle comes first, so its text stands at a fixed place whatever follows
  have hwritten : written = encode ⟨⟨.user, handleKey, .bytes text⟩ :: others⟩ := by
    rw [hothers, ← hitems]
  have hlength := drop_lengthOffset ⟨.user, handleKey, .bytes text⟩ others
  have htext := drop_handleOffset ⟨.user, handleKey, .bytes text⟩ others
  have hmem := mem_others_iff handleKey params
  rw [← hothers] at hmem
  refine ⟨⟨text.lengthWord.toInt32, ?_, length_handle handle⟩, ?_, toInt?_handle handle,
    hothers ▸ hitems, fun i hi => ((hmem i).mp hi).1, hmem, ?_,
    toMap_ofParams handleKey handle params⟩
  · rw [hwritten, hlength]
    exact List.take_left' (Bytes.length_ofWord _)
  · rw [hwritten, htext]
    exact List.take_left
  · have hnames := pairwise_encode_keys (params.erase handleKey)
    rw [hothers, List.map_map]
    unfold OrderedMap.keys at hnames
    rwa [List.map_map] at hnames

end Packet

end ContractHost
