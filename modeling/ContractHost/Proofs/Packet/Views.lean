import ContractHost.Packet.Lookup
import ContractHost.Proofs.Packet.Params

/-!
# A packet as a list and as a map

There are two ways to find out what a packet holds under a key.  A lookup walks over the items and
takes the first one with the key.  The map of the packet is put together item by item, so that the
last one with the key is left in it.  Nothing keeps a packet from having several items with one key,
and then the two may differ.

## Main definitions

* `Item.FirstIn`, `Item.LastIn` — the first and the last item with a key.

## Main results

* `Packet.get?_eq_some_iff` — a lookup finds the first item.
* `Packet.get?_toMap_eq_some_iff` — the map holds the last one.
* `Packet.toMap_ofMap` — a map is found again in the packet that it was made to.
* `Packet.toMap_agrees` — **both find something under the same keys**, and the same if the first
  item and the last one hold the same bytes.
* `Packet.toMap_disagrees` — a packet with a repeated key, read differently in the two ways.
-/

namespace ContractHost

/-- The item is the first one with its key. -/
def Item.FirstIn (i : Item) (p : Packet) : Prop :=
  ∃ before after, p.items = before ++ i :: after ∧ ∀ j ∈ before, j.key ≠ i.key

/-- The item is the last one with its key. -/
def Item.LastIn (i : Item) (p : Packet) : Prop :=
  ∃ before after, p.items = before ++ i :: after ∧ ∀ j ∈ after, j.key ≠ i.key

namespace Packet

variable {p : Packet} {key : String}

/-! ### The first item -/

theorem find?_eq_some_iff_first {i : Item} :
    p.items.find? (·.key = key) = some i ↔ i.FirstIn p ∧ i.key = key := by
  simp only [List.find?_eq_some_iff_append, decide_eq_true_eq, Bool.not_eq_true',
    decide_eq_false_iff_not, Item.FirstIn]
  constructor
  · rintro ⟨rfl, before, after, hitems, hbefore⟩
    exact ⟨⟨before, after, hitems, hbefore⟩, rfl⟩
  · rintro ⟨⟨before, after, hitems, hbefore⟩, rfl⟩
    exact ⟨rfl, before, after, hitems, hbefore⟩

/-- **A lookup finds the first item with the key.** -/
theorem get?_eq_some_iff {v : Value} :
    p.get? key = some v ↔ ∃ i : Item, i.FirstIn p ∧ i.key = key ∧ i.value = v := by
  unfold get?
  simp only [Option.map_eq_some_iff, find?_eq_some_iff_first, and_assoc]

/-! ### The last item -/

theorem find?_reverse_eq_some_iff_last {i : Item} :
    p.items.reverse.find? (·.key = key) = some i ↔ i.LastIn p ∧ i.key = key := by
  have hreverse (before after : List Item) :
      p.items.reverse = before ++ i :: after ↔ p.items = after.reverse ++ i :: before.reverse := by
    rw [List.reverse_eq_iff, List.reverse_append, List.reverse_cons, List.append_assoc,
      List.singleton_append]
  simp only [List.find?_eq_some_iff_append, decide_eq_true_eq, Bool.not_eq_true',
    decide_eq_false_iff_not, Item.LastIn, hreverse]
  constructor
  · rintro ⟨rfl, before, after, hitems, hbefore⟩
    refine ⟨⟨after.reverse, before.reverse, hitems, fun j hj => ?_⟩, rfl⟩
    exact hbefore j (List.mem_reverse.mp hj)
  · rintro ⟨⟨before, after, hitems, hafter⟩, rfl⟩
    refine ⟨rfl, after.reverse, before.reverse, ?_, fun j hj => ?_⟩
    · rw [List.reverse_reverse, List.reverse_reverse, hitems]
    · exact hafter j (List.mem_reverse.mp hj)

theorem toMap_of_user (huser : ∀ i ∈ p.items, i.origin = .user) :
    p.toMap = .ofList (p.items.map fun i => (i.key, i.value.toBytes)) := by
  unfold toMap
  rw [List.filter_eq_self.mpr fun i hi => decide_eq_true (huser i hi)]

/-- A map is found again in the packet that it was made to. -/
theorem toMap_ofMap (m : OrderedMap String Bytes) : (ofMap m).toMap = m := by
  have huser : ∀ i ∈ (ofMap m).items, i.origin = .user := by
    intro i hi
    obtain ⟨e, -, rfl⟩ := List.mem_map.mp hi
    rfl
  have hpairs : (ofMap m).items.map (fun i => (i.key, i.value.toBytes)) = m.entries := by
    unfold ofMap
    rw [List.map_map]
    exact List.map_id _
  refine OrderedMap.ext_get? fun name => ?_
  rw [toMap_of_user huser, hpairs, OrderedMap.get?_ofList, OrderedMap.find?_reverse_entries]

theorem get?_toMap (huser : ∀ i ∈ p.items, i.origin = .user) (key : String) :
    p.toMap.get? key =
      (p.items.reverse.find? (·.key = key)).map fun i => i.value.toBytes := by
  rw [toMap_of_user huser, OrderedMap.get?_ofList, ← List.map_reverse, List.find?_map,
    Option.map_map]
  rfl

/-- **The map holds the last item with the key.** -/
theorem get?_toMap_eq_some_iff (huser : ∀ i ∈ p.items, i.origin = .user) {b : Bytes} :
    p.toMap.get? key = some b ↔ ∃ i : Item, i.LastIn p ∧ i.key = key ∧ i.value.toBytes = b := by
  rw [get?_toMap huser]
  simp only [Option.map_eq_some_iff, find?_reverse_eq_some_iff_last, and_assoc]

/-! ### Both -/

/-- **Both ways find something under the same keys.** -/
theorem isSome_get?_toMap (huser : ∀ i ∈ p.items, i.origin = .user) (key : String) :
    (p.toMap.get? key).isSome = (p.get? key).isSome := by
  rw [get?_toMap huser, get?, Option.isSome_map, Option.isSome_map, Bool.eq_iff_iff,
    List.find?_isSome, List.find?_isSome]
  simp only [List.mem_reverse]

/-- An item with a key that no other item has. -/
theorem eq_of_countP_le_one {l : List Item} (honce : l.countP (·.key = key) ≤ 1) {i j : Item}
    (hi : i ∈ l) (hj : j ∈ l) (hikey : i.key = key) (hjkey : j.key = key) : i = j := by
  obtain ⟨before, after, rfl⟩ := List.append_of_mem hi
  rw [List.countP_append, List.countP_cons_of_pos (by simpa using hikey)] at honce
  have hother {part : List Item} (hpart : part.countP (·.key = key) = 0) : j ∉ part := fun hmem =>
    List.countP_eq_zero.mp hpart j hmem (by simpa using hjkey)
  rcases List.mem_append.mp hj with hbefore | hrest
  · exact absurd hbefore (hother (by omega))
  · rcases List.mem_cons.mp hrest with rfl | hafter
    · rfl
    · exact absurd hafter (hother (by omega))

/-- **A packet as a map holds what a lookup finds, if the first item and the last one with the key
hold the same bytes.**  The map of a packet of contract items has an entry under a key exactly when
a lookup finds a value.  The lookup finds the first item with the key, and the entry holds the byte
form of the last one; so the two are the same exactly if these two items have the same byte form,
and always if no other item has the key. -/
theorem toMap_agrees (huser : ∀ i ∈ p.items, i.origin = .user) (key : String) :
    ((p.toMap.get? key).isSome ↔ (p.get? key).isSome) ∧
    (∀ v, p.get? key = some v ↔ ∃ i : Item, i.FirstIn p ∧ i.key = key ∧ i.value = v) ∧
    (∀ b, p.toMap.get? key = some b ↔
      ∃ i : Item, i.LastIn p ∧ i.key = key ∧ i.value.toBytes = b) ∧
    (p.toMap.get? key = (p.get? key).map Value.toBytes ↔
      ∀ i j : Item, i.FirstIn p → j.LastIn p → i.key = key → j.key = key →
        i.value.toBytes = j.value.toBytes) ∧
    (p.items.countP (·.key = key) ≤ 1 →
      p.toMap.get? key = (p.get? key).map Value.toBytes) := by
  have hsame : p.toMap.get? key = (p.get? key).map Value.toBytes ↔
      ∀ i j : Item, i.FirstIn p → j.LastIn p → i.key = key → j.key = key →
        i.value.toBytes = j.value.toBytes := by
    constructor
    · intro hagree i j hfirst hlast hikey hjkey
      have hfound : p.get? key = some i.value := get?_eq_some_iff.mpr ⟨i, hfirst, hikey, rfl⟩
      have hentry : p.toMap.get? key = some j.value.toBytes :=
        (get?_toMap_eq_some_iff huser).mpr ⟨j, hlast, hjkey, rfl⟩
      rw [hfound, hentry, Option.map_some] at hagree
      exact (Option.some.inj hagree).symm
    · intro hbytes
      have hboth := isSome_get?_toMap huser key
      cases hfound : p.get? key with
      | none =>
        rw [hfound, Option.isSome_none, Option.isSome_eq_false_iff, Option.isNone_iff_eq_none]
          at hboth
        rw [hboth, Option.map_none]
      | some v =>
        rw [hfound, Option.isSome_some] at hboth
        obtain ⟨b, hentry⟩ := Option.isSome_iff_exists.mp hboth
        obtain ⟨i, hfirst, hikey, rfl⟩ := get?_eq_some_iff.mp hfound
        obtain ⟨j, hlast, hjkey, rfl⟩ := (get?_toMap_eq_some_iff huser).mp hentry
        rw [hentry, Option.map_some, hbytes i j hfirst hlast hikey hjkey]
  refine ⟨by rw [isSome_get?_toMap huser], fun v => get?_eq_some_iff,
    fun b => get?_toMap_eq_some_iff huser, hsame, fun honce => hsame.mpr ?_⟩
  rintro i j ⟨before, after, hitems, -⟩ ⟨before', after', hitems', -⟩ hikey hjkey
  have hi : i ∈ p.items := hitems ▸ List.mem_append_right _ List.mem_cons_self
  have hj : j ∈ p.items := hitems' ▸ List.mem_append_right _ List.mem_cons_self
  rw [eq_of_countP_le_one honce hi hj hikey hjkey]

/-- A packet in which a key is repeated, and another one is not. -/
def repeatedPacket : Packet :=
  ⟨[⟨.user, "amount", .bytes [1]⟩, ⟨.user, "memo", .text "rent"⟩, ⟨.user, "amount", .bytes [2]⟩]⟩

/-- Under the key that is not repeated both ways find the same. -/
theorem toMap_agrees_memo :
    (∀ i ∈ repeatedPacket.items, i.origin = .user) ∧
    ((repeatedPacket.toMap.get? "memo").isSome ↔ (repeatedPacket.get? "memo").isSome) ∧
    repeatedPacket.toMap.get? "memo" = (repeatedPacket.get? "memo").map Value.toBytes := by
  have huser : ∀ i ∈ repeatedPacket.items, i.origin = .user := by decide
  obtain ⟨hboth, -, -, -, honce⟩ := toMap_agrees huser "memo"
  exact ⟨huser, hboth, honce (by decide)⟩

/-- **Under a repeated key the two ways differ**, in a packet that is accepted. -/
theorem toMap_disagrees :
    Packet.decode repeatedPacket.encode = .ok repeatedPacket ∧
    (∀ i ∈ repeatedPacket.items, i.origin = .user) ∧
    repeatedPacket.get? "amount" = some (.bytes [1]) ∧
    repeatedPacket.toMap.get? "amount" = some [2] ∧
    repeatedPacket.toMap.get? "amount" ≠ (repeatedPacket.get? "amount").map Value.toBytes := by
  refine ⟨decode_encode (by decide +kernel), by decide, by decide, by decide +kernel, ?_⟩
  decide +kernel

end Packet

end ContractHost
