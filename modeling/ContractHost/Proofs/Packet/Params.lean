import ContractHost.Proofs.OrderedMap
import ContractHost.Proofs.Packet.Reading
import Mathlib.Data.List.Induction
import Mathlib.Data.Nat.Digits.Defs

/-!
# Parameters that are written down

The parameters of a call are written as one packet.  The handle of its invocation is the first item,
and every other parameter is one more, but a parameter that is named like the handle is left out.
So a reader finds the parameters that were given, with the handle among them.

A reader accepts no more items than `Packet.maxItems`, and the handle is one of them.  Parameters
that were read themselves are within every other limit.  So they can be read again exactly if there
is room for the handle beside them.

## Main results

* `OrderedMap.get?_ofList` — of several pairs with one key the last one counts.
* `Packet.toMap_ofParams` — **the written parameters are those that were given, and the handle.**
* `Packet.Reader.items_of_surplus` — a reader refuses one item too many.
* `Packet.decode_ofParams` — **when written parameters can be read.**
-/

namespace ContractHost

open Std

namespace OrderedMap

variable {κ ν : Type} [Ord κ]

theorem length_place_le (k : κ) (v : ν) (l : List (κ × ν)) :
    (place k v l).length ≤ l.length + 1 := by
  induction l with
  | nil => exact le_rfl
  | cons e rest ih =>
    unfold place
    split
    · exact le_rfl
    · exact Nat.le_succ _
    · exact Nat.succ_le_succ ih

variable [TransOrd κ]

theorem size_ofList_le (l : List (κ × ν)) : (ofList l).size ≤ l.length := by
  induction l using List.reverseRecOn with
  | nil => exact le_rfl
  | append_singleton l e ih =>
    rw [ofList_append, List.length_append]
    exact (length_place_le _ _ _).trans (Nat.succ_le_succ ih)

variable [LawfulEqOrd κ] [DecidableEq κ]

/-- **Of several pairs with one key the last one counts.** -/
theorem get?_ofList (l : List (κ × ν)) (k : κ) :
    (ofList l).get? k = (l.reverse.find? fun e => e.1 = k).map (·.2) := by
  induction l using List.reverseRecOn with
  | nil => rfl
  | append_singleton l e ih =>
    rw [ofList_append, get?_insert_ite, ih, List.reverse_append, List.reverse_singleton,
      List.singleton_append, List.find?_cons]
    split
    · rename_i hk
      rw [decide_eq_true hk]
      rfl
    · rename_i hk
      rw [decide_eq_false hk]

omit [TransOrd κ] in
/-- In a map it does not matter where the search begins. -/
theorem find?_reverse_entries (m : OrderedMap κ ν) (k : κ) :
    (m.entries.reverse.find? fun e => e.1 = k).map (·.2) = m.get? k := by
  refine Option.ext fun v => ?_
  rw [← mem_entries_iff, Option.map_eq_some_iff]
  constructor
  · rintro ⟨⟨k', v'⟩, hfound, rfl⟩
    obtain rfl : k' = k := of_decide_eq_true (List.find?_some hfound :)
    exact List.mem_reverse.mp (List.mem_of_find?_eq_some hfound)
  · intro hmem
    have hsome : (m.entries.reverse.find? fun e => e.1 = k).isSome := by
      rw [List.find?_isSome]
      exact ⟨(k, v), List.mem_reverse.mpr hmem, decide_eq_true rfl⟩
    obtain ⟨⟨k', v'⟩, hfound⟩ := Option.isSome_iff_exists.mp hsome
    obtain rfl : k' = k := of_decide_eq_true (List.find?_some hfound :)
    -- keys occur once, so the last entry found is the only one
    have hfirst : m.get? k' = some v' :=
      mem_entries_iff.mp (List.mem_reverse.mp (List.mem_of_find?_eq_some hfound))
    have hsecond : m.get? k' = some v := mem_entries_iff.mp hmem
    exact ⟨_, hfound, Option.some.inj (hfirst.symm.trans hsecond)⟩

end OrderedMap

namespace Packet

variable {p : Packet} {handleKey : String} {handle : Int32} {m : OrderedMap String Bytes}

/-! ### The parameters that are found -/

theorem exists_item_of_toMap {name : String} {b : Bytes} (h : p.toMap.get? name = some b) :
    ∃ i ∈ p.items, i.key = name ∧ i.value.toBytes = b := by
  unfold toMap at h
  rw [OrderedMap.get?_ofList] at h
  obtain ⟨e, hfound, rfl⟩ := Option.map_eq_some_iff.mp h
  have hmem := List.mem_reverse.mp (List.mem_of_find?_eq_some hfound)
  obtain ⟨i, hi, rfl⟩ := List.mem_map.mp hmem
  exact ⟨i, List.mem_of_mem_filter hi, of_decide_eq_true (List.find?_some hfound :), rfl⟩

theorem size_toMap_le (p : Packet) : p.toMap.size ≤ p.items.length := by
  refine (OrderedMap.size_ofList_le _).trans ?_
  rw [List.length_map]
  exact List.length_filter_le _ _

/-- The parameters beside the handle are all but one that is named like it. -/
theorem items_ofParams (handleKey : String) (handle : Int32) (m : OrderedMap String Bytes) :
    (ofParams handleKey handle m).items =
      ⟨.user, handleKey, .bytes (Utf8.encode (toString handle.toInt))⟩ ::
        (m.erase handleKey).entries.map fun e => ⟨.user, e.1, .bytes e.2⟩ := by
  have hsame : (m.filter fun name _ => name != handleKey) = m.erase handleKey := by
    refine OrderedMap.ext (List.filter_congr fun e _ => ?_)
    exact congrArg (!·) (Bool.eq_iff_iff.mpr (by simp))
  show _ :: (m.filter fun name _ => name != handleKey).entries.map _ = _
  rw [hsame]

/-- **The written parameters are those that were given, and the handle**, in place of a parameter
that is named like it. -/
theorem toMap_ofParams (handleKey : String) (handle : Int32) (m : OrderedMap String Bytes) :
    (ofParams handleKey handle m).toMap =
      m.insert handleKey (Utf8.encode (toString handle.toInt)) := by
  have hpairs : ((ofParams handleKey handle m).items.filter (·.origin = .user)).map
      (fun i => (i.key, i.value.toBytes)) =
      (handleKey, Utf8.encode (toString handle.toInt)) :: (m.erase handleKey).entries := by
    have hall : ∀ i ∈ (ofParams handleKey handle m).items, i.origin = .user := by
      rw [items_ofParams]
      refine List.forall_mem_cons.mpr ⟨rfl, fun i hi => ?_⟩
      obtain ⟨e, -, rfl⟩ := List.mem_map.mp hi
      rfl
    rw [List.filter_eq_self.mpr fun i hi => decide_eq_true (hall i hi), items_ofParams,
      List.map_cons, List.map_map]
    exact congrArg _ (List.map_id _)
  refine OrderedMap.ext_get? fun name => ?_
  unfold toMap
  rw [hpairs, OrderedMap.get?_ofList, List.reverse_cons, List.find?_append, Option.map_or,
    OrderedMap.find?_reverse_entries, OrderedMap.get?_erase_ite, OrderedMap.get?_insert_ite]
  by_cases hname : handleKey = name
  · simp [hname]
  · simp [hname]

/-! ### When they can be read -/

/-- A text has no more than four bytes for a character. -/
theorem length_encode_le (s : String) : (Utf8.encode s).length ≤ 4 * s.length := by
  have hsize (s : String) : (Utf8.encode s).length = s.utf8ByteSize := Array.length_toList
  rw [hsize]
  induction s using String.push_induction with
  | empty => exact le_rfl
  | push s c ih =>
    have hc := c.utf8Size_le_four
    rw [String.utf8ByteSize_push, String.length_push]
    omega

theorem length_handle_le (handle : Int32) :
    (Utf8.encode (toString handle.toInt)).length ≤ maxValueLength := by
  have htext : (toString handle.toInt).length ≤ 11 := by
    have hlow := handle.le_toInt
    have hhigh := handle.toInt_lt
    rw [Int.toString_eq_repr]
    unfold Int.repr
    split
    · rename_i n hn
      have hn : handle.toInt = (n : Int) := hn
      exact (Nat.repr_length n 10 (by decide) (by omega)).trans (by decide)
    · rename_i n hn
      have hn : handle.toInt = -((n : Int) + 1) := hn
      have hdigits := Nat.repr_length n.succ 10 (by decide) (by omega)
      rw [String.length_append]
      exact Nat.add_le_add_left hdigits 1
  exact (length_encode_le _).trans ((Nat.mul_le_mul_left 4 htext).trans (by decide))

/-- Parameters that were read are written within the limits if there is room for the handle. -/
theorem limits_ofParams (hp : p.WithinLimits)
    (hkey : (Utf8.encode handleKey).length ≤ maxKeyLength) (handle : Int32) :
    ∀ i ∈ (ofParams handleKey handle p.toMap).items, i.WithinLimits := by
  rw [items_ofParams]
  refine List.forall_mem_cons.mpr ⟨⟨hkey, length_handle_le handle⟩, fun i hi => ?_⟩
  obtain ⟨⟨name, b⟩, he, rfl⟩ := List.mem_map.mp hi
  have hfound : p.toMap.get? name = some b :=
    OrderedMap.mem_entries_iff.mp (List.mem_of_mem_filter he)
  obtain ⟨j, hj, rfl, rfl⟩ := exists_item_of_toMap hfound
  exact hp.2 j hj

theorem length_ofParams (handleKey : String) (handle : Int32) (m : OrderedMap String Bytes) :
    (ofParams handleKey handle m).items.length = (m.erase handleKey).size + 1 := by
  rw [items_ofParams, List.length_cons, List.length_map]
  rfl

/-- There are never more parameters than a reader accepts items. -/
theorem size_erase_toMap_le (hp : p.WithinLimits) (handleKey : String) :
    (p.toMap.erase handleKey).size ≤ maxItems :=
  (List.length_filter_le _ _).trans (p.size_toMap_le.trans hp.1)

/-- **A reader refuses one item too many**, whatever comes behind it. -/
theorem Reader.items_of_surplus : ∀ (room : Nat) (r : Reader) (l : List Item),
    r.rest = encode ⟨l⟩ → room < l.length → (∀ i ∈ l, i.WithinLimits) →
      items room r = .error (.tooManyItems (maxItems + 1)) := by
  intro room
  induction room with
  | zero =>
    intro r l hrest hmany hl
    have hnonempty : ¬ r.rest.isEmpty := by
      rw [hrest, List.isEmpty_iff, encode_eq_nil_iff]
      exact List.ne_nil_of_length_pos hmany
    rw [items, if_neg hnonempty]
  | succ room ih =>
    intro r l hrest hmany hl
    cases l with
    | nil => exact absurd hmany (Nat.not_lt_zero _)
    | cons i more =>
      obtain ⟨hi, hmore⟩ := List.forall_mem_cons.mp hl
      have hnonempty : ¬ r.rest.isEmpty := by
        rw [hrest, List.isEmpty_iff, encode_eq_nil_iff]
        exact List.cons_ne_nil _ _
      have hitem : r.item = .ok (i, ⟨r.offset + i.encode.length, encode ⟨more⟩⟩) :=
        item_eq_ok_iff.mpr ⟨hi, hrest, rfl⟩
      have hrefused := ih ⟨r.offset + i.encode.length, encode ⟨more⟩⟩ more rfl
        (Nat.lt_of_succ_lt_succ hmany) hmore
      rw [items, if_neg hnonempty]
      dsimp only
      rw [hitem]
      show (do
        let more ← items room _
        pure (i :: more)) = _
      rw [hrefused]
      rfl

/-- **When written parameters can be read.**  Parameters that were read in a packet, and are written
with the handle of an invocation, are read again if they leave room for the handle.  Otherwise there
is one item too many. -/
theorem decode_ofParams (hp : p.WithinLimits)
    (hkey : (Utf8.encode handleKey).length ≤ maxKeyLength) (handle : Int32) :
    decode (ofParams handleKey handle p.toMap).encode =
      if (p.toMap.erase handleKey).size < maxItems then .ok (ofParams handleKey handle p.toMap)
      else .error (.tooManyItems (maxItems + 1)) := by
  have hlimits := limits_ofParams hp hkey handle
  have hlength := length_ofParams handleKey handle p.toMap
  split
  · exact decode_encode ⟨by omega, hlimits⟩
  · have hsurplus := Reader.items_of_surplus maxItems
      ⟨0, (ofParams handleKey handle p.toMap).encode⟩ (ofParams handleKey handle p.toMap).items rfl
      (by omega) hlimits
    unfold decode
    rw [hsurplus]
    rfl

end Packet

end ContractHost
