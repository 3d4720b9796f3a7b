import ContractHost.Proofs.Text.Order
import ContractHost.Request.StateKey
import Mathlib.Data.List.TakeWhile

/-!
# Stored keys, put together and taken apart

The separator is the byte of one character, and it occurs in the bytes of no other.  So putting a
key and a field together, and taking a stored key apart at its first separator, can be followed on
the texts.

Nothing keeps the separator out of a key.  Two pairs of key and field have the same stored key if
one key goes on where the other one ends, at a separator that belongs to both.  And what is taken
apart at its first separator is what was put together only if the key had none.

## Main definitions

* `StateKey.joined` — the text of a stored key.
* `StateKey.Overlaps` — a pair of which the field begins inside the key of another pair.
* `StateKey.Dangling` — a stored key that ends with its first separator.

## Main results

* `StateKey.join_eq_join_iff` — **pairs share a stored key exactly if they are equal or overlap.**
* `StateKey.split_join` — **a key without a separator is found again.**
* `StateKey.split_encode` — what any text is taken apart into.
* `StateKey.join_split` — **what was taken apart is put together again, unless it ends with its
  first separator.**
-/

namespace ContractHost

namespace Utf8

theorem encode_append (s t : String) : encode (s ++ t) = encode s ++ encode t := by
  simp [encode, String.toByteArray_append]

/-- A byte below 128 occurs in the bytes of one character only. -/
theorem toNat_of_mem_utf8EncodeChar {c : Char} {b : UInt8} (hb : b < 0x80)
    (h : b ∈ String.utf8EncodeChar c) : c.val.toNat = b.toNat := by
  -- all bytes of a longer sequence are at least 128
  have hhigh {n : Nat} (hn : 128 ≤ n ∧ n < 256) (heq : b = UInt8.ofNat n) : False := by
    have hnat : b.toNat = n := by rw [heq, UInt8.toNat_ofNat', Nat.mod_eq_of_lt hn.2]
    have hlow : b.toNat < 128 := hb
    omega
  unfold String.utf8EncodeChar at h
  dsimp only at h
  split at h
  · rename_i hle
    rw [List.mem_singleton.1 h, UInt8.toNat_ofNat', Nat.mod_eq_of_lt (by omega)]
  · split at h
    · simp only [List.mem_cons, List.not_mem_nil, or_false] at h
      rcases h with h | h
      · exact (hhigh (by omega) h).elim
      · exact (hhigh (by omega) h).elim
    · split at h
      · simp only [List.mem_cons, List.not_mem_nil, or_false] at h
        rcases h with h | h | h
        · exact (hhigh (by omega) h).elim
        · exact (hhigh (by omega) h).elim
        · exact (hhigh (by omega) h).elim
      · simp only [List.mem_cons, List.not_mem_nil, or_false] at h
        rcases h with h | h | h | h
        · exact (hhigh (by omega) h).elim
        · exact (hhigh (by omega) h).elim
        · exact (hhigh (by omega) h).elim
        · exact (hhigh (by omega) h).elim

end Utf8

namespace StateKey

open Utf8

/-! ### The separator in a text -/

/-- The character of the separator. -/
def mark : Char := '#'

theorem encode_mark : encode (String.singleton mark) = [separator] := by
  decide

theorem encode_cons_mark (s : String) :
    encode (String.singleton mark ++ s) = separator :: encode s := by
  rw [encode_append, encode_mark]
  rfl

/-- The separator is among the bytes of a text exactly if its character is in the text. -/
theorem separator_mem_encode {s : String} : separator ∈ encode s ↔ mark ∈ s.toList := by
  rw [encode_eq_flatMap, List.mem_flatMap]
  constructor
  · rintro ⟨c, hc, hsep⟩
    have hval : c.val.toNat = mark.val.toNat := toNat_of_mem_utf8EncodeChar (by decide) hsep
    exact (Char.ext (UInt32.toNat_inj.mp hval)) ▸ hc
  · exact fun h => ⟨mark, h, by decide⟩

/-! ### Putting together -/

/-- The text of a stored key. -/
def joined (key field : String) : String :=
  if field = "" then key else key ++ String.singleton mark ++ field

theorem join_eq_encode (key field : String) : join key field = encode (joined key field) := by
  unfold join joined
  split
  · rfl
  · rw [String.append_assoc, encode_append, encode_cons_mark]

theorem joined_empty (key : String) : joined key "" = key :=
  if_pos rfl

/-- A separator inside the key is there whether a field follows or not. -/
theorem joined_append (key rest field : String) :
    joined (key ++ String.singleton mark ++ rest) field =
      key ++ String.singleton mark ++ joined rest field := by
  unfold joined
  split
  · rfl
  · simp only [String.append_assoc]

/-- The field of the first pair begins inside the key of the second one: this key is the first key,
the separator and a text, and the first field is what that text makes together with the second
field. -/
def Overlaps (key field key' field' : String) : Prop :=
  field ≠ "" ∧ ∃ rest, key' = key ++ String.singleton mark ++ rest ∧ field = joined rest field'

theorem Overlaps.joined_eq {key field key' field' : String} (h : Overlaps key field key' field') :
    joined key field = joined key' field' := by
  obtain ⟨hfield, rest, rfl, hrest⟩ := h
  rw [joined_append, ← hrest]
  exact if_neg hfield

theorem not_overlaps_of_notMem {key field key' field' : String} (h : mark ∉ key'.toList) :
    ¬ Overlaps key field key' field' := by
  rintro ⟨-, rest, rfl, -⟩
  simp [mark] at h

/-- Texts that are equal around a separator overlap there if they are not the same pair. -/
theorem overlaps_of_append_eq {key field key' field' : String} (hfield' : field' ≠ "")
    {more : List Char} (hkey : key'.toList = key.toList ++ more)
    (hmore : mark :: field.toList = more ++ mark :: field'.toList) :
    (key = key' ∧ field = field') ∨ Overlaps key field key' field' := by
  -- the first keys are the same, or one goes on with a mark where the other has a field
  cases more with
  | nil =>
    obtain ⟨-, hsame⟩ := List.cons.inj hmore
    rw [List.append_nil] at hkey
    exact .inl ⟨(String.toList_inj.1 hkey).symm, String.toList_inj.1 hsame⟩
  | cons c rest =>
    obtain ⟨rfl, hsame⟩ := List.cons.inj hmore
    have hjoined : field = joined (String.ofList rest) field' := by
      unfold joined
      rw [if_neg hfield', ← String.toList_inj]
      simpa [String.toList_append] using hsame
    refine .inr ⟨?_, String.ofList rest, ?_, hjoined⟩
    · rintro rfl
      simp at hsame
    · rw [← String.toList_inj]
      simpa [String.toList_append] using hkey

theorem joined_eq_joined_iff {key field key' field' : String} :
    joined key field = joined key' field' ↔ (key = key' ∧ field = field') ∨
      Overlaps key field key' field' ∨ Overlaps key' field' key field := by
  constructor
  · intro h
    by_cases hfield : field = ""
    · subst hfield
      rw [joined_empty] at h
      by_cases hfield' : field' = ""
      · exact .inl ⟨by rw [h, hfield', joined_empty], hfield'.symm⟩
      · refine .inr (.inr ⟨hfield', field', ?_, (joined_empty _).symm⟩)
        rw [h]
        exact if_neg hfield'
    · by_cases hfield' : field' = ""
      · subst hfield'
        rw [joined_empty] at h
        refine .inr (.inl ⟨hfield, field, ?_, (joined_empty _).symm⟩)
        rw [← h]
        exact if_neg hfield
      · -- both texts have a separator of their own, and one of the two comes first
        have hlist : key.toList ++ mark :: field.toList = key'.toList ++ mark :: field'.toList := by
          unfold joined at h
          rw [if_neg hfield, if_neg hfield', ← String.toList_inj] at h
          simpa [String.toList_append] using h
        rcases List.append_eq_append_iff.1 hlist with ⟨more, hkey, hmore⟩ | ⟨more, hkey, hmore⟩
        · exact (overlaps_of_append_eq hfield' hkey hmore).imp id .inl
        · rcases overlaps_of_append_eq hfield hkey hmore with ⟨rfl, rfl⟩ | hoverlaps
          · exact .inl ⟨rfl, rfl⟩
          · exact .inr (.inr hoverlaps)
  · rintro (⟨rfl, rfl⟩ | h | h)
    · rfl
    · exact h.joined_eq
    · exact h.joined_eq.symm

/-- **Two pairs share a stored key exactly if they are equal or one overlaps the other.** -/
theorem join_eq_join_iff {key field key' field' : String} :
    join key field = join key' field' ↔ (key = key' ∧ field = field') ∨
      Overlaps key field key' field' ∨ Overlaps key' field' key field := by
  rw [join_eq_encode, join_eq_encode, ← joined_eq_joined_iff]
  exact ⟨encode_injective, congrArg encode⟩

/-! ### Taking apart -/

theorem decodeLossy_encode (s : String) : decodeLossy (encode s) = s :=
  decodeLossy_of_decode? (decode?_encode s)

theorem split_of_notMem {s : String} (h : mark ∉ s.toList) : split (encode s) = (s, "") := by
  have hnone : (encode s).dropWhile (· != separator) = [] := by
    rw [List.dropWhile_eq_nil_iff]
    intro b hb
    have hne : b ≠ separator := fun heq => h (separator_mem_encode.1 (heq ▸ hb))
    simpa using hne
  unfold split
  rw [hnone]
  exact congrArg (·, "") (decodeLossy_encode s)

/-- The first separator is the one behind a key that has none. -/
theorem split_append {key : String} (h : mark ∉ key.toList) (field : String) :
    split (encode key ++ separator :: encode field) = (key, field) := by
  have hall : ∀ b ∈ encode key, (b != separator) = true := by
    intro b hb
    have hne : b ≠ separator := fun heq => h (separator_mem_encode.1 (heq ▸ hb))
    simpa using hne
  unfold split
  rw [List.dropWhile_append_of_pos hall, List.takeWhile_append_of_pos hall,
    List.dropWhile_cons_of_neg (by simp), List.takeWhile_cons_of_neg (by simp)]
  simp only [List.append_nil, decodeLossy_encode]

/-- **A key without a separator is found again, with its field.** -/
theorem split_join {key : String} (h : mark ∉ key.toList) (field : String) :
    split (join key field) = (key, field) := by
  unfold join
  split
  · rename_i hfield
    rw [hfield]
    exact split_of_notMem h
  · exact split_append h field

/-- A text is taken apart into a key without a separator, and into what follows the separator behind
it, if there is one. -/
theorem split_encode (s : String) : ∃ key field, split (encode s) = (key, field) ∧
    mark ∉ key.toList ∧ ((field = "" ∧ encode s = encode key) ∨
      encode s = encode key ++ separator :: encode field) := by
  by_cases h : mark ∈ s.toList
  · obtain ⟨before, rest, hs, hbefore⟩ := List.eq_append_cons_of_mem h
    have hkey : mark ∉ (String.ofList before).toList := by rwa [String.toList_ofList]
    have hstored : encode s =
        encode (String.ofList before) ++ separator :: encode (String.ofList rest) := by
      rw [← encode_cons_mark, ← encode_append]
      refine congrArg encode (String.toList_inj.1 ?_)
      simpa [String.toList_append] using hs
    exact ⟨_, _, by rw [hstored, split_append hkey], hkey, .inr hstored⟩
  · exact ⟨s, "", split_of_notMem h, h, .inl ⟨rfl, rfl⟩⟩

/-- The parts are no longer than the whole. -/
theorem length_split_le (s : String) :
    (encode (split (encode s)).1).length ≤ (encode s).length ∧
      (encode (split (encode s)).2).length ≤ (encode s).length := by
  obtain ⟨key, field, hsplit, -, ⟨rfl, hstored⟩ | hstored⟩ := split_encode s
  · rw [hsplit, hstored]
    exact ⟨Nat.le_refl _, Nat.zero_le _⟩
  · rw [hsplit, hstored, List.length_append, List.length_cons]
    dsimp only
    constructor
    · omega
    · omega

/-- A stored key that ends with its first separator. -/
def Dangling (stored : Bytes) : Prop :=
  separator ∉ stored.dropLast ∧ stored.getLast? = some separator

instance (stored : Bytes) : Decidable (Dangling stored) :=
  inferInstanceAs (Decidable (_ ∧ _))

theorem not_dangling_of_notMem {stored : Bytes} (h : separator ∉ stored) : ¬ Dangling stored :=
  fun hdangling => h (List.mem_of_getLast? hdangling.2)

theorem dangling_append_iff {key : Bytes} (h : separator ∉ key) (field : Bytes) :
    Dangling (key ++ separator :: field) ↔ field = [] := by
  constructor
  · rintro ⟨hnot, -⟩
    cases field with
    | nil => rfl
    | cons b rest =>
      -- the separator is not the last byte, so it is among those before it
      rw [List.dropLast_append_cons] at hnot
      simp at hnot
  · rintro rfl
    exact ⟨by rwa [List.dropLast_concat], List.getLast?_concat⟩

/-- **What was taken apart is put together again**, but for a separator at the end that is the only
one: it is lost. -/
theorem join_split (s : String) : join (split (encode s)).1 (split (encode s)).2 =
    if Dangling (encode s) then (encode s).dropLast else encode s := by
  obtain ⟨key, field, hsplit, hkey, ⟨rfl, hstored⟩ | hstored⟩ := split_encode s
  · have hnot : separator ∉ encode key := separator_mem_encode.not.2 hkey
    rw [hsplit, hstored, if_neg (not_dangling_of_notMem hnot)]
    exact if_pos rfl
  · rw [hsplit, hstored]
    simp only [dangling_append_iff (separator_mem_encode.not.2 hkey)]
    unfold join
    by_cases hfield : field = ""
    · rw [if_pos hfield, hfield, if_pos (by decide)]
      exact List.dropLast_concat.symm
    · have hnonempty : encode field ≠ [] := fun hnil =>
        hfield (encode_injective (hnil.trans (by decide)))
      rw [if_neg hfield, if_neg hnonempty]

/-- A stored key with a field, and one of which the key has no separator, do not dangle. -/
theorem not_dangling_join {key : String} (h : mark ∉ key.toList) (field : String) :
    ¬ Dangling (join key field) := by
  have hnot : separator ∉ encode key := separator_mem_encode.not.2 h
  unfold join
  split
  · exact not_dangling_of_notMem hnot
  · rename_i hfield
    rw [dangling_append_iff hnot]
    exact fun hnil => hfield (encode_injective (hnil.trans (by decide)))

end StateKey

end ContractHost
