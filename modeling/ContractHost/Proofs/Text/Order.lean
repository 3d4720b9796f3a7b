import ContractHost.Text.Utf8
import Mathlib.Data.String.Basic

/-!
# The order of texts

Texts are in order character by character, and byte strings are in order byte by byte.  UTF-8 keeps
the order: a character with a greater number either has a greater first byte, or the same first byte
and a greater one behind it.  So a list of texts is in order exactly if their bytes are, and nobody
who sorts names has to know which of the two is meant.

## Main results

* `Utf8.encodeChar_append_lt` — the bytes of a smaller character come first, whatever follows.
* `Utf8.encode_lt_encode_iff` — **the order of texts is the order of their bytes.**
-/

namespace ContractHost.Utf8

/-- The bytes of a text are those of its characters. -/
theorem encode_eq_flatMap (s : String) : encode s = s.toList.flatMap String.utf8EncodeChar := by
  unfold encode
  rw [← String.utf8Encode_toList]
  exact List.toList_data_toByteArray

theorem ofNat_lt_ofNat {a b : Nat} (ha : a < 256) (hb : b < 256) :
    UInt8.ofNat a < UInt8.ofNat b ↔ a < b := by
  rw [UInt8.lt_iff_toNat_lt, UInt8.toNat_ofNat', UInt8.toNat_ofNat', Nat.mod_eq_of_lt ha,
    Nat.mod_eq_of_lt hb]

theorem ofNat_inj {a b : Nat} (ha : a < 256) (hb : b < 256) :
    UInt8.ofNat a = UInt8.ofNat b ↔ a = b := by
  rw [← UInt8.toNat_inj, UInt8.toNat_ofNat', UInt8.toNat_ofNat', Nat.mod_eq_of_lt ha,
    Nat.mod_eq_of_lt hb]

/-- **The bytes of a smaller character come first**, whatever follows the two.  There are one to
four bytes for each of them; a longer sequence has a greater first byte, and sequences of one length
are compared by their digits in base 64. -/
theorem encodeChar_append_lt {c d : Char} (h : c < d) (l m : Bytes) :
    String.utf8EncodeChar c ++ l < String.utf8EncodeChar d ++ m := by
  have hlt : c.val.toNat < d.val.toNat := h
  have hd : d.val.toNat < 0x110000 := by
    rcases d.valid with hsmall | ⟨-, hlarge⟩ <;> omega
  unfold String.utf8EncodeChar
  dsimp only
  generalize c.val.toNat = x at *
  generalize d.val.toNat = y at *
  have hdigits (z : Nat) : z / 4096 = z / 64 / 64 ∧ z / 262144 = z / 64 / 64 / 64 := by
    simp only [Nat.div_div_eq_div_mul, and_self]
  rw [(hdigits x).1, (hdigits x).2, (hdigits y).1, (hdigits y).2]
  -- one case for each pair of lengths
  split_ifs
  all_goals
    simp only [List.cons_append, List.nil_append, List.cons_lt_cons_iff]
    simp (disch := omega) only [ofNat_lt_ofNat, ofNat_inj]
    omega

theorem flatMap_encodeChar_lt : ∀ {l m : List Char}, l < m →
    l.flatMap String.utf8EncodeChar < m.flatMap String.utf8EncodeChar
  | _, [], h => absurd h (List.not_lt_nil _)
  | [], c :: m, _ => by
    obtain ⟨b, rest, hbytes⟩ := List.exists_cons_of_ne_nil (String.utf8EncodeChar_ne_nil (c := c))
    rw [List.flatMap_nil, List.flatMap_cons, hbytes]
    exact List.nil_lt_cons _ _
  | c :: l, d :: m, h => by
    rw [List.flatMap_cons, List.flatMap_cons]
    rcases List.cons_lt_cons_iff.mp h with hfirst | ⟨rfl, hrest⟩
    · exact encodeChar_append_lt hfirst _ _
    · exact List.append_left_lt (flatMap_encodeChar_lt hrest)

/-- **The order of texts is the order of their bytes.** -/
theorem encode_lt_encode_iff {s t : String} : encode s < encode t ↔ s < t := by
  have hlt {s t : String} (h : s < t) : encode s < encode t := by
    rw [encode_eq_flatMap, encode_eq_flatMap]
    exact flatMap_encodeChar_lt (String.lt_iff_toList_lt.mp h)
  refine ⟨fun h => ?_, hlt⟩
  rcases lt_trichotomy s t with hbefore | rfl | hafter
  · exact hbefore
  · exact absurd h (List.lt_irrefl _)
  · exact absurd h (List.lt_asymm (hlt hafter))

end ContractHost.Utf8
