import ContractHost.OrderedMap
import Mathlib.Data.List.Forall2
import Mathlib.Data.List.Induction
import Mathlib.Data.List.Sort

/-!
# Maps with related values

Two maps with the same keys, whose values are related key by key, stay so when related values are
put in, and when a key is taken out.  The keys of a map are those put in and not taken out again.
A map is known from what is found in it.

## Main definitions

* `OrderedMap.Rel` — two maps with the same keys, and with related values.

## Main results

* `OrderedMap.Rel.get?`, `Rel.insert`, `Rel.erase` — looking up, putting in and taking out.
* `OrderedMap.insert_insert` — of two values put in under one key the later counts.
* `OrderedMap.erase_insert` — **what is put in under a new key can be taken out again.**
* `OrderedMap.ext_get?` — **two maps in which the same is found under every key are equal.**
-/

namespace ContractHost

namespace OrderedMap

open Std

variable {κ ν ν' : Type} [Ord κ]

/-- Two maps with the same keys, and with related values. -/
def Rel (V : κ → ν → ν' → Prop) (m : OrderedMap κ ν) (m' : OrderedMap κ ν') : Prop :=
  List.Forall₂ (fun e e' => e.1 = e'.1 ∧ V e.1 e.2 e'.2) m.entries m'.entries

/-! ### Related maps -/

namespace Rel

variable {V : κ → ν → ν' → Prop} {m : OrderedMap κ ν} {m' : OrderedMap κ ν'}

theorem empty : Rel V (∅ : OrderedMap κ ν) (∅ : OrderedMap κ ν') :=
  .nil

theorem size (h : Rel V m m') : m.size = m'.size :=
  h.length_eq

theorem get? [LawfulEqOrd κ] (h : Rel V m m') (k : κ) :
    Option.Rel (V k) (m.get? k) (m'.get? k) := by
  unfold OrderedMap.get?
  unfold Rel at h
  generalize m.entries = l at h ⊢
  generalize m'.entries = l' at h ⊢
  induction h with
  | nil => exact .none
  | @cons e e' rest rest' he _ ih =>
    obtain ⟨hkey, hvalue⟩ := he
    rw [List.find?_cons, List.find?_cons, ← hkey]
    cases hk : compare e.1 k == .eq with
    | false => exact ih
    | true =>
      have heq : e.1 = k := LawfulEqOrd.eq_of_compare (by simpa using hk)
      exact .some (heq ▸ hvalue)

theorem contains [LawfulEqOrd κ] (h : Rel V m m') (k : κ) : m.contains k = m'.contains k := by
  unfold OrderedMap.contains
  cases hm : m.get? k with
  | none =>
    have hnone := h.get? k
    rw [hm] at hnone
    cases hm' : m'.get? k with
    | none => rfl
    | some v' => rw [hm'] at hnone; cases hnone
  | some v =>
    have hsome := h.get? k
    rw [hm] at hsome
    cases hm' : m'.get? k with
    | none => rw [hm'] at hsome; cases hsome
    | some v' => rfl

theorem insert [TransOrd κ] (h : Rel V m m') {k : κ} {v : ν} {v' : ν'} (hv : V k v v') :
    Rel V (m.insert k v) (m'.insert k v') := by
  unfold Rel OrderedMap.insert at *
  dsimp only
  generalize m.entries = l at h ⊢
  generalize m'.entries = l' at h ⊢
  induction h with
  | nil => exact .cons ⟨rfl, hv⟩ .nil
  | @cons e e' rest rest' he hrest ih =>
    unfold place
    rw [← he.1]
    split
    · exact .cons ⟨rfl, hv⟩ (.cons he hrest)
    · exact .cons ⟨rfl, hv⟩ hrest
    · exact .cons he ih

theorem erase (h : Rel V m m') (k : κ) : Rel V (m.erase k) (m'.erase k) := by
  unfold Rel OrderedMap.erase OrderedMap.filter at *
  dsimp only
  generalize m.entries = l at h ⊢
  generalize m'.entries = l' at h ⊢
  induction h with
  | nil => exact .nil
  | @cons e e' rest rest' he _ ih =>
    rw [List.filter_cons, List.filter_cons, ← he.1]
    split
    · exact .cons he ih
    · exact ih

end Rel

/-! ### Keys -/

theorem keys_erase (m : OrderedMap κ ν) (k : κ) :
    (m.erase k).keys = m.keys.filter fun k' => compare k' k != .eq := by
  unfold keys erase filter
  rw [List.filter_map]
  rfl

theorem get?_eq_none_iff (m : OrderedMap κ ν) (k : κ) :
    m.get? k = none ↔ ∀ e ∈ m.entries, compare e.1 k ≠ .eq := by
  unfold get?
  simp

theorem mem_keys_of_get? [LawfulEqOrd κ] {m : OrderedMap κ ν} {k : κ} {v : ν}
    (h : m.get? k = some v) : k ∈ m.keys := by
  unfold get? at h
  obtain ⟨e, he, -⟩ := Option.map_eq_some_iff.mp h
  have hk : e.1 = k := LawfulEqOrd.eq_of_compare (by simpa using List.find?_some he)
  exact List.mem_map.2 ⟨e, List.mem_of_find?_eq_some he, hk⟩

/-- A value put in under a key that the map has does not change the keys. -/
theorem keys_insert_of_mem [TransOrd κ] {m : OrderedMap κ ν} {k : κ} (h : k ∈ m.keys) (v : ν) :
    (m.insert k v).keys = m.keys := by
  have hself : compare k k = .eq := ReflCmp.compare_self
  have hsorted := m.ascending
  unfold keys insert at *
  dsimp only
  generalize m.entries = l at h hsorted ⊢
  induction l with
  | nil => cases h
  | cons e rest ih =>
    obtain ⟨hfirst, hrest⟩ := List.pairwise_cons.1 hsorted
    unfold place
    -- the key is the first one, or it stands after it
    rcases List.mem_cons.1 h with rfl | hmem
    · rw [hself]
      rfl
    · obtain ⟨e', he', rfl⟩ := List.mem_map.1 hmem
      rw [OrientedCmp.gt_of_lt (hfirst e' he')]
      dsimp only
      rw [List.map_cons, List.map_cons, ih hmem hrest]

/-- Of two values put in under one key the later counts. -/
theorem insert_insert [TransOrd κ] (m : OrderedMap κ ν) (k : κ) (v w : ν) :
    (m.insert k v).insert k w = m.insert k w := by
  apply ext
  unfold insert
  dsimp only
  generalize m.entries = l
  induction l with
  | nil => simp [place]
  | cons e rest ih =>
    rw [place]
    split
    · rename_i hlt
      simp [place, hlt]
    · rename_i heq
      simp [place, heq]
    · rename_i hgt
      simp [place, hgt, ih]

/-- **What is put in under a new key can be taken out again.** -/
theorem erase_insert [TransOrd κ] {m : OrderedMap κ ν} {k : κ} (h : m.get? k = none) (v : ν) :
    (m.insert k v).erase k = m := by
  apply ext
  rw [get?_eq_none_iff] at h
  unfold erase filter insert
  dsimp only
  generalize m.entries = l at h ⊢
  have hkeep : ∀ {l : List (κ × ν)}, (∀ e ∈ l, compare e.1 k ≠ .eq) →
      l.filter (fun e => compare e.1 k != .eq) = l := fun hl =>
    List.filter_eq_self.2 fun e he => by simpa using hl e he
  induction l with
  | nil => simp [place]
  | cons e rest ih =>
    obtain ⟨hfirst, hrest⟩ := List.forall_mem_cons.1 h
    unfold place
    split
    · rw [List.filter_cons_of_neg (by simp)]
      exact hkeep h
    · rename_i heq
      exact absurd (OrientedCmp.eq_symm heq) hfirst
    · rw [List.filter_cons_of_pos (by simpa using hfirst), ih hrest]

/-! ### What is found -/

section

variable [LawfulEqOrd κ]

/-- The entries are the keys together with what is found under them. -/
theorem mem_entries_iff {m : OrderedMap κ ν} {k : κ} {v : ν} :
    (k, v) ∈ m.entries ↔ m.get? k = some v := by
  constructor
  · intro h
    have hsorted := m.ascending
    unfold get?
    generalize m.entries = l at h hsorted ⊢
    induction l with
    | nil => cases h
    | cons e rest ih =>
      obtain ⟨hfirst, hrest⟩ := List.pairwise_cons.1 hsorted
      rcases List.mem_cons.1 h with rfl | hmem
      · simp
      · -- an earlier entry has a smaller key, so the search passes it by
        have hpass : (compare e.1 k == .eq) = false := by
          rw [hfirst _ hmem]
          rfl
        rw [List.find?_cons, hpass]
        exact ih hmem hrest
  · intro h
    unfold get? at h
    obtain ⟨⟨k', v'⟩, he, rfl⟩ := Option.map_eq_some_iff.mp h
    have hk : k' = k := LawfulEqOrd.eq_of_compare (by simpa using List.find?_some he)
    exact hk ▸ List.mem_of_find?_eq_some he

/-- **Two maps in which the same is found under every key are equal.** -/
theorem ext_get? [TransOrd κ] {m n : OrderedMap κ ν} (h : ∀ k, m.get? k = n.get? k) : m = n := by
  have : Std.Irrefl fun a b : κ × ν => compare a.1 b.1 = .lt :=
    ⟨fun a ha => by simp at ha⟩
  have : Std.Antisymm fun a b : κ × ν => compare a.1 b.1 = .lt :=
    ⟨fun a b hab hba => absurd hba (OrientedCmp.not_lt_of_lt hab)⟩
  refine ext (m.ascending.eq_of_mem_iff n.ascending fun e => ?_)
  rw [mem_entries_iff, mem_entries_iff, h]

theorem get?_insert_ite [DecidableEq κ] [TransOrd κ] (m : OrderedMap κ ν) (k k' : κ) (v : ν) :
    (m.insert k v).get? k' = if k = k' then some v else m.get? k' := by
  rw [get?_insert]
  exact if_congr LawfulEqCmp.compare_eq_iff_eq rfl rfl

theorem get?_erase_ite [DecidableEq κ] [TransOrd κ] (m : OrderedMap κ ν) (k k' : κ) :
    (m.erase k).get? k' = if k = k' then none else m.get? k' := by
  rw [get?_erase]
  exact if_congr LawfulEqCmp.compare_eq_iff_eq rfl rfl

/-- What is found under a key need not be put in again. -/
theorem insert_of_get? [TransOrd κ] {m : OrderedMap κ ν} {k : κ} {v : ν} (h : m.get? k = some v) :
    m.insert k v = m := by
  refine ext_get? fun k' => ?_
  rw [get?_insert]
  split
  · rename_i hk
    rw [← LawfulEqOrd.eq_of_compare hk, h]
  · rfl

end

/-! ### The map of a list -/

section

variable [TransOrd κ]

theorem ofList_append (l : List (κ × ν)) (e : κ × ν) :
    ofList (l ++ [e]) = (ofList l).insert e.1 e.2 := by
  unfold ofList
  rw [List.foldl_append]
  rfl

/-- A key beyond all others is put at the end. -/
theorem place_of_forall_lt {k : κ} {v : ν} {l : List (κ × ν)}
    (h : ∀ e ∈ l, compare e.1 k = .lt) : place k v l = l ++ [(k, v)] := by
  induction l with
  | nil => rfl
  | cons e rest ih =>
    have hgt : compare k e.1 = .gt := OrientedCmp.gt_of_lt (h e List.mem_cons_self)
    rw [place, hgt, ih fun e' he' => h e' (List.mem_cons_of_mem _ he'), List.cons_append]

/-- A list of pairs with ascending keys is the list of entries of its map. -/
theorem entries_ofList {l : List (κ × ν)} (h : l.Pairwise fun a b => compare a.1 b.1 = .lt) :
    (ofList l).entries = l := by
  induction l using List.reverseRecOn with
  | nil => rfl
  | append_singleton l e ih =>
    obtain ⟨hl, -, hlast⟩ := List.pairwise_append.mp h
    rw [ofList_append]
    show place e.1 e.2 (ofList l).entries = l ++ [e]
    rw [ih hl, place_of_forall_lt fun e' he' => hlast e' he' e List.mem_cons_self]

end

end OrderedMap

end ContractHost
