/-!
# Ordered maps

A finite map kept as the list of its entries, with the keys strictly ascending.  The order of the
entries is therefore a function of the contents, and two maps with the same entries are equal.

## Main definitions

* `OrderedMap κ ν` — maps from `κ` to `ν`.
* `OrderedMap.get?`, `insert`, `erase` — look up, set and remove one entry.
* `OrderedMap.ofList` — the map of a list of pairs; of two pairs with one key the later counts.
-/

namespace ContractHost

open Std

/-- Finite maps with ascending keys. -/
structure OrderedMap (κ : Type) (ν : Type) [Ord κ] where
  /-- The entries, in the order of their keys. -/
  entries : List (κ × ν)
  /-- No key repeats, and each is below the ones after it. -/
  ascending : entries.Pairwise fun a b => compare a.1 b.1 = .lt

namespace OrderedMap

variable {κ ν : Type} [Ord κ]

/-- The map without entries. -/
def empty : OrderedMap κ ν := ⟨[], .nil⟩

instance : EmptyCollection (OrderedMap κ ν) := ⟨empty⟩

instance : Inhabited (OrderedMap κ ν) := ⟨empty⟩

@[ext] theorem ext {m n : OrderedMap κ ν} (h : m.entries = n.entries) : m = n := by
  cases m; cases n; simp_all

instance [DecidableEq κ] [DecidableEq ν] : DecidableEq (OrderedMap κ ν) := fun m n =>
  decidable_of_iff (m.entries = n.entries) ⟨ext, fun h => h ▸ rfl⟩

/-- The number of entries. -/
def size (m : OrderedMap κ ν) : Nat := m.entries.length

/-- There is no entry. -/
def isEmpty (m : OrderedMap κ ν) : Bool := m.entries.isEmpty

/-- The keys, ascending. -/
def keys (m : OrderedMap κ ν) : List κ := m.entries.map (·.1)

/-- The value under a key. -/
def get? (m : OrderedMap κ ν) (k : κ) : Option ν :=
  (m.entries.find? fun e => compare e.1 k == .eq).map (·.2)

@[simp] theorem get?_empty (k : κ) : (∅ : OrderedMap κ ν).get? k = none := rfl

/-- There is an entry under the key. -/
def contains (m : OrderedMap κ ν) (k : κ) : Bool := (m.get? k).isSome

/-- Sets the value under a key in a list of entries with ascending keys. -/
def place (k : κ) (v : ν) : List (κ × ν) → List (κ × ν)
  | [] => [(k, v)]
  | e :: rest =>
    match compare k e.1 with
    | .lt => (k, v) :: e :: rest
    | .eq => (k, v) :: rest
    | .gt => e :: place k v rest

theorem mem_place {k : κ} {v : ν} {l : List (κ × ν)} {x : κ × ν} (h : x ∈ place k v l) :
    x = (k, v) ∨ x ∈ l := by
  induction l with
  | nil => simpa [place] using h
  | cons e rest ih =>
    simp only [place] at h
    split at h
    · simpa using h
    · rcases List.mem_cons.1 h with h | h
      · exact .inl h
      · exact .inr (List.mem_cons_of_mem _ h)
    · rcases List.mem_cons.1 h with h | h
      · exact .inr (h ▸ List.mem_cons_self)
      · exact (ih h).imp id (List.mem_cons_of_mem _)

theorem pairwise_place [TransOrd κ] {k : κ} {v : ν} {l : List (κ × ν)}
    (h : l.Pairwise fun a b => compare a.1 b.1 = .lt) :
    (place k v l).Pairwise fun a b => compare a.1 b.1 = .lt := by
  induction l with
  | nil => simp [place]
  | cons e rest ih =>
    obtain ⟨he, hrest⟩ := List.pairwise_cons.1 h
    simp only [place]
    split
    · rename_i hk
      refine List.pairwise_cons.2 ⟨fun x hx => ?_, h⟩
      rcases List.mem_cons.1 hx with rfl | hx
      · exact hk
      · exact TransCmp.lt_trans hk (he x hx)
    · rename_i hk
      refine List.pairwise_cons.2 ⟨fun x hx => ?_, hrest⟩
      exact TransCmp.lt_of_eq_of_lt hk (he x hx)
    · rename_i hk
      refine List.pairwise_cons.2 ⟨fun x hx => ?_, ih hrest⟩
      rcases mem_place hx with rfl | hx
      · exact OrientedCmp.lt_of_gt hk
      · exact he x hx

/-- Sets the value under a key. -/
def insert [TransOrd κ] (m : OrderedMap κ ν) (k : κ) (v : ν) : OrderedMap κ ν :=
  ⟨place k v m.entries, pairwise_place m.ascending⟩

theorem find?_place [TransOrd κ] (k k' : κ) (v : ν) (l : List (κ × ν)) :
    ((place k v l).find? fun e => compare e.1 k' == .eq).map (·.2) =
      if compare k k' = .eq then some v
      else (l.find? fun e => compare e.1 k' == .eq).map (·.2) := by
  induction l with
  | nil => by_cases h : compare k k' = .eq <;> simp [place, h]
  | cons e rest ih =>
    by_cases h : compare k k' = .eq
    · have he : compare k e.1 = .gt → compare e.1 k' ≠ .eq := fun hgt heq => by
        have hk : compare k e.1 = compare k k' := TransCmp.congr_right heq
        simp_all
      simp only [place]
      split <;> simp_all
    · have he : compare k e.1 = .eq → compare e.1 k' ≠ .eq := fun hk heq =>
        h (TransCmp.eq_trans hk heq)
      simp only [place]
      split
      · simp [h]
      · simp_all
      · simp only [List.find?_cons]
        split <;> simp_all

theorem get?_insert [TransOrd κ] (m : OrderedMap κ ν) (k k' : κ) (v : ν) :
    (m.insert k v).get? k' = if compare k k' = .eq then some v else m.get? k' :=
  find?_place k k' v m.entries

@[simp] theorem get?_insert_self [TransOrd κ] (m : OrderedMap κ ν) (k : κ) (v : ν) :
    (m.insert k v).get? k = some v := by
  simp [get?_insert]

/-- Keeps the entries that satisfy a test. -/
def filter (m : OrderedMap κ ν) (keep : κ → ν → Bool) : OrderedMap κ ν :=
  ⟨m.entries.filter fun e => keep e.1 e.2, m.ascending.filter _⟩

/-- Removes the entry under a key, if there is one. -/
def erase (m : OrderedMap κ ν) (k : κ) : OrderedMap κ ν :=
  m.filter fun k' _ => compare k' k != .eq

theorem get?_erase [TransOrd κ] (m : OrderedMap κ ν) (k k' : κ) :
    (m.erase k).get? k' = if compare k k' = .eq then none else m.get? k' := by
  simp only [get?, erase, filter, List.find?_filter]
  split
  · rename_i h
    have hk (a : κ) : compare a k = compare a k' := TransCmp.congr_right h
    simp [hk]
  · rename_i h
    congr 1
    congr 1
    funext e
    by_cases he : compare e.1 k' = .eq
    · have : compare e.1 k ≠ .eq := fun hk => h (TransCmp.eq_trans (OrientedCmp.eq_symm hk) he)
      simp [he, this]
    · simp [he]

/-- Applies a function to every value. -/
def map {μ : Type} (f : ν → μ) (m : OrderedMap κ ν) : OrderedMap κ μ :=
  ⟨m.entries.map fun e => (e.1, f e.2), by
    rw [List.pairwise_map]; exact m.ascending⟩

/-- The map of a list of pairs; of two pairs with one key the later counts. -/
def ofList [TransOrd κ] (l : List (κ × ν)) : OrderedMap κ ν :=
  l.foldl (fun m e => m.insert e.1 e.2) empty

end OrderedMap

end ContractHost
