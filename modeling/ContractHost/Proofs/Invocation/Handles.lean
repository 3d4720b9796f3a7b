import ContractHost.Invocation.Registry
import ContractHost.Proofs.OrderedMap
import Mathlib.Data.List.Perm.Subperm
import Mathlib.Data.List.Range

/-!
# Handles of invocations

Handles are given out in cyclic order, from wherever the registry starts, and those that are in use
are passed over.  `Registry.search` is the search as a host makes it: it moves the counter from
handle to handle, once around at most.  `Registry.register` tries one handle more than there are
invocations under way, and that comes to the same: among so many handles one is free, unless they
are all handles there are.  A search that finds none has gone around, so the counter stands where it
stood.

What the registry holds is read off its history: an invocation is found under a handle from its
registration under it until the handle is removed.

## Main definitions

* `Registry.search` — the search for a free handle, with the counter that it moves.
* `Registry.Op`, `Event`, `run` — operations, what came of them, and a run of them.
* `Registry.Held`, `issued` — who holds a handle, and the handle given out last, after a history.
* `Registry.FirstFree`, `Full` — the first free handle after a number; all are in use.

## Main results

* `Registry.search_eq` — **the search around all handles and that of `register` come to the same.**
* `Registry.handles_kept` — **after every run the registry holds what its history says, and gives
  out the first free handle.**
-/

namespace ContractHost

theorem handleLimit_pos : 0 < handleLimit := by decide

namespace Registry

variable {contexts : OrderedMap Int32 Context} {r r' : Registry} {c c' : Context}
variable {tries last n : Nat} {handle : Int32}

/-! ### The search for a free handle -/

/-- An invocation is under way under the handle. -/
def Live (r : Registry) (handle : Int32) : Prop := (r.get? handle).isSome = true

/-- Every handle is in use. -/
def Full (r : Registry) : Prop := ∀ n < handleLimit, r.Live (Int32.ofNat n)

/-- The handle so many places after a number, in cyclic order. -/
def handleAfter (last : Int) (places : Nat) : Int32 :=
  Int32.ofNat ((last + places) % handleLimit).toNat

/-- The handle is the first in cyclic order after a number that is not in use. -/
def FirstFree (r : Registry) (last : Int) (handle : Int32) : Prop :=
  ∃ k, 0 < k ∧ k ≤ handleLimit ∧ handle = handleAfter last k ∧ ¬ r.Live handle ∧
    ∀ j, 0 < j → j < k → r.Live (handleAfter last j)

/-- The search for a free handle, with the counter that it moves: the handle that was found, and
where the counter stands at the end. -/
def seek (contexts : OrderedMap Int32 Context) : (tries counter : Nat) → Option Nat × Nat
  | 0, counter => (none, counter)
  | tries + 1, counter =>
    let counter := (counter + 1) % handleLimit
    if contexts.contains (Int32.ofNat counter) then seek contexts tries counter
    else (some counter, counter)

/-- The search once around all handles. -/
def search (r : Registry) : Option Nat × Nat :=
  seek r.contexts handleLimit r.last

theorem toInt_handle (h : n < handleLimit) : (Int32.ofNat n).toInt = n :=
  Int32.toInt_ofNat_of_lt (Nat.lt_trans h (by decide))

theorem handle_inj {m n : Nat} (hm : m < handleLimit) (hn : n < handleLimit)
    (h : Int32.ofNat m = Int32.ofNat n) : m = n := by
  have := congrArg Int32.toInt h
  rw [toInt_handle hm, toInt_handle hn] at this
  exact Int.ofNat_inj.mp this

theorem succ_mod_add_mod (last k : Nat) :
    ((last + 1) % handleLimit + k) % handleLimit = (last + (k + 1)) % handleLimit := by
  rw [Nat.mod_add_mod, Nat.add_assoc, Nat.add_comm 1 k]

theorem freeAfter_succ (contexts : OrderedMap Int32 Context) (tries last : Nat) :
    freeAfter contexts (tries + 1) last =
      if contexts.contains (Int32.ofNat ((last + 1) % handleLimit)) then
        freeAfter contexts tries ((last + 1) % handleLimit)
      else some ((last + 1) % handleLimit) := rfl

theorem seek_succ (contexts : OrderedMap Int32 Context) (tries counter : Nat) :
    seek contexts (tries + 1) counter =
      if contexts.contains (Int32.ofNat ((counter + 1) % handleLimit)) then
        seek contexts tries ((counter + 1) % handleLimit)
      else (some ((counter + 1) % handleLimit), (counter + 1) % handleLimit) := rfl

/-- **The search finds the first free handle** among those it tries. -/
theorem exists_of_freeAfter : ∀ {tries last : Nat}, freeAfter contexts tries last = some n →
    ∃ k, 0 < k ∧ k ≤ tries ∧ n = (last + k) % handleLimit ∧
      contexts.contains (Int32.ofNat n) = false ∧
      ∀ j, 0 < j → j < k → contexts.contains (Int32.ofNat ((last + j) % handleLimit)) = true := by
  intro tries
  induction tries with
  | zero =>
    intro last h
    cases h
  | succ tries ih =>
    intro last h
    rw [freeAfter_succ] at h
    by_cases hlive : contexts.contains (Int32.ofNat ((last + 1) % handleLimit))
    · rw [if_pos hlive] at h
      obtain ⟨k, hpos, hle, rfl, hfree, hbefore⟩ := ih h
      refine ⟨k + 1, by omega, by omega, succ_mod_add_mod last k, hfree, ?_⟩
      intro j hj hjk
      -- the first handle tried is live, and the others are what the rest of the search tries
      obtain _ | j := j
      · omega
      obtain _ | j := j
      · exact hlive
      · rw [← succ_mod_add_mod]
        exact hbefore (j + 1) (by omega) (by omega)
    · rw [if_neg hlive] at h
      cases h
      exact ⟨1, by omega, by omega, rfl, by simpa using hlive, fun j hj hlt => by omega⟩

/-- A handle that is given out is not in use. -/
theorem contains_freeAfter (h : freeAfter contexts tries last = some n) :
    contexts.contains (Int32.ofNat n) = false := by
  obtain ⟨k, -, -, -, hfree, -⟩ := exists_of_freeAfter h
  exact hfree

theorem freeAfter_congr {contexts' : OrderedMap Int32 Context}
    (h : ∀ k, contexts.contains k = contexts'.contains k) : ∀ tries last : Nat,
    freeAfter contexts tries last = freeAfter contexts' tries last := by
  intro tries
  induction tries with
  | zero => intro last; rfl
  | succ tries ih =>
    intro last
    rw [freeAfter_succ, freeAfter_succ, h, ih]

/-- **The search fails when every handle it tries is in use.** -/
theorem freeAfter_eq_none_iff : ∀ {tries last : Nat}, freeAfter contexts tries last = none ↔
    ∀ k, 0 < k → k ≤ tries →
      contexts.contains (Int32.ofNat ((last + k) % handleLimit)) = true := by
  intro tries
  induction tries with
  | zero =>
    intro last
    exact ⟨fun _ k hpos hle => by omega, fun _ => rfl⟩
  | succ tries ih =>
    intro last
    rw [freeAfter_succ]
    by_cases hlive : contexts.contains (Int32.ofNat ((last + 1) % handleLimit))
    · -- the search fails exactly if it fails at the first handle and at all that follow
      rw [if_pos hlive, ih]
      constructor
      · intro h k hpos hle
        obtain _ | _ | k := k
        · omega
        · exact hlive
        · rw [← succ_mod_add_mod]
          exact h (k + 1) (by omega) (by omega)
      · intro h k hpos hle
        rw [succ_mod_add_mod]
        exact h (k + 1) (by omega) (by omega)
    · rw [if_neg hlive]
      exact ⟨fun h => (Option.some_ne_none _ h).elim,
        fun h => (hlive (h 1 (by omega) (by omega))).elim⟩

theorem freeAfter_mono {tries' : Nat} (h : freeAfter contexts tries last = some n)
    (hle : tries ≤ tries') : freeAfter contexts tries' last = some n := by
  induction tries generalizing last tries' with
  | zero => cases h
  | succ tries ih =>
    obtain _ | tries' := tries'
    · omega
    rw [freeAfter_succ] at h ⊢
    split at h
    · rename_i hlive
      rw [if_pos hlive]
      exact ih h (by omega)
    · rename_i hfree
      rw [if_neg hfree]
      exact h

/-- Handles that are tried one after another are different, less than once around. -/
theorem nodup_tried {size : Nat} (h : size < handleLimit) :
    ((List.range (size + 1)).map fun k =>
      Int32.ofNat ((last + (k + 1)) % handleLimit)).Nodup := by
  refine List.Nodup.map_on ?_ List.nodup_range
  intro j hj k hk hjk
  rw [List.mem_range] at hj hk
  have := handle_inj (Nat.mod_lt _ handleLimit_pos) (Nat.mod_lt _ handleLimit_pos) hjk
  unfold handleLimit at this h
  omega

/-- **Among one handle more than there are invocations one is free**, unless all are in use. -/
theorem full_of_exhausted
    (h : freeAfter r.contexts (min handleLimit (r.contexts.size + 1)) last = none) : r.Full := by
  rw [freeAfter_eq_none_iff] at h
  by_cases hsize : r.contexts.size < handleLimit
  · -- the handles tried would be more keys than there are
    rw [Nat.min_eq_right (by omega)] at h
    have hsub : ((List.range (r.contexts.size + 1)).map fun k =>
        Int32.ofNat ((last + (k + 1)) % handleLimit)) ⊆ r.contexts.keys := by
      intro key hkey
      obtain ⟨k, hk, rfl⟩ := List.mem_map.1 hkey
      rw [List.mem_range] at hk
      obtain ⟨c, hc⟩ := Option.isSome_iff_exists.1 (h (k + 1) (by omega) (by omega))
      exact OrderedMap.mem_keys_of_get? hc
    have hlength := ((nodup_tried hsize).subperm hsub).length_le
    rw [List.length_map, List.length_range, OrderedMap.keys, List.length_map] at hlength
    exact absurd hlength (Nat.not_succ_le_self _)
  · -- the search went once around
    rw [Nat.min_eq_left (by omega)] at h
    intro n hn
    have hround := h ((n + handleLimit - last % handleLimit - 1) % handleLimit + 1) (by omega)
      (Nat.mod_lt _ handleLimit_pos)
    have hback : (last + ((n + handleLimit - last % handleLimit - 1) % handleLimit + 1)) %
        handleLimit = n := by
      unfold handleLimit at hn ⊢
      omega
    rw [hback] at hround
    exact hround

/-- As many tries as `register` makes find what a search once around finds. -/
theorem freeAfter_enough (r : Registry) :
    freeAfter r.contexts (min handleLimit (r.contexts.size + 1)) r.last =
      freeAfter r.contexts handleLimit r.last := by
  cases h : freeAfter r.contexts (min handleLimit (r.contexts.size + 1)) r.last with
  | some n => exact (freeAfter_mono h (Nat.min_le_left _ _)).symm
  | none =>
    symm
    rw [freeAfter_eq_none_iff]
    intro k _ _
    exact full_of_exhausted h _ (Nat.mod_lt _ handleLimit_pos)

/-- The counter ends at the handle that was found, or so many places on as were tried. -/
theorem seek_eq (contexts : OrderedMap Int32 Context) (tries : Nat) : ∀ counter : Nat,
    counter < handleLimit →
    seek contexts tries counter = (freeAfter contexts tries counter,
      (freeAfter contexts tries counter).getD ((counter + tries) % handleLimit)) := by
  induction tries with
  | zero =>
    intro counter h
    show (none, counter) = (none, (counter + 0) % handleLimit)
    rw [Nat.add_zero, Nat.mod_eq_of_lt h]
  | succ tries ih =>
    intro counter _
    rw [freeAfter_succ, seek_succ]
    split
    · rw [ih _ (Nat.mod_lt _ handleLimit_pos), succ_mod_add_mod]
    · rfl

/-- **The search once around all handles is what `register` does**: it ends at the handle that was
given out, and where it began if there was none to give. -/
theorem search_eq (h : r.last < handleLimit) (c : Context) :
    r.search = match r.register c with
      | .ok (_, r') => (some r'.last, r'.last)
      | .error _ => (none, r.last) := by
  unfold search register
  rw [seek_eq _ _ _ h, ← freeAfter_enough, Nat.add_mod_right, Nat.mod_eq_of_lt h]
  cases freeAfter r.contexts (min handleLimit (r.contexts.size + 1)) r.last with
  | none => rfl
  | some n => rfl

/-! ### Registering -/

/-- The handles in cyclic order after the counter are those after the number it stands for. -/
theorem handleAfter_eq {base : Int} (h : (last : Int) = base % handleLimit) (k : Nat) :
    handleAfter base k = Int32.ofNat ((last + k) % handleLimit) := by
  unfold handleAfter
  rw [← Int.emod_add_emod, ← h, ← Int.natCast_add, ← Int.natCast_emod, Int.toNat_natCast]

/-- Registering takes a free handle, and changes nothing else. -/
theorem register_eq_ok (h : r.register c = .ok (c', r')) :
    ∃ n, freeAfter r.contexts (min handleLimit (r.contexts.size + 1)) r.last = some n ∧
      c' = { c with handle := Int32.ofNat n } ∧
      r' = { contexts := r.contexts.insert (Int32.ofNat n) c', last := n } := by
  unfold register at h
  split at h
  · cases h
  · rename_i n hn
    cases h
    exact ⟨n, hn, rfl, rfl⟩

/-- **Registering takes the first free handle after the counter**, and moves the counter there. -/
theorem register_ok {base : Int} (hbase : (r.last : Int) = base % handleLimit)
    (h : r.register c = .ok (c', r')) :
    r'.last < handleLimit ∧ c' = { c with handle := Int32.ofNat r'.last } ∧
      r'.contexts = r.contexts.insert c'.handle c' ∧ r.FirstFree base c'.handle := by
  obtain ⟨n, hn, rfl, rfl⟩ := register_eq_ok h
  obtain ⟨k, hpos, hle, rfl, hfree, hbefore⟩ := exists_of_freeAfter hn
  refine ⟨Nat.mod_lt _ handleLimit_pos, rfl, rfl, k, hpos, hle.trans (Nat.min_le_left _ _),
    (handleAfter_eq hbase k).symm, ?_, ?_⟩
  · show ¬ r.contexts.contains _ = true
    rw [hfree]
    exact Bool.false_ne_true
  · intro j hj hjk
    rw [handleAfter_eq hbase]
    exact hbefore j hj hjk

/-- **Registering fails exactly when every handle is in use.** -/
theorem register_eq_error_iff {e : ExecutionError} :
    r.register c = .error e ↔ r.Full ∧ e = .trap "no free invocation handle" := by
  unfold register
  cases hn : freeAfter r.contexts (min handleLimit (r.contexts.size + 1)) r.last with
  | none =>
    constructor
    · intro h
      cases h
      exact ⟨full_of_exhausted hn, rfl⟩
    · intro h
      rw [h.2]
  | some n =>
    -- a free handle was found, so the registry is not full
    obtain ⟨k, -, -, rfl, hfree, -⟩ := exists_of_freeAfter hn
    constructor
    · intro h
      cases h
    intro h
    have hlive : r.contexts.contains _ = true := h.1 _ (Nat.mod_lt (r.last + k) handleLimit_pos)
    rw [hfree] at hlive
    cases hlive

/-! ### Histories -/

/-- What is done with a registry. -/
inductive Op
  /-- An invocation is registered. -/
  | register (c : Context)
  /-- An invocation is looked up. -/
  | get (handle : Int32)
  /-- A handle is removed. -/
  | remove (handle : Int32)

/-- What came of an operation. -/
inductive Event
  /-- An invocation was registered, and has its handle. -/
  | registered (c : Context)
  /-- There was no handle for an invocation. -/
  | refused (e : ExecutionError)
  /-- A handle was looked up. -/
  | looked (handle : Int32) (found : Option Context)
  /-- A handle was removed. -/
  | removed (handle : Int32) (found : Option Context)

/-- Carries out one operation. -/
def perform (r : Registry) : Op → Event × Registry
  | .register c =>
    match r.register c with
    | .ok (c, r') => (.registered c, r')
    | .error e => (.refused e, r)
  | .get handle => (.looked handle (r.get? handle), r)
  | .remove handle => (.removed handle (r.get? handle), r.remove handle)

/-- Carries out operations, and gives what came of them. -/
def run (r : Registry) : List Op → List Event × Registry
  | [] => ([], r)
  | op :: ops =>
    let (event, r) := r.perform op
    let (events, r) := r.run ops
    (event :: events, r)

/-- An invocation was registered under a handle, and the handle has not been removed since. -/
def Held (past : List Event) (handle : Int32) (c : Context) : Prop :=
  ∃ earlier later, past = earlier ++ .registered c :: later ∧ c.handle = handle ∧
    ∀ found, .removed handle found ∉ later

/-- The handle given out last, or the number the registry starts after. -/
def issued (start : Int32) (past : List Event) : Int :=
  past.foldl (fun last event =>
    match event with
    | .registered c => c.handle.toInt
    | _ => last) start.toInt

variable {past : List Event} {event : Event} {start : Int32}

/-- **Who holds a handle after one more event**: who held it and was not removed, and who was
registered under it just now. -/
theorem held_append_iff : Held (past ++ [event]) handle c ↔
    (Held past handle c ∧ ∀ found, event ≠ .removed handle found) ∨
      (event = .registered c ∧ c.handle = handle) := by
  constructor
  · rintro ⟨earlier, later, hpast, hhandle, hlater⟩
    -- either it is registered by the last event, or before, and the last event does not remove it
    rcases later.eq_nil_or_concat with rfl | ⟨later, last, rfl⟩
    · obtain ⟨-, hevent⟩ := List.append_inj' hpast rfl
      exact .inr ⟨List.singleton_inj.mp hevent, hhandle⟩
    · rw [List.concat_eq_append, ← List.cons_append, ← List.append_assoc] at hpast
      obtain ⟨rfl, hevent⟩ := List.append_inj' hpast rfl
      cases hevent
      rw [List.concat_eq_append] at hlater
      refine .inl ⟨⟨earlier, later, rfl, hhandle, fun found hmem => ?_⟩, fun found heq => ?_⟩
      · exact hlater found (List.mem_append_left _ hmem)
      · exact hlater found (List.mem_append_right _ (List.mem_singleton.mpr heq.symm))
  · rintro (⟨⟨earlier, later, rfl, hhandle, hlater⟩, hevent⟩ | ⟨rfl, hhandle⟩)
    · refine ⟨earlier, later ++ [event], by simp, hhandle, fun found hmem => ?_⟩
      rcases List.mem_append.1 hmem with hmem | hmem
      · exact hlater found hmem
      · exact hevent found (List.mem_singleton.mp hmem).symm
    · exact ⟨past, [], rfl, hhandle, fun found => List.not_mem_nil⟩

/-- What a registry that started after a number holds after a history. -/
structure Reflects (start : Int32) (past : List Event) (r : Registry) : Prop where
  /-- The counter stands at the handle given out last. -/
  last : (r.last : Int) = issued start past % handleLimit
  /-- An invocation is found as long as it holds its handle. -/
  found : ∀ handle c, r.get? handle = some c ↔ Held past handle c
  /-- All handles in use are handles. -/
  bounded : ∀ handle, r.Live handle → 0 ≤ handle.toInt ∧ handle.toInt < handleLimit

theorem reflects_startingAfter (start : Int32) : Reflects start [] (startingAfter start) where
  last := by
    show ((start.toInt.emod handleLimit).toNat : Int) = start.toInt % handleLimit
    exact Int.toNat_of_nonneg (Int.emod_nonneg _ (by decide))
  found := by
    intro handle c
    constructor
    · intro h
      cases h
    · rintro ⟨earlier, later, hpast, -⟩
      cases earlier <;> cases hpast
  bounded := by
    intro handle h
    cases h

/-- The counter is a handle. -/
theorem Reflects.last_lt (h : Reflects start past r) : r.last < handleLimit := by
  have := Int.emod_lt_of_pos (issued start past) (b := handleLimit) (by decide)
  rw [← h.last] at this
  exact Int.ofNat_lt.mp this

theorem Reflects.idle (h : Reflects start past r) (hregistered : ∀ c, event ≠ .registered c)
    (hremoved : ∀ handle found, event ≠ .removed handle found) :
    Reflects start (past ++ [event]) r where
  last := by
    rw [h.last]
    unfold issued
    rw [List.foldl_append]
    cases event with
    | registered c => exact absurd rfl (hregistered c)
    | _ => rfl
  found := by
    intro handle c
    rw [h.found, held_append_iff]
    exact ⟨fun held => .inl ⟨held, hremoved handle⟩,
      fun held => held.elim And.left fun now => absurd now.1 (hregistered c)⟩
  bounded := h.bounded

/-- A registration adds one who holds a handle. -/
theorem Reflects.registered (h : Reflects start past r) (hok : r.register c = .ok (c', r')) :
    Reflects start (past ++ [.registered c']) r' := by
  obtain ⟨hlt, hc, hcontexts, k, -, -, -, hfree, -⟩ := register_ok h.last hok
  have hhandle : c'.handle = Int32.ofNat r'.last := by rw [hc]
  have hget : ∀ handle, r'.get? handle =
      if c'.handle = handle then some c' else r.get? handle := by
    intro handle
    unfold get?
    rw [hcontexts, OrderedMap.get?_insert_ite]
  constructor
  · unfold issued
    rw [List.foldl_append]
    show (r'.last : Int) = c'.handle.toInt % handleLimit
    rw [hhandle, toInt_handle hlt]
    exact (Int.emod_eq_of_lt (Int.natCast_nonneg _) (Int.ofNat_lt.mpr hlt)).symm
  · intro handle d
    rw [hget, held_append_iff, ← h.found]
    by_cases heq : c'.handle = handle
    · -- the handle was free, so nobody else holds it
      subst heq
      rw [if_pos rfl]
      constructor
      · intro hd
        cases hd
        exact .inr ⟨rfl, rfl⟩
      · rintro (⟨hheld, -⟩ | ⟨hd, -⟩)
        · exact absurd (Option.isSome_of_eq_some hheld) hfree
        · cases hd
          rfl
    · rw [if_neg heq]
      constructor
      · exact fun hd => .inl ⟨hd, fun found hevent => by cases hevent⟩
      · rintro (⟨hheld, -⟩ | ⟨hd, hd'⟩)
        · exact hheld
        · cases hd
          exact absurd hd' heq
  · intro handle hlive
    unfold Live at hlive
    rw [hget] at hlive
    split at hlive
    · rename_i heq
      rw [← heq, hhandle, toInt_handle hlt]
      exact ⟨Int.natCast_nonneg _, Int.ofNat_lt.mpr hlt⟩
    · exact h.bounded handle hlive

theorem Reflects.removed (h : Reflects start past r) (handle : Int32) (found : Option Context) :
    Reflects start (past ++ [.removed handle found]) (r.remove handle) := by
  have hget : ∀ other, (r.remove handle).get? other =
      if handle = other then none else r.get? other :=
    OrderedMap.get?_erase_ite r.contexts handle
  constructor
  · show (r.last : Int) = _
    rw [h.last]
    unfold issued
    rw [List.foldl_append]
    rfl
  · intro other c
    rw [hget, held_append_iff, ← h.found]
    -- after a removal nobody has the handle; the others are where they were
    by_cases heq : handle = other
    · subst heq
      rw [if_pos rfl]
      constructor
      · intro hc
        cases hc
      · rintro (⟨-, hevent⟩ | ⟨hevent, -⟩)
        · exact absurd rfl (hevent found)
        · cases hevent
    · rw [if_neg heq]
      constructor
      · intro hc
        refine .inl ⟨hc, fun found' hevent => ?_⟩
        cases hevent
        exact heq rfl
      · rintro (⟨hc, -⟩ | ⟨hevent, -⟩)
        · exact hc
        · cases hevent
  · intro other hlive
    unfold Live at hlive
    rw [hget] at hlive
    split at hlive
    · cases hlive
    · exact h.bounded other hlive

/-- **One operation**: the registry holds what the longer history says. -/
theorem Reflects.perform (h : Reflects start past r) (op : Op) :
    Reflects start (past ++ [(r.perform op).1]) (r.perform op).2 := by
  cases op with
  | register c =>
    unfold Registry.perform
    dsimp only
    cases hok : r.register c with
    | error e =>
      exact h.idle (fun c hevent => by cases hevent) fun handle found hevent => by cases hevent
    | ok registered => exact h.registered hok
  | get handle =>
    exact h.idle (fun c hevent => by cases hevent) fun handle found hevent => by cases hevent
  | remove handle => exact h.removed handle _

/-- **A run**, from any history on. -/
theorem Reflects.run : ∀ {ops : List Op} {past : List Event} {r : Registry},
    Reflects start past r → Reflects start (past ++ (r.run ops).1) (r.run ops).2 := by
  intro ops
  induction ops with
  | nil =>
    intro past r h
    show Reflects start (past ++ []) r
    rw [List.append_nil]
    exact h
  | cons op ops ih =>
    intro past r h
    have hrest := ih (h.perform op)
    rw [List.append_assoc] at hrest
    exact hrest

/-! ### The registry of a host -/

/-- How a registry that started after a number keeps its handles, after a history. -/
structure Kept (start : Int32) (past : List Event) (r : Registry) : Prop where
  /-- An invocation is found under a handle exactly while it was registered under it and the handle
  has not been removed. -/
  found : ∀ handle c, r.get? handle = some c ↔ Held past handle c
  /-- Every invocation under way is stored under its own handle. -/
  own : ∀ handle c, r.get? handle = some c → c.handle = handle
  /-- No two invocations under way have one handle. -/
  distinct : (r.contexts.entries.map fun e => e.2.handle).Nodup
  /-- The handles in use lie in the range of handles. -/
  bounded : ∀ handle, r.Live handle → 0 ≤ handle.toInt ∧ handle.toInt < handleLimit
  /-- An invocation that is registered gets the first free handle after the one given out last; it
  is found under it, and nothing else changes. -/
  registers : ∀ c c' r', r.register c = .ok (c', r') →
    r.FirstFree (issued start past) c'.handle ∧ c' = { c with handle := c'.handle } ∧
      ∀ handle, r'.get? handle = if handle = c'.handle then some c' else r.get? handle
  /-- It is refused exactly when every handle is in use. -/
  refuses : ∀ c e, r.register c = .error e ↔ r.Full ∧ e = .trap "no free invocation handle"
  /-- The registry is then as before, the counter included: the search has gone once around. -/
  refused : ∀ c e, r.register c = .error e →
    (r.perform (.register c)).2 = r ∧ r.search = (none, r.last)
  /-- Otherwise the search has moved the counter to the handle that is given out. -/
  searched : ∀ c c' r', r.register c = .ok (c', r') →
    r.search = (some r'.last, r'.last) ∧ c'.handle = Int32.ofNat r'.last

/-- What is stored is stored under its own handle. -/
theorem Reflects.own (h : Reflects start past r) (hget : r.get? handle = some c) :
    c.handle = handle := by
  obtain ⟨-, -, -, hhandle, -⟩ := (h.found handle c).mp hget
  exact hhandle

theorem Reflects.distinct (h : Reflects start past r) :
    (r.contexts.entries.map fun e => e.2.handle).Nodup := by
  have hkeys : (r.contexts.entries.map fun e => e.2.handle) = r.contexts.keys :=
    List.map_congr_left fun e he => h.own (OrderedMap.mem_entries_iff.mp he)
  rw [hkeys]
  refine List.pairwise_map.mpr (r.contexts.ascending.imp fun {a b} hlt heq => ?_)
  have hself : compare b.1 b.1 = .eq := Std.ReflCmp.compare_self
  rw [heq, hself] at hlt
  cases hlt

/-- **After every run, from every start, the registry holds exactly the invocations that were
registered and not removed, each under its own handle, and gives out the first free handle after
the last.** -/
theorem handles_kept (start : Int32) (ops : List Op) :
    Kept start ((startingAfter start).run ops).1 ((startingAfter start).run ops).2 := by
  -- everything follows from what the registry reflects of the events
  have h : Reflects start ((startingAfter start).run ops).1 ((startingAfter start).run ops).2 :=
    (reflects_startingAfter start).run
  generalize ((startingAfter start).run ops).1 = past at h ⊢
  generalize ((startingAfter start).run ops).2 = r at h ⊢
  refine ⟨h.found, fun handle c => h.own, h.distinct, h.bounded, ?_,
    fun c e => register_eq_error_iff, ?_, ?_⟩
  · intro c c' r' hok
    obtain ⟨-, hc, hcontexts, hfirst⟩ := register_ok h.last hok
    refine ⟨hfirst, by rw [hc], fun handle => ?_⟩
    unfold get?
    rw [hcontexts, OrderedMap.get?_insert_ite]
    exact if_congr eq_comm rfl rfl
  · intro c e herror
    have hsearch := search_eq h.last_lt c
    rw [herror] at hsearch
    unfold perform
    dsimp only
    rw [herror]
    exact ⟨rfl, hsearch⟩
  · intro c c' r' hok
    obtain ⟨-, hc, -⟩ := register_ok h.last hok
    have hsearch := search_eq h.last_lt c
    rw [hok] at hsearch
    exact ⟨hsearch, by rw [hc]⟩

end Registry

end ContractHost
