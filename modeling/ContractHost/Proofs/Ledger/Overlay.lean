import ContractHost.Ledger.Access
import ContractHost.Proofs.OrderedMap

/-!
# What a transaction sees

The buffered writes of a transaction lie over the committed state.  A scan walks over both together,
and a single key is looked up in the writes first; the two show the same state.  Of a contract a
transaction sees only what is kept under its name.

## Main definitions

* `Session.overlay` — the committed state with the buffered writes put over it.
* `Session.AgreesOn` — two transactions of one name that keep the same under a contract.

## Main results

* `Session.get?_overlay` — **looking through the writes is looking at what they make of the state.**
* `Session.met_scan` — **a scan comes to what the commit would.**
* `Session.mem_scan_iff` — it gives the pairs that are seen one by one.
* `Session.scan_congr` — it depends on nothing else.
-/

namespace ContractHost

open Std

/-! ### The order of byte strings -/

namespace Bytes

/-- Byte strings are ordered by their first difference. -/
theorem compare_eq_lt_iff {a b : Bytes} : compare a b = .lt ↔ a < b := by
  induction a generalizing b with
  | nil => cases b <;> simp
  | cons x a ih =>
    cases b with
    | nil => simp
    | cons y b =>
      rw [List.compare_cons_cons, Ordering.then_eq_lt, ih, List.cons_lt_cons_iff,
        Std.compare_eq_iff_eq, Std.compare_eq_lt]

theorem isLT_compare_iff {a b : Bytes} : (compare a b).isLT = true ↔ a < b := by
  rw [← compare_eq_lt_iff, Ordering.isLT_iff_eq_lt]

theorem isLE_compare_iff {a b : Bytes} : (compare a b).isLE = true ↔ a ≤ b := by
  have hswap : compare a b = (compare b a).swap := OrientedCmp.eq_swap
  rw [← List.not_lt, ← compare_eq_lt_iff, hswap]
  cases compare b a <;> simp

end Bytes

/-! ### What the writes make of the state -/

namespace Ledger

/-- What is found after a number of changes is what the change of this slot left, if there is one.
-/
theorem get?_foldl_apply {changes : List (Slot × Option Bytes)}
    (h : changes.Pairwise fun a b => compare a.1 b.1 = .lt) (l : Ledger) (contract : String)
    (key : Bytes) :
    (changes.foldl (fun l e => l.apply e.1 e.2) l).get? contract key =
      ((changes.find? fun e => compare e.1 ⟨contract, key⟩ == .eq).map (·.2)).getD
        (l.get? contract key) := by
  induction changes generalizing l with
  | nil => rfl
  | cons e rest ih =>
    obtain ⟨hfirst, hrest⟩ := List.pairwise_cons.1 h
    rw [List.foldl_cons, ih hrest, get?_apply, List.find?_cons]
    by_cases he : e.1 = ⟨contract, key⟩
    · -- no later change is of the same slot
      have hlater : rest.find? (fun e => compare e.1 ⟨contract, key⟩ == .eq) = none := by
        rw [List.find?_eq_none]
        intro e' he' heq
        have hsame : e'.1 = e.1 := (LawfulEqOrd.eq_of_compare (eq_of_beq heq)).trans he.symm
        have hlt := hfirst e' he'
        rw [hsame] at hlt
        simp at hlt
      simp [hlater, he]
    · have hpass : (compare e.1 ⟨contract, key⟩ == .eq) = false := by
        simpa using fun heq => he (LawfulEqOrd.eq_of_compare heq)
      simp only [hpass, if_neg he]

end Ledger

namespace Session

/-- The committed state with the buffered writes put over it. -/
def overlay (s : Session) : Ledger :=
  s.tx.pending.entries.foldl (fun l e => l.apply e.1 e.2) s.ledger

theorem get?_eq_getD (s : Session) (contract : String) (key : Bytes) :
    s.get? contract key =
      (s.tx.pending.get? ⟨contract, key⟩).getD (s.ledger.get? contract key) := by
  unfold get?
  cases s.tx.pending.get? ⟨contract, key⟩ <;> rfl

/-- **Looking through the writes is looking at what they make of the state.** -/
theorem get?_overlay (s : Session) (contract : String) (key : Bytes) :
    s.overlay.get? contract key = s.get? contract key := by
  rw [get?_eq_getD]
  exact Ledger.get?_foldl_apply s.tx.pending.ascending s.ledger contract key

/-- A commit leaves in the ledger what the transaction has seen. -/
theorem get?_commit (s : Session) (contract : String) (key : Bytes) :
    s.commit.ledger.get? contract key = s.get? contract key :=
  s.get?_overlay contract key

/-! ### Scans -/

variable {s s' : Session} {contract : String} {test : Bytes → Bool}

/-- What a scan has met agrees with a ledger, as far as its contract and its test reach. -/
def Met (contract : String) (test : Bytes → Bool) (met : OrderedMap Bytes Bytes) (l : Ledger) :
    Prop :=
  ∀ k, met.get? k = if test k then l.get? contract k else none

/-- One buffered write after another keeps the scan in step with the ledger. -/
theorem Met.merge {met : OrderedMap Bytes Bytes} {l : Ledger} (h : Met contract test met l)
    (slot : Slot) (value : Option Bytes) :
    Met contract test (merge contract test met slot value) (l.apply slot value) := by
  intro k
  have hslot : slot = ⟨contract, k⟩ ↔ slot.contract = contract ∧ slot.key = k := by
    cases slot
    simp
  rw [Ledger.get?_apply]
  unfold Session.merge
  by_cases htaken : slot.contract = contract && test slot.key
  · rw [if_pos htaken]
    obtain ⟨hcontract, htest⟩ : slot.contract = contract ∧ test slot.key = true := by
      simpa using htaken
    by_cases hkey : slot.key = k
    · obtain rfl := hkey
      cases value <;> simp [OrderedMap.get?_erase_ite, hslot, hcontract, htest]
    · rw [if_neg fun heq => hkey (hslot.mp heq).2, ← h k]
      cases value <;> simp [OrderedMap.get?_insert_ite, OrderedMap.get?_erase_ite, hkey]
  · rw [if_neg htaken, h k]
    by_cases htest : test k = true
    · -- a key that passes the test is not that of a write that is passed over
      have hother : ¬ slot = ⟨contract, k⟩ := by
        intro heq
        obtain ⟨rfl, rfl⟩ := hslot.mp heq
        simp [htest] at htaken
      rw [if_neg hother]
    · rw [if_neg htest, if_neg htest]

/-- The scan begins with what is committed. -/
theorem met_committed (l : Ledger) (contract : String) (test : Bytes → Bool) :
    Met contract test (OrderedMap.ofList ((l.state.entries.filter fun e =>
      e.1.contract = contract && test e.1.key).map fun e => (e.1.key, e.2))) l := by
  intro k
  have hentry (v : Bytes) : (⟨contract, k⟩, v) ∈ l.state.entries ↔ l.get? contract k = some v :=
    OrderedMap.mem_entries_iff
  refine Option.ext fun v => ?_
  rw [← OrderedMap.mem_entries_iff, OrderedMap.entries_ofList ?ascending]
  case ascending =>
    rw [List.pairwise_map]
    refine (l.state.ascending.filter _).imp_of_mem fun {a b} ha hb hlt => ?_
    -- both are keys of the one contract, so the names do not decide
    have hname : a.1.contract = b.1.contract := by
      obtain ⟨-, ha⟩ := List.mem_filter.1 ha
      obtain ⟨-, hb⟩ := List.mem_filter.1 hb
      simp only [Bool.and_eq_true, decide_eq_true_eq] at ha hb
      exact ha.1.trans hb.1.symm
    rcases Ordering.then_eq_lt.1 hlt with hlt | ⟨-, hlt⟩
    · simp [compareOn, hname] at hlt
    · exact hlt
  rw [List.mem_map]
  constructor
  · rintro ⟨⟨slot, v'⟩, he, heq⟩
    obtain ⟨rfl, rfl⟩ := Prod.mk.inj heq
    obtain ⟨hmem, hpasses⟩ := List.mem_filter.1 he
    obtain ⟨hname, htest⟩ := Bool.and_eq_true_iff.1 hpasses
    obtain rfl := of_decide_eq_true hname
    rw [if_pos htest]
    exact (hentry v').1 hmem
  · intro h
    split at h
    · rename_i htest
      exact ⟨(⟨contract, k⟩, v), List.mem_filter.2 ⟨(hentry v).2 h, by simp [htest]⟩, rfl⟩
    · cases h

/-- **A scan comes to what the commit would.**  What it has met in the end agrees with the committed
state over which the buffered writes are put. -/
theorem met_scan (s : Session) (contract : String) (test : Bytes → Bool) :
    ∃ met, met.entries = s.scan contract test ∧ Met contract test met s.overlay := by
  refine ⟨_, rfl, ?_⟩
  unfold overlay
  have hfold (changes : List (Slot × Option Bytes)) {met : OrderedMap Bytes Bytes} {l : Ledger}
      (hmet : Met contract test met l) :
      Met contract test (changes.foldl (fun met e => Session.merge contract test met e.1 e.2) met)
        (changes.foldl (fun l e => l.apply e.1 e.2) l) := by
    induction changes generalizing met l with
    | nil => exact hmet
    | cons e rest ih => exact ih (hmet.merge e.1 e.2)
  exact hfold s.tx.pending.entries (met_committed s.ledger contract test)

/-- A scan gives the pairs that are seen one by one. -/
theorem mem_scan_iff {k v : Bytes} :
    (k, v) ∈ s.scan contract test ↔ test k = true ∧ s.get? contract k = some v := by
  obtain ⟨met, hentries, hmet⟩ := s.met_scan contract test
  rw [← hentries, OrderedMap.mem_entries_iff, hmet k, get?_overlay]
  split <;> simp_all

/-- A scan comes in the order of the keys. -/
theorem ascending_scan (s : Session) (contract : String) (test : Bytes → Bool) :
    (s.scan contract test).Pairwise fun a b => a.1 < b.1 := by
  obtain ⟨met, hentries, -⟩ := s.met_scan contract test
  rw [← hentries]
  exact met.ascending.imp Bytes.compare_eq_lt_iff.mp

/-- **A scan of a contract depends on nothing but what is seen of it key by key.** -/
theorem scan_congr (h : ∀ key, s.get? contract key = s'.get? contract key) :
    s.scan contract test = s'.scan contract test := by
  obtain ⟨met, hentries, hmet⟩ := s.met_scan contract test
  obtain ⟨met', hentries', hmet'⟩ := s'.met_scan contract test
  have hsame : met = met' := OrderedMap.ext_get? fun k => by
    rw [hmet k, hmet' k, get?_overlay, get?_overlay, h]
  rw [← hentries, ← hentries', hsame]

/-- **A scan shows the same before the commit and after it.** -/
theorem scan_commit (s : Session) (contract : String) (test : Bytes → Bool) :
    s.commit.scan contract test = s.scan contract test :=
  scan_congr fun key => (s.commit.get?_commit contract key).symm.trans (s.get?_commit contract key)

/-! ### Two transactions -/

/-- Two transactions of one name that keep the same under the name of a contract, in the committed
state and in the writes that are not committed yet. -/
structure AgreesOn (contract : String) (s s' : Session) : Prop where
  /-- They have one name. -/
  id : s.tx.id = s'.tx.id
  /-- The committed values are the same. -/
  committed : ∀ key, s.ledger.get? contract key = s'.ledger.get? contract key
  /-- So are the pending writes. -/
  pending : ∀ key, s.tx.pending.get? ⟨contract, key⟩ = s'.tx.pending.get? ⟨contract, key⟩

namespace AgreesOn

theorem refl (contract : String) (s : Session) : s.AgreesOn contract s :=
  ⟨rfl, fun _ => rfl, fun _ => rfl⟩

theorem get? (h : s.AgreesOn contract s') (key : Bytes) :
    s.get? contract key = s'.get? contract key := by
  rw [get?_eq_getD, get?_eq_getD, h.committed, h.pending]

theorem record (h : s.AgreesOn contract s') (key : Bytes) (value : Option Bytes) :
    (s.record contract key value).AgreesOn contract (s'.record contract key value) := by
  refine ⟨h.id, h.committed, fun key' => ?_⟩
  unfold Session.record
  rw [OrderedMap.get?_insert, OrderedMap.get?_insert, h.pending]

end AgreesOn

end Session

end ContractHost
