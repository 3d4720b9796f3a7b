import ContractHost.Ledger.Access
import ContractHost.Proofs.Ledger.Overlay
import Mathlib.Logic.Function.Basic

/-!
# Transactions over one ledger

Any number of transactions work on one ledger, and their operations come in any order.  What each of
them sees, and what it commits, is told from the order of the operations alone: its own writes since
it committed last, over what the transactions have committed.

## Main definitions

* `Session.perform` — one operation of a transaction, with what it answers.
* `SharedLedger` — a ledger and the transactions that work on it; `SharedLedger.after` is what a
  history of operations leaves.
* `History.uncommitted`, `History.committed` — the last write to a slot that a transaction keeps to
  itself, and what is committed there, both read off the history.
* `History.kept` — a history without the operations that no commit has made known.

## Main results

* `SharedLedger.get?_pending_after`, `SharedLedger.get?_ledger_after` — **the maps hold what the
  history says.**
* `SharedLedger.session_after_kept` — what is not committed makes no difference to another
  transaction.
* `SharedLedger.overlay_after` — up to its first commit, the buffered writes of a transaction are
  what its list of writes makes of the ledger.
* `SharedLedger.transactions_overlay` — **reads, scans, the list of writes and the commit all agree
  with the history.**
-/

namespace ContractHost

open Std

/-! ### Replaying writes -/

/-- The slot that is written. -/
def Write.slot (w : Write) : Slot :=
  ⟨w.contract, w.key⟩

namespace Ledger

/-- A ledger after a number of writes in their order. -/
def replay (l : Ledger) (writes : List Write) : Ledger :=
  writes.foldl (fun l w => l.apply w.slot w.value) l

theorem replay_append (l : Ledger) (writes : List Write) (w : Write) :
    l.replay (writes ++ [w]) = (l.replay writes).apply w.slot w.value := by
  unfold replay
  rw [List.foldl_append]
  rfl

/-- Ledgers with the same contracts, in which the same is found everywhere, are equal. -/
theorem ext_get? {l l' : Ledger} (hdeployed : l.deployed = l'.deployed)
    (hstate : ∀ contract key, l.get? contract key = l'.get? contract key) : l = l' := by
  have heq : l.state = l'.state := OrderedMap.ext_get? fun slot => hstate slot.contract slot.key
  rcases l with ⟨state, deployed⟩
  rcases l' with ⟨state', deployed'⟩
  obtain rfl : state = state' := heq
  obtain rfl : deployed = deployed' := hdeployed
  rfl

@[simp] theorem deployed_apply (l : Ledger) (slot : Slot) (value : Option Bytes) :
    (l.apply slot value).deployed = l.deployed := by
  cases value <;> rfl

end Ledger

namespace Session

@[simp] theorem deployed_overlay (s : Session) : s.overlay.deployed = s.ledger.deployed := by
  unfold overlay
  generalize s.tx.pending.entries = changes
  generalize s.ledger = l
  induction changes generalizing l with
  | nil => rfl
  | cons e rest ih => rw [List.foldl_cons, ih, Ledger.deployed_apply]

/-- A write is buffered as it would be made. -/
theorem overlay_record (s : Session) (w : Write) :
    (s.record w.contract w.key w.value).overlay = s.overlay.apply w.slot w.value := by
  refine Ledger.ext_get? (by simp [record]) fun contract key => ?_
  rw [get?_overlay, get?_record, Ledger.get?_apply, get?_overlay]
  simp [Write.slot]

theorem commit_commit (s : Session) : s.commit.commit = s.commit := by
  have hledger : s.commit.overlay = s.commit.ledger := rfl
  exact congrArg (Session.mk · s.commit.tx) hledger

/-! ### Operations -/

/-- What is asked of a transaction. -/
inductive Operation
  /-- To set the value of a key. -/
  | put (contract : String) (key value : Bytes)
  /-- To remove the value of a key. -/
  | delete (contract : String) (key : Bytes)
  /-- The value of a key. -/
  | get (contract : String) (key : Bytes)
  /-- The pairs with keys from a start on and below a limit. -/
  | select (contract : String) (start limit : Bytes)
  /-- The pairs whose keys begin with a stem. -/
  | selectWithin (contract : String) (stem : Bytes)
  /-- To move the buffered writes into the ledger. -/
  | commit
  deriving DecidableEq

/-- What a transaction answers. -/
inductive Reply
  /-- It is done. -/
  | done
  /-- The value, if there is one. -/
  | value (v : Option Bytes)
  /-- The pairs. -/
  | pairs (l : List Pair)

/-- The write that an operation records. -/
def Operation.write? : Operation → Option Write
  | .put contract key v => some ⟨contract, key, some v⟩
  | .delete contract key => some ⟨contract, key, none⟩
  | _ => none

/-- A transaction after an attempt to write. -/
def written (s : Session) : Except LedgerFault Session → Except LedgerFault Reply × Session
  | .ok s' => (.ok .done, s')
  | .error e => (.error e, s)

/-- One operation: what is answered, and the transaction with its ledger afterwards. -/
def perform (s : Session) : Operation → Except LedgerFault Reply × Session
  | .put contract key v => s.written (LedgerAccess.put s contract key v)
  | .delete contract key => s.written (LedgerAccess.delete s contract key)
  | .get contract key => ((LedgerAccess.get s contract key).map .value, s)
  | .select contract start limit => ((LedgerAccess.select s contract start limit).map .pairs, s)
  | .selectWithin contract stem => ((LedgerAccess.selectWithin s contract stem).map .pairs, s)
  | .commit => (.ok .done, s.commit)

/-- An operation commits, or records one write, or changes nothing. -/
theorem perform_cases (s : Session) (o : Operation) :
    (o = .commit ∧ (s.perform o).2 = s.commit) ∨
    (∃ w, o ≠ .commit ∧ o.write? = some w ∧
      (s.perform o).2 = s.record w.contract w.key w.value) ∨
    (o ≠ .commit ∧ o.write? = none ∧ (s.perform o).2 = s) := by
  cases o with
  | put contract key v => exact .inr (.inl ⟨_, nofun, rfl, rfl⟩)
  | delete contract key => exact .inr (.inl ⟨_, nofun, rfl, rfl⟩)
  | get => exact .inr (.inr ⟨nofun, rfl, rfl⟩)
  | select => exact .inr (.inr ⟨nofun, rfl, rfl⟩)
  | selectWithin => exact .inr (.inr ⟨nofun, rfl, rfl⟩)
  | commit => exact .inl ⟨rfl, rfl⟩

theorem ledger_perform {s : Session} {o : Operation} (h : o ≠ .commit) :
    (s.perform o).2.ledger = s.ledger := by
  obtain ⟨ho, -⟩ | ⟨w, -, -, hs⟩ | ⟨-, -, hs⟩ := s.perform_cases o
  · exact absurd ho h
  · rw [hs]
    rfl
  · rw [hs]

end Session

/-! ### Histories -/

/-- The operations of some transactions, the last one first. -/
abbrev History : Type :=
  List (Nat × Session.Operation)

namespace History

open Session (Operation)

/-- The last write to a slot that a transaction has not committed: a value, or a removal. -/
def uncommitted (t : Nat) : History → Slot → Option (Option Bytes)
  | [], _ => none
  | (u, o) :: earlier, slot =>
    if u ≠ t then uncommitted t earlier slot
    else if o = .commit then none
    else match o.write? with
      | none => uncommitted t earlier slot
      | some w => if w.slot = slot then some w.value else uncommitted t earlier slot

/-- The value of a slot that was committed last, over what was in the ledger at first. -/
def committed (l : Ledger) : History → Slot → Option Bytes
  | [], slot => l.get? slot.contract slot.key
  | (t, o) :: earlier, slot =>
    if o = .commit then (uncommitted t earlier slot).getD (committed l earlier slot)
    else committed l earlier slot

/-- All writes of a transaction, in their order. -/
def writes (t : Nat) : History → List Write
  | [] => []
  | (u, o) :: earlier => writes t earlier ++ if u = t then o.write?.toList else []

/-- The operations of some transactions, and those of the others up to their last commit. -/
def kept (known : List Nat) : History → History
  | [] => []
  | (t, o) :: earlier =>
    if t ∈ known then (t, o) :: kept known earlier
    else if o = .commit then (t, o) :: kept (t :: known) earlier
    else kept known earlier

end History

/-- A ledger and the transactions that work on it. -/
structure SharedLedger where
  /-- The ledger. -/
  ledger : Ledger
  /-- The transactions. -/
  txs : Nat → Transaction

namespace SharedLedger

open Session (Operation Reply)

variable {l : Ledger} {name : Nat → String} {h : History} {t u : Nat} {x y : SharedLedger}

/-- A transaction together with the ledger. -/
def session (x : SharedLedger) (t : Nat) : Session :=
  ⟨x.ledger, x.txs t⟩

/-- What a transaction answers. -/
def answer (x : SharedLedger) (t : Nat) (o : Operation) : Except LedgerFault Reply :=
  ((x.session t).perform o).1

/-- One operation of a transaction. -/
def perform (x : SharedLedger) (t : Nat) (o : Operation) : SharedLedger :=
  let s := ((x.session t).perform o).2
  ⟨s.ledger, Function.update x.txs t s.tx⟩

/-- What a history leaves of a ledger on which named transactions begin. -/
def after (l : Ledger) (name : Nat → String) : History → SharedLedger
  | [] => ⟨l, fun t => { id := name t }⟩
  | (t, o) :: earlier => (after l name earlier).perform t o

@[simp] theorem session_perform_self (x : SharedLedger) (t : Nat) (o : Operation) :
    (x.perform t o).session t = ((x.session t).perform o).2 := by
  simp [perform, session]

@[simp] theorem txs_perform_of_ne (x : SharedLedger) (h : u ≠ t) (o : Operation) :
    (x.perform u o).txs t = x.txs t :=
  Function.update_of_ne h.symm _ _

theorem ledger_perform {o : Operation} (h : o ≠ .commit) : (x.perform t o).ledger = x.ledger :=
  Session.ledger_perform h

theorem txs_perform_self (x : SharedLedger) (t : Nat) (o : Operation) :
    (x.perform t o).txs t = ((x.session t).perform o).2.tx :=
  Function.update_self _ _ _

/-- The buffered writes are the ones the transaction has not committed. -/
theorem get?_pending_after (l : Ledger) (name : Nat → String) (h : History) (t : Nat)
    (slot : Slot) : ((after l name h).txs t).pending.get? slot = h.uncommitted t slot := by
  induction h with
  | nil => rfl
  | cons e earlier ih =>
    obtain ⟨u, o⟩ := e
    unfold after History.uncommitted
    -- only the own operations of a transaction change what it has pending
    by_cases hu : u = t
    · subst hu
      rw [txs_perform_self, if_neg (not_not.2 rfl)]
      obtain ⟨ho, hs⟩ | ⟨w, ho, hw, hs⟩ | ⟨ho, hw, hs⟩ :=
        ((after l name earlier).session u).perform_cases o
      · rw [hs, if_pos ho]
        rfl
      · rw [hs, if_neg ho, hw]
        simp only [Session.record, OrderedMap.get?_insert, Std.compare_eq_iff_eq, ← ih]
        rfl
      · rw [hs, if_neg ho, hw]
        exact ih
    · rw [txs_perform_of_ne _ hu, if_pos hu, ih]

/-- The ledger holds what was committed last. -/
theorem get?_ledger_after (l : Ledger) (name : Nat → String) (h : History) (slot : Slot) :
    (after l name h).ledger.get? slot.contract slot.key = h.committed l slot := by
  induction h with
  | nil => rfl
  | cons e earlier ih =>
    obtain ⟨t, o⟩ := e
    unfold after History.committed
    by_cases ho : o = .commit
    · subst ho
      have hcommit : ((after l name earlier).perform t .commit).ledger =
          ((after l name earlier).session t).overlay := rfl
      rw [hcommit, Session.get?_overlay, Session.get?_eq_getD, if_pos rfl, ← ih,
        ← get?_pending_after l name]
      rfl
    · rw [ledger_perform ho, if_neg ho, ih]

/-- The list of writes is never shortened, not even by a commit. -/
theorem writes_after (l : Ledger) (name : Nat → String) (h : History) (t : Nat) :
    ((after l name h).txs t).writes = h.writes t := by
  induction h with
  | nil => rfl
  | cons e earlier ih =>
    obtain ⟨u, o⟩ := e
    unfold after History.writes
    -- only the own operations of a transaction are on its list
    by_cases hu : u = t
    · subst hu
      rw [txs_perform_self, if_pos rfl, ← ih]
      obtain ⟨rfl, hs⟩ | ⟨w, -, hw, hs⟩ | ⟨-, hw, hs⟩ :=
        ((after l name earlier).session u).perform_cases o
      · rw [hs]
        exact (List.append_nil _).symm
      · rw [hs, hw]
        rfl
      · rw [hs, hw]
        exact (List.append_nil _).symm
    · rw [txs_perform_of_ne _ hu, if_neg hu, ih, List.append_nil]

/-- **Up to its first commit, the buffered writes of a transaction are what its list of writes makes
of any ledger.**  (Other transactions may commit in the meantime.) -/
theorem overlay_after (hfirst : (t, .commit) ∉ h) (l' : Ledger) :
    Session.overlay ⟨l', (after l name h).txs t⟩ = l'.replay ((after l name h).txs t).writes := by
  induction h with
  | nil => rfl
  | cons e earlier ih =>
    obtain ⟨u, o⟩ := e
    obtain ⟨hne, hearlier⟩ := not_or.1 (mt List.mem_cons.2 hfirst)
    specialize ih hearlier
    unfold after
    -- a write that is recorded is replayed last
    by_cases hu : u = t
    · subst hu
      rw [txs_perform_self]
      obtain ⟨rfl, -⟩ | ⟨w, -, -, hs⟩ | ⟨-, -, hs⟩ :=
        ((after l name earlier).session u).perform_cases o
      · exact absurd rfl hne
      · rw [hs]
        exact (Session.overlay_record ⟨l', _⟩ w).trans (ih ▸ (Ledger.replay_append l' _ w).symm)
      · rw [hs]
        exact ih
    · rw [txs_perform_of_ne _ hu]
      exact ih

/-! ### What is kept from others -/

/-- Two ledgers in one state, with some transactions in one state. -/
def SameFor (known : List Nat) (x y : SharedLedger) : Prop :=
  x.ledger = y.ledger ∧ ∀ t ∈ known, x.txs t = y.txs t

theorem SameFor.session {known : List Nat} (h : SameFor known x y) (ht : t ∈ known) :
    x.session t = y.session t := by
  unfold SharedLedger.session
  rw [h.1, h.2 t ht]

/-- The transactions do the same to both. -/
theorem SameFor.perform {known : List Nat} (h : SameFor known x y) (ht : t ∈ known)
    (o : Operation) : SameFor known (x.perform t o) (y.perform t o) := by
  unfold SharedLedger.perform
  rw [h.session ht]
  refine ⟨rfl, fun u hu => ?_⟩
  dsimp only
  by_cases hut : u = t
  · subst hut
    rw [Function.update_self, Function.update_self]
  · rw [Function.update_of_ne hut, Function.update_of_ne hut]
    exact h.2 u hu

/-- Operations that no commit has made known can be left out. -/
theorem sameFor_kept (l : Ledger) (name : Nat → String) (h : History) (known : List Nat) :
    SameFor known (after l name h) (after l name (h.kept known)) := by
  induction h generalizing known with
  | nil => exact ⟨rfl, fun _ _ => rfl⟩
  | cons e earlier ih =>
    obtain ⟨t, o⟩ := e
    unfold History.kept
    by_cases ht : t ∈ known
    · rw [if_pos ht]
      exact (ih known).perform ht o
    rw [if_neg ht]
    by_cases ho : o = .commit
    · -- what the transaction has done up to here becomes known with this commit
      rw [if_pos ho]
      have hboth := (ih (t :: known)).perform List.mem_cons_self o
      exact ⟨hboth.1, fun u hu => hboth.2 u (List.mem_cons_of_mem _ hu)⟩
    · rw [if_neg ho]
      refine ⟨(ledger_perform ho).trans (ih known).1, fun u hu => ?_⟩
      have hne : t ≠ u := fun heq => ht (heq ▸ hu)
      exact (txs_perform_of_ne _ hne o).trans ((ih known).2 u hu)

/-- **What is not committed makes no difference to another transaction.** -/
theorem session_after_kept (l : Ledger) (name : Nat → String) (h : History) (t : Nat) :
    (after l name h).session t = (after l name (h.kept [t])).session t :=
  (sameFor_kept l name h [t]).session (List.mem_singleton_self t)

/-! ### Transactions and their history -/

theorem answer_get (l : Ledger) (name : Nat → String) (h : History) (t : Nat)
    (contract : String) (key : Bytes) :
    (after l name h).answer t (.get contract key) =
      .ok (.value ((h.uncommitted t ⟨contract, key⟩).getD (h.committed l ⟨contract, key⟩))) := by
  have hseen : ((after l name h).session t).get? contract key =
      (h.uncommitted t ⟨contract, key⟩).getD (h.committed l ⟨contract, key⟩) := by
    rw [Session.get?_eq_getD, ← get?_pending_after l name, ← get?_ledger_after l name]
    rfl
  exact congrArg (fun v => Except.ok (Reply.value v)) hseen

theorem answer_get_eq_some_iff (x : SharedLedger) (t : Nat) (contract : String) (key v : Bytes) :
    x.answer t (.get contract key) = .ok (.value (some v)) ↔
      (x.session t).get? contract key = some v :=
  ⟨fun h => by injection h with h; injection h, fun h => congrArg (Except.ok ∘ Reply.value) h⟩

theorem perform_commit_commit (x : SharedLedger) (t : Nat) :
    (x.perform t .commit).perform t .commit = x.perform t .commit := by
  have hs : (((x.perform t .commit).session t).perform .commit).2 =
      ((x.session t).perform .commit).2 := by
    rw [session_perform_self]
    exact (x.session t).commit_commit
  rw [perform, hs]
  exact congrArg (SharedLedger.mk _) (Function.update_idem _ _ _)

/-- **Every transaction sees its own writes over what is committed, and a commit makes them.**  A
single read tells the last write that the transaction has not committed, and without one the value
that was committed last.  The two kinds of scan give, in the order of the keys, the pairs that
single reads tell.  No answer depends on what another transaction has not committed.  The list of
writes has all writes in their order, the first commit does to the ledger what replaying that list
does, and a commit right after a commit changes nothing. -/
theorem transactions_overlay (l : Ledger) (name : Nat → String) (h : History) (t : Nat) :
    let x := after l name h
    (∀ contract key, x.answer t (.get contract key) =
      .ok (.value ((h.uncommitted t ⟨contract, key⟩).getD (h.committed l ⟨contract, key⟩)))) ∧
    (∀ contract start limit, ∃ pairs,
      x.answer t (.select contract start limit) = .ok (.pairs pairs) ∧
      (pairs.Pairwise fun a b => a.1 < b.1) ∧
      ∀ k v, (k, v) ∈ pairs ↔
        x.answer t (.get contract k) = .ok (.value (some v)) ∧ start ≤ k ∧ k < limit) ∧
    (∀ contract stem, ∃ pairs,
      x.answer t (.selectWithin contract stem) = .ok (.pairs pairs) ∧
      (pairs.Pairwise fun a b => a.1 < b.1) ∧
      ∀ k v, (k, v) ∈ pairs ↔
        x.answer t (.get contract k) = .ok (.value (some v)) ∧ stem <+: k) ∧
    (∀ o, x.answer t o = (after l name (h.kept [t])).answer t o) ∧
    (x.txs t).writes = h.writes t ∧
    ((t, .commit) ∉ h → (x.perform t .commit).ledger = x.ledger.replay (x.txs t).writes) ∧
    (x.perform t .commit).perform t .commit = x.perform t .commit := by
  intro x
  -- both scans find what the point reads find, each with a test of its own
  have hscan (contract : String) (test : Bytes → Bool) (k v : Bytes) :
      (k, v) ∈ (x.session t).scan contract test ↔
        x.answer t (.get contract k) = .ok (.value (some v)) ∧ test k = true := by
    rw [Session.mem_scan_iff, answer_get_eq_some_iff, and_comm]
  refine ⟨answer_get l name h t, fun contract start limit => ?_, fun contract stem => ?_,
    fun o => ?_, writes_after l name h t, fun hfirst => ?_, perform_commit_commit x t⟩
  · refine ⟨_, rfl, Session.ascending_scan _ _ _, fun k v => ?_⟩
    rw [← Bytes.isLE_compare_iff, ← Bytes.isLT_compare_iff, ← Bool.and_eq_true]
    exact hscan contract _ k v
  · refine ⟨_, rfl, Session.ascending_scan _ _ _, fun k v => ?_⟩
    rw [← List.isPrefixOf_iff_prefix]
    exact hscan contract _ k v
  · unfold answer
    rw [session_after_kept l name h t]
  · exact overlay_after hfirst x.ledger

/-- Between the operations of a transaction that has not committed yet another one commits, and
writes on. -/
theorem transactions_overlay_interleaved :
    let h : History := [(1, .put "counter" [1] [8]), (0, .delete "counter" [2]), (1, .commit),
      (1, .put "counter" [2] [9]), (0, .put "counter" [1] [7])]
    let x := after {} (fun _ => "tx") h
    (0, .commit) ∉ h ∧
    x.answer 0 (.get "counter" [1]) = .ok (.value (some [7])) ∧
    (x.perform 0 .commit).ledger =
      x.ledger.replay [⟨"counter", [1], some [7]⟩, ⟨"counter", [2], none⟩] := by
  intro h x
  have hfirst : (0, .commit) ∉ h := by decide
  obtain ⟨hget, -, -, -, -, hcommit, -⟩ := transactions_overlay {} (fun _ => "tx") h 0
  exact ⟨hfirst, hget "counter" [1], hcommit hfirst⟩

end SharedLedger

end ContractHost
