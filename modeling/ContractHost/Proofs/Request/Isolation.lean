import ContractHost.Proofs.Ledger.Overlay
import ContractHost.Proofs.Request.Paired

/-!
# Contracts keep to themselves

All contracts share one ledger and one transaction.  A request reaches them under the name of the
contract that makes it, and so it can neither change nor read what is kept under another name.

Both are statements about two runs.  The requests of an invocation are served on a ledger and on any
other one that keeps the same under its contract's name; what goes together is what has come of the
two ledgers by the same writes.

## Main definitions

* `Session.Added` — a transaction after some writes of one contract.
* `Session.sideBySide` — two ledgers that keep the same of a contract, as the runs go on.
* `Desk.Isolated` — what is done on a desk neither changes nor reads the state of other contracts.

## Main results

* `requests_isolated` — **no request does, and no sequence of requests.**
-/

namespace ContractHost

open Std

namespace Session

variable {contract : String} {added : List Write} {s s' t t' : Session}

/-- The second transaction is the first one with writes of a contract added.  Nothing else has
changed. -/
structure Added (contract : String) (added : List Write) (s t : Session) : Prop where
  /-- Nothing is committed, and nothing is deployed. -/
  ledger : t.ledger = s.ledger
  /-- The transaction keeps its name. -/
  id : t.tx.id = s.tx.id
  /-- The pending writes of other contracts are what they were. -/
  foreign : ∀ slot, slot.contract ≠ contract → t.tx.pending.get? slot = s.tx.pending.get? slot
  /-- The writes are recorded after those that were there. -/
  writes : t.tx.writes = s.tx.writes ++ added
  /-- All of them are writes of the contract. -/
  own : ∀ w ∈ added, w.contract = contract

theorem Added.refl (contract : String) (s : Session) : Added contract [] s s :=
  ⟨rfl, rfl, fun _ _ => rfl, (List.append_nil _).symm, nofun⟩

/-- One more write of the contract. -/
theorem Added.record (h : Added contract added s t) (key : Bytes) (value : Option Bytes) :
    Added contract (added ++ [⟨contract, key, value⟩]) s (t.record contract key value) where
  ledger := h.ledger
  id := h.id
  foreign slot hslot := by
    have hother : compare (⟨contract, key⟩ : Slot) slot ≠ .eq := fun heq =>
      hslot (congrArg Slot.contract (LawfulEqOrd.eq_of_compare heq)).symm
    unfold Session.record
    rw [OrderedMap.get?_insert, if_neg hother, h.foreign slot hslot]
  writes := by
    unfold Session.record
    rw [h.writes, List.append_assoc]
  own w hw := by
    rcases List.mem_append.1 hw with hw | hw
    · exact h.own w hw
    · rw [List.mem_singleton.1 hw]

/-! ### Two ledgers -/

/-- Two ledgers to which the same writes of a contract have been added, and that keep the same under
its name. -/
def Level (contract : String) (s s' t t' : Session) : Prop :=
  ∃ added, Added contract added s t ∧ Added contract added s' t' ∧ t.AgreesOn contract t'

theorem Level.record (h : Level contract s s' t t') (key : Bytes) (value : Option Bytes) :
    Level contract s s' (t.record contract key value) (t'.record contract key value) := by
  obtain ⟨added, hfirst, hsecond, hagree⟩ := h
  exact ⟨_, hfirst.record key value, hsecond.record key value, hagree.record key value⟩

theorem Level.get? (h : Level contract s s' t t') (key : Bytes) :
    t.get? contract key = t'.get? contract key := by
  obtain ⟨added, -, -, hagree⟩ := h
  exact hagree.get? key

theorem Level.id (h : Level contract s s' t t') : t.tx.id = t'.tx.id := by
  obtain ⟨added, -, -, hagree⟩ := h
  exact hagree.id

/-- An invocation of one contract on two ledgers side by side. -/
def sideBySide (id : ContractId) (s s' : Session) : Pairing Session where
  Same c c' := c = c' ∧ c.contract = id
  Level := Level id.name s s'
  Journals := Eq
  Owns name := name = id.name
  same {c c'} h := ⟨c.instanceId, h.1.symm⟩
  owns h := congrArg ContractId.name h.2
  own {c c' f} h hf := ⟨congrArg f h.1, (hf.contract c).trans h.2⟩
  log h line := congrArg (· ++ [line]) h
  txId h := h.id
  get := by rintro t t' _ key rfl h; exact congrArg Except.ok (h.get? key)
  put := by rintro t t' _ key value rfl h; exact .ok (h.record key value)
  delete := by rintro t t' _ key rfl h; exact .ok (h.record key none)
  -- the pairs of a contract are those that are seen of it one by one
  select := by rintro t t' _ start limit rfl h; exact congrArg Except.ok (scan_congr h.get?)
  selectWithin := by rintro t t' _ stem rfl h; exact congrArg Except.ok (scan_congr h.get?)
  executeUpdate _ h := ⟨rfl, h⟩
  executeDdl _ h := ⟨rfl, h⟩
  query _ h := ⟨rfl, h⟩
  queryOne _ h := ⟨rfl, h⟩

end Session

/-! ### Isolation -/

namespace Desk

variable {α : Type}

/-- What is done on a desk neither changes nor reads the state of other contracts.  It adds writes
of the desk's contract to the transaction and leaves all else in the ledger as it was.  On every
ledger that keeps the same under the contract's name it gives the same, comes to the same context
and journal, and adds the same writes. -/
def Isolated (act : Desk Session → α × Desk Session) : Prop :=
  ∀ d : Desk Session, ∃ added : List Write,
    (act d).2.context.contract = d.context.contract ∧
    d.ledger.Added d.context.contract.name added (act d).2.ledger ∧
    ∀ s' : Session, d.ledger.AgreesOn d.context.contract.name s' →
      (act { d with ledger := s' }).1 = (act d).1 ∧
      (act { d with ledger := s' }).2.context = (act d).2.context ∧
      (act { d with ledger := s' }).2.journal = (act d).2.journal ∧
      s'.Added d.context.contract.name added (act { d with ledger := s' }).2.ledger ∧
      (act d).2.ledger.AgreesOn d.context.contract.name (act { d with ledger := s' }).2.ledger

/-- What comes to the same on all ledgers that are side by side is isolated. -/
theorem isolated_of_paired {act : Desk Session → α × Desk Session}
    (h : ∀ {id s s' d d'}, Desk.Paired (Session.sideBySide id s s') d d' →
      (act d).1 = (act d').1 ∧ Desk.Paired (Session.sideBySide id s s') (act d).2 (act d').2) :
    Isolated act := by
  intro d
  -- at the start nothing has been added to either ledger
  have hstart {s' : Session} (hagree : d.ledger.AgreesOn d.context.contract.name s') :
      Desk.Paired (Session.sideBySide d.context.contract d.ledger s') d { d with ledger := s' } :=
    ⟨⟨rfl, rfl⟩, ⟨[], .refl _ _, .refl _ _, hagree⟩, rfl⟩
  obtain ⟨-, halone⟩ := h (hstart (.refl _ d.ledger))
  obtain ⟨added, hadded, -, -⟩ := halone.ledger
  refine ⟨added, halone.context.2, hadded, fun s' hagree => ?_⟩
  obtain ⟨hresult, hend⟩ := h (hstart hagree)
  obtain ⟨added', hfirst, hsecond, hafter⟩ := hend.ledger
  -- the writes can be read off the first run, which is the same in both pairs of runs
  have hsame : added' = added := List.append_cancel_left (hfirst.writes.symm.trans hadded.writes)
  exact ⟨hresult.symm, hend.context.1.symm, hend.journal.symm, hsame ▸ hsecond, hafter⟩

end Desk

/-- **No request of a contract changes or reads the state of other contracts, and no sequence of
requests does.** -/
theorem requests_isolated (crypto : CryptoProvider) :
    (∀ name body, Desk.Isolated fun d => d.run (serve crypto name body)) ∧
      ∀ requests, Desk.Isolated (Desk.handleAll crypto requests) := by
  constructor
  · refine fun name body => Desk.isolated_of_paired fun {id s s' d d'} h => ?_
    obtain ⟨hreply, hdesk⟩ := (Serving.paired_serve crypto name body).fromAny h
    exact ⟨Serving.eq_of_agree hreply, hdesk⟩
  · exact fun requests => Desk.isolated_of_paired fun h => h.handleAll crypto requests

end ContractHost
