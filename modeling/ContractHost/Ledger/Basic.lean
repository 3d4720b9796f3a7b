import ContractHost.Contract
import ContractHost.Guest.Script
import ContractHost.OrderedMap

/-!
# The ledger

The ledger keeps, for every contract name, a map from keys to values, and the deployed contracts
by name.  A transaction buffers its writes over the ledger: it reads its own writes first, and its
writes reach the ledger when it is committed.

## Main definitions

* `Slot` — a key of a contract; slots are ordered by contract name and then by key.
* `Ledger`, `Ledger.deploy` — committed state and deployed contracts.
* `Transaction`, `Session` — buffered writes, and a transaction together with its ledger.
* `Session.get?`, `record`, `select`, `selectWithin`, `commit` — what a transaction does.
-/

namespace ContractHost

open Std

/-- A key of a contract. -/
structure Slot where
  /-- The name of the contract. -/
  contract : String
  /-- The key. -/
  key : Bytes
  deriving Repr, DecidableEq, Inhabited

instance : Ord Slot := ⟨compareLex (compareOn Slot.contract) (compareOn Slot.key)⟩

instance : TransOrd Slot :=
  inferInstanceAs (TransCmp (compareLex (compareOn Slot.contract) (compareOn Slot.key)))

instance : LawfulEqOrd Slot where
  eq_of_compare {a b} h := by
    obtain ⟨hc, hk⟩ := Ordering.then_eq_eq.1 h
    cases a; cases b
    simp_all [compareOn]

/-- Committed state and deployed contracts. -/
structure Ledger where
  /-- The committed values. -/
  state : OrderedMap Slot Bytes := ∅
  /-- The deployed contracts by name. -/
  deployed : OrderedMap String (ContractId × Code) := ∅
  deriving Inhabited

namespace Ledger

/-- Deploys a contract in place of any other one of its name. -/
def deploy (l : Ledger) (c : ContractId) (code : Code) : Ledger :=
  { l with deployed := l.deployed.insert c.name (c, code) }

/-- The committed value of a key. -/
def get? (l : Ledger) (contract : String) (key : Bytes) : Option Bytes :=
  l.state.get? ⟨contract, key⟩

/-- Sets or removes the value of a slot. -/
def apply (l : Ledger) (slot : Slot) (value : Option Bytes) : Ledger :=
  match value with
  | some v => { l with state := l.state.insert slot v }
  | none => { l with state := l.state.erase slot }

theorem get?_apply (l : Ledger) (slot : Slot) (value : Option Bytes) (contract : String)
    (key : Bytes) : (l.apply slot value).get? contract key =
      if slot = ⟨contract, key⟩ then value else l.get? contract key := by
  cases value <;> simp [apply, get?, OrderedMap.get?_insert, OrderedMap.get?_erase]

end Ledger

/-- A recorded write: a new value, or a removal. -/
structure Write where
  /-- The name of the contract. -/
  contract : String
  /-- The key. -/
  key : Bytes
  /-- The new value, if there is one. -/
  value : Option Bytes
  deriving Repr, DecidableEq, Inhabited

/-- The writes of a transaction. -/
structure Transaction where
  /-- The name of the transaction. -/
  id : String
  /-- The last write to each slot that is not committed yet. -/
  pending : OrderedMap Slot (Option Bytes) := ∅
  /-- All writes in their order. -/
  writes : List Write := []
  deriving Inhabited

/-- A transaction together with its ledger. -/
structure Session where
  /-- The ledger. -/
  ledger : Ledger
  /-- The transaction. -/
  tx : Transaction
  deriving Inhabited

/-- A key and its value. -/
abbrev Pair := Bytes × Bytes

namespace Session

/-- The value of a key as the transaction sees it. -/
def get? (s : Session) (contract : String) (key : Bytes) : Option Bytes :=
  match s.tx.pending.get? ⟨contract, key⟩ with
  | some value => value
  | none => s.ledger.get? contract key

/-- Records a write. -/
def record (s : Session) (contract : String) (key : Bytes) (value : Option Bytes) : Session :=
  { s with tx := { s.tx with
      pending := s.tx.pending.insert ⟨contract, key⟩ value
      writes := s.tx.writes ++ [⟨contract, key, value⟩] } }

theorem get?_record (s : Session) (contract contract' : String) (key key' : Bytes)
    (value : Option Bytes) : (s.record contract key value).get? contract' key' =
      if contract = contract' ∧ key = key' then value else s.get? contract' key' := by
  by_cases h : contract = contract' ∧ key = key' <;>
    simp [record, get?, OrderedMap.get?_insert, h]

/-- What a scan has met so far, with one buffered write put over it.  A write to another contract is
passed over, and so is one to a key that fails the test. -/
def merge (contract : String) (test : Bytes → Bool) (met : OrderedMap Bytes Bytes) (slot : Slot)
    (value : Option Bytes) : OrderedMap Bytes Bytes :=
  if slot.contract = contract && test slot.key then
    match value with
    | some v => met.insert slot.key v
    | none => met.erase slot.key
  else met

/-- The pairs of a contract whose keys satisfy a test, in the order of their keys: the committed
ones, with the buffered writes put over them one by one. -/
def scan (s : Session) (contract : String) (test : Bytes → Bool) : List Pair :=
  let committed := s.ledger.state.entries.filter fun e =>
    e.1.contract = contract && test e.1.key
  let met := OrderedMap.ofList (committed.map fun e => (e.1.key, e.2))
  (s.tx.pending.entries.foldl (fun met e => merge contract test met e.1 e.2) met).entries

/-- The pairs of a contract with keys from `start` on and below `limit`. -/
def select (s : Session) (contract : String) (start limit : Bytes) : List Pair :=
  s.scan contract fun k => (compare start k).isLE && (compare k limit).isLT

/-- The pairs of a contract whose keys begin with `stem`. -/
def selectWithin (s : Session) (contract : String) (stem : Bytes) : List Pair :=
  s.scan contract fun k => stem.isPrefixOf k

/-- The deployed contract of a name. -/
def contract? (s : Session) (name : String) : Option (ContractId × Code) :=
  s.ledger.deployed.get? name

/-- Moves the buffered writes into the ledger one by one.  The list of writes stays. -/
def commit (s : Session) : Session :=
  { ledger := s.tx.pending.entries.foldl (fun l e => l.apply e.1 e.2) s.ledger
    tx := { s.tx with pending := ∅ } }

end Session

end ContractHost
