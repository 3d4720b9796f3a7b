import ContractHost.Error
import ContractHost.Ledger.Basic

/-!
# Access to a ledger

What the host needs from a ledger, whatever keeps it.  Every operation may be refused, and may
crash.  The relational operations concern tables of rows that the ledger keeps beside its keys; a
ledger without such tables refuses them.

## Main definitions

* `Row` — a row of a table.
* `LedgerFault` — how an operation fails.
* `LedgerAccess` — the operations of a ledger of type `τ`.
* `Cursor` — a walk over a list that an operation gave.
* `LookingAhead` — a walk that looks ahead to tell whether there is a next element.
-/

namespace ContractHost

/-- A row of a table: cells by column. -/
abbrev Row := OrderedMap String Bytes

/-- How an operation of a ledger fails. -/
inductive LedgerFault
  /-- The ledger refuses. -/
  | refused (e : LedgerError)
  /-- The ledger crashes. -/
  | crashed (message : String)
  deriving Repr, DecidableEq, Inhabited

/-- The operations of a ledger within one transaction. -/
class LedgerAccess (τ : Type) where
  /-- The name of the transaction. -/
  txId : τ → String
  /-- The value of a key. -/
  get : τ → (contract : String) → (key : Bytes) → Except LedgerFault (Option Bytes)
  /-- Sets the value of a key. -/
  put : τ → (contract : String) → (key value : Bytes) → Except LedgerFault τ
  /-- Removes the value of a key. -/
  delete : τ → (contract : String) → (key : Bytes) → Except LedgerFault τ
  /-- The pairs with keys from a start on and below a limit. -/
  select : τ → (contract : String) → (start limit : Bytes) → Except LedgerFault (List Pair)
  /-- The pairs whose keys begin with a stem. -/
  selectWithin : τ → (contract : String) → (stem : Bytes) → Except LedgerFault (List Pair)
  /-- Changes rows, and tells how many. -/
  executeUpdate : τ → (contract sql : String) → Except LedgerFault Int32 × τ
  /-- Changes tables. -/
  executeDdl : τ → (contract sql : String) → Except LedgerFault Unit × τ
  /-- Asks for rows. -/
  query : τ → (contract sql : String) → Except LedgerFault (List Row) × τ
  /-- Asks for one row. -/
  queryOne : τ → (contract sql : String) → Except LedgerFault (Option Row) × τ
  /-- The deployed contract of a name. -/
  getContract : τ → (name : String) → Except LedgerFault (ContractId × Code)

/-- The ledger has no such operation. -/
def unsupported {α : Type} (operation : String) : Except LedgerFault α :=
  .error (.refused (.unsupported operation))

/-- A ledger in memory.  It has no tables. -/
instance : LedgerAccess Session where
  txId s := s.tx.id
  get s contract key := .ok (s.get? contract key)
  put s contract key value := .ok (s.record contract key (some value))
  delete s contract key := .ok (s.record contract key none)
  select s contract start limit := .ok (s.select contract start limit)
  selectWithin s contract stem := .ok (s.selectWithin contract stem)
  executeUpdate s _ _ := (unsupported "execute_update", s)
  executeDdl s _ _ := (unsupported "execute_ddl", s)
  query s _ _ := (unsupported "execute_query", s)
  queryOne s _ _ := (unsupported "execute_query_one", s)
  getContract s name :=
    match s.contract? name with
    | some c => .ok c
    | none => .error (.refused (.contractNotFound name))

/-- A walk over a list: the elements that are still to come. -/
structure Cursor (α : Type) where
  /-- The elements that are still to come. -/
  remaining : List α
  deriving Repr, DecidableEq, Inhabited

namespace Cursor

variable {α : Type}

/-- There is a next element. -/
def hasNext (c : Cursor α) : Bool :=
  !c.remaining.isEmpty

/-- The next element, and the walk behind it. -/
def next? (c : Cursor α) : Option (α × Cursor α) :=
  match c.remaining with
  | [] => none
  | a :: rest => some (a, ⟨rest⟩)

end Cursor

/-- A walk that can only be asked for its next element: whoever wants to know whether there is one
has to take it and put it aside. -/
structure LookingAhead (α : Type) where
  /-- The element that was put aside. -/
  aside : Option α := none
  /-- The elements behind it. -/
  rest : List α
  deriving Repr, DecidableEq, Inhabited

namespace LookingAhead

variable {α : Type}

/-- The next element is put aside, if there is one. -/
def look (w : LookingAhead α) : LookingAhead α :=
  match w.aside, w.rest with
  | none, a :: rest => ⟨some a, rest⟩
  | none, [] => w
  | some _, _ => w

/-- There is a next element.  It has to be put aside to find out. -/
def hasNext (w : LookingAhead α) : Bool :=
  w.look.aside.isSome

/-- The next element, which may have been put aside, and the walk behind it. -/
def next? (w : LookingAhead α) : Option (α × LookingAhead α) :=
  match w.aside, w.rest with
  | none, a :: rest => some (a, ⟨none, rest⟩)
  | none, [] => none
  | some a, rest => some (a, ⟨none, rest⟩)

end LookingAhead

end ContractHost
