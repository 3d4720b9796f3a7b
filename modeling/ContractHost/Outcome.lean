import ContractHost.Bytes

/-!
# What an invocation comes to

An invocation ends with a code, a payload, a message, the gas it and its callers have used, the
events that were emitted, and the scheduling class of its transaction.

## Main definitions

* `TxClass`, `Event`, `Outcome` — the parts of an outcome.
* `Outcome.recordError` — marks an outcome as failed and adds to its message.
-/

namespace ContractHost

/-- How a transaction is scheduled, by the kind of state access it made. -/
inductive TxClass
  /-- Single keys only. -/
  | normal
  /-- At least one range of keys was opened. -/
  | iterator
  deriving Repr, DecidableEq, Inhabited

/-- The class of a transaction with two parts. -/
def TxClass.merge : TxClass → TxClass → TxClass
  | .normal, .normal => .normal
  | _, _ => .iterator

theorem TxClass.merge_eq_iterator_iff {a b : TxClass} :
    a.merge b = .iterator ↔ a = .iterator ∨ b = .iterator := by
  cases a <;> cases b <;> simp [merge]

/-- How a class is called in reports. -/
def TxClass.name : TxClass → String
  | .normal => "normal"
  | .iterator => "iterator"

/-- Something a contract announces. -/
structure Event where
  /-- What it is about. -/
  topic : String
  /-- The transaction in which it was emitted. -/
  txId : String
  /-- The name of the contract that emitted it. -/
  contractName : String
  /-- The version of the contract that emitted it. -/
  contractVersion : String
  /-- The texts it carries. -/
  data : List String
  deriving Repr, DecidableEq, Inhabited

/-- What an invocation comes to. -/
structure Outcome where
  /-- Zero on success. -/
  code : UInt32 := 0
  /-- The bytes that the contract returned. -/
  payload : Bytes := []
  /-- What went wrong, empty if nothing did. -/
  message : String := ""
  /-- The gas used by the invocation and by the callers above it. -/
  gasUsed : UInt64 := 0
  /-- The events emitted by the invocation and by those it called. -/
  events : List Event := []
  /-- The scheduling class, including nested calls. -/
  txClass : TxClass := .normal
  deriving Repr, DecidableEq, Inhabited

namespace Outcome

/-- The code of a success. -/
def success : UInt32 := 0

/-- The code of a failure. -/
def failure : UInt32 := 1

/-- The invocation succeeded. -/
def isSuccess (o : Outcome) : Bool :=
  o.code = success

/-- A message with one more entry: a label, the text, and a separator after earlier entries. -/
def addEntry (message label text : String) : String :=
  (if message.isEmpty then label else message ++ ". " ++ label) ++ text

/-- Marks the outcome as failed and adds an error to its message. -/
def recordError (o : Outcome) (text : String) : Outcome :=
  { o with message := addEntry o.message "error message: " text, code := failure }

end Outcome

end ContractHost
