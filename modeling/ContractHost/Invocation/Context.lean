import ContractHost.Ledger.Access
import ContractHost.Outcome

/-!
# Invocations under way

The host keeps a context for every invocation under way: what was called, the outcome so far, the
bytes that wait to be fetched, and the open cursors.  Cursors over pairs and cursors over rows are
numbered by one counter.

## Main definitions

* `Context` — an invocation under way.
* `Context.recordError`, `setSuccess`, `setError`, `takeOutcome` — the outcome so far.
* `Context.cache`, `takeCached` — bytes that wait to be fetched.
* `Context.openPairs`, `pairs`, `closePairs` and the same for rows — cursors.
* `LogLine` — a line logged by a contract.
-/

namespace ContractHost

/-- An invocation under way. -/
structure Context where
  /-- The handle under which it is registered. -/
  handle : Int32 := 0
  /-- The contract. -/
  contract : ContractId
  /-- The method. -/
  method : String
  /-- How deep the call is nested. -/
  depth : UInt32 := 0
  /-- The number of the instance that serves it, if there is one. -/
  instanceId : Option Nat := none
  /-- The parameters. -/
  params : OrderedMap String Bytes := ∅
  /-- The outcome so far. -/
  outcome : Outcome := {}
  /-- The bytes that wait to be fetched. -/
  cached : Option Bytes := none
  /-- The open cursors over pairs. -/
  pairCursors : OrderedMap Int32 (LookingAhead Pair) := ∅
  /-- The open cursors over rows. -/
  rowCursors : OrderedMap Int32 (LookingAhead Row) := ∅
  /-- The number of the next cursor. -/
  nextCursor : Int32 := 0
  /-- The lines it has logged. -/
  logs : List String := []
  deriving Inhabited

/-- A line logged by a contract. -/
inductive LogLine
  /-- A line of an invocation. -/
  | bound (txId : String) (contract : ContractId) (handle : Int32) (line : String)
  /-- A line of an instance that serves no invocation. -/
  | unbound (line : String)
  deriving DecidableEq, Inhabited

namespace Context

/-- The context with its handle, its contract, its method and its depth, for diagnostics. -/
def describe (c : Context) : String :=
  "InvocationContext \x7b handle: " ++ toString c.handle.toInt ++ ", contract: " ++
    c.contract.describe ++ ", method: " ++ Quoted.quote c.method ++ ", depth: " ++
    toString c.depth ++ ", .. \x7d"

/-! ### The outcome so far -/

/-- Marks the invocation as failed and adds an error to its message. -/
def recordError (c : Context) (text : String) : Context :=
  { c with outcome := c.outcome.recordError text }

/-- Sets the payload, unless the invocation has failed; says whether it did. -/
def setSuccess (c : Context) (payload : Bytes) : Bool × Context :=
  if c.outcome.isSuccess then (true, { c with outcome := { c.outcome with payload } })
  else (false, c)

/-- Marks the invocation as failed and adds the contract's own words to its message. -/
def setError (c : Context) (text : String) : Context :=
  { c with outcome := { c.outcome with
      message := Outcome.addEntry c.outcome.message "contract message: " text
      code := Outcome.failure } }

/-- Takes a part of the transaction into account for the scheduling class. -/
def mergeTxClass (c : Context) (part : TxClass) : Context :=
  { c with outcome := { c.outcome with txClass := c.outcome.txClass.merge part } }

/-- Adds events. -/
def pushEvents (c : Context) (events : List Event) : Context :=
  { c with outcome := { c.outcome with events := c.outcome.events ++ events } }

/-- Takes the outcome out and leaves an empty one. -/
def takeOutcome (c : Context) : Outcome × Context :=
  (c.outcome, { c with outcome := {} })

/-! ### Bytes that wait to be fetched -/

/-- Keeps bytes to be fetched in place of any others, and gives their length. -/
def cache (c : Context) (b : Bytes) : Nat × Context :=
  (b.length, { c with cached := some b })

/-- Takes the bytes that wait, none if there are none. -/
def takeCached (c : Context) : Bytes × Context :=
  (c.cached.getD [], { c with cached := none })

/-- Drops the bytes that wait. -/
def clearCache (c : Context) : Context :=
  { c with cached := none }

/-! ### Cursors -/

/-- Opens a cursor over pairs, and gives its number. -/
def openPairs (c : Context) (pairs : List Pair) : Int32 × Context :=
  (c.nextCursor,
    { c with
      pairCursors := c.pairCursors.insert c.nextCursor { rest := pairs }
      nextCursor := c.nextCursor + 1 })

/-- Opens a cursor over rows, and gives its number. -/
def openRows (c : Context) (rows : List Row) : Int32 × Context :=
  (c.nextCursor,
    { c with
      rowCursors := c.rowCursors.insert c.nextCursor { rest := rows }
      nextCursor := c.nextCursor + 1 })

/-- The open cursor over pairs with a number. -/
def pairs (c : Context) (index : Int32) : Except SyscallError (LookingAhead Pair) :=
  match c.pairCursors.get? index with
  | some cursor => .ok cursor
  | none => .error (.unknownCursor index)

/-- The open cursor over rows with a number. -/
def rows (c : Context) (index : Int32) : Except SyscallError (LookingAhead Row) :=
  match c.rowCursors.get? index with
  | some cursor => .ok cursor
  | none => .error (.unknownCursor index)

/-- Whether a cursor over pairs has a next element.  The cursor looks ahead. -/
def hasPair (c : Context) (index : Int32) : Except SyscallError (Bool × Context) := do
  let cursor ← c.pairs index
  pure (cursor.hasNext, { c with pairCursors := c.pairCursors.insert index cursor.look })

/-- Whether a cursor over rows has a next element.  The cursor looks ahead. -/
def hasRow (c : Context) (index : Int32) : Except SyscallError (Bool × Context) := do
  let cursor ← c.rows index
  pure (cursor.hasNext, { c with rowCursors := c.rowCursors.insert index cursor.look })

/-- The next element of a cursor over pairs, if there is one. -/
def nextPair (c : Context) (index : Int32) : Except SyscallError (Option Pair × Context) := do
  match (← c.pairs index).next? with
  | none => pure (none, c)
  | some (pair, cursor) =>
    pure (some pair, { c with pairCursors := c.pairCursors.insert index cursor })

/-- The next element of a cursor over rows, if there is one. -/
def nextRow (c : Context) (index : Int32) : Except SyscallError (Option Row × Context) := do
  match (← c.rows index).next? with
  | none => pure (none, c)
  | some (row, cursor) =>
    pure (some row, { c with rowCursors := c.rowCursors.insert index cursor })

/-- Closes a cursor over pairs. -/
def closePairs (c : Context) (index : Int32) : Except SyscallError Context := do
  let _ ← c.pairs index
  pure { c with pairCursors := c.pairCursors.erase index }

/-- Closes a cursor over rows. -/
def closeRows (c : Context) (index : Int32) : Except SyscallError Context := do
  let _ ← c.rows index
  pure { c with rowCursors := c.rowCursors.erase index }

/-- Adds a line to the lines logged. -/
def pushLog (c : Context) (line : String) : Context :=
  { c with logs := c.logs ++ [line] }

end Context

end ContractHost
