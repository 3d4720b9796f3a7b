import ContractHost.Invocation.Context
import ContractHost.Packet.Decoding
import ContractHost.Packet.Lookup
import ContractHost.Request.Crypto
import ContractHost.Request.Method
import ContractHost.Request.StateKey

/-!
# Serving requests

A request is served on the context of the invocation that makes it, on the ledger, and on the
journal of logged lines.  What was changed before a request failed stays changed.

Three requests take their body as it is.  For all others the name is looked at first, then the
body has to be a packet, and then the items are asked for in the order in which they are needed;
the place for the result is asked for last, after the work is done.

## Main definitions

* `Reply` — what becomes of the contract's memory.
* `Desk`, `Serving` — what a request is served on, and serving as such.
* `serveMethod`, `serve` — requests that concern one invocation only.
* `Desk.handle` — serving a request and recording its error.
-/

namespace ContractHost

/-- What the contract gets for a request that does not fail. -/
inductive Reply
  /-- Success, and nothing to write. -/
  | done
  /-- Refusal without an error. -/
  | rejected
  /-- Success, and bytes to write to a place in the contract's memory. -/
  | write (ptr : Int32) (bytes : Bytes)
  deriving Repr, DecidableEq, Inhabited

namespace Reply

/-- Writes a number. -/
def int32 (ptr : Int32) (n : Int32) : Reply :=
  .write ptr (Bytes.ofInt32 n)

/-- Writes a length; one beyond the range of numbers counts as the greatest number. -/
def length (ptr : Int32) (len : Nat) : Reply :=
  int32 ptr (if len < 0x80000000 then Int32.ofNat len else Int32.maxValue)

end Reply

/-- What a request is served on. -/
structure Desk (τ : Type) where
  /-- The invocation that makes the request. -/
  context : Context
  /-- The ledger. -/
  ledger : τ
  /-- The lines logged by all contracts. -/
  journal : List LogLine := []

/-- Serving a request: it gives a value or fails, and leaves the desk changed either way. -/
abbrev Serving (τ α : Type) := ExceptT RequestFault (StateM (Desk τ)) α

namespace Serving

variable {τ α : Type}

/-- Fails for a reason that is reported. -/
def fail (e : SyscallError) : Serving τ α :=
  throw (.failed e)

/-- Takes what a lookup gives. -/
def ofPacket : Except PacketError α → Serving τ α
  | .ok a => pure a
  | .error e => fail (.packet e)

/-- Takes what a cursor gives. -/
def ofCursor : Except SyscallError α → Serving τ α
  | .ok a => pure a
  | .error e => fail e

/-- The fault of a request whose work on the ledger failed. -/
def faultOf : LedgerFault → RequestFault
  | .refused e => .failed (.ledger e)
  | .crashed message => .crashed message

/-- Takes what the ledger gives. -/
def ofLedger : Except LedgerFault α → Serving τ α
  | .ok a => pure a
  | .error e => throw (faultOf e)

/-- The invocation. -/
def context : Serving τ Context := do
  pure (← get).context

/-- The ledger. -/
def ledger : Serving τ τ := do
  pure (← get).ledger

/-- The name under which the invocation's contract keeps its state. -/
def contractName : Serving τ String := do
  pure (← context).contract.name

/-- Changes the invocation. -/
def update (f : Context → Context) : Serving τ Unit :=
  modify fun d => { d with context := f d.context }

/-- Changes the invocation and takes what the change gives. -/
def updateGet (f : Context → α × Context) : Serving τ α :=
  modifyGet fun d => let (a, context) := f d.context; (a, { d with context })

/-- Replaces the ledger. -/
def putLedger (ledger : τ) : Serving τ Unit :=
  modify fun d => { d with ledger }

/-- Asks a table of the ledger, which may change by that, and takes what it gives. -/
def ofTable (answer : Except LedgerFault α × τ) : Serving τ α := do
  putLedger answer.2
  ofLedger answer.1

/-- The place for the result. -/
def place (body : Packet) : Serving τ Int32 :=
  ofPacket (body.getInt32 "value_ptr")

/-- The number of a cursor. -/
def cursorIndex (body : Packet) : Serving τ Int32 :=
  ofPacket (body.getInt32 "rs_index")

/-- The stored form of a key and a field that need not be there. -/
def stateKey (body : Packet) (key field : String) : Serving τ Bytes := do
  let key ← ofPacket (body.getText key)
  let field ← ofPacket (body.getTextOrEmpty field)
  pure (StateKey.join key field)

/-- Keeps bytes to be fetched, and replies with their length. -/
def replyCached (body : Packet) (b : Bytes) : Serving τ Reply := do
  let len ← updateGet (·.cache b)
  pure (.length (← place body) len)

/-- A cursor has no next element. -/
def exhausted (index : Int32) : Serving τ α :=
  fail (.invalidArgument s!"cursor {index.toInt} has no next element")

end Serving

open Serving

variable {τ : Type} [LedgerAccess τ]

/-- Logs a line of an invocation. -/
def Desk.log (d : Desk τ) (line : String) : Desk τ :=
  { d with
    context := d.context.pushLog line
    journal := d.journal ++
      [.bound (LedgerAccess.txId d.ledger) d.context.contract d.context.handle line] }

/-! ### Events -/

/-- How large an event may be. -/
structure EventLimits where
  /-- The longest topic, in bytes. -/
  topicLength : Nat := 255
  /-- The most texts. -/
  dataCount : Nat := 16

/-- How large an event may be. -/
def eventLimits : EventLimits := {}

/-- The event that a body describes: its topic, and all texts under other keys. -/
def eventOf (contract : ContractId) (txId : String) (body : Packet) :
    Except SyscallError Event := do
  let topic ← (body.getText "topic").mapError SyscallError.packet
  let length := (Utf8.encode topic).length
  if length = 0 ∨ eventLimits.topicLength < length then
    throw (.invalidArgument
      s!"event topic length must be 1..={eventLimits.topicLength}, got {length}")
  let data := body.items.filterMap fun i =>
    match i.value with
    | .text s => if i.key = "topic" then none else some s
    | _ => none
  if eventLimits.dataCount < data.length then
    throw (.invalidArgument
      s!"event data count must be at most {eventLimits.dataCount}, got {data.length}")
  pure { topic, txId, contractName := contract.name, contractVersion := contract.version, data }

/-! ### Requests -/

/-- Computes with the provider, and keeps the result. -/
def serveCrypto (crypto : CryptoProvider) (family : CryptoFamily) (body : Packet) :
    Serving τ Reply := do
  let op ← ofPacket (body.getText "op")
  let result ← liftExcept (crypto.compute family op body)
  replyCached body result
where
  /-- Takes what the provider gives. -/
  liftExcept : Except RequestFault Bytes → Serving τ Bytes
    | .ok b => pure b
    | .error e => throw e

/-- Opens a cursor over pairs of the ledger. -/
def serveRange (body : Packet) (select : τ → String → Serving τ (List Pair)) :
    Serving τ Reply := do
  update (·.mergeTxClass .iterator)
  let pairs ← select (← ledger) (← contractName)
  let ptr ← place body
  pure (.int32 ptr (← updateGet (·.openPairs pairs)))

/-- Fetches the bytes that wait. -/
def serveFetch (body : Packet) : Serving τ Reply := do
  let ptr ← place body
  pure (.write ptr (← updateGet Context.takeCached))

/-- Serves a request that has a packet for its body. -/
def serveMethod (crypto : CryptoProvider) (body : Packet) : Method → Serving τ Reply
  | .getStateLen => do
    let key ← stateKey body "key" "field"
    let value ← ofLedger (LedgerAccess.get (← ledger) (← contractName) key)
    replyCached body (value.getD [])
  | .putState => do
    let key ← stateKey body "key" "field"
    let value ← ofPacket (body.getBytes "value")
    putLedger (← ofLedger (LedgerAccess.put (← ledger) (← contractName) key value))
    pure .done
  | .deleteState => do
    let key ← stateKey body "key" "field"
    putLedger (← ofLedger (LedgerAccess.delete (← ledger) (← contractName) key))
    pure .done
  | .kvIterator =>
    serveRange body fun ledger contract => do
      let start ← stateKey body "start_key" "start_field"
      let limit ← stateKey body "limit_key" "limit_field"
      ofLedger (LedgerAccess.select ledger contract start limit)
  | .kvPreIterator =>
    serveRange body fun ledger contract => do
      let stem ← stateKey body "prefix" "field"
      ofLedger (LedgerAccess.selectWithin ledger contract stem)
  | .kvIteratorHasNext => do
    let (more, after) ← ofCursor ((← context).hasPair (← cursorIndex body))
    update fun _ => after
    pure (.int32 (← place body) (if more then 1 else 0))
  | .kvIteratorNextLen => do
    let index ← cursorIndex body
    let (pair?, after) ← ofCursor ((← context).nextPair index)
    update fun _ => after
    match pair? with
    | some pair => replyCached body (StateKey.encodePair pair)
    | none => exhausted index
  | .kvIteratorClose => do
    let after ← ofCursor ((← context).closePairs (← cursorIndex body))
    update fun _ => after
    pure .done
  | .executeUpdate => do
    let sql ← ofPacket (body.getText "sql")
    let changed ← ofTable (LedgerAccess.executeUpdate (← ledger) (← contractName) sql)
    pure (.int32 (← place body) changed)
  | .executeDdl => do
    let sql ← ofPacket (body.getText "sql")
    ofTable (LedgerAccess.executeDdl (← ledger) (← contractName) sql)
    pure .done
  | .executeQuery => do
    let sql ← ofPacket (body.getText "sql")
    let rows ← ofTable (LedgerAccess.query (← ledger) (← contractName) sql)
    let ptr ← place body
    pure (.int32 ptr (← updateGet (·.openRows rows)))
  | .executeQueryOneLen => do
    let sql ← ofPacket (body.getText "sql")
    let row ← ofTable (LedgerAccess.queryOne (← ledger) (← contractName) sql)
    replyCached body (Row.encode (row.getD ∅))
  | .rsHasNext => do
    let (more, after) ← ofCursor ((← context).hasRow (← cursorIndex body))
    update fun _ => after
    pure (.int32 (← place body) (if more then 1 else 0))
  | .rsNextLen => do
    let index ← cursorIndex body
    let (row?, after) ← ofCursor ((← context).nextRow index)
    update fun _ => after
    match row? with
    | some row => replyCached body row.encode
    | none => exhausted index
  | .rsClose => do
    let after ← ofCursor ((← context).closeRows (← cursorIndex body))
    update fun _ => after
    pure .done
  | .emitEvent => do
    let c ← context
    let event ← ofCursor (eventOf c.contract (LedgerAccess.txId (← ledger)) body)
    update (·.pushEvents [event])
    pure .done
  | .getPaillierResultLen => serveCrypto crypto .paillier body
  | .getBulletproofsResultLen => serveCrypto crypto .bulletproofs body
  | .getState | .kvIteratorNext | .executeQueryOne | .rsNext | .callContract
  | .getPaillierResult | .getBulletproofsResult => serveFetch body
  | method => fail (.unknownMethod method.name)

/-- Serves a request, unless it is a call of another contract. -/
def serve (crypto : CryptoProvider) (name : String) (body : Bytes) : Serving τ Reply :=
  match Method.ofName? name with
  | none => fail (.unknownMethod name)
  | some .logMessage => do
    modify (·.log (Utf8.decodeLossy body))
    pure .done
  | some .successResult => do
    let accepted ← updateGet (·.setSuccess body)
    pure (if accepted then .done else .rejected)
  | some .errorResult => do
    update (·.setError (Utf8.decodeLossy body))
    pure .done
  | some method => do
    serveMethod crypto (← ofPacket (Packet.decode body)) method

namespace Desk

/-- Serves on a desk. -/
def run {α : Type} (d : Desk τ) (r : Serving τ α) : Except RequestFault α × Desk τ :=
  StateT.run (ExceptT.run r) d

/-- Records an error in the outcome of the invocation.  A crash leaves no record. -/
def record (d : Desk τ) : RequestFault → Desk τ
  | .failed e => { d with context := d.context.recordError e.message }
  | .crashed _ => d

/-- Serves a request, and records its error. -/
def handle (d : Desk τ) (crypto : CryptoProvider) (name : String) (body : Bytes) :
    Except RequestFault Reply × Desk τ :=
  match d.run (serve crypto name body) with
  | (.error e, d) => (.error e, d.record e)
  | (.ok reply, d) => (.ok reply, d)

end Desk

end ContractHost
