import ContractHost.Bytes

/-!
# The requests of a contract

A running contract asks the host for one thing at a time, by name.  What has a result of variable
length comes as two requests: the first, whose name ends in `_len`, does the work, keeps the bytes
and tells their length; the second fetches them.

## Main definitions

* `Method` — the requests.
* `Method.name`, `Method.ofName?` — their names.
* `HeaderKeys`, `Signal` — how a request is labelled, and how it is answered.
-/

namespace ContractHost

/-- The requests. -/
inductive Method
  /-- Logs a line. -/
  | logMessage
  /-- Sets the payload of the invocation. -/
  | successResult
  /-- Marks the invocation as failed. -/
  | errorResult
  /-- Reads the value of a key. -/
  | getStateLen
  /-- Fetches the value that was read. -/
  | getState
  /-- Sets the value of a key. -/
  | putState
  /-- Removes the value of a key. -/
  | deleteState
  /-- Opens a cursor over a range of keys. -/
  | kvIterator
  /-- Opens a cursor over the keys with a common beginning. -/
  | kvPreIterator
  /-- Asks whether a cursor over pairs has a next pair. -/
  | kvIteratorHasNext
  /-- Moves a cursor to its next pair. -/
  | kvIteratorNextLen
  /-- Fetches the pair. -/
  | kvIteratorNext
  /-- Closes a cursor over pairs. -/
  | kvIteratorClose
  /-- Changes rows. -/
  | executeUpdate
  /-- Changes tables. -/
  | executeDdl
  /-- Opens a cursor over the rows of a query. -/
  | executeQuery
  /-- Asks for one row. -/
  | executeQueryOneLen
  /-- Fetches the row. -/
  | executeQueryOne
  /-- Asks whether a cursor over rows has a next row. -/
  | rsHasNext
  /-- Moves a cursor to its next row. -/
  | rsNextLen
  /-- Fetches the row. -/
  | rsNext
  /-- Closes a cursor over rows. -/
  | rsClose
  /-- Calls another contract. -/
  | callContractLen
  /-- Fetches the payload of the call. -/
  | callContract
  /-- Emits an event. -/
  | emitEvent
  /-- Computes on encrypted numbers. -/
  | getPaillierResultLen
  /-- Fetches what was computed. -/
  | getPaillierResult
  /-- Computes on range proofs. -/
  | getBulletproofsResultLen
  /-- Fetches what was computed. -/
  | getBulletproofsResult
  deriving Repr, DecidableEq, Inhabited

namespace Method

/-- The name of a request. -/
def name : Method → String
  | .logMessage => "log_message"
  | .successResult => "success_result"
  | .errorResult => "error_result"
  | .getStateLen => "get_state_len"
  | .getState => "get_state"
  | .putState => "put_state"
  | .deleteState => "delete_state"
  | .kvIterator => "kv_iterator"
  | .kvPreIterator => "kv_pre_iterator"
  | .kvIteratorHasNext => "kv_iterator_has_next"
  | .kvIteratorNextLen => "kv_iterator_next_len"
  | .kvIteratorNext => "kv_iterator_next"
  | .kvIteratorClose => "kv_iterator_close"
  | .executeUpdate => "execute_update"
  | .executeDdl => "execute_ddl"
  | .executeQuery => "execute_query"
  | .executeQueryOneLen => "execute_query_one_len"
  | .executeQueryOne => "execute_query_one"
  | .rsHasNext => "rs_has_next"
  | .rsNextLen => "rs_next_len"
  | .rsNext => "rs_next"
  | .rsClose => "rs_close"
  | .callContractLen => "call_contract_len"
  | .callContract => "call_contract"
  | .emitEvent => "emit_event"
  | .getPaillierResultLen => "get_paillier_result_len"
  | .getPaillierResult => "get_paillier_result"
  | .getBulletproofsResultLen => "get_bulletproofs_result_len"
  | .getBulletproofsResult => "get_bulletproofs_result"

/-- All requests. -/
def all : List Method :=
  [.logMessage, .successResult, .errorResult, .getStateLen, .getState, .putState, .deleteState,
    .kvIterator, .kvPreIterator, .kvIteratorHasNext, .kvIteratorNextLen, .kvIteratorNext,
    .kvIteratorClose, .executeUpdate, .executeDdl, .executeQuery, .executeQueryOneLen,
    .executeQueryOne, .rsHasNext, .rsNextLen, .rsNext, .rsClose, .callContractLen, .callContract,
    .emitEvent, .getPaillierResultLen, .getPaillierResult, .getBulletproofsResultLen,
    .getBulletproofsResult]

/-- The request with a name. -/
def ofName? (name : String) : Option Method :=
  all.find? (·.name = name)

end Method

/-- The keys of the header of a request. -/
structure HeaderKeys where
  /-- The handle of the invocation. -/
  handle : String := "ctx_ptr"
  /-- The name of the request. -/
  method : String := "method"

/-- The keys of the header. -/
def headerKeys : HeaderKeys := {}

/-- The answers to a request. -/
structure Signals where
  /-- The request was served. -/
  success : Int32 := 0
  /-- It was not. -/
  failure : Int32 := 1

/-- The answers to a request. -/
def signals : Signals := {}

/-- The parameter under which a method finds the handle of its invocation. -/
def handleParam : String := "__context_ptr__"

/-- The kind of host that this is. -/
def hostKind : Int32 := 2

end ContractHost
