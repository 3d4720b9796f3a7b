import ContractHost.Packet.Basic

/-!
# Errors

Three families of causes above those of packets: the ledger, a request of a running contract, and
an invocation as a whole.  A family wraps the ones below it.

## Main definitions

* `LedgerError`, `SyscallError`, `ExecutionError` — the families.
* `message` of each — its wording.
-/

namespace ContractHost

/-- Why the ledger refuses. -/
inductive LedgerError
  /-- No contract of this name is deployed. -/
  | contractNotFound (name : String)
  /-- The ledger has no such operation. -/
  | unsupported (operation : String)
  deriving Repr, DecidableEq, Inhabited

/-- Why a request of a contract fails. -/
inductive SyscallError
  /-- An argument is out of its range. -/
  | invalidArgument (reason : String)
  /-- A region is not inside the contract's memory. -/
  | memoryOutOfBounds (offset len : Int) (memorySize : Nat)
  /-- The contract does not export its memory. -/
  | memoryNotExported
  /-- No invocation has the handle. -/
  | contextNotFound (handle : Int32)
  /-- No request has this name. -/
  | unknownMethod (method : String)
  /-- No open cursor has the index. -/
  | unknownCursor (index : Int32)
  /-- A nested call failed. -/
  | callContract (reason : String)
  /-- A cryptographic operation failed. -/
  | crypto (reason : String)
  /-- The request is no packet, or lacks an item. -/
  | packet (inner : PacketError)
  /-- The ledger refuses. -/
  | ledger (inner : LedgerError)
  deriving Repr, DecidableEq, Inhabited

/-- Why an invocation cannot be carried out or ends early. -/
inductive ExecutionError
  /-- The contract's name, version or code is missing. -/
  | invalidContract (reason : String)
  /-- The code is no valid module. -/
  | compilationFailed (reason : String)
  /-- The module cannot be instantiated. -/
  | instantiationFailed (reason : String)
  /-- The contract's pool is shut down. -/
  | poolClosed (contract : String)
  /-- The module does not export a function it is asked for. -/
  | exportNotFound (name : String)
  /-- The contract was built for another kind of host. -/
  | runtimeTypeMismatch (expected actual : Int32)
  /-- All gas is used up. -/
  | outOfGas (used limit : UInt64)
  /-- Calls are nested too deeply. -/
  | callDepthExceeded (depth max : UInt32)
  /-- The contract was stopped. -/
  | trap (reason : String)
  /-- A request failed. -/
  | syscall (inner : SyscallError)
  /-- The ledger refuses. -/
  | ledger (inner : LedgerError)
  /-- The settings do not fit together. -/
  | invalidConfig (reason : String)
  deriving Repr, DecidableEq, Inhabited

/-- The wording of an error. -/
def LedgerError.message : LedgerError → String
  | .contractNotFound name => s!"contract not found: {name}"
  | .unsupported operation => s!"unsupported ledger operation: {operation}"

/-- The wording of an error; one from a packet or the ledger keeps its own. -/
def SyscallError.message : SyscallError → String
  | .invalidArgument reason => s!"Invalid argument: {reason}"
  | .memoryOutOfBounds offset len memorySize =>
    s!"memory access out of bounds: offset {offset}, len {len}, memory size {memorySize}"
  | .memoryNotExported => "memory export not found"
  | .contextNotFound handle => s!"invocation context not found for handle {handle.toInt}"
  | .unknownMethod method => s!"unknown syscall method: {method}"
  | .unknownCursor index => s!"no open iterator or result set with index {index.toInt}"
  | .callContract reason => s!"call contract failed: {reason}"
  | .crypto reason => s!"crypto operation failed: {reason}"
  | .packet inner => inner.message
  | .ledger inner => inner.message

namespace ExecutionError

/-- The wording of an error. -/
def message : ExecutionError → String
  | .invalidContract reason => s!"Invalid contract: {reason}"
  | .compilationFailed reason => s!"Compilation failed: {reason}"
  | .instantiationFailed reason => s!"Instantiation failed: {reason}"
  | .poolClosed contract => s!"Instance pool closed: {contract}"
  | .exportNotFound name => s!"method [{name}] not export"
  | .runtimeTypeMismatch expected actual =>
    s!"runtime type error, expect rust:[{expected.toInt}], but got {actual.toInt}"
  | .outOfGas used limit => s!"out of gas {used}/{limit}"
  | .callDepthExceeded depth max => s!"call depth {depth} exceeds maximum {max}"
  | .trap reason => s!"Wasm trap: {reason}"
  | .syscall inner => s!"Syscall error: {inner.message}"
  | .ledger inner => s!"Ledger error: {inner.message}"
  | .invalidConfig reason => s!"Invalid configuration: {reason}"

/-- The contract could not be set up at all. -/
def isSetupError : ExecutionError → Bool
  | .invalidContract _ | .compilationFailed _ | .instantiationFailed _ => true
  | _ => false

/-- The cause is the gas. -/
def isOutOfGas : ExecutionError → Bool
  | .outOfGas _ _ => true
  | _ => false

end ExecutionError

end ContractHost
