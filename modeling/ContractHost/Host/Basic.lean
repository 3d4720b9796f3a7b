import ContractHost.Invocation.Registry
import ContractHost.Pool.Lease
import ContractHost.Request.Dispatch

/-!
# The host

A host serves one chain.  It keeps a pool of instances for every contract that was ever called, and
a registry of the invocations under way.  All invocations under way at one time belong to one
transaction.

## Main definitions

* `HostSetup` — what a host is set up with.
* `Call` — what is to be invoked.
* `Lease`, `Queued`, `Host` — an instance in use, a call that waits for one, and the state of a
  host.
* `Host.desk`, `Host.clear` — an invocation's view of the host, and the way back.
-/

namespace ContractHost

/-- What a host is set up with. -/
structure HostSetup where
  /-- The chain that the host serves. -/
  chainId : String
  /-- The settings. -/
  config : RuntimeConfig := {}
  /-- The provider of cryptographic operations. -/
  crypto : CryptoProvider := .absent
  /-- How exported functions are understood. -/
  guest : Guest := .scripts

namespace HostSetup

/-- The gas that a call and all calls nested in it may use together. -/
def gasLimit (s : HostSetup) : Nat :=
  s.config.execution.gasLimit.toNat

/-- The setup, if its settings fit together. -/
def validated (s : HostSetup) : Except ExecutionError HostSetup :=
  match s.config.validate with
  | .ok () => .ok s
  | .error e => .error e

end HostSetup

/-- What is to be invoked. -/
structure Call where
  /-- The contract. -/
  contract : ContractId
  /-- Its code. -/
  code : Code
  /-- The method. -/
  method : String
  /-- The parameters. -/
  params : OrderedMap String Bytes := ∅
  /-- The gas that the callers have used. -/
  gasUsed : UInt64 := 0
  /-- How deep the call is nested. -/
  depth : UInt32 := 0
  deriving Inhabited

/-- The number of a pool, in the order of creation. -/
abbrev PoolId := Nat

/-- An instance in use. -/
structure Lease where
  /-- The pool from which it comes. -/
  pool : PoolId
  /-- The invocation that it serves. -/
  handle : Int32
  /-- The instance. -/
  inst : Instance

/-- A call that waits in the line of a pool. -/
structure Queued where
  /-- The pool. -/
  pool : PoolId
  /-- The number under which it waits. -/
  ticket : Ticket
  /-- The call. -/
  call : Call

/-- The state of a host. -/
structure Host (τ : Type) where
  /-- The ledger, seen through the transaction of the invocations under way. -/
  ledger : τ
  /-- The invocations under way. -/
  registry : Registry := {}
  /-- The lines logged by all contracts. -/
  journal : List LogLine := []
  /-- All pools that were ever created. -/
  pools : OrderedMap PoolId Pool := ∅
  /-- The pools in service, by the flat keys of their contracts. -/
  registered : OrderedMap String PoolId := ∅
  /-- The number of the next pool. -/
  nextPool : PoolId := 0
  /-- The number of instances that exist. -/
  live : Nat := 0
  /-- The number of the next instance. -/
  nextInstance : Nat := 0
  /-- The instances of calls that were broken off. -/
  stalled : List Lease := []
  /-- The calls that wait for an instance. -/
  queued : List Queued := []
  /-- What the clock shows, in seconds. -/
  uptime : Nat := 0

namespace Host

variable {τ : Type}

/-- An invocation's view of the host. -/
def desk (h : Host τ) (c : Context) : Desk τ :=
  ⟨c, h.ledger, h.journal⟩

/-- Takes over what was changed in an invocation's view. -/
def clear (h : Host τ) (d : Desk τ) : Host τ :=
  { h with ledger := d.ledger, journal := d.journal, registry := h.registry.update d.context }

/-- Takes out the lines that were logged. -/
def takeJournal (h : Host τ) : List LogLine × Host τ :=
  (h.journal, { h with journal := [] })

end Host

end ContractHost
