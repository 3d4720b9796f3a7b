import ContractHost.Host.Basic

/-!
# Hosts in diagnostics

How a host, its parts and a call are shown where a developer looks at them.  Only the fields that
tell something are shown, and dots stand for the others.

## Main definitions

* `Diagnostics.record` — the form that all of them share.
* `Host.describe`, `HostSetup.describePools`, `HostSetup.describeEngine`, `Call.describe`,
  `describeInstance` — what is shown.
-/

namespace ContractHost

namespace Diagnostics

/-- A name with some fields, and dots for the others. -/
def record (name : String) (fields : List (String × String)) : String :=
  name ++ " \x7b " ++ fields.foldl (fun done f => done ++ f.1 ++ ": " ++ f.2 ++ ", ") "" ++
    ".. \x7d"

end Diagnostics

/-- A host. -/
def Host.describe {τ : Type} (h : Host τ) (setup : HostSetup) : String :=
  Diagnostics.record "Runtime" [("chain_id", Quoted.quote setup.chainId),
    ("live_invocations", toString h.registry.size)]

namespace HostSetup

/-- The pools of a host. -/
def describePools (setup : HostSetup) : String :=
  Diagnostics.record "InstanceManager" [("chain_id", Quoted.quote setup.chainId)]

/-- The engine of a host. -/
def describeEngine (setup : HostSetup) : String :=
  let engine := setup.config.engine
  Diagnostics.record "WasmEngine" [("pooling_allocator", toString engine.poolingAllocator),
    ("max_instances", toString engine.maxInstances)]

end HostSetup

/-- A call within a transaction. -/
def Call.describe (c : Call) (txId : String) : String :=
  Diagnostics.record "InvokeRequest" [("contract", c.contract.describe),
    ("method", Quoted.quote c.method), ("tx_id", Quoted.quote txId),
    ("gas_used", toString c.gasUsed), ("depth", toString c.depth)]

/-- An instance that serves no invocation, under the name it goes by. -/
def describeInstance (name : String) : String :=
  Diagnostics.record "InstanceState" [("instance_id", Quoted.quote name), ("bound_handle", "None")]

end ContractHost
