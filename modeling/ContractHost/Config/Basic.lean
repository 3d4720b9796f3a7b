import ContractHost.Error

/-!
# Settings

Three groups of settings govern the engine, a single invocation, and the pool of each contract.
Every setting has a default.

## Main definitions

* `EngineConfig`, `ExecutionConfig`, `PoolConfig`, `RuntimeConfig` — the groups and their union.
* `PoolConfig.validate`, `RuntimeConfig.validate` — the settings fit together.
* `ConfigFile`, `ContractEntry` — what a configuration file says.
-/

namespace ContractHost

/-- Bytes in a megabyte. -/
def megabyte : Nat := 1024 * 1024

/-- Settings of the engine. -/
structure EngineConfig where
  /-- Instances are made in slots that are reserved in advance. -/
  poolingAllocator : Bool := true
  /-- The number of slots. -/
  maxInstances : UInt32 := 1000
  /-- The memory of a slot, in megabytes. -/
  instanceMemoryMb : UInt32 := 64
  deriving Repr, DecidableEq, Inhabited

/-- The memory of a slot in bytes. -/
def EngineConfig.instanceMemoryBytes (c : EngineConfig) : Nat :=
  c.instanceMemoryMb.toNat * megabyte

/-- Settings of an invocation. -/
structure ExecutionConfig where
  /-- The gas that a call and all calls nested in it may use together. -/
  gasLimit : UInt64 := 10000000000
  /-- How deep calls may be nested. -/
  maxCallDepth : UInt32 := 5
  /-- The memory an instance may grow to, in megabytes. -/
  maxMemoryMb : UInt32 := 64
  /-- The gas after which a running contract lets others run. -/
  fuelYieldInterval : UInt64 := 1000000
  deriving Repr, DecidableEq, Inhabited

/-- The memory an instance may grow to, in bytes. -/
def ExecutionConfig.maxMemoryBytes (c : ExecutionConfig) : Nat :=
  c.maxMemoryMb.toNat * megabyte

/-- Settings of a pool. -/
structure PoolConfig where
  /-- The number of instances to keep at least. -/
  minSize : UInt32 := 10
  /-- The number of instances to keep at most. -/
  maxSize : UInt32 := 1000
  /-- The number of instances added or removed at a time. -/
  growStep : UInt32 := 10
  /-- The time between two revisions of the size, in seconds. -/
  refreshIntervalSecs : UInt64 := 43200
  /-- The average wait above which the pool grows, in milliseconds. -/
  delayToleranceMs : UInt64 := 10
  /-- The number of growth requests above which the pool grows. -/
  applyThreshold : UInt32 := 100
  /-- The number of failures in a row above which an instance is discarded. -/
  discardThreshold : UInt32 := 10
  deriving Repr, DecidableEq, Inhabited

/-- The sizes of a pool fit together; the first fault is reported. -/
def PoolConfig.validate (c : PoolConfig) : Except ExecutionError Unit :=
  if c.maxSize = 0 then .error (.invalidConfig "pool max_size must be positive")
  else if c.maxSize < c.minSize then
    .error (.invalidConfig s!"pool min_size {c.minSize} exceeds max_size {c.maxSize}")
  else if c.growStep = 0 then .error (.invalidConfig "pool grow_step must be positive")
  else if c.refreshIntervalSecs = 0 then
    .error (.invalidConfig "pool refresh_interval_secs must be positive")
  else .ok ()

/-- All settings of a host. -/
structure RuntimeConfig where
  /-- Settings of the engine. -/
  engine : EngineConfig := {}
  /-- Settings of an invocation. -/
  execution : ExecutionConfig := {}
  /-- Settings of every pool. -/
  pool : PoolConfig := {}
  deriving Repr, DecidableEq, Inhabited

/-- The settings fit together; a fault of the pool is reported first. -/
def RuntimeConfig.validate (c : RuntimeConfig) : Except ExecutionError Unit := do
  c.pool.validate
  if c.execution.gasLimit = 0 then throw (.invalidConfig "gas_limit must be positive")

/-- A contract that a configuration file deploys. -/
structure ContractEntry where
  /-- Its name. -/
  name : String
  /-- Its version. -/
  version : String
  /-- Where its code is. -/
  path : String
  deriving Repr, DecidableEq, Inhabited

/-- What a configuration file says. -/
structure ConfigFile where
  /-- The chain that the host serves. -/
  chainId : String := "chain1"
  /-- The settings of the host. -/
  runtime : RuntimeConfig := {}
  /-- The contracts to deploy. -/
  contracts : List ContractEntry := []
  deriving Repr, DecidableEq, Inhabited

/-- Why a configuration file is of no use. -/
inductive ConfigFileError
  /-- It cannot be read, for the reason given. -/
  | unreadable (path : String) (reason : String)
  /-- It is not a configuration. -/
  | malformed
  deriving Repr, DecidableEq, Inhabited

/-- The wording of an error.  Where in the file a fault lies is not said. -/
def ConfigFileError.message : ConfigFileError → String
  | .unreadable path reason => s!"Failed to read config file '{path}': {reason}"
  | .malformed => "Failed to parse config file"

end ContractHost
