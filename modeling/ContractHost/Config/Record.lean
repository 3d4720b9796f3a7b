import ContractHost.Config.Basic
import ContractHost.Contract
import ContractHost.Document.Node
import ContractHost.Outcome

/-!
# Records in documents

How each record is read from a document and written into one.  A record is written as a table.
It is read from a table or from a list of its fields in the order of their declaration; where a
record has defaults, fields may be missing.

## Main definitions

* `read` and `toNode` of every record that is kept in documents.
-/

namespace ContractHost

namespace ContractId

/-- Reads a contract's name and version. -/
def read (surplus : Surplus) (n : Node) : Option ContractId := do
  let f : Fields ← n.fields surplus ["name", "version"]
  pure { name := ← f.required Node.text? "name", version := ← f.required Node.text? "version" }

/-- The document of a contract's name and version. -/
def toNode (c : ContractId) : Node :=
  .table [("name", .text c.name), ("version", .text c.version)]

end ContractId

namespace TxClass

/-- The class with a name. -/
def ofName? : String → Option TxClass
  | "normal" => some .normal
  | "iterator" => some .iterator
  | _ => none

/-- Reads a class: its name, or a table with the name as its only key and nothing under it. -/
def read : Node → Option TxClass
  | .text name => ofName? name
  | .table [(name, .null)] => ofName? name
  | _ => none

end TxClass

namespace Event

/-- Reads an event. -/
def read (surplus : Surplus) (n : Node) : Option Event := do
  let f : Fields ← n.fields surplus
    ["topic", "tx_id", "contract_name", "contract_version", "data"]
  pure {
    topic := ← f.required Node.text? "topic"
    txId := ← f.required Node.text? "tx_id"
    contractName := ← f.required Node.text? "contract_name"
    contractVersion := ← f.required Node.text? "contract_version"
    data := ← f.required (Node.list? Node.text?) "data" }

/-- The document of an event. -/
def toNode (e : Event) : Node :=
  .table [("topic", .text e.topic), ("tx_id", .text e.txId),
    ("contract_name", .text e.contractName), ("contract_version", .text e.contractVersion),
    ("data", .list (e.data.map .text))]

end Event

/-- The document of a byte string. -/
def Bytes.toNode (b : Bytes) : Node :=
  .list (b.map fun x => .integer x.toNat)

namespace Outcome

/-- Reads an outcome; only its scheduling class may be missing. -/
def read (surplus : Surplus) (n : Node) : Option Outcome := do
  let f : Fields ← n.fields surplus
    ["code", "result", "message", "gas_used", "events", "special_tx_type"]
  pure {
    code := ← f.required Node.word32? "code"
    payload := ← f.required (Node.list? Node.byte?) "result"
    message := ← f.required Node.text? "message"
    gasUsed := ← f.required Node.word64? "gas_used"
    events := ← f.required (Node.list? (Event.read surplus)) "events"
    txClass := ← f.optional TxClass.read .normal "special_tx_type" }

/-- The document of an outcome. -/
def toNode (o : Outcome) : Node :=
  .table [("code", .integer o.code.toNat), ("result", o.payload.toNode),
    ("message", .text o.message), ("gas_used", .integer o.gasUsed.toNat),
    ("events", .list (o.events.map Event.toNode)), ("special_tx_type", .text o.txClass.name)]

end Outcome

namespace EngineConfig

/-- Reads the settings of the engine. -/
def read (surplus : Surplus) (n : Node) : Option EngineConfig := do
  let f : Fields ← n.fields surplus ["pooling_allocator", "max_instances", "instance_memory_mb"]
  let d : EngineConfig := {}
  pure {
    poolingAllocator := ← f.optional Node.bool? d.poolingAllocator "pooling_allocator"
    maxInstances := ← f.optional Node.word32? d.maxInstances "max_instances"
    instanceMemoryMb := ← f.optional Node.word32? d.instanceMemoryMb "instance_memory_mb" }

/-- The document of the settings of the engine. -/
def toNode (c : EngineConfig) : Node :=
  .table [("pooling_allocator", .bool c.poolingAllocator),
    ("max_instances", .integer c.maxInstances.toNat),
    ("instance_memory_mb", .integer c.instanceMemoryMb.toNat)]

end EngineConfig

namespace ExecutionConfig

/-- Reads the settings of an invocation. -/
def read (surplus : Surplus) (n : Node) : Option ExecutionConfig := do
  let f : Fields ← n.fields surplus
    ["gas_limit", "max_call_depth", "max_memory_mb", "fuel_yield_interval"]
  let d : ExecutionConfig := {}
  pure {
    gasLimit := ← f.optional Node.word64? d.gasLimit "gas_limit"
    maxCallDepth := ← f.optional Node.word32? d.maxCallDepth "max_call_depth"
    maxMemoryMb := ← f.optional Node.word32? d.maxMemoryMb "max_memory_mb"
    fuelYieldInterval := ← f.optional Node.word64? d.fuelYieldInterval "fuel_yield_interval" }

/-- The document of the settings of an invocation. -/
def toNode (c : ExecutionConfig) : Node :=
  .table [("gas_limit", .integer c.gasLimit.toNat),
    ("max_call_depth", .integer c.maxCallDepth.toNat),
    ("max_memory_mb", .integer c.maxMemoryMb.toNat),
    ("fuel_yield_interval", .integer c.fuelYieldInterval.toNat)]

end ExecutionConfig

namespace PoolConfig

/-- Reads the settings of a pool. -/
def read (surplus : Surplus) (n : Node) : Option PoolConfig := do
  let f : Fields ← n.fields surplus
    ["min_size", "max_size", "grow_step", "refresh_interval_secs", "delay_tolerance_ms",
      "apply_threshold", "discard_threshold"]
  let d : PoolConfig := {}
  pure {
    minSize := ← f.optional Node.word32? d.minSize "min_size"
    maxSize := ← f.optional Node.word32? d.maxSize "max_size"
    growStep := ← f.optional Node.word32? d.growStep "grow_step"
    refreshIntervalSecs := ←
      f.optional Node.word64? d.refreshIntervalSecs "refresh_interval_secs"
    delayToleranceMs := ← f.optional Node.word64? d.delayToleranceMs "delay_tolerance_ms"
    applyThreshold := ← f.optional Node.word32? d.applyThreshold "apply_threshold"
    discardThreshold := ← f.optional Node.word32? d.discardThreshold "discard_threshold" }

/-- The document of the settings of a pool. -/
def toNode (c : PoolConfig) : Node :=
  .table [("min_size", .integer c.minSize.toNat), ("max_size", .integer c.maxSize.toNat),
    ("grow_step", .integer c.growStep.toNat),
    ("refresh_interval_secs", .integer c.refreshIntervalSecs.toNat),
    ("delay_tolerance_ms", .integer c.delayToleranceMs.toNat),
    ("apply_threshold", .integer c.applyThreshold.toNat),
    ("discard_threshold", .integer c.discardThreshold.toNat)]

end PoolConfig

namespace RuntimeConfig

/-- Reads all settings. -/
def read (surplus : Surplus) (n : Node) : Option RuntimeConfig := do
  let f : Fields ← n.fields surplus ["engine", "execution", "pool"]
  pure {
    engine := ← f.optional (EngineConfig.read surplus) {} "engine"
    execution := ← f.optional (ExecutionConfig.read surplus) {} "execution"
    pool := ← f.optional (PoolConfig.read surplus) {} "pool" }

/-- The document of all settings. -/
def toNode (c : RuntimeConfig) : Node :=
  .table [("engine", c.engine.toNode), ("execution", c.execution.toNode), ("pool", c.pool.toNode)]

end RuntimeConfig

namespace ContractEntry

/-- Reads a contract to deploy. -/
def read (surplus : Surplus) (n : Node) : Option ContractEntry := do
  let f : Fields ← n.fields surplus ["name", "version", "path"]
  pure {
    name := ← f.required Node.text? "name"
    version := ← f.required Node.text? "version"
    path := ← f.required Node.text? "path" }

/-- The document of a contract to deploy. -/
def toNode (c : ContractEntry) : Node :=
  .table [("name", .text c.name), ("version", .text c.version), ("path", .text c.path)]

end ContractEntry

namespace ConfigFile

/-- Reads what a configuration file says. -/
def read (surplus : Surplus) (n : Node) : Option ConfigFile := do
  let f : Fields ← n.fields surplus ["chain_id", "runtime", "contracts"]
  let d : ConfigFile := {}
  pure {
    chainId := ← f.optional Node.text? d.chainId "chain_id"
    runtime := ← f.optional (RuntimeConfig.read surplus) d.runtime "runtime"
    contracts := ← f.optional (Node.list? (ContractEntry.read surplus)) d.contracts "contracts" }

/-- The document of what a configuration file says. -/
def toNode (c : ConfigFile) : Node :=
  .table [("chain_id", .text c.chainId), ("runtime", c.runtime.toNode),
    ("contracts", .list (c.contracts.map ContractEntry.toNode))]

end ConfigFile

end ContractHost
