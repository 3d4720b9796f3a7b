import ContractHost.Guest.Scripts

/-!
# Instances

An instance is a module with a memory and gas of its own.  It outlives many invocations; while it
serves one it is bound to the invocation's handle.

## Main definitions

* `Instance` — an instance.
* `Instance.create` — instantiation: imports, the memory's size, its data, and the first actions.
* `Instance.runtimeType`, `writeParams`, `callMethod` — what an invocation asks of an instance.
* `Instance.teardown` — the last thing an instance does.
-/

namespace ContractHost

/-- An instance of a module. -/
structure Instance where
  /-- The number of the instance, in the order of creation. -/
  id : Nat
  /-- The module. -/
  script : Script
  /-- The most pages its memory may grow to. -/
  pageLimit : Nat
  /-- Its memory. -/
  memory : Memory
  /-- The gas that is left. -/
  gas : UInt64
  /-- The invocation it serves. -/
  bound : Option Int32 := none
  /-- The number of failed invocations in a row. -/
  errors : UInt32 := 0
  /-- The generation of its pool in which it was created. -/
  epoch : UInt64 := 0
  /-- It belongs to no pool. -/
  detached : Bool := false

/-- Why a call into an instance does not return. -/
inductive CallFault
  /-- For a reason that is reported. -/
  | error (e : ExecutionError)
  /-- The host crashed while it served the instance. -/
  | crashed (message : String)
  /-- The call was broken off. -/
  | suspended
  deriving Repr, DecidableEq, Inhabited

/-- The fault of a run that ended early.  A trap names its code word. -/
def Halt.toCallFault : Halt → CallFault
  | .trap cause => .error (.trap s!"{cause.reason} ({cause.code})")
  | .exited code => .error (.trap s!"guest aborted with exit code {code.toInt}")
  | .crashed message => .crashed message
  | .suspended => .suspended

/-- The error of an instantiation that ended early.  A trap does not name its code word. -/
def Halt.toSetupError : Halt → ExecutionError
  | .trap cause => .instantiationFailed cause.reason
  | .exited code => .instantiationFailed s!"guest aborted with exit code {code.toInt}"
  | .crashed message => .instantiationFailed message
  | .suspended => .instantiationFailed TrapCause.outOfFuel.reason

/-! ### Imports -/

/-- The host functions that can be imported, with their types. -/
def hostFunctions : List ((String × String) × String) :=
  let request := "(func (param i32 i32 i32 i32) (result i32))"
  [(("env", "sys_call"), request), (("env", "log_message"), "(func (param i32 i32))"),
    (("wasi_unstable", "fd_read"), request), (("wasi_unstable", "fd_write"), request),
    (("wasi_unstable", "fd_close"), request), (("wasi_unstable", "fd_seek"), request),
    (("wasi_snapshot_preview1", "proc_exit"), "(func (param i32))")]

/-- Why the further imports of a script cannot be met, if they cannot.  An unknown one is reported
before one of another type, and no host function is without parameters and results. -/
def importFault? (imports : List (String × String)) : Option String :=
  match imports.find? fun i => (hostFunctions.lookup i).isNone, imports with
  | some (space, name), _ => some s!"unknown import: `{space}::{name}` has not been defined"
  | none, i :: _ =>
    let (space, name) := i
    let found := (hostFunctions.lookup i).getD ""
    some (s!"incompatible import type for `{space}::{name}`: types incompatible: " ++
      s!"expected type `(func)`, found type `{found}`")
  | none, [] => none

namespace Instance

variable {σ : Type}

/-- The linkage of a run on the instance. -/
def linkage (i : Instance) (breaksOff : Bool) : Linkage :=
  { exportsMemory := i.script.exportsMemory, bound := i.bound, pageLimit := i.pageLimit, breaksOff }

/-- Runs something on the instance. -/
def run {α : Type} (i : Instance) (r : Run σ α) (world : σ) : Except Halt α × Instance × σ :=
  let (result, m) := StateT.run (ExceptT.run r) ⟨⟨i.memory, i.gas.toNat⟩, world⟩
  (result, { i with memory := m.memory, gas := UInt64.ofNat m.gas }, m.world)

/-- The memory with the data of a script, if all of it lies inside. -/
def initialMemory? (s : Script) : Option Memory :=
  s.data.foldlM (fun m d => m.write? d.1 d.2) ⟨s.pages, ∅⟩

/-- The most pages the memory of an instance may grow to. -/
def pageLimitOf (engine : EngineConfig) (execution : ExecutionConfig) : Nat :=
  let limit := min maxPages (execution.maxMemoryBytes / pageSize)
  if engine.poolingAllocator then min limit (engine.instanceMemoryBytes / pageSize) else limit

/-- Creates an instance, while `live` others exist. -/
def create (guest : Guest) (host : HostCalls σ) (engine : EngineConfig)
    (execution : ExecutionConfig) (m : Module) (id live : Nat) (world : σ) :
    Except ExecutionError Instance × σ :=
  let fail (reason : String) := (.error (.instantiationFailed reason), world)
  match importFault? m.script.imports with
  | some reason => fail reason
  | none =>
    if engine.poolingAllocator && engine.maxInstances.toNat ≤ live then
      fail s!"maximum concurrent limit of {engine.maxInstances} for core instances reached"
    else if execution.maxMemoryBytes < m.script.pages * pageSize then
      fail s!"memory minimum size of {m.script.pages} pages exceeds memory limits"
    else match initialMemory? m.script with
      | none => fail TrapCause.outOfBounds.reason
      | some memory =>
        let i : Instance :=
          { id, script := m.script, pageLimit := pageLimitOf engine execution, memory,
            gas := execution.gasLimit }
        match m.script.start with
        | none => (.ok i, world)
        | some actions =>
          match i.run ((guest.start actions).run host (i.linkage false)) world with
          | (.ok (), i, world) => (.ok i, world)
          | (.error h, _, world) => (.error h.toSetupError, world)

/-- Binds the instance to an invocation. -/
def bind (i : Instance) (handle : Int32) : Instance :=
  { i with bound := some handle }

/-- Ends the binding. -/
def unbind (i : Instance) : Instance :=
  { i with bound := none }

/-- Counts a failed invocation; the count stops at its greatest value. -/
def recordError (i : Instance) : Instance :=
  { i with errors := if i.errors + 1 = 0 then i.errors else i.errors + 1 }

/-- Counts from zero again. -/
def clearErrors (i : Instance) : Instance :=
  { i with errors := 0 }

/-- Replaces the gas that is left. -/
def setGas (i : Instance) (gas : UInt64) : Instance :=
  { i with gas }

/-- The instance exports a function under the name. -/
def hasExport (i : Instance) (name : String) : Bool :=
  (i.script.function? name).isSome

/-- Runs an exported function on the instance. -/
def call {α : Type} (i : Instance) (r : Run σ α) (world : σ) : Except CallFault α × Instance × σ :=
  let (result, i, world) := i.run r world
  (result.mapError Halt.toCallFault, i, world)

/-- A call of something that is not exported. -/
def notExported {α : Type} (i : Instance) (name : String) (world : σ) :
    Except CallFault α × Instance × σ :=
  (.error (.error (.exportNotFound name)), i, world)

/-- For which kind of host the contract was built. -/
def runtimeType (i : Instance) (host : HostCalls σ) (breaksOff : Bool) (world : σ)
    (guest : Guest := .scripts) : Except CallFault Int32 × Instance × σ :=
  match i.script.typed? exportNames.runtimeType 0 1 with
  | some f => i.call ((guest.call 0 f).run host (i.linkage breaksOff)) world
  | none => i.notExported exportNames.runtimeType world

/-- Copies parameters into memory, where the contract gives room for them.  The result is where
they begin. -/
def writeParams (i : Instance) (host : HostCalls σ) (breaksOff : Bool) (params : Bytes)
    (world : σ) (guest : Guest := .scripts) : Except CallFault Int32 × Instance × σ :=
  match i.script.typed? exportNames.allocate 1 1 with
  | none => i.notExported exportNames.allocate world
  | some f =>
    match i.call ((guest.call params.lengthWord.toInt32 f).run host (i.linkage breaksOff))
        world with
    | (.error e, i, world) => (.error e, i, world)
    | (.ok ptr, i, world) =>
      let fail (reason : String) := (.error (.error (.trap reason)), i, world)
      if ptr.toInt < 0 then fail s!"allocate returned negative pointer {ptr.toInt}"
      else if !i.script.exportsMemory then i.notExported exportNames.memory world
      else match i.memory.write? ptr.toInt.toNat params with
        | none => fail s!"write parameters at {ptr.toInt}: out of bounds memory access"
        | some memory => (.ok ptr, { i with memory }, world)

/-- Calls a method, without arguments.  What it returns is not looked at. -/
def callMethod (i : Instance) (host : HostCalls σ) (breaksOff : Bool) (name : String) (world : σ)
    (guest : Guest := .scripts) : Except CallFault Unit × Instance × σ :=
  match i.script.function? name with
  | none => i.notExported name world
  | some f =>
    if 0 < f.params then
      (.error (.error (.trap s!"expected {f.params} arguments, got 0")), i, world)
    else i.call (do let _ ← (guest.call 0 f).run host (i.linkage breaksOff)) world

/-- The gas an instance gets for its last actions. -/
def teardownGas : UInt64 := 1000000

/-- Lets the instance perform its last actions.  How they end does not matter. -/
def teardown (i : Instance) (host : HostCalls σ) (world : σ) (guest : Guest := .scripts) : σ :=
  match i.script.typed? exportNames.deallocate 1 0 with
  | none => world
  | some f =>
    let i := i.setGas teardownGas
    (i.run ((guest.call 0 f).run host (i.linkage false)) world).2.2

end Instance

end ContractHost
