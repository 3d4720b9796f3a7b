import ContractHost.Guest.Module

/-!
# Running scripts

A script runs on its memory and its gas, and through two host calls on whatever state the host
keeps.  Every step has a price.  Exhaustion is noticed only where a function is entered and at the
head of a loop: there more gas must be left than has been spent up to that point.  Between two such
points a script may overdraw its gas, which then counts as none.

An action that is stopped by a trap is charged only what it had settled before the fault.

## Main definitions

* `Halt`, `TrapCause` — why a run ends early.
* `HostCalls` — what the host offers to a running script.
* `Machine`, `Run` — the state of a run, and runs as such.
* `Action.perform` — one action.
* `Function.call`, `RuntimeTypeExport.call`, `AllocateExport.call`, `callPlain`, `Export.call` — the
  exported functions.
-/

namespace ContractHost

/-- The faults of a running script. -/
inductive TrapCause
  /-- The script stopped abnormally. -/
  | unreachable
  /-- A division by zero. -/
  | divideByZero
  /-- A region outside memory. -/
  | outOfBounds
  /-- No gas is left. -/
  | outOfFuel
  deriving Repr, DecidableEq, Inhabited

/-- The wording of a fault. -/
def TrapCause.reason : TrapCause → String
  | .unreachable => "wasm trap: wasm `unreachable` instruction executed"
  | .divideByZero => "wasm trap: integer divide by zero"
  | .outOfBounds => "wasm trap: out of bounds memory access"
  | .outOfFuel => "wasm trap: all fuel consumed by WebAssembly"

/-- The code word of a fault. -/
def TrapCause.code : TrapCause → String
  | .unreachable => "UnreachableCodeReached"
  | .divideByZero => "IntegerDivisionByZero"
  | .outOfBounds => "MemoryOutOfBounds"
  | .outOfFuel => "OutOfFuel"

/-- Why a run ends early. -/
inductive Halt
  /-- A fault of the script. -/
  | trap (cause : TrapCause)
  /-- The script gave an exit code. -/
  | exited (code : Int32)
  /-- The host crashed while it served the script. -/
  | crashed (message : String)
  /-- The run was broken off in an endless loop. -/
  | suspended
  deriving Repr, DecidableEq, Inhabited

/-- What of a run the host sees and may change. -/
structure Caller where
  /-- The memory. -/
  memory : Memory
  /-- The gas that is left. -/
  gas : Nat

/-- What does not change during a run. -/
structure Linkage where
  /-- The memory is exported. -/
  exportsMemory : Bool
  /-- The invocation that the instance serves. -/
  bound : Option Int32
  /-- The most pages the memory may grow to. -/
  pageLimit : Nat
  /-- An endless loop is broken off and does not use up the gas. -/
  breaksOff : Bool := false

/-- How the host answers a request. -/
inductive Answer
  /-- With a signal. -/
  | signal (n : Int32)
  /-- Not at all: it crashed. -/
  | crashed (message : String)
  /-- Not at all: a nested run was broken off. -/
  | suspended
  deriving Repr, DecidableEq, Inhabited

/-- A request: the regions of its header and of its body. -/
structure Regions where
  /-- Where the header begins. -/
  headerPtr : Int32
  /-- The length of the header. -/
  headerLen : Int32
  /-- Where the body begins. -/
  bodyPtr : Int32
  /-- The length of the body. -/
  bodyLen : Int32
  deriving Repr, DecidableEq, Inhabited

/-- What the host offers to a running script, over a state `σ` of its own. -/
structure HostCalls (σ : Type) where
  /-- Serves a request. -/
  request : Linkage → Regions → Caller → σ → Answer × Caller × σ
  /-- Logs the text in a region. -/
  log : Linkage → (ptr len : Int32) → Memory → σ → σ

/-- The state of a run. -/
structure Machine (σ : Type) extends Caller where
  /-- The state of the host. -/
  world : σ

/-- A run: it ends with a value or early, and leaves a state either way. -/
abbrev Run (σ α : Type) := ExceptT Halt (StateM (Machine σ)) α

namespace Run

variable {σ α : Type}

/-- Spends gas. -/
def spend (n : Nat) : Run σ Unit :=
  modify fun m => { m with gas := m.gas - n }

/-- Ends the run early after spending `n`. -/
def halt (n : Nat) (h : Halt) : Run σ α := do
  spend n
  throw h

/-- Notices exhaustion: more than `n` must be left. -/
def need (n : Nat) : Run σ Unit := do
  let m ← get
  if m.gas ≤ n then halt m.gas (.trap .outOfFuel)

/-- Takes what a memory access gives, or ends the run with a fault after spending `n`. -/
def orFault (n : Nat) : Option α → Run σ α
  | some a => pure a
  | none => halt n (.trap .outOfBounds)

/-- The word at an address; a fault costs `n`. -/
def loadWord (n : Nat) (address : UInt32) : Run σ UInt32 := do
  orFault n ((← get).memory.readWord? address.toNat)

/-- Stores a word; a fault costs `n`. -/
def storeWord (n : Nat) (address w : UInt32) : Run σ Unit := do
  let memory ← orFault n ((← get).memory.writeWord? address.toNat w)
  modify fun m => { m with memory }

end Run

/-- The addresses of the words in which the host leaves and finds numbers. -/
structure WordAddresses where
  /-- Where the parameters begin. -/
  params : UInt32 := 0
  /-- The length of the parameters. -/
  paramsLen : UInt32 := 4
  /-- The handle of the invocation. -/
  handle : UInt32 := 8
  /-- The signal of the last request. -/
  signal : UInt32 := 12

/-- The addresses of the words. -/
def wordAt : WordAddresses := {}

namespace Action

variable {σ : Type}

open Run

/-- Makes a request and stores its signal. -/
def serve (host : HostCalls σ) (linkage : Linkage) (regions : Regions) : Run σ Unit := do
  let m ← get
  let (answer, caller, world) := host.request linkage regions m.toCaller m.world
  set { caller with world : Machine σ }
  match answer with
  | .signal n => storeWord 0 wordAt.signal n.toUInt32
  | .crashed message => throw (.crashed message)
  | .suspended => throw .suspended

/-- The number of rounds a counter stands for; counting down from zero takes all numbers. -/
def roundsOf (counter : Int32) : Nat :=
  if counter = 0 then UInt32.size else counter.toUInt32.toNat

/-- Performs an action. -/
def perform (host : HostCalls σ) (linkage : Linkage) : Action → Run σ Unit
  | .request headerPtr headerLen bodyPtr bodyLen => do
    need 6
    spend 12
    serve host linkage { headerPtr, headerLen, bodyPtr, bodyLen }
    spend 1
  | .requestAt headerPtr headerLen bodyPtrAt bodyLenAt => do
    need 6
    let bodyPtr := (← loadWord 5 bodyPtrAt.toUInt32).toInt32
    let bodyLen := (← loadWord 5 bodyLenAt.toUInt32).toInt32
    spend 14
    serve host linkage { headerPtr, headerLen, bodyPtr, bodyLen }
    spend 1
  | .patch address delta => do
    need 4
    let handle ← loadWord 3 wordAt.handle
    storeWord 3 address.toUInt32 (handle + delta.toUInt32)
    spend 10
  | .store address value => do
    need 4
    storeWord 3 address.toUInt32 value.toUInt32
    spend 7
  | .log ptr len => do
    need 4
    spend 7
    modify fun m => { m with world := host.log linkage ptr len m.memory m.world }
  | .grow pages address => do
    need 4
    let m ← get
    match m.memory.grow? pages.toUInt32.toNat linkage.pageLimit with
    | some memory =>
      set { m with memory }
      storeWord 3 address.toUInt32 (UInt32.ofNat m.memory.pages)
    | none => storeWord 3 address.toUInt32 (-1)
    spend 8
  | .divide divisor => do
    need 3
    if divisor = 0 then halt 2 (.trap .divideByZero)
    spend 6
  | .burn counter => do
    let rounds := roundsOf counter
    need (3 + 6 * (rounds - 1))
    spend (3 + 6 * rounds)
  | .spin => do
    need 2
    if linkage.breaksOff then throw .suspended
    halt (← get).gas (.trap .outOfFuel)
  | .trap => do
    need 2
    halt 2 (.trap .unreachable)
  | .exit code => do
    need 3
    halt 5 (.exited code)
  | .file address => do
    need 3
    storeWord 9 address.toUInt32 0
    spend 10

/-- Performs actions one after another. -/
def performAll (host : HostCalls σ) (linkage : Linkage) (actions : List Action) : Run σ Unit :=
  actions.forM (perform host linkage)

end Action

/-! ### Exported functions -/

section

variable {σ : Type} (host : HostCalls σ) (linkage : Linkage)

open Run

/-- Finds the handle of the invocation in the parameters and stores it.  The first parameter has a
key of fifteen bytes, so its value begins 31 bytes after the parameters and its length stands four
bytes before it.  Every digit is read in a round of a loop; the price is settled by the method. -/
def readHandle : Run σ Nat := do
  need 3
  let value := (← loadWord 2 wordAt.params) + 31
  let digits := (← loadWord 2 (value - 4)).toInt32.toInt.toNat
  let memory := (← get).memory
  let readable := min digits (memory.size - value.toNat)
  need (15 + 18 * readable)
  if readable < digits then halt 2 (.trap .outOfBounds)
  let handle := (memory.bytesFrom value.toNat digits).foldl
    (fun (n : UInt32) b => n * 10 + b.toUInt32 - 48) 0
  storeWord 2 wordAt.handle handle
  pure digits

/-- Calls a method: it finds its handle, and then performs its actions. -/
def Function.call (f : Function) : Run σ Unit := do
  need 1
  let digits ← readHandle
  spend (22 + 18 * digits)
  Action.performAll host linkage f.body
  spend f.results

/-- Calls the function that tells for which kind of host a contract was built. -/
def RuntimeTypeExport.call (f : RuntimeTypeExport) : Run σ Int32 := do
  need 1
  spend 1
  Action.performAll host linkage f.body
  spend 1
  pure f.value

/-- Calls the function that gives room.  It notes where the room is and how much was asked for. -/
def AllocateExport.call (f : AllocateExport) (len : Int32) : Run σ Int32 := do
  need 1
  storeWord 0 wordAt.params f.value.toUInt32
  storeWord 0 wordAt.paramsLen len.toUInt32
  spend 7
  Action.performAll host linkage f.body
  spend 1
  pure f.value

/-- Calls a function that does nothing but its actions. -/
def callPlain (body : List Action) : Run σ Unit := do
  need 1
  spend 1
  Action.performAll host linkage body

/-- Calls an exported function.  Of the arguments only one ever matters.  The result is the first
one, or zero if there is none. -/
def Export.call (argument : Int32) : Export → Run σ Int32
  | .runtimeType f => f.call host linkage
  | .allocate f =>
    if f.wellTyped then f.call host linkage argument
    else do
      callPlain host linkage []
      spend 1
      pure f.value
  | .deallocate body => do
    callPlain host linkage body
    pure 0
  | .method f => do
    f.call host linkage
    pure 0

end

end ContractHost
