import ContractHost.Host.Basic

/-!
# Host calls

The two functions that the host offers to a running contract.  A request names the regions of the
contract's memory that hold its header and its body.  It is served only for the invocation to which
the calling instance is bound, and is answered with a signal; whatever goes wrong is recorded in
the outcome of that invocation, or is lost if there is none.

A call of another contract runs on what gas the caller has left, and the caller goes on with what
the call leaves.

## Main definitions

* `Memory.region` — access to a region that a contract names.
* `Completion`, `Invoker` — how a nested call ends, and whatever carries one out.
* `Host.request`, `Host.log`, `hostCalls` — the host calls.
-/

namespace ContractHost

/-! ### Regions -/

namespace Memory

/-- The region that a contract names, if it lies inside memory. -/
def region (m : Memory) (ptr len : Int32) : Except SyscallError (Nat × Nat) :=
  if 0 ≤ ptr.toInt ∧ 0 ≤ len.toInt ∧ ptr.toInt + len.toInt ≤ m.size then
    .ok (ptr.toInt.toNat, len.toInt.toNat)
  else .error (.memoryOutOfBounds ptr.toInt len.toInt m.size)

/-- The bytes of a region that a contract names. -/
def readRegion (m : Memory) (ptr len : Int32) : Except SyscallError Bytes := do
  let (start, count) ← m.region ptr len
  pure (m.bytesFrom start count)

/-- The memory with bytes put into the region that begins where a contract names.  A length beyond
the range of numbers counts as the greatest number. -/
def writeRegion (m : Memory) (ptr : Int32) (b : Bytes) : Except SyscallError Memory := do
  let len := if b.length < 0x80000000 then Int32.ofNat b.length else Int32.maxValue
  let (start, _) ← m.region ptr len
  pure (m.put start b)

end Memory

/-- The memory of a contract, if it exports one. -/
def exportedMemory (linkage : Linkage) (m : Memory) : Except SyscallError Memory :=
  if linkage.exportsMemory then .ok m else .error .memoryNotExported

/-- The header and the body of a request. -/
def readRequest (linkage : Linkage) (m : Memory) (r : Regions) :
    Except SyscallError (Bytes × Bytes) := do
  let memory ← exportedMemory linkage m
  let header ← memory.readRegion r.headerPtr r.headerLen
  let body ← memory.readRegion r.bodyPtr r.bodyLen
  pure (header, body)

/-- The text to be logged, if it lies inside the memory of the contract. -/
def readText? (linkage : Linkage) (m : Memory) (ptr len : Int32) : Option String :=
  if ptr < 0 ∨ len < 0 then none
  else if !linkage.exportsMemory then none
  else
    let start := ptr.toInt.toNat
    let stop := start + len.toInt.toNat
    if m.size < stop then none
    else some (Utf8.decodeLossy (m.bytesFrom start (stop - start)))

/-- The handle and the name of the request that a header gives. -/
def readHeader (header : Bytes) : Except PacketError (Int32 × String) := do
  let packet ← Packet.decode header
  let handle ← packet.getInt32 headerKeys.handle
  let method ← packet.getText headerKeys.method
  pure (handle, method)

/-- Does what a reply asks for, and gives the signal. -/
def applyReply (linkage : Linkage) (caller : Caller) : Reply → Except SyscallError (Int32 × Caller)
  | .done => .ok (signals.success, caller)
  | .rejected => .ok (signals.failure, caller)
  | .write ptr bytes => do
    let memory ← exportedMemory linkage caller.memory
    let memory ← memory.writeRegion ptr bytes
    pure (signals.success, { caller with memory })

/-! ### Nested calls -/

/-- How a call ends. -/
inductive Completion
  /-- With an outcome, or with the reason why it was not carried out. -/
  | finished (result : Except ExecutionError Outcome)
  /-- Not at all: it was broken off. -/
  | suspended
  deriving Inhabited

/-- Whatever carries out calls. -/
abbrev Invoker (τ : Type) := Call → Host τ → Completion × Host τ

/-- How a request ends. -/
inductive Served
  /-- With a reply or a fault. -/
  | finished (result : Except RequestFault Reply)
  /-- Not at all: the nested call was broken off. -/
  | suspended

variable {τ : Type} [LedgerAccess τ]

/-- The depth of a call that is nested in one at a depth.  The host crashes if there is no such
number. -/
def deeper (depth : UInt32) : Serving τ UInt32 :=
  if depth + 1 = 0 then throw (.crashed "attempt to add with overflow") else pure (depth + 1)

/-- The call that a contract asks for, and the place for the length of its payload. -/
def callOf (setup : HostSetup) (gas : Nat) (body : Bytes) : Serving τ (Int32 × Call) := do
  let body ← Serving.ofPacket (Packet.decode body)
  let ptr ← Serving.place body
  let name ← Serving.ofPacket (body.getText "contract_name")
  let method ← Serving.ofPacket (body.getText "method")
  if name = "" ∨ method = "" then
    Serving.fail (.invalidArgument "contract_name and method are required")
  let params ←
    match body.get? "param" with
    | some _ => do
      let blob ← Serving.ofPacket (body.getBytes "param")
      pure (← Serving.ofPacket (Packet.decode blob)).toMap
    | none => pure ∅
  let (contract, code) ← Serving.ofLedger (LedgerAccess.getContract (← Serving.ledger) name)
  let depth ← deeper (← Serving.context).depth
  pure (ptr,
    { contract, code, method, params, depth, gasUsed := UInt64.ofNat (setup.gasLimit - gas) })

/-- Takes the outcome of a nested call over into the caller's invocation. -/
def absorb (ptr : Int32) (o : Outcome) : Serving τ Reply := do
  Serving.update (·.mergeTxClass o.txClass)
  if !o.isSuccess then
    Serving.update Context.clearCache
    Serving.fail (.callContract o.message)
  Serving.update (·.pushEvents o.events)
  let len ← Serving.updateGet (·.cache o.payload)
  pure (.length ptr len)

namespace Host

/-- Serves a request on the invocation of a context that is registered. -/
def serveOn {α : Type} (h : Host τ) (c : Context) (r : Serving τ α) :
    Except RequestFault α × Host τ :=
  let (result, d) := (h.desk c).run r
  (result, h.clear d)

/-- The invocation as it is now. -/
def current (h : Host τ) (c : Context) : Context :=
  (h.registry.get? c.handle).getD c

/-- Serves a call of another contract. -/
def serveCall (setup : HostSetup) (invoke : Invoker τ) (c : Context) (body : Bytes)
    (caller : Caller) (h : Host τ) : Served × Caller × Host τ :=
  match h.serveOn c (callOf setup caller.gas body) with
  | (.error e, h) => (.finished (.error e), caller, h)
  | (.ok (ptr, call), h) =>
    match invoke call h with
    | (.suspended, h) => (.suspended, caller, h)
    | (.finished (.error e), h) =>
      (.finished (.error (.failed (.callContract e.message))), caller, h)
    | (.finished (.ok o), h) =>
      let caller := { caller with gas := setup.gasLimit - o.gasUsed.toNat }
      let (result, h) := h.serveOn (h.current c) (absorb ptr o)
      (.finished result, caller, h)

/-- Serves a request of an invocation. -/
def serveRequest (setup : HostSetup) (invoke : Invoker τ) (c : Context) (name : String)
    (body : Bytes) (caller : Caller) (h : Host τ) : Served × Caller × Host τ :=
  if name = Method.callContractLen.name then h.serveCall setup invoke c body caller
  else
    let (result, h) := h.serveOn c (serve setup.crypto name body)
    (.finished result, caller, h)

/-- Records an error in the outcome of an invocation. -/
def record (h : Host τ) (c : Context) (e : SyscallError) : Host τ :=
  { h with registry := h.registry.update ((h.current c).recordError e.message) }

/-- Answers a request that was served. -/
def answer (linkage : Linkage) (c : Context) (served : Served) (caller : Caller) (h : Host τ) :
    Answer × Caller × Host τ :=
  match served with
  | .suspended => (.suspended, caller, h)
  | .finished (.error (.crashed message)) => (.crashed message, caller, h)
  | .finished (.error (.failed e)) => (.signal signals.failure, caller, h.record c e)
  | .finished (.ok reply) =>
    match applyReply linkage caller reply with
    | .ok (signal, caller) => (.signal signal, caller, h)
    | .error e => (.signal signals.failure, caller, h.record c e)

/-- The invocation for which a request is served: the one that the header names, if the calling
instance is bound to it; together with the name of the request and its body. -/
def addressee? (linkage : Linkage) (r : Regions) (m : Memory) (h : Host τ) :
    Option (Context × String × Bytes) :=
  if r.headerLen = 0 then none
  else do
    let (header, body) ← (readRequest linkage m r).toOption
    let (handle, name) ← (readHeader header).toOption
    if linkage.bound = some handle then
      let c ← h.registry.get? handle
      some (c, name, body)
    else none

/-- The host call for requests. -/
def request (setup : HostSetup) (invoke : Invoker τ) (linkage : Linkage) (r : Regions)
    (caller : Caller) (h : Host τ) : Answer × Caller × Host τ :=
  match h.addressee? linkage r caller.memory with
  | none => (.signal signals.failure, caller, h)
  | some (c, name, body) =>
    let (served, caller, h) := h.serveRequest setup invoke c name body caller
    h.answer linkage c served caller

/-- The host call for logging.  A text outside memory is passed over. -/
def log (linkage : Linkage) (ptr len : Int32) (m : Memory) (h : Host τ) : Host τ :=
  match readText? linkage m ptr len with
  | none => h
  | some line =>
    match linkage.bound.bind h.registry.get? with
    | some c => h.clear ((h.desk c).log line)
    | none => { h with journal := h.journal ++ [.unbound line] }

end Host

/-- The host calls. -/
def hostCalls (setup : HostSetup) (invoke : Invoker τ) : HostCalls (Host τ) where
  request linkage r caller h := h.request setup invoke linkage r caller
  log linkage ptr len m h := h.log linkage ptr len m

end ContractHost
