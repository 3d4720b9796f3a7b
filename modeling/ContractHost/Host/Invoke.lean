import ContractHost.Host.Pools
import ContractHost.Packet.Encoding

/-!
# Invocations

A call takes an instance, runs the method on it with what gas the callers have left, and gives the
instance back.  A top-level call takes a ready instance of the contract's pool.  A nested one makes
an instance of its own, so that it never waits for a pool that its callers have emptied.

What goes wrong inside the contract becomes part of the outcome.  A call is refused only if it is
nested too deeply, or if no instance can be had.

## Main definitions

* `Host.callGuest` — the steps on the instance.
* `Host.conclude` — the outcome, and what becomes of the instance.
* `Host.invoke` — a call and all calls nested in it.
* `Host.goOn`, `Host.leave` — a call that has waited, and one that no longer does.
* `Host.abandon` — the end of a call that was broken off.
-/

namespace ContractHost

namespace Host

variable {τ : Type} [LedgerAccess τ] (setup : HostSetup)

/-! ### Instances for calls -/

/-- Where a call stands that asked for an instance. -/
inductive Obtained
  /-- It has one. -/
  | instance (i : Instance)
  /-- There is none to be had. -/
  | refused (e : ExecutionError)
  /-- All are in use, and it waits under a number for one to be given back. -/
  | waiting (ticket : Ticket)

/-- Takes the answer to a caller of a pool, if there is one by now. -/
def claim (id : PoolId) (ticket : Ticket) (h : Host τ) : Obtained × Host τ :=
  match h.pools.get? id with
  | none => (.waiting ticket, h)
  | some p =>
    let (answer, p) := p.claim ticket
    let h := { h with pools := h.pools.insert id p }
    match answer with
    | some (.ok i) => (.instance i, h)
    | some (.error e) => (.refused e, h)
    | none => (.waiting ticket, h)

/-- A ready instance of a pool, or else a place in its line. -/
def takeReady (id : PoolId) (h : Host τ) : Obtained × Host τ :=
  match h.pools.get? id with
  | none => (.waiting 0, h)
  | some p =>
    let (ticket, p) := p.acquire
    let (p, h) := p.settle (supply setup) h
    { h with pools := h.pools.insert id p }.claim id ticket

/-- An instance outside a pool. -/
def takeDetached (id : PoolId) (h : Host τ) : Obtained × Host τ :=
  match h.pools.get? id with
  | none => (.waiting 0, h)
  | some p =>
    match p.createDetached (supply setup) h with
    | (.ok i, h) => (.instance i, h)
    | (.error e, h) => (.refused e, h)

/-- An instance for a call at a depth. -/
def obtain (depth : UInt32) (id : PoolId) (h : Host τ) : Obtained × Host τ :=
  if 0 < depth then h.takeDetached setup id else h.takeReady setup id

/-- Gives an instance back.  One outside its pool ends. -/
def giveBack (id : PoolId) (i : Instance) (h : Host τ) : Host τ :=
  if i.detached then h.teardownInstance setup i.unbind
  else (h.withPool id fun p h => p.release (supply setup) i h).settlePool setup id

/-! ### The call itself -/

/-- The steps on the instance, over whatever state the host calls work on: its gas is set, the kind
of host is checked, the parameters are written, and the method is called. -/
def callGuest {σ : Type} (guest : Guest) (calls : HostCalls σ) (breaksOff : Bool) (c : Context)
    (budget : UInt64) (i : Instance) (world : σ) : Except CallFault Unit × Instance × σ :=
  match (i.setGas budget).runtimeType calls breaksOff world guest with
  | (.error e, i, world) => (.error e, i, world)
  | (.ok kind, i, world) =>
    if kind ≠ hostKind then (.error (.error (.runtimeTypeMismatch hostKind kind)), i, world)
    else
      let params := (Packet.ofParams handleParam c.handle c.params).encode
      match i.writeParams calls breaksOff params world guest with
      | (.error e, i, world) => (.error e, i, world)
      | (.ok _, i, world) => i.callMethod calls breaksOff c.method world guest

/-- The wording of a fault. -/
def faultText : CallFault → String
  | .error e => e.message
  | .crashed message => s!"host panic: {message}"
  | .suspended => "suspended"

/-- What went wrong in a call, if anything.  That no gas is left comes before everything else. -/
def reasonOf (gasLimit remaining : UInt64) (result : Except CallFault Unit) : Option String :=
  if remaining = 0 then some (ExecutionError.outOfGas gasLimit gasLimit).message
  else match result with
    | .ok () => none
    | .error e => some (faultText e)

/-- The host crashed in the call. -/
def isCrash : Except CallFault Unit → Bool
  | .error (.crashed _) => true
  | _ => false

/-- The outcome of a call that went wrong. -/
def failedOutcome (txId reason : String) (o : Outcome) : Outcome :=
  { o with
    code := Outcome.failure
    message := s!"contract invoke failed, {reason}, tx: {txId}"
    events := [] }

/-- Ends a call that was not broken off.  If setting a contract up went wrong, its pool is
closed. -/
def conclude (id : PoolId) (c : Context) (result : Except CallFault Unit) (i : Instance)
    (h : Host τ) : Outcome × Host τ :=
  let limit := setup.config.execution.gasLimit
  let o := (h.current c).outcome
  let o := { o with gasUsed := UInt64.ofNat (limit.toNat - i.gas.toNat) }
  let o := if isCrash result then { o with txClass := .normal } else o
  let h := { h with registry := h.registry.remove c.handle }
  match reasonOf limit i.gas result with
  | none => (o, h.giveBack setup id i.clearErrors)
  | some reason =>
    let o := failedOutcome (LedgerAccess.txId h.ledger) reason o
    if c.method = exportNames.init then (o, (h.giveBack setup id i).closePool setup c.contract)
    else (o, h.giveBack setup id i.recordError)

/-- The context of a call. -/
def contextOf (call : Call) (i : Instance) : Context :=
  { contract := call.contract, method := call.method, depth := call.depth,
    instanceId := some i.id, params := call.params }

/-- Carries a call out on an instance. -/
def runOn (calls : HostCalls (Host τ)) (breaksOff : Bool) (call : Call) (id : PoolId)
    (i : Instance) (h : Host τ) : Completion × Host τ :=
  match h.registry.register (contextOf call i) with
  | .error e => (.finished (.error e), h.giveBack setup id i)
  | .ok (c, registry) =>
    let budget := UInt64.ofNat (setup.gasLimit - call.gasUsed.toNat)
    match callGuest setup.guest calls breaksOff c budget (i.bind c.handle) { h with registry } with
    | (.error .suspended, i, h) =>
      (.suspended, { h with stalled := h.stalled ++ [⟨id, c.handle, i⟩] })
    | (result, i, h) =>
      let (o, h) := h.conclude setup id c result i
      (.finished (.ok o), h)

/-- Carries out a call and the calls nested in it, up to a number of levels. -/
def invokeWithin (breaksOff : Bool) : (levels : Nat) → Call → Host τ → Completion × Host τ
  | 0, call, h =>
    (.finished (.error (.callDepthExceeded call.depth setup.config.execution.maxCallDepth)), h)
  | levels + 1, call, h =>
    let max := setup.config.execution.maxCallDepth
    if max < call.depth then (.finished (.error (.callDepthExceeded call.depth max)), h)
    else match h.openPool setup call.contract call.code with
      | (.error e, h) => (.finished (.error e), h)
      | (.ok id, h) =>
        match h.obtain setup call.depth id with
        | (.refused e, h) => (.finished (.error e), h)
        | (.waiting ticket, h) =>
          (.suspended, { h with queued := h.queued ++ [⟨id, ticket, call⟩] })
        | (.instance i, h) =>
          let calls := hostCalls setup (invokeWithin breaksOff levels)
          h.runOn setup calls breaksOff call id i

/-- The call leaves the line. -/
def dequeue (h : Host τ) (q : Queued) : Host τ :=
  { h with queued := h.queued.filter fun other =>
      other.pool != q.pool || other.ticket != q.ticket }

/-- A call that has waited goes on, if there is an answer for it. -/
def goOn (breaksOff : Bool) (levels : Nat) (q : Queued) (h : Host τ) : Completion × Host τ :=
  match (h.dequeue q).claim q.pool q.ticket with
  | (.waiting _, _) => (.suspended, h)
  | (.refused e, h) => (.finished (.error e), h)
  | (.instance i, h) =>
    let calls := hostCalls setup (invokeWithin setup breaksOff levels)
    h.runOn setup calls breaksOff q.call q.pool i

/-- A call that waits is given up, and with it the instance that it may have been given by now. -/
def leave (h : Host τ) (q : Queued) : Host τ :=
  let h := match (h.dequeue q).claim q.pool q.ticket with
    | (.instance i, h) => h.withPool q.pool fun p h => p.discard (supply setup) i h
    | (_, h) => h.withPool q.pool fun p h => (p.cancel q.ticket, h)
  h.settlePool setup q.pool

/-- A call that has not ended leaves the line in which it waits. -/
def withdraw (h : Host τ) : Completion × Host τ → Completion × Host τ
  | (.finished result, after) => (.finished result, after)
  | (.suspended, after) =>
    (.suspended, (after.queued.drop h.queued.length).foldl (leave setup) after)

/-- Carries out a call and the calls nested in it.  A nested call has less gas than its caller, so
there are never more levels than there is gas.  A call that would have to wait is not carried
out. -/
def invoke (call : Call) (h : Host τ) : Completion × Host τ :=
  h.withdraw setup (invokeWithin setup false (setup.gasLimit + 1) call h)

/-! ### Breaking off -/

/-- Carries out a call until it ends or its contract has come to an endless loop. -/
def invokeUntilStalled (call : Call) (h : Host τ) : Completion × Host τ :=
  invokeWithin setup true (setup.gasLimit + 1) call h

/-- Gives up an instance of a call that was broken off. -/
def abandonLease (h : Host τ) (l : Lease) : Host τ :=
  ({ h with registry := h.registry.remove l.handle }.withPool l.pool fun p h =>
    p.discard (supply setup) l.inst h).settlePool setup l.pool

/-- Gives up the calls that were broken off, and those that wait. -/
def abandon (h : Host τ) : Host τ :=
  let h := h.queued.foldl (leave setup) h
  h.stalled.foldl (abandonLease setup) { h with stalled := [] }

end Host

end ContractHost
