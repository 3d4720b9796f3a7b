import ContractHost.Host.Calls

/-!
# The pools of a host

Pools are filed under the flat key of their contract, and made when a contract is first called.
A pool that is closed is no longer filed; the instances that were in use then still go back to it.

## Main definitions

* `Host.supply` — how instances come and go on a host.
* `Host.openPool` — the pool of a contract, made if there is none.
* `Host.closePool`, `resetPool`, `closeAll`, `resetAll` — the same for what is filed.
-/

namespace ContractHost

namespace Host

variable {τ : Type} [LedgerAccess τ] (setup : HostSetup)

/-! ### Instances -/

/-- The host calls of instances that serve no invocation, as in their first and last actions.  None
of their requests gets as far as a nested call. -/
def idleCalls : HostCalls (Host τ) :=
  hostCalls setup fun _ h => (.suspended, h)

/-- Makes an instance. -/
def createInstance (m : Module) (h : Host τ) : Except ExecutionError Instance × Host τ :=
  match Instance.create setup.guest (idleCalls setup) setup.config.engine setup.config.execution m
      h.nextInstance h.live h with
  | (.ok i, h) => (.ok i, { h with live := h.live + 1, nextInstance := h.nextInstance + 1 })
  | (.error e, h) => (.error e, h)

/-- Ends an instance at once. -/
def dropInstance (h : Host τ) : Host τ :=
  { h with live := h.live - 1 }

/-- Ends an instance after its last actions. -/
def teardownInstance (i : Instance) (h : Host τ) : Host τ :=
  (i.teardown (idleCalls setup) h setup.guest).dropInstance

/-- How instances come and go. -/
def supply : Supply (Host τ) where
  create := createInstance setup
  teardown := teardownInstance setup
  drop _ h := h.dropInstance

/-! ### Pools -/

/-- The number of the pool that is filed for a contract. -/
def poolId? (h : Host τ) (c : ContractId) : Option PoolId :=
  h.registered.get? c.key

/-- The pool that is filed for a contract. -/
def pool? (h : Host τ) (c : ContractId) : Option Pool :=
  (h.poolId? c).bind h.pools.get?

/-- Does something with a pool. -/
def withPool (h : Host τ) (id : PoolId) (f : Pool → Host τ → Pool × Host τ) : Host τ :=
  match h.pools.get? id with
  | none => h
  | some p =>
    let (p, h) := f p h
    { h with pools := h.pools.insert id p }

/-- Lets a pool go on as far as it can. -/
def settlePool (h : Host τ) (id : PoolId) : Host τ :=
  h.withPool id fun p h => p.settle (supply setup) h

/-- Makes a pool for a contract, and files it. -/
def createPool (c : ContractId) (code : Code) (h : Host τ) :
    Except ExecutionError PoolId × Host τ :=
  if !c.isComplete then
    (.error (.invalidContract s!"contract name or version missing: {c.describe}"), h)
  else if code.isEmpty then (.error (.invalidContract s!"no bytecode for contract {c.key}"), h)
  else match Module.ofCode setup.config.engine code with
    | .error e => (.error e, h)
    | .ok m =>
      let terms : PoolTerms := { setup.config.pool with started := h.uptime }
      match Pool.create (supply setup) c m terms h with
      | (.error e, h) => (.error e, h)
      | (.ok p, h) =>
        let id := h.nextPool
        (.ok id, { h with
          pools := h.pools.insert id p
          registered := h.registered.insert c.key id
          nextPool := id + 1 })

/-- The pool of a contract, made if none is filed. -/
def openPool (c : ContractId) (code : Code) (h : Host τ) : Except ExecutionError PoolId × Host τ :=
  match h.poolId? c with
  | some id => (.ok id, h)
  | none => h.createPool setup c code

/-- The keys under which pools are filed. -/
def poolKeys (h : Host τ) : List String :=
  h.registered.keys

/-- Shuts down the pool filed under a key, and no longer files it. -/
def closeKey (h : Host τ) (key : String) : Host τ :=
  match h.registered.get? key with
  | none => h
  | some id =>
    { h with registered := h.registered.erase key }.withPool id fun p h =>
      p.requestShutdown.settle (supply setup) h

/-- Shuts down the pool of a contract. -/
def closePool (h : Host τ) (c : ContractId) : Host τ :=
  h.closeKey setup c.key

/-- Shuts down all pools. -/
def closeAll (h : Host τ) : Host τ :=
  h.poolKeys.foldl (closeKey setup) h

/-- Resets the pool filed under a key. -/
def resetKey (h : Host τ) (key : String) : Host τ :=
  match h.registered.get? key with
  | none => h
  | some id => h.withPool id fun p h => p.requestReset.2.settle (supply setup) h

/-- Resets the pool of a contract. -/
def resetPool (h : Host τ) (c : ContractId) : Host τ :=
  h.resetKey setup c.key

/-- Resets all pools. -/
def resetAll (h : Host τ) : Host τ :=
  h.poolKeys.foldl (resetKey setup) h

end Host

end ContractHost
