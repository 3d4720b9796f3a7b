import ContractHost.Pool.Control

/-!
# Using a pool

What the users of a pool do.  Nothing here waits: whatever has to wait is noted in the pool, and
goes on when the pool settles.

## Main definitions

* `Pool.create` — a pool of its smallest size.
* `Pool.acquire`, `Pool.cancel` — asking for an instance, and no longer asking.
* `Pool.release`, `Pool.discard` — giving an instance back, and giving it up.
* `Pool.claim` — taking the answer.
* `Pool.createDetached` — an instance outside the pool.
* `Pool.requestReset`, `Pool.requestShutdown` — asking for a reset and for the end.
-/

namespace ContractHost.Pool

variable {σ : Type} (s : Supply σ)

/-- A pool of its smallest size.  First an instance is made on trial. -/
def create (contract : ContractId) (program : Module) (settings : PoolTerms) (x : σ) :
    Except ExecutionError Pool × σ :=
  match s.create program x with
  | (.error e, x) => (.error e, x)
  | (.ok trial, x) =>
    let (p, x) := grow s { contract, program, settings } settings.minSize (s.teardown trial x)
    (.ok { p with control := if settings.isMeasurable then .idle else .ended }, x)

/-- Asks for an instance.  A ready one is served at once; otherwise the caller waits in line and
asks for growth. -/
def acquire (p : Pool) : Ticket × Pool :=
  let ticket := p.nextTicket
  let p := { p with nextTicket := ticket + 1 }
  if p.closed then (ticket, { p with served := p.served ++ [(ticket, .error p.closedError)] })
  else match p.take with
    | (some i, p) =>
      (ticket, { p with uses := p.uses + 1, served := p.served ++ [(ticket, .ok i)] })
    | (none, p) =>
      (ticket, { p.signal [.grow] with waiters := p.waiters ++ [.caller ticket p.now] })

/-- The waiter is the caller with the ticket. -/
def isWaiting (ticket : Ticket) : Waiter → Bool
  | .caller t _ => t == ticket
  | .control => false

/-- A caller no longer waits.  The claim that it was given goes to the next one. -/
def cancel (p : Pool) (ticket : Ticket) : Pool :=
  let waiters := p.waiters.filter fun w => !isWaiting ticket w
  if p.woken.any (isWaiting ticket) then
    { p with waiters, woken := p.woken.eraseP (isWaiting ticket) }.grant
  else { p with waiters }

/-- Gives an instance back.  It becomes ready again if it belongs to the pool and to its present
generation, and has not failed too often; otherwise it ends, and is replaced unless the pool is
shut down. -/
def release (p : Pool) (i : Instance) (x : σ) : Pool × σ :=
  let i := i.unbind
  if i.detached then (p, s.teardown i x)
  else if p.closed then p.retire s i x
  else if i.epoch != p.epoch || p.settings.discardThreshold < i.errors then
    (p.signal [.remove, .add], s.teardown i x)
  else (p.push i, x)

/-- Gives up an instance whose call was broken off.  It performs no last actions. -/
def discard (p : Pool) (i : Instance) (x : σ) : Pool × σ :=
  let p :=
    if i.detached then p
    else if p.closed then { p with size := p.size - 1 }
    else p.signal [.remove, .add]
  (p, s.drop i x)

/-- Makes an instance that does not belong to the pool. -/
def createDetached (p : Pool) (x : σ) : Except ExecutionError Instance × σ :=
  match s.create p.program x with
  | (.ok i, x) => (.ok { i with detached := true }, x)
  | (.error e, x) => (.error e, x)

/-- Asks for a reset, and gives the number of the request. -/
def requestReset (p : Pool) : Nat × Pool :=
  (p.nextRequest, { p.signal [.reset p.nextRequest] with nextRequest := p.nextRequest + 1 })

/-- A reset is still to be done. -/
def isPending (p : Pool) (request : Nat) : Bool :=
  p.signals.contains (.reset request)

/-- The tickets of the callers that wait. -/
def waiting (p : Pool) : List Ticket :=
  p.waiters.filterMap fun
    | .caller ticket _ => some ticket
    | .control => none

/-- Shuts the pool down.  Whoever waits is told at once; the control task ends the ready
instances. -/
def requestShutdown (p : Pool) : Pool :=
  if p.closed then p
  else
    let p := { p with
      closed := true
      waiters := []
      served := p.served ++ p.waiting.map fun ticket => (ticket, Except.error p.closedError) }
    p.signal [.shutdown]

/-- Takes out the answer to a caller, if there is one. -/
def claim (p : Pool) (ticket : Ticket) : Option (Except ExecutionError Instance) × Pool :=
  ((p.served.find? fun a => a.1 == ticket).map (·.2),
    { p with served := p.served.eraseP fun a => a.1 == ticket })

/-- Takes out the answers to all callers. -/
def collect (p : Pool) : List (Ticket × Except ExecutionError Instance) × Pool :=
  (p.served, { p with served := [] })

/-- Lets an amount of time pass in which nothing happens. -/
def wait (p : Pool) (milliseconds : Nat) : Pool :=
  { p with now := p.now + milliseconds }

/-- Moves the clock for regular looks forward. -/
def advance (p : Pool) (seconds : Nat) : Pool :=
  { p with clock := p.clock + seconds }

/-- The pool with its contract, its size and whether it is shut down, for diagnostics. -/
def describe (p : Pool) : String :=
  "InstancePool \x7b contract: " ++ p.contract.describe ++ ", current_size: " ++
    toString p.size ++ ", closed: " ++ toString p.closed ++ ", .. \x7d"

end ContractHost.Pool
