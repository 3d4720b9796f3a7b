import ContractHost.Contract
import ContractHost.Instance

/-!
# Pools of instances

A pool keeps instances of one contract ready, so that an invocation need not wait for one to be
made.  The ready instances stand in one queue, and there is a claim to each of them.  Whoever wants
an instance takes a free claim, and with it the instance at the front of the queue.  A caller that
finds no free claim waits in line for one, and asks the pool to grow; a claim that becomes free goes
to whoever has waited longest.  Until that caller goes on, its instance is still in the queue, and
others may pass it.

A control task alone changes the size.  It works through a queue of signals, and looks at the pool
again at regular times.  When it shrinks the pool it needs ready instances as callers do, and waits
in the same line.

## Main definitions

* `PoolTerms` — the settings of a pool, and when its control task begins.
* `Signal`, `Control` — what the control task is told, and what it is doing.
* `Pool` — the state of a pool.
* `Pool.averageDelay`, `shouldGrow`, `shouldShrink` — when the size changes.
* `Pool.push`, `Pool.take`, `Pool.resume` — an instance becomes ready, and is taken.
-/

namespace ContractHost

/-- The number of a caller that asked for an instance. -/
abbrev Ticket := Nat

/-- The terms on which a pool is run: its settings, and what the clock shows when its control task
begins. -/
structure PoolTerms extends PoolConfig where
  /-- What the clock shows, in seconds. -/
  started : Nat := 0
  deriving Repr, DecidableEq, Inhabited

/-- Settings on their own are the terms of a control task that begins with the clock. -/
instance : Coe PoolConfig PoolTerms :=
  ⟨fun settings => { settings with }⟩

/-- The control task can tell when its first regular look is due.  It breaks down at once if it
cannot. -/
def PoolTerms.isMeasurable (terms : PoolTerms) : Bool :=
  0 < terms.refreshIntervalSecs &&
    terms.started + terms.refreshIntervalSecs.toNat < 0x8000000000000000

/-- What the control task is told. -/
inductive Signal
  /-- A caller found no ready instance. -/
  | grow
  /-- An instance is to be replaced. -/
  | add
  /-- An instance has left the pool for good. -/
  | remove
  /-- All ready instances are to be replaced.  Someone waits until that is done. -/
  | reset (request : Nat)
  /-- The pool is to end. -/
  | shutdown
  deriving Repr, DecidableEq, Inhabited

/-- Who waits for a ready instance. -/
inductive Waiter
  /-- A caller, and since when. -/
  | caller (ticket : Ticket) (since : Nat)
  /-- The control task. -/
  | control
  deriving Repr, DecidableEq, Inhabited

/-- What the control task is doing. -/
inductive Control
  /-- It waits for a signal or for the next look at the pool. -/
  | idle
  /-- It is taking instances away and has some left to take. -/
  | shrinking (left : Nat)
  /-- It has ended. -/
  | ended
  deriving Repr, DecidableEq, Inhabited

/-- The state of a pool. -/
structure Pool where
  /-- The contract. -/
  contract : ContractId
  /-- The module of which instances are made. -/
  program : Module
  /-- The terms on which the pool is run. -/
  settings : PoolTerms
  /-- The ready instances, the one ready for longest first. -/
  ready : List Instance := []
  /-- How many claims to ready instances are free. -/
  permits : Nat := 0
  /-- Who waits for a claim, in the order of arrival. -/
  waiters : List Waiter := []
  /-- Who has waited, was given a claim, and has not gone on yet. -/
  woken : List Waiter := []
  /-- Callers that got their answer. -/
  served : List (Ticket × Except ExecutionError Instance) := []
  /-- The number of instances that belong to the pool, ready or in use. -/
  size : UInt32 := 0
  /-- How many callers got an instance since the counters were reset. -/
  uses : UInt32 := 0
  /-- How long they waited altogether, in milliseconds. -/
  totalDelay : UInt64 := 0
  /-- The generation; every reset begins a new one. -/
  epoch : UInt64 := 0
  /-- The pool is shut down. -/
  closed : Bool := false
  /-- What the control task has still to be told. -/
  signals : List Signal := []
  /-- What the control task is doing. -/
  control : Control := .idle
  /-- How often callers have asked for growth since the counters were reset. -/
  growCount : UInt32 := 0
  /-- The number of the next caller. -/
  nextTicket : Ticket := 0
  /-- The number of the next reset. -/
  nextRequest : Nat := 0
  /-- The time for measuring waits, in milliseconds. -/
  now : Nat := 0
  /-- The time for regular looks at the pool, in seconds. -/
  clock : Nat := 0
  /-- How many of these looks have been taken. -/
  ticked : Nat := 0

namespace Pool

/-! ### Sizing -/

/-- The average wait of the callers, in milliseconds. -/
def averageDelay (p : Pool) : Nat :=
  p.totalDelay.toNat / p.uses.toNat

/-- Callers wait for longer than they should. -/
def isSlow (p : Pool) : Bool :=
  p.settings.delayToleranceMs.toNat < p.averageDelay

/-- The pool should grow: it is too small, or there is room for a step and callers wait too long or
ask too often.  There is no answer if the size and a step together do not fit 32 bits. -/
def shouldGrow (p : Pool) : Option Bool :=
  if p.size < p.settings.minSize then some true
  else if UInt32.size ≤ p.size.toNat + p.settings.growStep.toNat then none
  else some (p.size + p.settings.growStep ≤ p.settings.maxSize &&
    (p.settings.applyThreshold < p.growCount || p.isSlow))

/-- The pool should shrink: it is larger than it must be and than a step, and callers do not wait
too long. -/
def shouldShrink (p : Pool) : Bool :=
  p.settings.minSize < p.size && p.settings.growStep < p.size && !p.isSlow

/-- Begins counting uses, waits and requests for growth again. -/
def resetCounters (p : Pool) : Pool :=
  { p with uses := 0, totalDelay := 0, growCount := 0 }

/-! ### Claims and instances -/

/-- The answer to callers of a pool that is shut down. -/
def closedError (p : Pool) : ExecutionError :=
  .poolClosed p.contract.key

/-- A claim becomes free, or goes to whoever has waited longest. -/
def grant (p : Pool) : Pool :=
  match p.waiters with
  | [] => { p with permits := p.permits + 1 }
  | w :: waiters => { p with waiters, woken := p.woken ++ [w] }

/-- Makes an instance ready. -/
def push (p : Pool) (i : Instance) : Pool :=
  { p with ready := p.ready ++ [i] }.grant

/-- Takes a ready instance without waiting. -/
def take (p : Pool) : Option Instance × Pool :=
  match p.permits, p.ready with
  | 0, _ => (none, p)
  | permits + 1, [] => (none, { p with permits })
  | permits + 1, i :: ready => (some i, { p with permits, ready })

/-- A caller with a claim goes on.  Should no instance be ready, it waits again. -/
def resume (p : Pool) (ticket : Ticket) (since : Nat) : Pool :=
  if p.closed then { p with served := p.served ++ [(ticket, .error p.closedError)] }
  else match p.ready with
    | [] => { p with waiters := p.waiters ++ [.caller ticket since] }
    | i :: ready => { p with
        ready
        uses := p.uses + 1
        totalDelay := p.totalDelay + UInt64.ofNat (p.now - since)
        served := p.served ++ [(ticket, .ok i)] }

/-- Whoever was given a claim first goes on, if it is a caller. -/
def resumeFirst (p : Pool) : Pool :=
  match p.woken with
  | .caller ticket since :: woken => { p with woken }.resume ticket since
  | _ => p

/-- Of those with a claim a caller goes on, and the control task keeps its claim. -/
def resumeCaller (p : Pool) : Waiter → Pool
  | .caller ticket since => p.resume ticket since
  | .control => { p with woken := p.woken ++ [.control] }

/-- All callers with a claim go on. -/
def resumeAll (p : Pool) : Pool :=
  p.woken.foldl resumeCaller { p with woken := [] }

/-- Tells the control task something, unless it has ended. -/
def signal (p : Pool) (s : List Signal) : Pool :=
  if p.control = .ended then p else { p with signals := p.signals ++ s }

end Pool

end ContractHost
