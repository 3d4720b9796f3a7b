import ContractHost.Pool.Basic

/-!
# The control task of a pool

How the control task deals with one signal and with one regular look at the pool, and how it goes
on until it has nothing left to do or waits in line.

Growing goes in batches of at most one step.  While a batch is being made, the callers that were
given a claim before go on.  Of those whose claims are to the batch, only the one that got the very
first goes on before the control task does.

Whether the pool is to grow is found out with a sum of 32 bits.  The control task breaks down if it
does not fit, and then nobody changes the size any more, or hears what is signalled.

## Main definitions

* `Supply` — how instances come and go.
* `Pool.grow`, `Pool.shrink` — changes of the size.
* `Pool.obey`, `Pool.tick` — one signal, and one regular look.
* `Pool.settle` — the control task and all callers go on as far as they can.
-/

namespace ContractHost

/-- How instances come and go, over a state `σ` of their host. -/
structure Supply (σ : Type) where
  /-- Makes an instance. -/
  create : Module → σ → Except ExecutionError Instance × σ
  /-- Ends an instance after its last actions. -/
  teardown : Instance → σ → σ
  /-- Ends an instance at once. -/
  drop : Instance → σ → σ

namespace Supply

variable {σ : Type}

/-- Ends instances one after another. -/
def teardownAll (s : Supply σ) (instances : List Instance) (x : σ) : σ :=
  instances.foldl (fun x i => s.teardown i x) x

end Supply

namespace Pool

variable {σ : Type} (s : Supply σ)

/-! ### Growing -/

/-- Makes one more instance; says whether that succeeded. -/
def growOne (p : Pool) (x : σ) : Bool × Pool × σ :=
  match s.create p.program x with
  | (.ok i, x) => (true, { p with size := p.size + 1 }.push { i with epoch := p.epoch }, x)
  | (.error _, x) => (false, p, x)

/-- Makes a number of instances; those that cannot be made are left out. -/
def growSome : Nat → Pool → σ → Pool × σ
  | 0, p, x => (p, x)
  | n + 1, p, x =>
    let (_, p, x) := p.growOne s x
    growSome n p x

/-- Makes a batch of instances. -/
def growBatch (state : Pool × σ) (n : Nat) : Pool × σ :=
  let (p, x) := state
  let (isFirstMade, p, x) := p.resumeAll.growOne s x
  let (p, x) := growSome s (n - 1) p x
  (if isFirstMade then p.resumeFirst else p, x)

/-- The batches in which a number of instances is made, none larger than a step. -/
def batches (step count : Nat) : List Nat :=
  List.replicate (count / step) step ++ if count % step = 0 then [] else [count % step]

/-- Makes a number of instances in batches. -/
def grow (p : Pool) (count : UInt32) (x : σ) : Pool × σ :=
  (batches (max p.settings.growStep.toNat 1) count.toNat).foldl (growBatch s) (p, x)

/-! ### Shrinking -/

/-- Ends an instance that belongs to the pool. -/
def retire (p : Pool) (i : Instance) (x : σ) : Pool × σ :=
  ({ p with size := p.size - 1 }, s.teardown i x)

/-- Takes instances away, as long as claims are free.  Where none is free the control task waits in
line, and takes the rest later.  Of a pool that is shut down no more are taken. -/
def shrink : Nat → Pool → σ → Pool × σ
  | 0, p, x => ({ p.resetCounters with control := .idle }, x)
  | left + 1, p, x =>
    if p.closed then ({ p.resetCounters with control := .idle }, x)
    else if p.permits = 0 then
      ({ p with control := .shrinking (left + 1), waiters := p.waiters ++ [.control] }, x)
    else match p.take with
      | (none, p) => shrink left p x
      | (some i, p) =>
        let (p, x) := p.retire s i x
        shrink left p x

/-- The control task uses the claim that it was given, and takes away what is left to take. -/
def shrinkOn (left : Nat) (p : Pool) (x : σ) : Pool × σ :=
  match p.ready with
  | [] => p.shrink s (left - 1) x
  | i :: ready =>
    let (p, x) := { p with ready }.retire s i x
    p.shrink s (left - 1) x

/-- How many of the ready instances nobody has been given a claim to.  Of a pool that is shut down
no claim is honoured. -/
def unclaimed (p : Pool) : Nat :=
  if p.closed then p.ready.length else min p.permits p.ready.length

/-- The pool without them; those that were ready for longest are gone. -/
def cleared (p : Pool) : Pool :=
  { p with
    ready := p.ready.drop p.unclaimed
    permits := p.permits - p.unclaimed
    size := p.size - UInt32.ofNat p.unclaimed }

/-- Ends as many ready instances as nobody has been given a claim to. -/
def teardownReady (p : Pool) (x : σ) : Pool × σ :=
  (p.cleared, s.teardownAll (p.ready.take p.unclaimed) x)

/-! ### Signals and regular looks -/

/-- Counts a request for growth; the count stops at its greatest value. -/
def countGrowth (p : Pool) : Pool :=
  { p with growCount := if p.growCount + 1 = 0 then p.growCount else p.growCount + 1 }

/-- The control task ends, and nobody hears what it has still to be told. -/
def endControl (p : Pool) : Pool :=
  { p with control := .ended, signals := [] }

/-- Deals with a signal. -/
def obey (p : Pool) (x : σ) : Signal → Pool × σ
  | .grow =>
    let p := p.countGrowth
    match p.shouldGrow with
    | none => (p.endControl, x)
    | some false => (p, x)
    | some true =>
      let (p, x) := p.grow s p.settings.growStep x
      ({ p with growCount := 0 }, x)
  | .add => p.grow s 1 x
  | .remove => ({ p with size := p.size - 1 }, x)
  | .reset _ =>
    let (p, x) := { p with epoch := p.epoch + 1 }.teardownReady s x
    let missing := if p.size < p.settings.minSize then p.settings.minSize - p.size else 0
    let (p, x) := p.grow s missing x
    (p.resetCounters, x)
  | .shutdown =>
    let (p, x) := p.teardownReady s x
    (p.endControl, x)

/-- Takes a regular look at the pool. -/
def tick (p : Pool) (x : σ) : Pool × σ :=
  let p := { p with ticked := p.ticked + 1 }
  match p.shouldGrow with
  | none => (p.endControl, x)
  | some true =>
    let (p, x) := p.grow s p.settings.growStep x
    (p.resetCounters, x)
  | some false =>
    if p.shouldShrink then p.shrink s p.settings.growStep.toNat x else (p.resetCounters, x)

/-- How many regular looks are due. -/
def dueTicks (p : Pool) : Nat :=
  p.clock / p.settings.refreshIntervalSecs.toNat - p.ticked

/-- Deals with signals as long as the control task is free for them; the others stay. -/
def obeyAll : List Signal → Pool → σ → Pool × σ
  | [], p, x => (p, x)
  | signal :: rest, p, x =>
    match p.control with
    | .idle =>
      let (p, x) := { p with signals := rest }.obey s x signal
      obeyAll rest p x
    | _ => (p, x)

/-- Takes a number of regular looks as long as the control task is free for them. -/
def tickAll : Nat → Pool → σ → Pool × σ
  | 0, p, x => (p, x)
  | n + 1, p, x =>
    match p.control with
    | .idle =>
      let (p, x) := p.tick s x
      tickAll n p x
    | _ => (p, x)

/-- The control task goes on from where it waits in line, if it can. -/
def goOn (p : Pool) (x : σ) : Pool × σ :=
  match p.control with
  | .shrinking left =>
    let woken := p.woken.erase .control
    if p.closed then { p with woken }.shrink s left x
    else if p.woken.contains .control then { p with woken }.shrinkOn s left x
    else (p, x)
  | _ => (p, x)

/-- The control task and all callers go on as far as they can. -/
def settle (p : Pool) (x : σ) : Pool × σ :=
  let (p, x) := p.goOn s x
  let (p, x) := obeyAll s p.signals p x
  let (p, x) := tickAll s p.dueTicks p x
  (p.resumeAll, x)

end Pool

end ContractHost
