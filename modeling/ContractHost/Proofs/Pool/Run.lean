import ContractHost.Proofs.Pool.Control
import Mathlib.Logic.Relation

/-!
# Runs of a pool

A pool is used by many at once, and its control task works beside them.  A run of it is a sequence
of single actions, in any order: a user asks for an instance, takes it, gives it back; the control
task obeys one signal, or takes one regular look.  Between the actions everything else on the host
may go on, so that no creation of an instance can be relied on to succeed, or to fail.

The users are part of the picture, with the instances that they hold.  They keep to two rules: an
instance goes back at most once and to its own pool, and only an instance outside the pool is ended
without the pool.

## Main definitions

* `NumberedSupply` — a supply whose instances are told apart by their numbers; `unfailing` is one
  that always makes an instance.
* `Census`, `Supply.counted` — a host together with the instances of the pool that live on it.
* `Scene` — a pool, its users' instances, and the host.
* `Scene.Step`, `Scene.Reachable` — the single actions, and what they lead to from the beginning.

## Main results

* `Scene.run_settle` — **settling is a run**: what the control task and the callers do when a
  pool settles, the single actions do.
-/

namespace ContractHost

/-! ### Instances and their numbers -/

/-- A supply that numbers its instances.  Numbers are never used again. -/
structure NumberedSupply (σ : Type) extends Supply σ where
  /-- A number above those of all instances that were ever made. -/
  next : σ → Nat
  /-- A new instance has a new number, and belongs to the pool it is made for. -/
  next_create_ok : ∀ {m x i x'}, create m x = (.ok i, x') →
    next x ≤ i.id ∧ i.id < next x' ∧ i.detached = false
  /-- Nothing is taken back when a creation fails. -/
  next_create_error : ∀ {m x e x'}, create m x = (.error e, x') → next x ≤ next x'
  /-- The number of an instance that ended is not free again. -/
  next_teardown : ∀ i x, next x ≤ next (teardown i x)
  /-- Nor that of one that ended at once. -/
  next_drop : ∀ i x, next x ≤ next (drop i x)

/-- A supply that never fails. -/
def NumberedSupply.unfailing : NumberedSupply Nat where
  create m n := (.ok { id := n, script := m.script, pageLimit := 0, memory := ⟨0, ∅⟩, gas := 0 },
    n + 1)
  teardown _ n := n
  drop _ n := n
  next n := n
  next_create_ok := by
    intro m n i n' h
    cases h
    exact ⟨Nat.le_refl _, Nat.lt_succ_self n, rfl⟩
  next_create_error := by
    intro m n e n' h
    cases h
  next_teardown := fun _ _ => Nat.le_refl _
  next_drop := fun _ _ => Nat.le_refl _

/-- A host, together with the numbers of the instances of one pool that live on it. -/
structure Census (σ : Type) where
  /-- The host. -/
  host : σ
  /-- The numbers. -/
  live : List Nat

/-- The supply that also counts births and deaths. -/
def Supply.counted {σ : Type} (s : Supply σ) : Supply (Census σ) where
  create m x :=
    match s.create m x.host with
    | (.ok i, host) => (.ok i, ⟨host, i.id :: x.live⟩)
    | (.error e, host) => (.error e, ⟨host, x.live⟩)
  teardown i x := ⟨s.teardown i x.host, x.live.erase i.id⟩
  drop i x := ⟨s.drop i x.host, x.live.erase i.id⟩

/-- What use leaves of an instance: its number, its generation, and whether it belongs to a pool.
The other parts may change. -/
structure Instance.After (i i' : Instance) : Prop where
  /-- It is the same instance. -/
  id : i'.id = i.id
  /-- It is of the same generation. -/
  epoch : i'.epoch = i.epoch
  /-- It still belongs to the pool, or still does not. -/
  detached : i'.detached = i.detached

/-! ### Scenes -/

/-- A pool among its users. -/
structure Scene (σ : Type) where
  /-- The pool. -/
  pool : Pool
  /-- The instances that users hold, also those outside the pool. -/
  out : List Instance
  /-- The host. -/
  world : Census σ

namespace Scene

variable {σ : Type}

/-- What happens to a pool and the host, when the users' instances stay where they are. -/
def act (sc : Scene σ) (r : Pool × Census σ) : Scene σ :=
  { sc with pool := r.1, world := r.2 }

/-- A single action. -/
inductive Step (s : NumberedSupply σ) : Scene σ → Scene σ → Prop
  /-- A caller asks for an instance. -/
  | acquire (sc : Scene σ) : Step s sc { sc with pool := sc.pool.acquire.2 }
  /-- A caller no longer waits. -/
  | cancel (sc : Scene σ) (ticket : Ticket) : Step s sc { sc with pool := sc.pool.cancel ticket }
  /-- A caller with a claim goes on. -/
  | resume {sc : Scene σ} {l r : List Waiter} {ticket : Ticket} {since : Nat}
    (hp : sc.pool.woken = l ++ .caller ticket since :: r) :
    Step s sc { sc with pool := { sc.pool with woken := l ++ r }.resume ticket since }
  /-- A caller takes its answer. -/
  | claim (sc : Scene σ) (ticket : Ticket) :
    Step s sc { sc with
      pool := (sc.pool.claim ticket).2
      out := sc.out ++ (sc.pool.claim ticket).1.elim [] (·.toOption.toList) }
  /-- An instance is given back. -/
  | release {sc : Scene σ} {l r : List Instance} {i i' : Instance} (hout : sc.out = l ++ i :: r)
    (hafter : i.After i') :
    Step s sc ({ sc with out := l ++ r }.act (sc.pool.release s.counted i' sc.world))
  /-- An instance is given up. -/
  | discard {sc : Scene σ} {l r : List Instance} {i i' : Instance} (hout : sc.out = l ++ i :: r)
    (hafter : i.After i') :
    Step s sc ({ sc with out := l ++ r }.act (sc.pool.discard s.counted i' sc.world))
  /-- An instance is made outside the pool. -/
  | spawn {sc : Scene σ} {i : Instance} {world : Census σ}
    (hcreate : sc.pool.createDetached s.counted sc.world = (.ok i, world)) :
    Step s sc { sc with out := sc.out ++ [i], world }
  /-- An instance cannot be made outside the pool. -/
  | spawnFailed {sc : Scene σ} {e : ExecutionError} {world : Census σ}
    (hcreate : sc.pool.createDetached s.counted sc.world = (.error e, world)) :
    Step s sc { sc with world }
  /-- An instance outside the pool ends. -/
  | close {sc : Scene σ} {l r : List Instance} {i i' : Instance} (hout : sc.out = l ++ i :: r)
    (hafter : i.After i') (hdetached : i.detached = true) :
    Step s sc { sc with out := l ++ r, world := s.counted.teardown i' sc.world }
  /-- A reset is asked for. -/
  | requestReset (sc : Scene σ) : Step s sc { sc with pool := sc.pool.requestReset.2 }
  /-- The end is asked for. -/
  | requestShutdown (sc : Scene σ) : Step s sc { sc with pool := sc.pool.requestShutdown }
  /-- The control task obeys a signal. -/
  | obey {sc : Scene σ} {signal : Signal} {rest : List Signal} (hidle : sc.pool.control = .idle)
    (hsignals : sc.pool.signals = signal :: rest) :
    Step s sc (sc.act ({ sc.pool with signals := rest }.obey s.counted sc.world signal))
  /-- The control task takes a regular look. -/
  | tick {sc : Scene σ} (hidle : sc.pool.control = .idle) :
    Step s sc (sc.act (sc.pool.tick s.counted sc.world))
  /-- The control task goes on from where it waits in line. -/
  | goOn (sc : Scene σ) : Step s sc (sc.act (sc.pool.goOn s.counted sc.world))
  /-- Time passes for those who wait. -/
  | wait (sc : Scene σ) (milliseconds : Nat) :
    Step s sc { sc with pool := sc.pool.wait milliseconds }
  /-- Time passes for the regular looks. -/
  | advance (sc : Scene σ) (seconds : Nat) : Step s sc { sc with pool := sc.pool.advance seconds }
  /-- Something else happens on the host. -/
  | elsewhere {sc : Scene σ} {host : σ} (hnext : s.next sc.world.host ≤ s.next host) :
    Step s sc { sc with world := { sc.world with host } }

/-- What a pool of a contract comes to, in some run from its creation. -/
inductive Reachable (s : NumberedSupply σ) (contract : ContractId) (program : Module)
    (settings : PoolTerms) : Scene σ → Prop
  /-- The pool was created just now. -/
  | create {host : σ} {p : Pool} {world : Census σ}
    (hcreate : Pool.create s.counted contract program settings ⟨host, []⟩ = (.ok p, world)) :
    Reachable s contract program settings ⟨p, [], world⟩
  /-- One more action. -/
  | step {sc sc' : Scene σ} (hreach : Reachable s contract program settings sc)
    (hstep : Step s sc sc') : Reachable s contract program settings sc'

theorem Reachable.run {s : NumberedSupply σ} {contract : ContractId} {program : Module}
    {settings : PoolTerms} {sc sc' : Scene σ} (h : Reachable s contract program settings sc)
    (hrun : Relation.ReflTransGen (Step s) sc sc') : Reachable s contract program settings sc' := by
  induction hrun with
  | refl => exact h
  | tail _ hstep ih => exact ih.step hstep

/-! ### Settling is a run -/

variable {s : NumberedSupply σ}

/-- As long as the control task is free, the signals it has still to obey are those in the queue;
so the next one is always the first of the queue. -/
theorem run_obeyAll : ∀ (l : List Signal) (sc : Scene σ),
    (sc.pool.control = .idle → sc.pool.signals = l) →
    Relation.ReflTransGen (Step s) sc (sc.act (Pool.obeyAll s.counted l sc.pool sc.world)) := by
  intro l
  induction l with
  | nil => intro sc _; exact .refl
  | cons signal rest ih =>
    intro sc hl
    unfold Pool.obeyAll
    split
    · rename_i hidle
      -- if the control task is free again after the signal, the others are still in the queue
      refine .head (Step.obey hidle (hl hidle)) (ih _ fun hstill => ?_)
      refine Pool.signals_obey _ _ signal fun hended => ?_
      exact Control.noConfusion (hended.symm.trans hstill)
    · exact .refl

theorem run_tickAll : ∀ (n : Nat) (sc : Scene σ),
    Relation.ReflTransGen (Step s) sc (sc.act (Pool.tickAll s.counted n sc.pool sc.world)) := by
  intro n
  induction n with
  | zero => intro sc; exact .refl
  | succ n ih =>
    intro sc
    unfold Pool.tickAll
    split
    · rename_i hidle
      exact .head (Step.tick hidle) (ih _)
    · exact .refl

theorem run_resumeAll (sc : Scene σ) :
    Relation.ReflTransGen (Step s) sc { sc with pool := sc.pool.resumeAll } :=
  Pool.resumeAll_induction
    (P := fun p => Relation.ReflTransGen (Step s) sc { sc with pool := p })
    (fun hp hrun => hrun.tail (Step.resume hp)) sc.pool .refl

/-- **Settling is a run.** -/
theorem run_settle (sc : Scene σ) :
    Relation.ReflTransGen (Step s) sc (sc.act (sc.pool.settle s.counted sc.world)) := by
  have hgo : Relation.ReflTransGen (Step s) sc _ := .single (Step.goOn sc)
  have hobey := hgo.trans (run_obeyAll _ _ fun _ => rfl)
  exact (hobey.trans (run_tickAll _ _)).trans (run_resumeAll _)

end Scene

end ContractHost
