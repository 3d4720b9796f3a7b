import ContractHost.Proofs.Pool.Steady

/-!
# The work of the control task, as a whole

A signal that is obeyed, a regular look and going on from the line consist of a few kinds of work:
instances are made, callers go on, the control task joins the line, takes an instance away or
empties the pool.  A property that survives these survives whatever the control task does.

With it go the facts that hold in every run of every pool: the label stays, a pool that is shut down
stays so, and the control task changes what it is doing for few reasons.

## Main definitions

* `Pool.stock` — what a pool holds, without its size and the state of the control task.
* `Pool.WorkStable` — properties that the single kinds of work cannot end.

## Main results

* `Pool.WorkStable.shrink`, `obey`, `tick`, `goOn`, `settle` — **the induction over the work of the
  control task.**
* `Pool.closed_of_settle`, `closed_of_release`, `closed_of_discard` — **no work opens a pool or
  shuts it down.**
* `Scene.Reachable.label` — a pool keeps its contract, its module and its settings in every run.
* `Scene.Step.control_cases` — why the control task turns to something else.
-/

namespace ContractHost

namespace Pool

variable {σ : Type} {s : Supply σ}

/-- What a pool holds, and who waits for it.  Left out are the size, the number of free claims, the
counters, the clocks, and what the control task is told and is doing. -/
def stock (p : Pool) : Pool :=
  { p with size := 0, permits := 0, signals := [], control := .idle, growCount := 0, uses := 0,
           totalDelay := 0, now := 0, clock := 0, ticked := 0 }

/-- The work of the control task consists of making instances, of callers going on, and of what is
listed here; `P` survives all of it. -/
structure WorkStable (s : Supply σ) (P : Pool → σ → Prop) : Prop extends GrowthStable s P where
  /-- Only the size, the number of free claims, the counters, the clocks, or the state of the
  control task change. -/
  keep : ∀ {p p' x}, P p x → p'.stock = p.stock → P p' x
  /-- The control task joins the line. -/
  join : ∀ {p x}, P p x → P { p with waiters := p.waiters ++ [.control] } x
  /-- It uses the claim that it was given, or gives it up. -/
  leave : ∀ {p x}, P p x → P { p with woken := p.woken.erase .control } x
  /-- It takes away the instance that is ready for longest. -/
  takeReady : ∀ {p i rest x}, p.ready = i :: rest → P p x →
    P { p with ready := rest } (s.teardown i x)

namespace WorkStable

variable {P : Pool → σ → Prop}

theorem shrink (h : WorkStable s P) (n : Nat) {p : Pool} {x : σ} (hp : P p x) :
    P (Pool.shrink s n p x).1 (Pool.shrink s n p x).2 := by
  refine shrink_induction (P := fun _ p x r => P p x → P r.1 r.2) (fun p x hp => ?_)
    (fun {n p x permits i rest r} _ _ hready hrest hp => hrest ?_)
    (fun {n p x r} _ _ _ hrest hp => hrest ?_) (fun {n p x} _ hp => ?_)
    (fun {n p x} _ _ hp => ?_) n p x hp
  · exact h.keep hp rfl
  · exact h.keep (h.takeReady hready hp) rfl
  · exact h.keep hp rfl
  · exact h.keep hp rfl
  · exact h.keep (h.join hp) rfl

/-- **Emptying the pool**: the ready instances that nobody has a claim to are taken away one after
another. -/
theorem clear (h : WorkStable s P) {p : Pool} {x : σ} (hp : P p x) :
    P p.cleared (s.teardownAll (p.ready.take p.unclaimed) x) := by
  have hsome : ∀ (n : Nat) {q : Pool} {y : σ}, P q y →
      P { q with ready := q.ready.drop n } (s.teardownAll (q.ready.take n) y) := by
    intro n
    induction n with
    | zero => exact fun hq => hq
    | succ n ih =>
      intro q y hq
      cases hready : q.ready with
      | nil => exact h.keep hq (by unfold stock; rw [hready]; rfl)
      | cons i rest => exact ih (h.takeReady hready hq)
  exact h.keep (hsome p.unclaimed hp) rfl

/-- **Obeying a signal**, where the new generation is dealt with for itself. -/
theorem obey (h : WorkStable s P) {p : Pool} {x : σ} (signal : Signal) (hp : P p x)
    (hreset : ∀ request, signal = .reset request → P { p with epoch := p.epoch + 1 } x) :
    P (p.obey s x signal).1 (p.obey s x signal).2 := by
  -- the task only makes instances, ends them, and changes what the property does not see
  cases signal with
  | grow =>
    have hcount : P p.countGrowth x := h.keep hp rfl
    obtain ⟨-, heq⟩ | ⟨-, heq⟩ | ⟨-, heq⟩ := obey_grow_cases s p x
    · rw [heq]
      exact h.keep hcount rfl
    · rw [heq]
      exact hcount
    · rw [heq]
      exact h.keep (h.grow p.settings.growStep hcount) rfl
  | add => exact h.grow 1 hp
  | remove => exact h.keep hp rfl
  | reset request =>
    rw [obey_reset]
    exact h.keep (h.grow p.renewed.missing (h.clear (hreset request rfl))) rfl
  | shutdown =>
    rw [obey_shutdown]
    exact h.keep (h.clear hp) rfl

/-- **A regular look.** -/
theorem tick (h : WorkStable s P) {p : Pool} {x : σ} (hp : P p x) :
    P (p.tick s x).1 (p.tick s x).2 := by
  have hlook : P { p with ticked := p.ticked + 1 } x := h.keep hp rfl
  obtain ⟨-, heq⟩ | ⟨-, heq⟩ | ⟨-, -, heq⟩ | ⟨-, -, heq⟩ := tick_cases s p x
  · rw [heq]
    exact h.keep hlook rfl
  · rw [heq]
    exact h.keep (h.grow p.settings.growStep hlook) rfl
  · rw [heq]
    exact h.shrink _ hlook
  · rw [heq]
    exact h.keep hlook rfl

/-- **Going on from the line.** -/
theorem goOn (h : WorkStable s P) {p : Pool} {x : σ} (hp : P p x) :
    P (p.goOn s x).1 (p.goOn s x).2 := by
  have hleft := h.leave hp
  obtain heq | ⟨left, -, ⟨-, heq⟩ | ⟨-, -, -, heq⟩ | ⟨-, -, i, rest, hready, heq⟩⟩ :=
    goOn_cases s p x
  · rw [heq]
    exact hp
  · rw [heq]
    exact h.shrink _ hleft
  · rw [heq]
    exact h.shrink _ hleft
  · have htaken := h.takeReady (p := { p with woken := p.woken.erase .control }) hready hleft
    rw [heq]
    exact h.shrink _ (h.keep htaken rfl)

/-- **Settling**, where the new generation is dealt with for itself. -/
theorem settle (h : WorkStable s P) (hreset : ∀ {p x}, P p x → P { p with epoch := p.epoch + 1 } x)
    {p : Pool} {x : σ} (hp : P p x) : P (p.settle s x).1 (p.settle s x).2 := by
  -- first the task goes on, then it hears its signals, then it looks, and at last those that were
  -- woken move on
  have hobeyAll : ∀ (l : List Signal) {q y}, P q y → P (obeyAll s l q y).1 (obeyAll s l q y).2 := by
    intro l
    induction l with
    | nil => exact id
    | cons signal rest ih =>
      intro q y hq
      unfold obeyAll
      split
      · have hrest : P { q with signals := rest } y := h.keep hq rfl
        exact ih (h.obey signal hrest fun _ _ => hreset hrest)
      · exact hq
  have htickAll : ∀ (n : Nat) {q y}, P q y → P (tickAll s n q y).1 (tickAll s n q y).2 := by
    intro n
    induction n with
    | zero => exact id
    | succ n ih =>
      intro q y hq
      unfold tickAll
      split
      · exact ih (h.tick hq)
      · exact hq
  exact resumeAll_induction (P := fun q => P q _) h.resume _ (htickAll _ (hobeyAll _ (h.goOn hp)))

end WorkStable

/-- A pool keeps its label, and work does not shut it. -/
theorem workStable_label (s : Supply σ) (l : ContractId × Module × PoolTerms) (c : Bool) :
    WorkStable s fun q _ => q.label = l ∧ q.closed = c :=
  { resume := fun _ hq =>
      ⟨(label_resume _ _ _).trans hq.1, (closed_resume _ _ _).trans hq.2⟩
    growOne := fun {q y} hq => by
      unfold Pool.growOne
      split
      · have horders := orders_push { q with size := q.size + 1 }
        exact ⟨(label_push _ _).trans hq.1, (congrArg (·.2.2) (horders _)).trans hq.2⟩
      · exact hq
    keep := fun {p p' x} hq hstock => by
      have hlabel : p'.stock.label = p.stock.label := congrArg label hstock
      have hclosed : p'.stock.closed = p.stock.closed := congrArg closed hstock
      exact ⟨hlabel.trans hq.1, hclosed.trans hq.2⟩
    join := fun hq => hq
    leave := fun hq => hq
    takeReady := fun _ hq => hq }

/-! ### What users leave -/

theorem label_acquire (p : Pool) : p.acquire.2.label = p.label := by
  by_cases hclosed : p.closed = true
  · rw [acquire_closed hclosed]
    rfl
  · have hopen := eq_false_of_ne_true hclosed
    obtain hnone | ⟨permits, i, rest, hpermits, hready⟩ := p.takes_or_not
    · rw [acquire_empty hopen hnone]
      exact label_signal _ _
    · rw [acquire_ready hopen hpermits hready]
      rfl

@[simp] theorem label_requestShutdown (p : Pool) : p.requestShutdown.label = p.label := by
  unfold requestShutdown
  split
  · rfl
  · exact label_signal _ _

@[simp] theorem label_requestReset (p : Pool) : p.requestReset.2.label = p.label :=
  label_signal p _

theorem label_cancel (p : Pool) (ticket : Ticket) : (p.cancel ticket).label = p.label := by
  obtain heq | ⟨l, since, r, -, heq⟩ := p.cancel_cases ticket
  · rw [heq]
    rfl
  · rw [heq]
    exact label_grant _

theorem orders_cancel (p : Pool) (ticket : Ticket) : (p.cancel ticket).orders = p.orders := by
  obtain heq | ⟨l, since, r, -, heq⟩ := p.cancel_cases ticket
  · rw [heq]
    rfl
  · rw [heq]
    exact orders_grant _

theorem closed_of_cancel (p : Pool) (ticket : Ticket) : (p.cancel ticket).closed = p.closed :=
  congrArg (·.2.2) (orders_cancel p ticket)

/-- Asking changes neither what the control task does nor whether the pool is open. -/
theorem control_closed_acquire (p : Pool) :
    p.acquire.2.control = p.control ∧ p.acquire.2.closed = p.closed := by
  by_cases hclosed : p.closed = true
  · rw [acquire_closed hclosed]
    exact ⟨rfl, rfl⟩
  · have hopen := eq_false_of_ne_true hclosed
    obtain hnone | ⟨permits, i, rest, hpermits, hready⟩ := p.takes_or_not
    · rw [acquire_empty hopen hnone]
      exact ⟨control_signal _ _, closed_signal _ _⟩
    · rw [acquire_ready hopen hpermits hready]
      exact ⟨rfl, rfl⟩

/-! ### Pools that are open or shut down -/

section

variable (s : Supply σ)

/-- **Settling opens no pool and shuts none down.** -/
theorem closed_of_settle (p : Pool) (x : σ) : (p.settle s x).1.closed = p.closed :=
  ((workStable_label s p.label p.closed).settle (fun h => h) (x := x) ⟨rfl, rfl⟩).2

theorem closed_of_release (p : Pool) (i : Instance) (x : σ) :
    (p.release s i x).1.closed = p.closed := by
  rcases release_cases s p i x with ⟨-, heq⟩ | ⟨-, -, heq⟩ | ⟨-, -, heq⟩ | ⟨-, -, heq⟩
  · rw [heq]
  · rw [heq]
  · rw [heq]
    exact closed_signal p _
  · rw [heq]
    exact congrArg (·.2.2) (orders_push p i.unbind)

theorem closed_of_discard (p : Pool) (i : Instance) (x : σ) :
    (p.discard s i x).1.closed = p.closed := by
  rcases discard_cases s p i x with ⟨-, heq⟩ | ⟨-, -, heq⟩ | ⟨-, -, heq⟩
  · rw [heq]
  · rw [heq]
  · rw [heq]
    exact closed_signal p _

theorem closed_of_shutdown (p : Pool) (x : σ) :
    (p.requestShutdown.settle s x).1.closed = true := by
  rw [closed_of_settle]
  unfold requestShutdown
  split
  · assumption
  · exact closed_signal _ _

theorem closed_of_create {contract : ContractId} {program : Module} {settings : PoolTerms}
    {x y : σ} {p : Pool} (h : create s contract program settings x = (.ok p, y)) :
    p.closed = false := by
  obtain ⟨trial, z, -, rfl, -⟩ := create_eq_ok h
  exact ((workStable_label s (contract, program, settings) false).grow
    (p := { contract, program, settings }) settings.minSize ⟨rfl, rfl⟩).2

end

end Pool

namespace Scene

variable {σ : Type} {s : NumberedSupply σ} {sc sc' : Scene σ}

/-- A single action keeps the label of the pool, and opens no pool that is shut down. -/
theorem Step.label_closed (h : Step s sc sc') :
    sc'.pool.label = sc.pool.label ∧ (sc.pool.closed = true → sc'.pool.closed = true) := by
  have hstable := Pool.workStable_label s.counted sc.pool.label sc.pool.closed
  -- nothing writes the label, and only a shutdown closes a pool, for good
  cases h with
  | acquire =>
    exact ⟨Pool.label_acquire _, fun hc => (Pool.control_closed_acquire _).2.trans hc⟩
  | cancel ticket =>
    exact ⟨Pool.label_cancel _ _,
      fun hc => (congrArg (·.2.2) (Pool.orders_cancel sc.pool ticket)).trans hc⟩
  | resume hp =>
    exact ⟨Pool.label_resume _ _ _, fun hc => (Pool.closed_resume _ _ _).trans hc⟩
  | requestShutdown =>
    refine ⟨Pool.label_requestShutdown _, fun hc => ?_⟩
    rw [Pool.requestShutdown_closed hc]
    exact hc
  | requestReset =>
    exact ⟨Pool.label_requestReset _, fun hc => (Pool.closed_signal _ _).trans hc⟩
  | release hout hafter =>
    rename_i l r i i'
    rcases Pool.release_cases s.counted sc.pool i' sc.world with
      ⟨-, heq⟩ | ⟨-, -, heq⟩ | ⟨-, hopen, heq⟩ | ⟨-, hopen, heq⟩
    · rw [heq]
      exact ⟨rfl, id⟩
    · rw [heq]
      exact ⟨rfl, id⟩
    · rw [heq]
      exact ⟨Pool.label_signal _ _, fun hc => absurd hc (Bool.eq_false_iff.mp hopen)⟩
    · rw [heq]
      exact ⟨Pool.label_push _ _, fun hc => absurd hc (Bool.eq_false_iff.mp hopen)⟩
  | discard hout hafter =>
    rename_i l r i i'
    rcases Pool.discard_cases s.counted sc.pool i' sc.world with
      ⟨-, heq⟩ | ⟨-, -, heq⟩ | ⟨-, hopen, heq⟩
    · rw [heq]
      exact ⟨rfl, id⟩
    · rw [heq]
      exact ⟨rfl, id⟩
    · rw [heq]
      exact ⟨Pool.label_signal _ _, fun hc => absurd hc (Bool.eq_false_iff.mp hopen)⟩
  | obey hidle hsignals =>
    rename_i signal rest
    obtain ⟨hlabel, hclosed⟩ := hstable.obey (p := { sc.pool with signals := rest })
      (x := sc.world) signal ⟨rfl, rfl⟩ fun _ _ => ⟨rfl, rfl⟩
    exact ⟨hlabel, fun hc => hclosed.trans hc⟩
  | tick hidle =>
    obtain ⟨hlabel, hclosed⟩ := hstable.tick (x := sc.world) ⟨rfl, rfl⟩
    exact ⟨hlabel, fun hc => hclosed.trans hc⟩
  | goOn =>
    obtain ⟨hlabel, hclosed⟩ := hstable.goOn (x := sc.world) ⟨rfl, rfl⟩
    exact ⟨hlabel, fun hc => hclosed.trans hc⟩
  | claim | spawn | spawnFailed | close | wait | advance | elsewhere => exact ⟨rfl, id⟩

/-- **The control task turns to something else** when it obeys the end, when it cannot find out
whether the pool should grow, when it begins to shrink the pool, or when it was shrinking it. -/
theorem Step.control_cases (h : Step s sc sc') :
    sc'.pool.control = sc.pool.control ∨
      (sc.pool.control ≠ .ended ∧ sc'.pool.control = .ended ∧
        (.shutdown ∈ sc.pool.signals ∨ sc.pool.shouldGrow = none)) ∨
      (sc.pool.control ≠ .ended ∧ sc'.pool.control ≠ .ended ∧
        (sc.pool.shouldShrink = true ∨ ∃ left, sc.pool.control = .shrinking left)) := by
  -- the task is moved by what it does itself; whatever others do leaves it where it is
  cases h with
  | acquire => exact .inl (Pool.control_closed_acquire _).1
  | cancel ticket => exact .inl (congrArg (·.2.1) (Pool.orders_cancel sc.pool ticket))
  | resume hp => exact .inl (Pool.control_resume _ _ _)
  | requestReset => exact .inl (Pool.control_signal _ _)
  | requestShutdown =>
    left
    unfold Pool.requestShutdown
    split
    · rfl
    · exact Pool.control_signal _ _
  | release hout hafter =>
    rename_i l r i i'
    left
    rcases Pool.release_cases s.counted sc.pool i' sc.world with
      ⟨-, heq⟩ | ⟨-, -, heq⟩ | ⟨-, -, heq⟩ | ⟨-, -, heq⟩
    · rw [heq]
      rfl
    · rw [heq]
      rfl
    · rw [heq]
      exact Pool.control_signal _ _
    · rw [heq]
      exact congrArg (·.2.1) (Pool.orders_push sc.pool i'.unbind)
  | discard hout hafter =>
    rename_i l r i i'
    left
    rcases Pool.discard_cases s.counted sc.pool i' sc.world with
      ⟨-, heq⟩ | ⟨-, -, heq⟩ | ⟨-, -, heq⟩
    · rw [heq]
      rfl
    · rw [heq]
      rfl
    · rw [heq]
      exact Pool.control_signal _ _
  | obey hidle hsignals =>
    rename_i signal rest
    have hawake : sc.pool.control ≠ .ended := by rw [hidle]; exact nofun
    obtain heq | ⟨hended, -, rfl | ⟨-, hgrow⟩⟩ :=
      Pool.control_obey (s := s.counted) { sc.pool with signals := rest } sc.world signal
    · exact .inl heq
    · exact .inr (.inl ⟨hawake, hended, .inl (hsignals ▸ List.mem_cons_self)⟩)
    · exact .inr (.inl ⟨hawake, hended, .inr hgrow⟩)
  | tick hidle =>
    have hawake : sc.pool.control ≠ .ended := by rw [hidle]; exact nofun
    unfold act
    dsimp only
    obtain ⟨hgrow, heq⟩ | ⟨-, heq⟩ | ⟨-, hshrink, heq⟩ | ⟨-, -, heq⟩ :=
      Pool.tick_cases s.counted sc.pool sc.world
    · rw [heq]
      exact .inr (.inl ⟨hawake, rfl, .inr hgrow⟩)
    · rw [heq]
      exact .inl (congrArg (·.2.1) (Pool.orders_grow (s := s.counted)
        { sc.pool with ticked := sc.pool.ticked + 1 } sc.pool.settings.growStep sc.world))
    · rw [heq]
      exact .inr (.inr ⟨hawake, Pool.control_shrink _ _ _, .inl hshrink⟩)
    · rw [heq]
      exact .inl rfl
  | goOn =>
    obtain heq | ⟨left, hcontrol, ⟨-, heq⟩ | ⟨-, -, -, heq⟩ | ⟨-, -, i, rest, -, heq⟩⟩ :=
      Pool.goOn_cases s.counted sc.pool sc.world
    · rw [heq]
      exact .inl rfl
    all_goals
      have hawake : sc.pool.control ≠ .ended := by rw [hcontrol]; exact nofun
      rw [heq]
      exact .inr (.inr ⟨hawake, Pool.control_shrink _ _ _, .inr ⟨left, hcontrol⟩⟩)
  | claim | spawn | spawnFailed | close | wait | advance | elsewhere => exact .inl rfl

/-- A control task that has ended does not begin again. -/
theorem Step.ended (h : Step s sc sc') (hended : sc.pool.control = .ended) :
    sc'.pool.control = .ended := by
  obtain hsame | ⟨hawake, -⟩ | ⟨hawake, -⟩ := h.control_cases
  · exact hsame.trans hended
  · exact absurd hended hawake
  · exact absurd hended hawake

namespace Reachable

variable {contract : ContractId} {program : Module} {settings : PoolTerms}

/-- **A pool keeps its contract, its module and its settings in every run.** -/
theorem label (h : Reachable s contract program settings sc) :
    sc.pool.label = (contract, program, settings) := by
  induction h with
  | create hcreate =>
    obtain ⟨trial, y, -, rfl, -⟩ := Pool.create_eq_ok hcreate
    exact ((Pool.workStable_label s.counted (contract, program, settings) false).grow
      (p := { contract, program, settings }) settings.minSize ⟨rfl, rfl⟩).1
  | step _ hstep ih => exact hstep.label_closed.1.trans ih

theorem settings_eq (h : Reachable s contract program settings sc) :
    sc.pool.settings = settings :=
  congrArg (·.2.2) h.label

/-- **The control task ends only with the pool**, if it can tell when its first look is due, and can
always find out whether the pool should grow. -/
theorem closed_of_ended (h : Reachable s contract program settings sc)
    (hmeasurable : settings.isMeasurable = true)
    (hfits : ∀ {sc : Scene σ}, Reachable s contract program settings sc →
      sc.pool.shouldGrow ≠ none) (hended : sc.pool.control = .ended) : sc.pool.closed = true := by
  induction h with
  | create hcreate =>
    obtain ⟨trial, y, -, rfl, -⟩ := Pool.create_eq_ok hcreate
    rw [hmeasurable] at hended
    exact Control.noConfusion hended
  | step hreach hstep ih =>
    obtain hsame | ⟨-, -, hshutdown | hgrow⟩ | ⟨-, hawake, -⟩ := hstep.control_cases
    · exact hstep.label_closed.2 (ih (hsame.symm.trans hended))
    · exact hstep.label_closed.2 (hreach.steady.last hshutdown)
    · exact absurd hgrow (hfits hreach)
    · exact absurd hended hawake

end Reachable

end Scene

end ContractHost
