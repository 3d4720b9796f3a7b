import ContractHost.Proofs.Pool.Endurance

/-!
# Callers that wait in vain

A caller that finds no ready instance waits for one.  Where the users hold none of the pool's
instances either, and the host could make one, only the control task can help; and it may be unable
to.  It may see no reason to make an instance; it may have ended; and it may wait in line itself,
for an instance to take away that nobody has.

In the last two cases the pool is jammed for good.  The users' signals say that the instances they
gave up are to be replaced, but the control task does not hear them.  The control task waits in line
if it decides to shrink a pool whose instances are all with users, and these give them up.

No settings rule this out.  A pool that is never shrunk is one whose size and a step do not fit 32
bits, so that its control task ends; and a pool that may be empty need not grow for its first
caller.

## Main definitions

* `Pool.Powerless` — the control task has nothing that it can do.
* `Scene.Stuck` — a caller waits, and no instance is or will be there.
* `Scene.Jammed` — the control task hears of nothing any more, and there is no instance.

## Main results

* `Scene.Step.jammed` — **a jammed pool stays jammed until it is shut down.**
* `Scene.Reachable.stuck_cases` — a caller is stuck in a jammed pool, or in one that may be empty.
* `Scene.exists_stuck_of_clockless`, `exists_stuck_of_empty`, `exists_stuck_of_overflow`,
  `exists_stuck_of_shrinking` — the ways to get stuck.
* `Scene.callers_stuck` — **whatever the settings are, some run leaves a caller stuck.**
-/

namespace ContractHost

/-- The control task has nothing that it can do. -/
inductive Pool.Powerless (p : Pool) : Prop
  /-- It is told nothing, and a regular look would not make the pool grow. -/
  | content (hidle : p.control = .idle) (hsignals : p.signals = [])
    (hgrow : p.shouldGrow ≠ some true)
  /-- It waits in line for an instance to take away. -/
  | inLine {left : Nat} (hcontrol : p.control = .shrinking left) (hline : .control ∈ p.waiters)
  /-- It has ended. -/
  | ended (hended : p.control = .ended)

theorem Pool.averageDelay_of_totalDelay {p : Pool} (h : p.totalDelay = 0) : p.averageDelay = 0 := by
  unfold averageDelay
  rw [h, UInt64.toNat_zero, Nat.zero_div]

theorem Pool.shouldShrink_iff (p : Pool) :
    p.shouldShrink = true ↔ p.settings.minSize.toNat < p.size.toNat ∧
      p.settings.growStep.toNat < p.size.toNat ∧
      p.averageDelay ≤ p.settings.delayToleranceMs.toNat := by
  unfold shouldShrink isSlow
  simp only [Bool.and_eq_true, decide_eq_true_eq, UInt32.lt_iff_toNat_lt, and_assoc,
    Bool.not_eq_true', decide_eq_false_iff_not, Nat.not_lt]

/-- Where nobody had to wait or to ask, a pool does not grow that has reached its smallest size. -/
theorem Pool.shouldGrow_ne_true {p : Pool} (hmin : p.settings.minSize.toNat ≤ p.size.toNat)
    (hcount : p.growCount = 0) (hdelay : p.totalDelay = 0) : p.shouldGrow ≠ some true := by
  intro hgrow
  rcases p.shouldGrow_iff.mp hgrow with hsmall | ⟨-, hask | hslow⟩
  · exact absurd hsmall (Nat.not_lt.mpr hmin)
  · rw [hcount] at hask
    exact Nat.not_lt_zero _ hask
  · rw [averageDelay_of_totalDelay hdelay] at hslow
    exact Nat.not_lt_zero _ hslow

namespace Scene

variable {σ : Type} {s : NumberedSupply σ} {sc sc' : Scene σ}
variable {contract : ContractId} {program : Module} {settings : PoolTerms}

/-- A caller of an open pool waits for an instance; none is ready, no user has one, and although the
host could make one, the control task does not. -/
structure Stuck (s : NumberedSupply σ) (sc : Scene σ) : Prop where
  /-- The pool is open. -/
  opened : sc.pool.closed = false
  /-- A caller waits. -/
  waiting : sc.pool.waiting ≠ []
  /-- No instance is ready. -/
  ready : sc.pool.ready = []
  /-- Nobody has one. -/
  out : sc.checkedOut = []
  /-- The host could make one. -/
  possible : ∃ i y, s.create sc.pool.program sc.world.host = (.ok i, y)
  /-- The control task has nothing that it can do. -/
  powerless : sc.pool.Powerless

/-! ### Jammed pools -/

/-- The control task waits in line, or has ended, and there is no instance of the pool. -/
structure Jammed (sc : Scene σ) : Prop where
  /-- The pool is open. -/
  opened : sc.pool.closed = false
  /-- The control task hears of nothing. -/
  deaf : sc.pool.control = .ended ∨
    (∃ left, sc.pool.control = .shrinking left) ∧ .control ∈ sc.pool.waiters
  /-- Nobody has a claim. -/
  woken : sc.pool.woken = []
  /-- No instance is ready. -/
  ready : sc.pool.ready = []
  /-- Nobody has one. -/
  out : sc.checkedOut = []

namespace Jammed

/-- Nobody has an answer to take, or holds an instance of the pool. -/
theorem places (h : sc.Jammed) : sc.pool.taken = [] ∧ ∀ i ∈ sc.out, i.detached = true := by
  obtain ⟨htaken, hout⟩ := List.append_eq_nil_iff.mp h.out
  refine ⟨htaken, fun i hi => ?_⟩
  have hnot := List.filter_eq_nil_iff.mp hout i hi
  simpa using hnot

/-- A pool in which nothing has changed but the signals and the callers is jammed as before. -/
theorem congr (h : sc.Jammed) {pool : Pool} {out : List Instance} (world : Census σ)
    (horders : (pool.control, pool.closed) = (sc.pool.control, sc.pool.closed))
    (hline : .control ∈ sc.pool.waiters → .control ∈ pool.waiters)
    (hwoken : pool.woken = sc.pool.woken) (hready : pool.ready = sc.pool.ready)
    (htaken : pool.taken = sc.pool.taken) (hout : ∀ i ∈ out, i.detached = true) :
    Jammed ⟨pool, out, world⟩ := by
  obtain ⟨hcontrol, hclosed⟩ := Prod.mk.inj horders
  refine ⟨hclosed.trans h.opened, ?_, hwoken.trans h.woken, hready.trans h.ready, ?_⟩
  · rw [hcontrol]
    exact h.deaf.imp_right (.imp_right hline)
  · have hnone : out.filter (!·.detached) = [] :=
      List.filter_eq_nil_iff.mpr fun i hi => by simp [hout i hi]
    unfold checkedOut
    dsimp only
    rw [htaken, h.places.1, hnone]
    rfl

theorem signal (h : sc.Jammed) (l : List Signal) :
    Jammed { sc with pool := sc.pool.signal l } := by
  unfold Pool.signal
  split
  · exact h
  · exact h.congr sc.world rfl id rfl rfl rfl h.places.2

theorem acquire (h : sc.Jammed) : Jammed { sc with pool := sc.pool.acquire.2 } := by
  rw [Pool.acquire_empty h.opened (.inr h.ready)]
  have hnext : Jammed { sc with pool := { sc.pool with
      nextTicket := sc.pool.nextTicket + 1, permits := sc.pool.permits - 1 } } :=
    h.congr sc.world rfl id rfl rfl rfl h.places.2
  have hasked := hnext.signal [.grow]
  refine hasked.congr sc.world rfl (fun hline => ?_) rfl rfl rfl h.places.2
  rw [Pool.waiters_signal] at hline
  exact List.mem_append_left _ hline

theorem stuck (h : sc.Jammed) (hwaiting : sc.pool.waiting ≠ [])
    (hpossible : ∃ i y, s.create sc.pool.program sc.world.host = (.ok i, y)) : sc.Stuck s := by
  refine ⟨h.opened, hwaiting, h.ready, h.out, hpossible, ?_⟩
  obtain hended | ⟨⟨left, hshrinking⟩, hline⟩ := h.deaf
  · exact .ended hended
  · exact .inLine hshrinking hline

end Jammed

/-- **A jammed pool stays jammed until it is shut down.** -/
theorem Step.jammed (hstep : Step s sc sc') (h : sc.Jammed) :
    sc'.pool.closed = true ∨ sc'.Jammed := by
  obtain ⟨htaken, hapart⟩ := h.places
  have hbusy : sc.pool.control ≠ .idle := by
    obtain hended | ⟨⟨left, hshrinking⟩, -⟩ := h.deaf
    · rw [hended]
      exact nofun
    · rw [hshrinking]
      exact nofun
  -- an instance that a user has is not of the pool
  have hout {l r : List Instance} {i i' : Instance} (hi : sc.out = l ++ i :: r)
      (hafter : i.After i') : i'.detached = true ∧ ∀ j ∈ l ++ r, j.detached = true := by
    rw [hi] at hapart
    refine ⟨hafter.detached.trans (hapart i (by simp)), fun j hj => hapart j ?_⟩
    rcases List.mem_append.mp hj with hj | hj
    · exact List.mem_append_left _ hj
    · exact List.mem_append_right _ (List.mem_cons_of_mem _ hj)
  cases hstep with
  | acquire => exact .inr h.acquire
  | cancel ticket =>
    right
    obtain heq | ⟨l, since, r, hwoken, -⟩ := sc.pool.cancel_cases ticket
    · rw [heq]
      exact h.congr sc.world rfl (fun hline => List.mem_filter.mpr ⟨hline, rfl⟩) rfl rfl rfl hapart
    · exact absurd (hwoken.symm.trans h.woken) (by simp)
  | resume hp => exact absurd (hp.symm.trans h.woken) (by simp)
  | claim ticket =>
    right
    -- an answer that can be taken is no instance
    have hsplit := Pool.tally_claim (fun _ => true) sc.pool ticket
    have hheld : sc.pool.tally (fun _ => true) = 0 := by
      rw [Pool.tally_eq, h.ready, htaken]
      rfl
    have hnone : ((sc.pool.claim ticket).1.elim [] (·.toOption.toList)) = [] := by
      rw [hheld, List.countP_true] at hsplit
      exact List.eq_nil_of_length_eq_zero (by omega)
    have hrest : (sc.pool.claim ticket).2.taken = [] := by
      rw [hheld, Pool.tally_eq] at hsplit
      simp only [List.countP_true] at hsplit
      exact List.eq_nil_of_length_eq_zero (by omega)
    rw [hnone, List.append_nil]
    exact h.congr sc.world rfl id rfl rfl (hrest.trans htaken.symm) hapart
  | release hi hafter =>
    right
    rename_i l r i i'
    obtain ⟨hdetached, hrest⟩ := hout hi hafter
    have hpooled : i'.detached ≠ false := Bool.ne_false_iff.mpr hdetached
    obtain ⟨-, heq⟩ | ⟨hno, -⟩ | ⟨hno, -⟩ | ⟨hno, -⟩ :=
      Pool.release_cases s.counted sc.pool i' sc.world
    · rw [heq]
      exact h.congr _ rfl id rfl rfl rfl hrest
    · exact absurd hno hpooled
    · exact absurd hno hpooled
    · exact absurd hno hpooled
  | discard hi hafter =>
    right
    rename_i l r i i'
    obtain ⟨hdetached, hrest⟩ := hout hi hafter
    have hpooled : i'.detached ≠ false := Bool.ne_false_iff.mpr hdetached
    obtain ⟨-, heq⟩ | ⟨hno, -⟩ | ⟨hno, -⟩ := Pool.discard_cases s.counted sc.pool i' sc.world
    · rw [heq]
      exact h.congr _ rfl id rfl rfl rfl hrest
    · exact absurd hno hpooled
    · exact absurd hno hpooled
  | spawn hcreate =>
    right
    rename_i i world
    have hdetached : i.detached = true := by
      unfold Pool.createDetached at hcreate
      split at hcreate
      · cases hcreate
        rfl
      · cases hcreate
    refine h.congr world rfl id rfl rfl rfl fun j hj => ?_
    rcases List.mem_append.mp hj with hj | hj
    · exact hapart j hj
    · exact List.mem_singleton.mp hj ▸ hdetached
  | close hi hafter hdetached => exact .inr (h.congr _ rfl id rfl rfl rfl (hout hi hafter).2)
  | requestReset => exact .inr ((h.signal _).congr sc.world rfl id rfl rfl rfl hapart)
  | requestShutdown =>
    left
    rw [Pool.requestShutdown_open h.opened, Pool.closed_signal]
    rfl
  | obey hidle hsignals => exact absurd hidle hbusy
  | tick hidle => exact absurd hidle hbusy
  | goOn =>
    right
    -- the control task has no claim to go on with
    obtain heq | ⟨left, -, ⟨hclosed, -⟩ | ⟨-, hwoken, -⟩ | ⟨-, hwoken, -⟩⟩ :=
      Pool.goOn_cases s.counted sc.pool sc.world
    · rw [heq]
      exact h
    · exact absurd (h.opened.symm.trans hclosed) Bool.false_ne_true
    · exact absurd (h.woken ▸ hwoken) List.not_mem_nil
    · exact absurd (h.woken ▸ hwoken) List.not_mem_nil
  | spawnFailed | wait | advance | elsewhere =>
    exact .inr (h.congr _ rfl id rfl rfl rfl hapart)

/-- **Whatever is done with a jammed pool, there is no instance of it before it is shut down.** -/
theorem Jammed.of_run (h : sc.Jammed) (hrun : Relation.ReflTransGen (Step s) sc sc') :
    sc'.pool.closed = true ∨ sc'.Jammed := by
  induction hrun with
  | refl => exact .inr h
  | tail _ hstep ih =>
    rcases ih with hclosed | hjammed
    · exact .inl (hstep.label_closed.2 hclosed)
    · exact hstep.jammed hjammed

/-- **Where a caller is stuck**, the pool is jammed, or it may be empty and the control task sees no
reason to make an instance. -/
theorem Reachable.stuck_cases (h : Reachable s contract program settings sc) (hstuck : sc.Stuck s) :
    sc.Jammed ∨ settings.minSize = 0 ∧ sc.pool.control = .idle := by
  -- whoever has a claim would find an instance
  have hwoken : sc.pool.woken = [] := by
    by_contra hsome
    obtain ⟨i, rest, hready⟩ := h.matched.next hstuck.opened hsome
    exact List.cons_ne_nil _ _ (hready.symm.trans hstuck.ready)
  cases hstuck.powerless with
  | content hidle hsignals hgrow =>
    have hawake : sc.pool.control ≠ .ended := by
      rw [hidle]
      exact nofun
    -- nothing is left of the pool, and it is not too small all the same
    have hsize : sc.pool.size = 0 := by
      rw [(h.invariant_of_awake hawake).size_eq]
      unfold total removals
      rw [hstuck.ready, hstuck.out, hsignals]
      rfl
    refine .inr ⟨?_, hidle⟩
    by_contra hmin
    refine hgrow (sc.pool.shouldGrow_iff.mpr (.inl ?_))
    rw [h.settings_eq, hsize]
    exact PoolConfig.toNat_pos hmin
  | inLine hcontrol hline =>
    exact .inl ⟨hstuck.opened, .inr ⟨⟨_, hcontrol⟩, hline⟩, hwoken, hstuck.ready, hstuck.out⟩
  | ended hended => exact .inl ⟨hstuck.opened, .inl hended, hwoken, hstuck.ready, hstuck.out⟩

/-! ### Stuck pools -/

/-- A caller asks a pool that has nothing ready, and waits. -/
theorem waiting_acquire {p : Pool} (hopen : p.closed = false) (hready : p.ready = []) :
    p.acquire.2.waiting ≠ [] := by
  have hmem : p.nextTicket ∈ p.acquire.2.waiting := by
    rw [Pool.acquire_empty hopen (.inr hready)]
    exact List.mem_filterMap.mpr ⟨_, List.mem_append_right _ (List.mem_singleton_self _), rfl⟩
  exact List.ne_nil_of_mem hmem

/-- The next caller of a jammed pool is stuck, as soon as the host could make an instance. -/
theorem Reachable.exists_stuck_of_jammed {sc : Scene Ration}
    (h : Reachable .rationed contract program settings sc) (hjammed : sc.Jammed) :
    ∃ sc : Scene Ration, Reachable .rationed contract program settings sc ∧
      sc.Stuck .rationed ∧ sc.Jammed := by
  have hasked := (h.step (Step.acquire _)).rationing 1
  have hstill : Jammed _ := hjammed.acquire.congr ⟨⟨sc.world.host.next, 1⟩, sc.world.live⟩ rfl id
    rfl rfl rfl hjammed.acquire.places.2
  exact ⟨_, hasked, hstill.stuck (waiting_acquire hjammed.opened hjammed.ready) ⟨_, _, rfl⟩, hstill⟩

/-- Without a clock the control task has ended, and nobody makes an instance for the first caller.
-/
theorem exists_stuck_of_clockless (contract : ContractId) (program : Module)
    (hasleep : settings.isMeasurable = false) :
    ∃ sc : Scene Ration, Reachable .rationed contract program settings sc ∧
      sc.Stuck .rationed ∧ sc.Jammed := by
  obtain ⟨world, h⟩ := exists_created_without contract program settings
  rw [hasleep] at h
  exact h.exists_stuck_of_jammed ⟨rfl, .inl rfl, rfl, rfl, rfl⟩

/-- A request for growth, at a time when the host cannot make an instance, only counts. -/
theorem obey_grow_of_none_left {p : Pool} (hwoken : p.woken = []) (hfits : p.shouldGrow ≠ none)
    {x : Census Ration} (hleft : x.host.left = 0) :
    ∃ count, p.obey NumberedSupply.rationed.counted x .grow = ({ p with growCount := count }, x) ∧
      (count = 0 ∨ ({ p with growCount := count } : Pool).shouldGrow = some false) := by
  cases hgrow : p.countGrowth.shouldGrow with
  | none =>
    rw [Ne, Pool.shouldGrow_eq_none_iff] at hfits
    rw [Pool.shouldGrow_eq_none_iff] at hgrow
    exact absurd hgrow hfits
  | some grows =>
    cases grows with
    | true =>
      refine ⟨0, ?_, .inl rfl⟩
      rw [Pool.obey_grow_true hgrow,
        Pool.grow_of_none_left (p := p.countGrowth) hwoken _ hleft]
      rfl
    | false => exact ⟨_, Pool.obey_grow_false hgrow x, .inr hgrow⟩

/-- A pool that may be empty does not grow for the first caller: either its request does not count
yet, or the host cannot make an instance just then. -/
theorem exists_stuck_of_empty (contract : ContractId) (program : Module)
    (hmeasurable : settings.isMeasurable = true) (hmin : settings.minSize = 0) :
    ∃ sc : Scene Ration, Reachable .rationed contract program settings sc ∧ sc.Stuck .rationed := by
  obtain ⟨world, h⟩ := exists_created_empty contract program hmeasurable
  let p : Pool :=
    { contract, program, settings, waiters := [.caller 0 0], nextTicket := 1 }
  have hasked : Reachable .rationed contract program settings
      ⟨{ p with signals := [.grow] }, [], ⟨⟨world.host.next, 0⟩, world.live⟩⟩ :=
    (h.step (Step.acquire _)).rationing 0
  have hqueue : ({ p with signals := [.grow] } : Pool).signals = .grow :: [] := rfl
  have hheard := hasked.step (Step.obey rfl hqueue)
  -- a step alone fits
  have hfits : p.shouldGrow ≠ none := by
    rw [Ne, Pool.shouldGrow_eq_none_iff, not_and_or]
    have hlimit := settings.growStep.toNat_lt
    exact .inr (Nat.not_le.mpr ((Nat.zero_add _).trans_lt hlimit))
  obtain ⟨count, hsame, hcount⟩ := obey_grow_of_none_left (p := p) rfl hfits
    (x := ⟨⟨world.host.next, 0⟩, world.live⟩) rfl
  have hcontent : ({ p with growCount := count } : Pool).shouldGrow ≠ some true := by
    rcases hcount with rfl | hno
    · exact Pool.shouldGrow_ne_true (congrArg UInt32.toNat hmin).le rfl rfl
    · rw [hno]
      exact nofun
  unfold act at hheard
  rw [hsame] at hheard
  exact ⟨_, hheard.rationing 1,
    { opened := rfl
      waiting := List.cons_ne_nil _ _
      ready := rfl
      out := rfl
      possible := ⟨_, _, rfl⟩
      powerless := .content rfl rfl hcontent }⟩

/-- What the control task is told of instances that are given up: those of the pool are to be
replaced. -/
def replacements : List Instance → List Signal
  | [] => []
  | i :: l => if i.detached then replacements l else .remove :: .add :: replacements l

theorem signal_append (p : Pool) (l l' : List Signal) :
    (p.signal l).signal l' = p.signal (l ++ l') := by
  by_cases hended : p.control = .ended
  · have hsame (l : List Signal) : p.signal l = p := if_pos hended
    rw [hsame, hsame, hsame]
  · have hawake : (p.signal l).control ≠ .ended := by
      rw [Pool.control_signal]
      exact hended
    rw [Pool.signal_of_awake hawake, Pool.signal_of_awake hended, Pool.signal_of_awake hended,
      List.append_assoc]

/-- All users give up what they have.  The pool only learns of it. -/
theorem Reachable.giveUpAll : ∀ (out : List Instance) {p : Pool} {world : Census σ},
    Reachable s contract program settings ⟨p, out, world⟩ → p.closed = false →
    ∃ world', Reachable s contract program settings
      ⟨p.signal (replacements out), [], world'⟩ := by
  intro out
  -- each is discarded in turn; only those that belong to the pool leave signals behind
  induction out with
  | nil =>
    intro p world h _
    have hsame : p.signal (replacements []) = p := by
      unfold Pool.signal replacements
      rw [List.append_nil]
      exact ite_self p
    exact ⟨world, hsame.symm ▸ h⟩
  | cons i rest ih =>
    intro p world h hopen
    have hgone := h.step (Step.discard (l := []) (r := rest) (i := i) rfl ⟨rfl, rfl, rfl⟩)
    unfold act at hgone
    obtain ⟨hdetached, heq⟩ | ⟨-, hclosed, -⟩ | ⟨hpooled, -, heq⟩ :=
      Pool.discard_cases s.counted p i world
    · rw [heq] at hgone
      rw [replacements, if_pos hdetached]
      exact ih hgone hopen
    · exact absurd (hopen.symm.trans hclosed) (by decide)
    · rw [heq] at hgone
      obtain ⟨world', hall⟩ := ih hgone ((Pool.closed_signal _ _).trans hopen)
      rw [signal_append] at hall
      rw [replacements, if_neg (Bool.eq_false_iff.mp hpooled)]
      exact ⟨world', hall⟩

/-- All instances of an open pool without a control task can be taken and given up. -/
theorem Reachable.exists_emptied (h : Reachable s contract program settings sc)
    (hopen : sc.pool.closed = false) (hended : sc.pool.control = .ended) :
    ∃ sc' : Scene σ, Reachable s contract program settings sc' ∧ sc'.Jammed := by
  -- by the number of those that are ready: a caller takes one at a time, and none comes after it
  generalize hn : sc.pool.ready.length = n
  induction n generalizing sc with
  | zero =>
    have hready := List.eq_nil_of_length_eq_zero hn
    obtain ⟨world', hgone⟩ := h.claimAll.giveUpAll _ hopen
    have hsame (l : List Signal) : ({ sc.pool with served := [] } : Pool).signal l =
        { sc.pool with served := [] } := if_pos hended
    rw [hsame] at hgone
    have hlength := h.matched.ready hopen
    rw [hn] at hlength
    have hwoken : sc.pool.woken = [] := List.eq_nil_of_length_eq_zero (by omega)
    exact ⟨_, hgone, hopen, .inl hended, hwoken, hready, rfl⟩
  | succ n ih =>
    have hsome : sc.pool.ready ≠ [] := by
      intro hnone
      rw [hnone] at hn
      exact Nat.succ_ne_zero n hn.symm
    obtain ⟨p, hp, -, hstill, hended', hfewer⟩ := h.exists_answered hopen hended hsome
    exact ih hp hstill hended' (Nat.succ_inj.mp (hfewer.trans hn))

/-- A pool whose size and a step do not fit loses its control task, and then its instances. -/
theorem exists_stuck_of_overflow (contract : ContractId) (program : Module)
    (hvalid : settings.validate = .ok ()) (hfinite : ¬ settings.Summable) :
    ∃ sc : Scene Ration, Reachable .rationed contract program settings sc ∧
      sc.Stuck .rationed ∧ sc.Jammed := by
  obtain ⟨sc, h, hidle, hopen, hover⟩ := exists_overflow contract program hvalid hfinite
  obtain ⟨sc', hsc', hjammed⟩ := (h.tick_of_overflows hidle hover).exists_emptied hopen rfl
  exact hsc'.exists_stuck_of_jammed hjammed

/-- Callers ask for instances while some are ready, and take them. -/
theorem Reachable.takeAll {world : Census σ} {rest : List Instance} {k : Nat} :
    ∀ (l : List Instance) {p : Pool} {out : List Instance},
    Reachable s contract program settings ⟨p, out, world⟩ →
    p.closed = false → p.served = [] → p.ready = l ++ rest → p.permits = l.length + k →
    ∃ uses nextTicket, Reachable s contract program settings
      ⟨{ p with ready := rest, permits := k, uses, nextTicket, served := [] }, out ++ l,
        world⟩ := by
  intro l
  induction l with
  | nil =>
    intro p out h _ hserved hready hpermits
    rw [List.length_nil, Nat.zero_add] at hpermits
    have hsame : { p with
        ready := rest, permits := k, uses := p.uses, nextTicket := p.nextTicket, served := [] } =
        p := by
      cases p
      cases hserved
      cases hready
      cases hpermits
      rfl
    exact ⟨p.uses, p.nextTicket, by rwa [hsame, List.append_nil]⟩
  | cons i l ih =>
    intro p out h hopen hserved hready hpermits
    have hmore : p.permits = l.length + k + 1 := by
      rw [hpermits, List.length_cons]
      exact Nat.add_right_comm _ _ _
    -- a caller asks, is answered at once, and claims the answer
    have hasked := h.step (Step.acquire _)
    rw [Pool.acquire_ready hopen hmore hready, hserved] at hasked
    have htaken := hasked.step (Step.claim _ p.nextTicket)
    rw [@Pool.claim_cons _ p.nextTicket (.ok i) _ rfl] at htaken
    obtain ⟨uses, nextTicket, hall⟩ := ih htaken hopen rfl rfl rfl
    exact ⟨uses, nextTicket, List.append_cons out i l ▸ hall⟩

/-- A pool that is looked at while all its instances are with users, and is too large, is jammed as
soon as these give them up. -/
theorem Reachable.exists_jammed {p : Pool} {out : List Instance} {world : Census σ}
    (h : Reachable s contract program settings ⟨p, out, world⟩) (hidle : p.control = .idle)
    (hopen : p.closed = false) (hready : p.ready = []) (hserved : p.served = [])
    (hgrow : p.shouldGrow = some false) (hshrink : p.shouldShrink = true)
    (hstep : p.settings.growStep ≠ 0) :
    ∃ sc : Scene σ, Reachable s contract program settings sc ∧ sc.Jammed := by
  obtain ⟨n, hn⟩ := Nat.exists_eq_succ_of_ne_zero (PoolConfig.toNat_pos hstep).ne'
  have hlength := h.matched.ready hopen
  dsimp only at hlength
  rw [hready, List.length_nil] at hlength
  have hwoken : p.woken = [] := List.eq_nil_of_length_eq_zero (by omega)
  -- the task begins to shrink, finds nothing to take, and waits in the line itself
  have hlooked := h.step (Step.tick hidle)
  unfold act at hlooked
  rw [Pool.tick_false hgrow, if_pos hshrink, hn,
    Pool.shrink_blocked (p := { p with ticked := p.ticked + 1 }) hopen (by dsimp only; omega)]
    at hlooked
  -- now all instances are given up, and the task does not hear of it
  obtain ⟨world', hgone⟩ := hlooked.giveUpAll out hopen
  rw [Pool.signal_of_awake fun he => Control.noConfusion he] at hgone
  refine ⟨_, hgone, hopen, .inr ⟨⟨_, rfl⟩, List.mem_append_right _ (List.mem_singleton_self _)⟩,
    hwoken, hready, ?_⟩
  unfold checkedOut Pool.taken
  dsimp only
  rw [hserved]
  rfl

/-- A pool that may be shrunk at some size comes to that size, and is jammed. -/
theorem exists_stuck_of_shrinking (contract : ContractId) (program : Module)
    (hvalid : settings.validate = .ok ()) (hmeasurable : settings.isMeasurable = true)
    (hsummable : settings.Summable) (hmin : settings.minSize ≠ 0) :
    ∃ sc : Scene Ration, Reachable .rationed contract program settings sc ∧
      sc.Stuck .rationed ∧ sc.Jammed := by
  obtain ⟨-, hle, hstep, -⟩ := settings.validate_eq_ok_iff.mp hvalid
  have hpositive := PoolConfig.toNat_pos hstep
  have hmore := PoolConfig.toNat_pos hmin
  -- one more than the smallest size and than a step
  have hlt : max settings.minSize.toNat settings.growStep.toNat + 1 < 2 ^ 32 := by
    cases hsummable with
    | asleep hasleep => exact absurd (hmeasurable.symm.trans hasleep) (by decide)
    | empty hempty _ => exact absurd hempty hmin
    | patient _ _ hfits => omega
    | small hfits => omega
  obtain ⟨left, hleft⟩ := Nat.exists_eq_add_of_le (Nat.le_succ_of_le
    (Nat.le_max_left settings.minSize.toNat settings.growStep.toNat))
  obtain ⟨ticket, ready, permits, world, h⟩ := exists_rested_of_narrow contract program settings
    hmeasurable hstep hmin left (by omega) (by omega)
  rw [← hleft] at h
  have hpermits : permits = ready.length + 0 := (h.matched.ready rfl).symm
  obtain ⟨uses, nextTicket, htaken⟩ :=
    h.takeAll ready rfl rfl (List.append_nil ready).symm hpermits
  let size := UInt32.ofNat (max settings.minSize.toNat settings.growStep.toNat).succ
  let p : Pool := { contract, program, settings, size, uses, nextTicket, ticked := 1 }
  have htaken : Reachable .rationed contract program settings ⟨p, ready, world⟩ := htaken
  have hsize : p.size.toNat = max settings.minSize.toNat settings.growStep.toNat + 1 :=
    UInt32.toNat_ofNat_of_lt' hlt
  have hminsize : settings.minSize.toNat < p.size.toNat := by omega
  have hstepsize : settings.growStep.toNat < p.size.toNat := by omega
  -- nobody had to wait, so the control task finds the pool too large
  have hquick : p.averageDelay ≤ settings.delayToleranceMs.toNat := by
    rw [Pool.averageDelay_of_totalDelay rfl]
    exact Nat.zero_le _
  have hfits : p.shouldGrow ≠ none := mt Pool.shouldGrow_eq_none_iff_overflows.mp
    (htaken.not_overflows hsummable hmeasurable hle hstep)
  obtain ⟨sc, hsc, hjammed⟩ := htaken.exists_jammed rfl rfl rfl rfl
    (Pool.shouldGrow_eq_false hfits (Pool.shouldGrow_ne_true hminsize.le rfl rfl))
    (p.shouldShrink_iff.mpr ⟨hminsize, hstepsize, hquick⟩) hstep
  exact hsc.exists_stuck_of_jammed hjammed

/-- **Whatever the settings are, some run leaves a caller stuck.**  Unless the pool may be empty, it
is jammed then, and it is jammed in every run until it is shut down.  A caller of a pool that must
not be empty is stuck only so. -/
theorem callers_stuck (contract : ContractId) (program : Module) {settings : PoolTerms}
    (hvalid : settings.validate = .ok ()) :
    (∃ (σ : Type) (s : NumberedSupply σ) (sc : Scene σ),
      Reachable s contract program settings sc ∧ sc.Stuck s) ∧
    ∀ (σ : Type) (s : NumberedSupply σ) (sc : Scene σ),
      Reachable s contract program settings sc → sc.Stuck s →
        (settings.minSize = 0 ∧ sc.pool.control = .idle) ∨
          ∀ later, Relation.ReflTransGen (Step s) sc later →
            later.pool.closed = true ∨ later.Jammed := by
  refine ⟨?_, fun σ s sc h hstuck => ?_⟩
  · -- one run for each kind of settings
    by_cases hmeasurable : settings.isMeasurable = true
    · by_cases hmin : settings.minSize = 0
      · exact ⟨_, _, exists_stuck_of_empty contract program hmeasurable hmin⟩
      · by_cases hsummable : settings.Summable
        · obtain ⟨sc, hsc, hstuck, -⟩ :=
            exists_stuck_of_shrinking contract program hvalid hmeasurable hsummable hmin
          exact ⟨_, _, sc, hsc, hstuck⟩
        · obtain ⟨sc, hsc, hstuck, -⟩ :=
            exists_stuck_of_overflow contract program hvalid hsummable
          exact ⟨_, _, sc, hsc, hstuck⟩
    · obtain ⟨sc, hsc, hstuck, -⟩ :=
        exists_stuck_of_clockless contract program (eq_false_of_ne_true hmeasurable)
      exact ⟨_, _, sc, hsc, hstuck⟩
  · rcases h.stuck_cases hstuck with hjammed | hempty
    · exact .inr fun later hrun => hjammed.of_run hrun
    · exact .inl hempty

/-- Pools of the default settings have stuck callers, and these are jammed. -/
theorem stuck_default :
    ({} : PoolConfig).validate = .ok () ∧
      ∃ (σ : Type) (s : NumberedSupply σ) (sc : Scene σ),
        Reachable s ⟨"counter", "1.0.0"⟩ default {} sc ∧ sc.Stuck s ∧
          ∀ later, Relation.ReflTransGen (Step s) sc later →
            later.pool.closed = true ∨ later.Jammed := by
  have hvalid : ({} : PoolTerms).validate = .ok () :=
    (PoolConfig.validate_eq_ok_iff _).mpr (by decide +kernel)
  obtain ⟨⟨σ, s, sc, hsc, hstuck⟩, hcases⟩ := callers_stuck ⟨"counter", "1.0.0"⟩ default hvalid
  refine ⟨hvalid, σ, s, sc, hsc, hstuck, ?_⟩
  exact (hcases σ s sc hsc hstuck).resolve_left fun hempty =>
    absurd hempty.1 (by decide +kernel)

/-- A pool of at least one instance and at most four, which grows for every caller that waits, is
jammed when the control task looks at it while two users have its instances, and these give them
up.  The next caller is stuck. -/
theorem jammed_of_two :
    ({ minSize := 1, maxSize := 4, growStep := 1, applyThreshold := 0 } : PoolConfig).validate =
        .ok () ∧
      ∃ sc : Scene Nat,
        Reachable .unfailing ⟨"counter", "1.0.0"⟩ default
          { minSize := 1, maxSize := 4, growStep := 1, applyThreshold := 0 } sc ∧
        sc.Stuck .unfailing ∧ sc.Jammed := by
  refine ⟨(PoolConfig.validate_eq_ok_iff _).mpr (by decide +kernel), ?_⟩
  have hcreate : Pool.create NumberedSupply.unfailing.counted ⟨"counter", "1.0.0"⟩ default
      { minSize := 1, maxSize := 4, growStep := 1, applyThreshold := 0 } ⟨0, []⟩ = _ := rfl
  -- the second caller waits until the pool has grown
  have hasked := ((Reachable.create (s := .unfailing) hcreate).step (.acquire _)).step (.acquire _)
  have htaken := ((hasked.step (.obey rfl rfl)).step (.claim _ 0)).step (.claim _ 1)
  have hlooked := htaken.step (.tick rfl)
  have hgone := hlooked.step (.discard (l := []) rfl ⟨rfl, rfl, rfl⟩)
  have hempty := hgone.step (.discard (l := []) (r := []) rfl ⟨rfl, rfl, rfl⟩)
  have hwaits := hempty.step (.acquire _)
  refine ⟨_, hwaits, (and_iff_right_of_imp fun hjammed => ?_).mpr ?_⟩
  · exact hjammed.stuck (List.cons_ne_nil _ _) ⟨_, _, rfl⟩
  · exact ⟨rfl, .inr ⟨⟨_, rfl⟩, List.mem_cons_self⟩, rfl, rfl, rfl⟩

end Scene

end ContractHost
