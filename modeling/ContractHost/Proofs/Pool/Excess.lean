import ContractHost.Proofs.Pool.Bound

/-!
# Pools that get too large

A pool can get larger than its greatest size.  When an instance is replaced, the removal of the old
one makes room; if the control task looks at the pool just then, it fills that room, and the new
instance is added all the same.

Whether this can happen depends on the settings only.  The host decides how many instances of a
step can be made, and the users decide when instances are given up, when they ask, and how long they
wait.  So nearly every size is a size that a pool can have when an instance is about to be replaced,
and the run that brings it there is the same for all settings: a caller waits for the first
instance, and gives it up; the control task hears of that only after it has heard of the requests
for growth that were made before.

## Main definitions

* `NumberedSupply.rationed` — a host that makes only so many instances.
* `Scene.Reaches` — the stages of the run.
* `PoolTerms.Confined` — the settings under which no pool gets too large.

## Main results

* `Scene.Reaches.climb`, `Scene.Reaches.overshoot` — the run.
* `Scene.size_le_maxSize_iff` — **no run of a pool exceeds its greatest size, exactly if its
  settings are confined;** and no run exceeds it by more than one, or the smallest size by more than
  a step.
-/

namespace ContractHost

/-! ### A host that can fail -/

/-- The state of a host that makes only so many instances. -/
structure Ration where
  /-- The number of the next instance. -/
  next : Nat
  /-- How many can be made. -/
  left : Nat

/-- The next instance, of a module. -/
def Ration.make (x : Ration) (m : Module) : Instance :=
  { id := x.next, script := m.script, pageLimit := 0, memory := ⟨0, ∅⟩, gas := 0 }

/-- A supply that fails when it has nothing left. -/
def NumberedSupply.rationed : NumberedSupply Ration where
  create m x :=
    match x.left with
    | 0 => (.error (.instantiationFailed "out of memory"), x)
    | left + 1 => (.ok (x.make m), ⟨x.next + 1, left⟩)
  teardown _ x := x
  drop _ x := x
  next x := x.next
  next_create_ok := by
    intro m x i x' h
    split at h
    · cases h
    · cases h
      exact ⟨le_rfl, Nat.lt_succ_self _, rfl⟩
  next_create_error := by
    intro m x e x' h
    split at h
    · cases h
      exact le_rfl
    · cases h
  next_teardown := fun _ _ => le_rfl
  next_drop := fun _ _ => le_rfl

namespace Pool

/-- At most a step is made in one batch. -/
theorem batches_of_le {step n : Nat} (hn : n ≠ 0) (hle : n ≤ step) : batches step n = [n] := by
  unfold batches
  rcases hle.lt_or_eq with hlt | rfl
  · rw [Nat.div_eq_of_lt hlt, Nat.mod_eq_of_lt hlt, if_neg hn]
    rfl
  · rw [Nat.div_self (Nat.pos_of_ne_zero hn), Nat.mod_self, if_pos rfl]
    rfl

/-- A host that has nothing left lets no pool grow. -/
theorem grow_of_none_left {p : Pool} (hwoken : p.woken = []) (n : UInt32) {x : Census Ration}
    (hleft : x.host.left = 0) : p.grow NumberedSupply.rationed.counted n x = (p, x) := by
  have hstable : GrowthStable NumberedSupply.rationed.counted fun q y => q = p ∧ y = x :=
    { resume := fun hq h =>
        absurd ((h.1 ▸ hq).symm.trans hwoken)
          (List.append_ne_nil_of_right_ne_nil _ (List.cons_ne_nil _ _))
      growOne := fun {q y} h => by
        obtain ⟨rfl, rfl⟩ := h
        obtain ⟨⟨next, left⟩, live⟩ := y
        cases hleft
        exact ⟨rfl, rfl⟩ }
  obtain ⟨hp, hx⟩ := hstable.grow n (p := p) (x := x) ⟨rfl, rfl⟩
  exact Prod.ext hp hx

theorem growOne_rationed (p : Pool) (next left : Nat) (live : List Nat) :
    p.growOne NumberedSupply.rationed.counted ⟨⟨next, left + 1⟩, live⟩ =
      (true,
        { p with size := p.size + 1 }.push
          { Ration.make ⟨next, left + 1⟩ p.program with epoch := p.epoch },
        ⟨⟨next + 1, left⟩, next :: live⟩) :=
  rfl

theorem growSome_of_none_left (n : Nat) (p : Pool) {x : Census Ration}
    (hleft : x.host.left = 0) : growSome NumberedSupply.rationed.counted n p x = (p, x) := by
  obtain ⟨⟨next, left⟩, live⟩ := x
  cases hleft
  induction n with
  | zero => rfl
  | succ n ih => exact ih

/-- Where nobody waits, a pool grows by what the host has left. -/
theorem growSome_rationed : ∀ (n : Nat) (p : Pool) (x : Census Ration), p.waiters = [] →
    x.host.left ≤ n → ∃ ready permits y, growSome NumberedSupply.rationed.counted n p x =
      ({ p with ready, permits, size := p.size + UInt32.ofNat x.host.left }, y) := by
  intro n
  induction n with
  | zero =>
    intro p x _ hleft
    refine ⟨p.ready, p.permits, x, ?_⟩
    have hsize : p.size + UInt32.ofNat x.host.left = p.size := by
      rw [Nat.le_zero.mp hleft]
      exact UInt32.add_zero _
    rw [hsize]
    rfl
  | succ n ih =>
    intro p ⟨⟨next, left⟩, live⟩ hwaiters hleft
    -- once the supply has run out every further attempt fails
    cases left with
    | zero => exact ih p ⟨⟨next, 0⟩, live⟩ hwaiters (Nat.zero_le n)
    | succ left =>
      rw [growSome, growOne_rationed, push_nil (p := { p with size := p.size + 1 }) hwaiters]
      obtain ⟨ready, permits, y, hsome⟩ := ih { p with
          size := p.size + 1
          permits := p.permits + 1
          ready := p.ready ++ [{ Ration.make ⟨next, left + 1⟩ p.program with epoch := p.epoch }] }
        ⟨⟨next + 1, left⟩, next :: live⟩ hwaiters (Nat.le_of_succ_le_succ hleft)
      refine ⟨ready, permits, y, hsome.trans ?_⟩
      rw [UInt32.ofNat_add, UInt32.add_comm (UInt32.ofNat left), ← UInt32.add_assoc]
      rfl

/-- A batch for a pool where nobody waits. -/
theorem growBatch_rationed {p : Pool} (hwaiters : p.waiters = []) (hwoken : p.woken = [])
    {n : Nat} (hn : n ≠ 0) {x : Census Ration} (hleft : x.host.left ≤ n) :
    ∃ ready permits y, growBatch NumberedSupply.rationed.counted (p, x) n =
      ({ p with ready, permits, size := p.size + UInt32.ofNat x.host.left }, y) := by
  obtain ⟨m, rfl⟩ := Nat.exists_eq_succ_of_ne_zero hn
  obtain ⟨ready, permits, y, hsome⟩ := growSome_rationed (m + 1) p x hwaiters hleft
  refine ⟨ready, permits, y, ?_⟩
  rw [growSome] at hsome
  unfold growBatch
  dsimp only [Nat.succ_eq_add_one, Nat.add_one_sub_one] at hsome ⊢
  rw [resumeAll_of_nil hwoken, hsome]
  unfold resumeFirst
  rw [hwoken]
  dsimp only
  split <;> rfl

/-- Where nobody waits, a pool that grows by at most a step grows by what the host has left. -/
theorem grow_rationed {p : Pool} (hwaiters : p.waiters = []) (hwoken : p.woken = [])
    {n : UInt32} (hn : n ≠ 0) (hstep : n ≤ p.settings.growStep) {x : Census Ration}
    (hleft : x.host.left ≤ n.toNat) :
    ∃ ready permits y, p.grow NumberedSupply.rationed.counted n x =
      ({ p with ready, permits, size := p.size + UInt32.ofNat x.host.left }, y) := by
  have hcount := (PoolConfig.toNat_pos hn).ne'
  have hle := (UInt32.le_iff_toNat_le.mp hstep).trans (Nat.le_max_left _ 1)
  unfold grow
  rw [batches_of_le hcount hle]
  exact growBatch_rationed hwaiters hwoken hcount hleft

/-- The first instance of a pool goes to the caller that waits for it. -/
theorem grow_rationed_caller {p : Pool} {ticket : Ticket} {since : Nat} (hopen : p.closed = false)
    (hready : p.ready = []) (hwaiters : p.waiters = [.caller ticket since]) (hwoken : p.woken = [])
    (hstep : p.settings.growStep ≠ 0) {x : Census Ration} (hleft : x.host.left = 1) :
    ∃ i y, i.detached = false ∧
      p.grow NumberedSupply.rationed.counted p.settings.growStep x =
        ({ p with
            waiters := []
            size := p.size + 1
            uses := p.uses + 1
            totalDelay := p.totalDelay + UInt64.ofNat (p.now - since)
            served := p.served ++ [(ticket, .ok i)] }, y) := by
  obtain ⟨⟨next, left⟩, live⟩ := x
  cases hleft
  have hcount := (PoolConfig.toNat_pos hstep).ne'
  -- the caller has a claim as soon as the instance is ready
  have hone := growOne_rationed p next 0 live
  rw [push_cons (p := { p with size := p.size + 1 }) hwaiters] at hone
  dsimp only at hone
  rw [hwoken, hready, List.nil_append, List.nil_append] at hone
  refine ⟨{ Ration.make ⟨next, 1⟩ p.program with epoch := p.epoch }, ⟨⟨next + 1, 0⟩, next :: live⟩,
    rfl, ?_⟩
  unfold grow
  rw [batches_of_le hcount (Nat.le_max_left _ 1), List.foldl_cons, List.foldl_nil, growBatch]
  dsimp only
  rw [resumeAll_of_nil hwoken, hone]
  dsimp only
  rw [growSome_of_none_left _ _ rfl, if_pos rfl]
  unfold resumeFirst
  dsimp only
  rw [resume_ready (by exact hopen) rfl]
  cases p
  cases hwoken
  cases hready
  rfl

/-- The control task is free, and callers have waited for `delay` milliseconds on the average. -/
structure Poised (settings : PoolTerms) (delay : Nat) (p : Pool) : Prop where
  /-- The pool has the settings. -/
  settings : p.settings = settings
  /-- The control task is free. -/
  idle : p.control = .idle
  /-- The callers have waited. -/
  delay : p.averageDelay = delay

/-- Nobody waits for an instance, or is about to get one. -/
structure Alone (p : Pool) : Prop where
  /-- Nobody waits. -/
  waiters : p.waiters = []
  /-- Nobody has a claim. -/
  woken : p.woken = []

/-- A pool as it stood before, with other instances ready, of another size, with another count of
requests, and other signals. -/
def stage (p : Pool) (ready : List Instance) (permits size count : Nat) (l : List Signal) : Pool :=
  { p with
    ready, permits, size := UInt32.ofNat size, growCount := UInt32.ofNat count, signals := l }

theorem countGrowth_stage {count : Nat} (hcount : count + 1 < 2 ^ 32) (p : Pool)
    (ready : List Instance) (permits size : Nat) (l : List Signal) :
    (p.stage ready permits size count l).countGrowth =
      p.stage ready permits size (count + 1) l := by
  have hnext : UInt32.ofNat count + 1 = UInt32.ofNat (count + 1) := (UInt32.ofNat_add _ _).symm
  have hne : UInt32.ofNat (count + 1) ≠ 0 := by
    intro hzero
    have hmod := congrArg UInt32.toNat hzero
    rw [UInt32.toNat_ofNat_of_lt' hcount, UInt32.toNat_zero] at hmod
    exact Nat.succ_ne_zero _ hmod
  unfold countGrowth stage
  dsimp only
  rw [hnext, if_neg hne]

theorem shouldGrow_stage {p : Pool} {settings : PoolTerms} {delay size count : Nat}
    (hp : p.Poised settings delay) (hsize : size < 2 ^ 32) (hcount : count < 2 ^ 32)
    (ready : List Instance) (permits : Nat) (l : List Signal) :
    (p.stage ready permits size count l).shouldGrow = some true ↔
      settings.Grants delay size count := by
  have hdelay : (p.stage ready permits size count l).averageDelay = delay := hp.delay
  rw [shouldGrow_iff, hdelay]
  dsimp only [stage]
  rw [hp.settings, UInt32.toNat_ofNat_of_lt' hsize, UInt32.toNat_ofNat_of_lt' hcount]

/-- Where a step fits above the size, there is an answer. -/
theorem shouldGrow_stage_ne_none {p : Pool} {settings : PoolTerms} {delay size : Nat}
    (hp : p.Poised settings delay) (hfits : size + settings.growStep.toNat < 2 ^ 32) (count : Nat)
    (ready : List Instance) (permits : Nat) (l : List Signal) :
    (p.stage ready permits size count l).shouldGrow ≠ none := by
  rw [Ne, shouldGrow_eq_none_iff]
  dsimp only [stage]
  rw [hp.settings, UInt32.toNat_ofNat_of_lt' (show size < 2 ^ 32 by omega)]
  exact fun h => Nat.not_le.mpr hfits h.2

theorem grow_stage {p : Pool} (halone : p.Alone) {n : UInt32} (hn : n ≠ 0)
    (hstep : n ≤ p.settings.growStep) {x : Census Ration} (hleft : x.host.left ≤ n.toNat)
    (ready : List Instance) (permits size count : Nat) (l : List Signal) :
    ∃ ready' permits' y,
      (p.stage ready permits size count l).grow NumberedSupply.rationed.counted n x =
        (p.stage ready' permits' (size + x.host.left) count l, y) := by
  obtain ⟨ready', permits', y, hmade⟩ := grow_rationed (p := p.stage ready permits size count l)
    halone.waiters halone.woken hn hstep hleft
  refine ⟨ready', permits', y, hmade.trans ?_⟩
  unfold stage
  rw [UInt32.ofNat_add]

/-- A caller has waited for the first instance of a pool. -/
def awaited (contract : ContractId) (program : Module) (settings : PoolTerms)
    (ticket : Ticket) (delay : Nat) : Pool :=
  { contract, program, settings, waiters := [.caller ticket 0], nextTicket := ticket + 1,
    now := delay }

/-- The caller has got the first instance, and has given it up. -/
def bereft (contract : ContractId) (program : Module) (settings : PoolTerms) (ticket : Ticket)
    (delay : Nat) : Pool :=
  { contract, program, settings, nextTicket := ticket + 1, now := delay, uses := 1,
    totalDelay := UInt64.ofNat delay }

/-- The control task has looked at the pool once, and nobody has asked for an instance since. -/
def rested (contract : ContractId) (program : Module) (settings : PoolTerms) (ticket : Ticket)
    (delay : Nat) : Pool :=
  { contract, program, settings, nextTicket := ticket + 1, now := delay, ticked := 1 }

theorem poised_awaited (contract : ContractId) (program : Module) (settings : PoolTerms)
    (ticket : Ticket) (delay : Nat) : (awaited contract program settings ticket delay).Poised
      settings 0 :=
  ⟨rfl, rfl, Nat.div_zero _⟩

theorem poised_bereft (contract : ContractId) (program : Module) (settings : PoolTerms)
    (ticket : Ticket) {delay : Nat} (hdelay : delay < 2 ^ 64) :
    (bereft contract program settings ticket delay).Poised settings delay := by
  refine ⟨rfl, rfl, ?_⟩
  unfold averageDelay bereft
  rw [UInt64.toNat_ofNat_of_lt' hdelay, UInt32.toNat_one, Nat.div_one]

end Pool

namespace Scene

variable {contract : ContractId} {program : Module} {settings : PoolTerms}

/-! ### The stages of a run -/

/-- The host may have any number of instances left. -/
theorem Reachable.rationing {sc : Scene Ration}
    (h : Reachable .rationed contract program settings sc) (left : Nat) :
    Reachable .rationed contract program settings
      { sc with world := ⟨⟨sc.world.host.next, left⟩, sc.world.live⟩ } :=
  h.step (Step.elsewhere (Nat.le_refl sc.world.host.next))

/-- A pool is created although nothing of it can be made but the instance on trial. -/
theorem exists_created_without (contract : ContractId) (program : Module)
    (settings : PoolTerms) :
    ∃ world, Reachable .rationed contract program settings
      ⟨{ contract, program, settings, control :=
          if settings.isMeasurable then .idle else .ended }, [], world⟩ := by
  -- the only instance is the one made on trial, so the pool begins without any
  have hcreate : Pool.create NumberedSupply.rationed.counted contract program settings
      ⟨⟨0, 1⟩, []⟩ = (.ok { contract, program, settings, control :=
          if settings.isMeasurable then .idle else .ended },
        ⟨⟨1, 0⟩, []⟩) := by
    have hgrow := Pool.grow_of_none_left (p := { contract, program, settings }) rfl
      settings.minSize (x := ⟨⟨1, 0⟩, []⟩) rfl
    have hunfold : Pool.create NumberedSupply.rationed.counted contract program settings
        ⟨⟨0, 1⟩, []⟩ =
        (.ok { (Pool.grow NumberedSupply.rationed.counted { contract, program, settings }
            settings.minSize ⟨⟨1, 0⟩, []⟩).1 with
          control := if settings.isMeasurable then .idle else .ended },
          (Pool.grow NumberedSupply.rationed.counted { contract, program, settings }
            settings.minSize ⟨⟨1, 0⟩, []⟩).2) := rfl
    rw [hunfold, hgrow]
  exact ⟨_, Reachable.create hcreate⟩

theorem exists_created_empty (contract : ContractId) (program : Module)
    (hmeasurable : settings.isMeasurable = true) :
    ∃ world, Reachable .rationed contract program settings
      ⟨{ contract, program, settings }, [], world⟩ := by
  obtain ⟨world, h⟩ := exists_created_without contract program settings
  rw [hmeasurable] at h
  exact ⟨world, h⟩

/-- A caller that asks, and soon does not wait any more, leaves a request for growth. -/
theorem exists_asked (contract : ContractId) (program : Module)
    (hmeasurable : settings.isMeasurable = true) (n : Nat) :
    ∃ world, Reachable .rationed contract program settings
      ⟨{ contract, program, settings, signals := List.replicate n .grow, nextTicket := n },
        [], world⟩ := by
  induction n with
  | zero => exact exists_created_empty contract program hmeasurable
  | succ n ih =>
    obtain ⟨world, h⟩ := ih
    have hasked := (h.step (Step.acquire _)).step (Step.cancel _ n)
    rw [Pool.acquire_empty rfl (.inl rfl), Pool.signal_of_awake (fun he => Control.noConfusion he)]
      at hasked
    have hgone : [Waiter.caller n 0].filter (fun w => !Pool.isWaiting n w) = [] := by
      simp [Pool.isWaiting]
    unfold Pool.cancel at hasked
    dsimp only [List.nil_append, List.any_nil] at hasked
    rw [hgone, ← List.replicate_succ'] at hasked
    exact ⟨world, hasked⟩

/-- A pool can come to a stage, while no user has an instance. -/
def Reaches (contract : ContractId) (program : Module) (settings : PoolTerms) (p : Pool)
    (size count : Nat) (l : List Signal) : Prop :=
  ∃ ready permits world, Reachable .rationed contract program settings
    ⟨p.stage ready permits size count l, [], world⟩

namespace Reaches

variable {p : Pool} {delay size count : Nat} {l : List Signal}

/-- A caller asks for the first instance, and waits. -/
theorem start (contract : ContractId) (program : Module)
    (hmeasurable : settings.isMeasurable = true) (n delay : Nat) :
    Reaches contract program settings (.awaited contract program settings n delay) 0 0
      (List.replicate (n + 1) .grow) := by
  obtain ⟨world, h⟩ := exists_asked contract program hmeasurable n
  have hwaits := (h.step (Step.acquire _)).step (Step.wait _ delay)
  rw [Pool.acquire_empty rfl (.inl rfl), Pool.signal_of_awake (fun he => Control.noConfusion he)]
    at hwaits
  unfold Pool.wait at hwaits
  dsimp only [List.nil_append] at hwaits
  rw [← List.replicate_succ', Nat.zero_add] at hwaits
  exact ⟨[], 0, world, hwaits⟩

/-- The control task obeys the next signal, while the host has any number of instances left. -/
theorem obeyed {signal : Signal} (h : Reaches contract program settings p size count (signal :: l))
    (hidle : p.control = .idle) (left : Nat) :
    ∃ ready permits world, world.host.left = left ∧
      Reachable .rationed contract program settings
        ⟨((p.stage ready permits size count l).obey NumberedSupply.rationed.counted world signal).1,
          [],
          ((p.stage ready permits size count l).obey
            NumberedSupply.rationed.counted world signal).2⟩ := by
  obtain ⟨ready, permits, world, h⟩ := h
  have hsignals : (p.stage ready permits size count (signal :: l)).signals = signal :: l := rfl
  exact ⟨ready, permits, ⟨⟨world.host.next, left⟩, world.live⟩, rfl,
    (h.rationing left).step (Step.obey hidle hsignals)⟩

theorem refuse (h : Reaches contract program settings p size count (.grow :: l))
    (hp : p.Poised settings delay) (hfits : size + settings.growStep.toNat < 2 ^ 32)
    (hcount : count + 1 < 2 ^ 32) (hno : ¬ settings.Grants delay size (count + 1)) :
    Reaches contract program settings p size (count + 1) l := by
  obtain ⟨ready, permits, world, _, h⟩ := h.obeyed hp.idle 0
  have hsome := Pool.shouldGrow_stage_ne_none hp hfits (count + 1) ready permits l
  have hgrow := (not_congr (Pool.shouldGrow_stage hp (by omega) hcount ready permits l)).mpr hno
  have hnext := Pool.countGrowth_stage hcount p ready permits size l
  rw [← hnext] at hsome hgrow
  rw [Pool.obey_grow_false (Pool.shouldGrow_eq_false hsome hgrow), hnext] at h
  exact ⟨ready, permits, world, h⟩

/-- The control task refuses to grow the pool again and again. -/
theorem refuseAll (hp : p.Poised settings delay) :
    ∀ (n : Nat) {count : Nat}, (n ≠ 0 → size + settings.growStep.toNat < 2 ^ 32) →
      Reaches contract program settings p size count (List.replicate n .grow ++ l) →
      count + n < 2 ^ 32 → (∀ i < n, ¬ settings.Grants delay size (count + i + 1)) →
      Reaches contract program settings p size (count + n) l := by
  intro n
  induction n with
  | zero =>
    intro count _ h _ _
    exact h
  | succ n ih =>
    intro count hfits h hcount hno
    have hone := h.refuse hp (hfits (Nat.succ_ne_zero n)) (by omega) (hno 0 (Nat.succ_pos n))
    have hlater : ∀ i < n, ¬ settings.Grants delay size (count + 1 + i + 1) := by
      intro i hi
      have hno' := hno (i + 1) (Nat.succ_lt_succ hi)
      rwa [← Nat.add_assoc, Nat.add_right_comm count i 1] at hno'
    have hrest := ih (fun _ => hfits (Nat.succ_ne_zero n)) hone (by omega) hlater
    rwa [Nat.add_assoc, Nat.add_comm 1 n] at hrest

theorem grant (h : Reaches contract program settings p size count (.grow :: l))
    (hp : p.Poised settings delay) (halone : p.Alone) (hsize : size < 2 ^ 32)
    (hcount : count + 1 < 2 ^ 32) (hyes : settings.Grants delay size (count + 1))
    (hstep : settings.growStep ≠ 0) {left : Nat} (hleft : left ≤ settings.growStep.toNat) :
    Reaches contract program settings p (size + left) 0 l := by
  obtain ⟨ready, permits, world, rfl, h⟩ := h.obeyed hp.idle left
  have hgrow := (Pool.shouldGrow_stage hp hsize hcount ready permits l).mpr hyes
  have hne : p.settings.growStep ≠ 0 := hp.settings ▸ hstep
  obtain ⟨ready', permits', world', hmade⟩ := Pool.grow_stage halone hne (UInt32.le_refl _)
    (hp.settings ▸ hleft) ready permits size (count + 1) l
  have hnext := Pool.countGrowth_stage hcount p ready permits size l
  rw [Pool.obey_grow_true (hnext ▸ hgrow), hnext] at h
  dsimp only [Pool.stage] at h hmade
  rw [hmade] at h
  exact ⟨ready', permits', world', h⟩

/-- The number of requests after which the control task grows the pool. -/
theorem exists_patience (h : ∃ n, n + 1 < 2 ^ 32 ∧ settings.Grants delay size (n + 1)) :
    ∃ n, n + 1 < 2 ^ 32 ∧ settings.Grants delay size (n + 1) ∧
      ∀ i < n, ¬ settings.Grants delay size (i + 1) := by
  classical
  obtain ⟨hlt, hgrants⟩ := Nat.find_spec h
  refine ⟨Nat.find h, hlt, hgrants, fun i hi hgrants' => Nat.find_min h hi ⟨?_, hgrants'⟩⟩
  omega

/-- After enough requests the pool is larger by one, and the count begins again. -/
theorem raise (contract : ContractId) (program : Module) (hstep : settings.growStep ≠ 0)
    (hsize : size < 2 ^ 32) (h : ∃ n, n + 1 < 2 ^ 32 ∧ settings.Grants delay size (n + 1)) :
    ∃ n, ∀ {p : Pool} {l : List Signal}, p.Poised settings delay → p.Alone →
      Reaches contract program settings p size 0 (List.replicate n .grow ++ l) →
      Reaches contract program settings p (size + 1) 0 l := by
  obtain ⟨n, hlt, hyes, hno⟩ := exists_patience h
  -- a pool that refuses at first is not too small, so there is room for a step
  have hfits (hn : n ≠ 0) : size + settings.growStep.toNat < 2 ^ 32 := by
    have hmax := settings.maxSize.toNat_lt
    rcases hyes with hsmall | ⟨hroom, -⟩
    · exact absurd (.inl hsmall) (hno 0 (Nat.pos_of_ne_zero hn))
    · omega
  refine ⟨n + 1, ?_⟩
  intro p l hp halone hreach
  -- all but the last request are refused
  rw [List.replicate_succ', List.append_assoc] at hreach
  have hrefused := refuseAll hp n hfits hreach (by omega) (by simpa using hno)
  rw [Nat.zero_add] at hrefused
  exact hrefused.grant hp halone hsize hlt hyes hstep (PoolConfig.toNat_pos hstep)

/-- **The pool gets larger one by one**, as long as requests can make it grow. -/
theorem climb (contract : ContractId) (program : Module) (hstep : settings.growStep ≠ 0) (d : Nat)
    (hsize : size + d < 2 ^ 32)
    (h : ∀ i < d, ∃ n, n + 1 < 2 ^ 32 ∧ settings.Grants delay (size + i) (n + 1)) :
    ∃ n, ∀ {p : Pool} {l : List Signal}, p.Poised settings delay → p.Alone →
      Reaches contract program settings p size 0 (List.replicate n .grow ++ l) →
      Reaches contract program settings p (size + d) 0 l := by
  induction d with
  | zero =>
    refine ⟨0, ?_⟩
    intro p l _ _ hreach
    exact hreach
  | succ d ih =>
    have hbelow : ∀ i < d, ∃ n, n + 1 < 2 ^ 32 ∧ settings.Grants delay (size + i) (n + 1) := by
      intro i hi
      exact h i (Nat.lt_succ_of_lt hi)
    obtain ⟨n, hn⟩ := ih (by omega) hbelow
    -- one instance more after the others, and for it as many signals as it needs
    obtain ⟨m, hm⟩ := raise contract program hstep (by omega) (h d (Nat.lt_succ_self d))
    refine ⟨n + m, ?_⟩
    intro p l hp halone hreach
    rw [← List.replicate_append_replicate, List.append_assoc] at hreach
    exact hm hp halone (hn hp halone hreach)

theorem first {ticket : Ticket}
    (h : Reaches contract program settings (.awaited contract program settings ticket delay) 0
      count (.grow :: l))
    (hcount : count + 1 < 2 ^ 32) (hyes : settings.Grants 0 0 (count + 1))
    (hstep : settings.growStep ≠ 0) :
    ∃ i world, i.detached = false ∧ Reachable .rationed contract program settings
      ⟨(Pool.bereft contract program settings ticket delay).stage [] 0 1 0 l, [i], world⟩ := by
  obtain ⟨ready, permits, world, h⟩ := h
  -- nothing is ready while the caller waits
  have hnone : permits = 0 := h.matched.free.resolve_right (List.cons_ne_nil _ _)
  have hready : ready = [] := List.eq_nil_of_length_eq_zero ((h.matched.ready rfl).trans hnone)
  subst hnone hready
  have hobeyed := (h.rationing 1).step (Step.obey rfl rfl)
  have hpoised := Pool.poised_awaited contract program settings ticket delay
  have hgrow := (Pool.shouldGrow_stage hpoised (by decide) hcount [] 0 l).mpr hyes
  have hnext := Pool.countGrowth_stage hcount
    (.awaited contract program settings ticket delay) [] 0 0 l
  obtain ⟨i, world', hpooled, hmade⟩ := Pool.grow_rationed_caller
    (p := (Pool.awaited contract program settings ticket delay).stage [] 0 0 (count + 1) l)
    (x := ⟨⟨world.host.next, 1⟩, world.live⟩) rfl rfl rfl rfl hstep rfl
  have hsignals : { (Pool.awaited contract program settings ticket delay).stage [] 0 0 count
      (.grow :: l) with signals := l } =
      (Pool.awaited contract program settings ticket delay).stage [] 0 0 count l := rfl
  rw [hsignals, Pool.obey_grow_true (hnext ▸ hgrow), hnext] at hobeyed
  dsimp only [Pool.stage, Pool.awaited, act] at hobeyed hmade
  rw [hmade, UInt64.zero_add, Nat.sub_zero] at hobeyed
  have htaken := hobeyed.step (Step.claim _ ticket)
  rw [@Pool.claim_cons _ ticket (.ok i) _ rfl] at htaken
  exact ⟨i, world', hpooled, htaken⟩

/-- The caller gives the first instance up.  The control task will hear of that after all the
requests for growth. -/
theorem giveUp {ticket : Ticket}
    (h : Reaches contract program settings (.awaited contract program settings ticket delay) 0
      count (.grow :: l))
    (hcount : count + 1 < 2 ^ 32) (hyes : settings.Grants 0 0 (count + 1))
    (hstep : settings.growStep ≠ 0) :
    Reaches contract program settings (.bereft contract program settings ticket delay) 1 0
      (l ++ [.remove, .add]) := by
  obtain ⟨i, world, hpooled, htaken⟩ := h.first hcount hyes hstep
  have hgone := htaken.step (Step.discard (l := []) (r := []) (i := i) rfl ⟨rfl, rfl, rfl⟩)
  unfold Pool.discard at hgone
  rw [hpooled] at hgone
  exact ⟨[], 0, _, hgone⟩

theorem remove (h : Reaches contract program settings p (size + 1) count (.remove :: l))
    (hidle : p.control = .idle) : Reaches contract program settings p size count l := by
  obtain ⟨ready, permits, world, -, h⟩ := h.obeyed hidle 0
  have hless : UInt32.ofNat (size + 1) - 1 = UInt32.ofNat size := by
    rw [UInt32.ofNat_add]
    exact UInt32.add_sub_cancel _ _
  refine ⟨ready, permits, world, ?_⟩
  unfold Pool.stage
  rw [← hless]
  exact h

/-- The control task looks at the pool, and makes what the host has left. -/
theorem look (h : Reaches contract program settings p size count l)
    (hp : p.Poised settings delay) (halone : p.Alone) (hsize : size < 2 ^ 32)
    (hcount : count < 2 ^ 32) (hyes : settings.Grants delay size count)
    (hstep : settings.growStep ≠ 0) {left : Nat} (hleft : left ≤ settings.growStep.toNat) :
    Reaches contract program settings
      { p with ticked := p.ticked + 1, uses := 0, totalDelay := 0 } (size + left) 0 l := by
  obtain ⟨ready, permits, world, h⟩ := h
  have hticked := (h.rationing left).step (Step.tick hp.idle)
  have hgrow := (Pool.shouldGrow_stage hp hsize hcount ready permits l).mpr hyes
  have hne : p.settings.growStep ≠ 0 := hp.settings ▸ hstep
  obtain ⟨ready', permits', world', hmade⟩ := Pool.grow_stage
    (p := { p with ticked := p.ticked + 1 }) ⟨halone.waiters, halone.woken⟩ hne (UInt32.le_refl _)
    (x := ⟨⟨world.host.next, left⟩, world.live⟩) (hp.settings ▸ hleft) ready permits size count l
  unfold act at hticked
  rw [Pool.tick_true hgrow] at hticked
  dsimp only [Pool.stage] at hticked hmade
  rw [hmade] at hticked
  exact ⟨ready', permits', world', hticked⟩

theorem add (h : Reaches contract program settings p size count (.add :: l))
    (hidle : p.control = .idle) (halone : p.Alone) (hstep : p.settings.growStep ≠ 0) :
    Reaches contract program settings p (size + 1) count l := by
  obtain ⟨ready, permits, world, hleft, h⟩ := h.obeyed hidle 1
  have hone : 1 ≤ p.settings.growStep :=
    UInt32.le_iff_toNat_le.mpr (PoolConfig.toNat_pos hstep)
  obtain ⟨ready', permits', world', hmade⟩ := Pool.grow_stage halone (by decide) hone hleft.le
    ready permits size count l
  rw [hleft] at hmade
  refine ⟨ready', permits', world', ?_⟩
  unfold Pool.obey at h
  rw [hmade] at h
  exact h

/-- **The pool gets too large**: after the removal the control task looks at the pool, and makes
what it has room for; then the addition is made. -/
theorem overshoot (h : Reaches contract program settings p (size + 1) count [.remove, .add])
    (hp : p.Poised settings delay) (halone : p.Alone) (hcount : count < 2 ^ 32)
    (hyes : settings.Grants delay size count) (hstep : settings.growStep ≠ 0) {left : Nat}
    (hleft : left ≤ settings.growStep.toNat) (hlt : size + left + 1 < 2 ^ 32) :
    Reaches contract program settings
      { p with ticked := p.ticked + 1, uses := 0, totalDelay := 0 } (size + left + 1) 0 [] := by
  have hremoved := h.remove hp.idle
  have hfilled := hremoved.look hp halone (by omega) hcount hyes hstep hleft
  have hne : p.settings.growStep ≠ 0 := hp.settings ▸ hstep
  exact hfilled.add hp.idle ⟨halone.waiters, halone.woken⟩ hne

/-- A pool has the size that it can come to. -/
theorem exists_size (h : Reaches contract program settings p size count l)
    (hlt : size < 2 ^ 32) :
    ∃ sc : Scene Ration, Reachable .rationed contract program settings sc ∧
      sc.pool.size.toNat = size := by
  obtain ⟨ready, permits, world, h⟩ := h
  exact ⟨_, h, UInt32.toNat_ofNat_of_lt' hlt⟩

end Reaches

/-- **The way up.**  A caller has given up the first instance, and the pool is larger by `d` now.
Some requests are left, and then the replacement of the first instance. -/
theorem exists_climbed (contract : ContractId) (program : Module)
    (hmeasurable : settings.isMeasurable = true)
    (hstep : settings.growStep ≠ 0) (d count delay : Nat)
    (hfirst : ∃ n, n + 1 < 2 ^ 32 ∧ settings.Grants 0 0 (n + 1))
    (hclimb : ∀ i < d, ∃ n, n + 1 < 2 ^ 32 ∧ settings.Grants delay (1 + i) (n + 1))
    (hdelay : delay < 2 ^ 64) (hlt : 1 + d < 2 ^ 32) :
    ∃ ticket, (Pool.bereft contract program settings ticket delay).Poised settings delay ∧
      Reaches contract program settings (.bereft contract program settings ticket delay) (1 + d) 0
        (List.replicate count .grow ++ [.remove, .add]) := by
  obtain ⟨n, hn, hyes, hno⟩ := Reaches.exists_patience hfirst
  obtain ⟨m, hm⟩ := Reaches.climb contract program hstep d hlt hclimb
  -- the requests for the first instance, for the climb, and those that are left
  have hstart := Reaches.start contract program hmeasurable (n + m + count) delay
  have hall : n + m + count + 1 = n + (m + count + 1) := by omega
  rw [hall, ← List.replicate_append_replicate, List.replicate_succ,
    ← List.replicate_append_replicate] at hstart
  have hpoised := Pool.poised_bereft contract program settings (n + m + count) hdelay
  have hlimit := settings.growStep.toNat_lt
  have hasked := Reaches.refuseAll (Pool.poised_awaited _ _ _ _ _) n (by omega) hstart (by omega)
    (by simpa using hno)
  rw [Nat.zero_add] at hasked
  have hgiven := hasked.giveUp hn hyes hstep
  rw [List.append_assoc] at hgiven
  exact ⟨_, hpoised, hm hpoised ⟨rfl, rfl⟩ hgiven⟩

/-- **The whole run.**  The pool can be of size `k + 1` when an instance is about to be replaced,
and the control task grows it at size `k`. -/
theorem exists_rested (contract : ContractId) (program : Module)
    (hmeasurable : settings.isMeasurable = true)
    (hstep : settings.growStep ≠ 0) (k count delay left : Nat)
    (hfirst : ∃ n, n + 1 < 2 ^ 32 ∧ settings.Grants 0 0 (n + 1))
    (hclimb : ∀ i < k, ∃ n, n + 1 < 2 ^ 32 ∧ settings.Grants delay (1 + i) (n + 1))
    (hfits : count ≠ 0 → 1 + k + settings.growStep.toNat < 2 ^ 32)
    (hrefuse : ∀ i < count, ¬ settings.Grants delay (1 + k) (i + 1))
    (hlast : settings.Grants delay k count) (hcount : count < 2 ^ 32) (hdelay : delay < 2 ^ 64)
    (hleft : left ≤ settings.growStep.toNat) (hlt : k + left + 1 < 2 ^ 32) :
    ∃ ticket, Reaches contract program settings (.rested contract program settings ticket delay)
      (k + left + 1) 0 [] := by
  obtain ⟨ticket, hpoised, hclimbed⟩ := exists_climbed contract program hmeasurable hstep k count
    delay hfirst hclimb hdelay (by omega)
  -- the requests that are left are refused at the top
  have hrefused := Reaches.refuseAll hpoised count hfits hclimbed (by omega)
    (by simpa using hrefuse)
  rw [Nat.zero_add, Nat.add_comm 1 k] at hrefused
  exact ⟨ticket, hrefused.overshoot hpoised ⟨rfl, rfl⟩ hcount hlast hstep hleft hlt⟩

end Scene

/-! ### Which settings confine a pool -/

/-- The settings under which no pool gets larger than its greatest size. -/
inductive PoolTerms.Confined (settings : PoolTerms) : Prop
  /-- No greater size can be counted. -/
  | uncountable (hmax : settings.maxSize.toNat + 1 = 2 ^ 32)
  /-- The control task cannot measure its time, and ends as soon as it begins. -/
  | asleep (hasleep : settings.isMeasurable = false)
  /-- The pool begins empty, and has no room for a step, or callers cannot ask often enough. -/
  | empty (hmin : settings.minSize = 0)
    (hnever : settings.maxSize < settings.growStep ∨ settings.applyThreshold.toNat + 1 = 2 ^ 32)
  /-- The pool has room for a step above its smallest size, and never grows for its callers. -/
  | patient (hmin : settings.minSize ≠ 0)
    (hroom : settings.minSize.toNat + settings.growStep.toNat ≤ settings.maxSize.toNat)
    (hnever : settings.applyThreshold.toNat + 1 = 2 ^ 32)
    (hpatient : settings.delayToleranceMs.toNat + 1 = 2 ^ 64)

namespace Scene

variable {contract : ContractId} {program : Module} {settings : PoolTerms}

/-- Under confined settings no run exceeds the greatest size. -/
theorem Reachable.size_le_maxSize {σ : Type} {s : NumberedSupply σ} {sc : Scene σ}
    (h : Reachable s contract program settings sc) (hconfined : settings.Confined)
    (hmin : settings.minSize ≤ settings.maxSize) (hstep : settings.growStep ≠ 0) :
    sc.pool.size ≤ settings.maxSize := by
  rw [UInt32.le_iff_toNat_le] at hmin ⊢
  cases hconfined with
  | uncountable hmax =>
    have hlt := sc.pool.size.toNat_lt
    omega
  | asleep hasleep => exact (h.size_le (PoolTerms.roomy_of_asleep hasleep)).trans hmin
  | empty hempty hnever =>
    exact (h.size_le (PoolTerms.roomy_zero hempty hnever)).trans (Nat.zero_le _)
  | patient _ hroom hnever hpatient =>
    exact h.size_le (PoolTerms.roomy_maxSize hstep hroom hnever hpatient)

section

variable (contract : ContractId) (program : Module) (settings : PoolTerms)
variable (hmeasurable : settings.isMeasurable = true)
variable (hstep : settings.growStep ≠ 0)

include hmeasurable hstep

/-- A pool that has not reached its smallest size grows by a step, without regard to the greatest.
-/
theorem exists_rested_of_narrow (hmin : settings.minSize ≠ 0) (left : Nat)
    (hleft : left ≤ settings.growStep.toNat) (hlt : settings.minSize.toNat + left < 2 ^ 32) :
    ∃ ticket, Reaches contract program settings (.rested contract program settings ticket 0)
      (settings.minSize.toNat + left) 0 [] := by
  have hpositive := PoolConfig.toNat_pos hmin
  obtain ⟨ticket, h⟩ := exists_rested contract program hmeasurable hstep
    (settings.minSize.toNat - 1) 0 0 left
    ⟨0, by decide, .inl hpositive⟩ (fun i hi => ⟨0, by decide, .inl (by omega)⟩)
    (absurd rfl) (fun i hi => absurd hi (Nat.not_lt_zero i)) (.inl (by omega)) (by decide)
    (by decide) hleft
    (by omega)
  have hsize : settings.minSize.toNat - 1 + left + 1 = settings.minSize.toNat + left := by omega
  exact ⟨ticket, hsize ▸ h⟩

theorem exists_size_of_narrow (hmin : settings.minSize ≠ 0) (left : Nat)
    (hleft : left ≤ settings.growStep.toNat) (hlt : settings.minSize.toNat + left < 2 ^ 32) :
    ∃ sc : Scene Ration, Reachable .rationed contract program settings sc ∧
      sc.pool.size.toNat = settings.minSize.toNat + left := by
  obtain ⟨ticket, h⟩ := exists_rested_of_narrow contract program settings hmeasurable
    hstep hmin left
    hleft hlt
  exact h.exists_size hlt

/-- A pool that callers ask to grow often enough fills the room that a removal makes. -/
theorem exists_rested_of_requests
    (hroom : settings.minSize.toNat + settings.growStep.toNat ≤ settings.maxSize.toNat)
    (hmax : settings.maxSize.toNat + 1 < 2 ^ 32)
    (hask : settings.applyThreshold.toNat + 1 < 2 ^ 32) :
    ∃ ticket, Reaches contract program settings (.rested contract program settings ticket 0)
      (settings.maxSize.toNat + 1) 0 [] := by
  have hgrants : ∀ {size}, size + settings.growStep.toNat ≤ settings.maxSize.toNat →
      settings.Grants 0 size (settings.applyThreshold.toNat + 1) := by
    intro size hsize
    exact .inr ⟨hsize, .inl (Nat.lt_succ_self _)⟩
  -- at one more than the greatest size that leaves room for a step, all requests are refused
  have hrefuse : ∀ i, ¬ settings.Grants 0
      (1 + (settings.maxSize.toNat - settings.growStep.toNat)) (i + 1) := by
    rintro i (hsmall | ⟨hsum, -⟩)
    · omega
    · omega
  obtain ⟨ticket, h⟩ := exists_rested contract program hmeasurable hstep
    (settings.maxSize.toNat - settings.growStep.toNat) _ 0 _
    ⟨_, hask, hgrants (by omega)⟩ (fun i hi => ⟨_, hask, hgrants (by omega)⟩)
    (fun _ => by omega) (fun i _ => hrefuse i) (hgrants (by omega)) hask
    (by decide) le_rfl (by omega)
  have hsize : settings.maxSize.toNat - settings.growStep.toNat + settings.growStep.toNat + 1 =
      settings.maxSize.toNat + 1 := by omega
  exact ⟨ticket, hsize ▸ h⟩

/-- So does a pool whose callers have to wait for too long. -/
theorem exists_rested_of_delay (hmin : settings.minSize ≠ 0)
    (hroom : settings.minSize.toNat + settings.growStep.toNat ≤ settings.maxSize.toNat)
    (hmax : settings.maxSize.toNat + 1 < 2 ^ 32)
    (hdelay : settings.delayToleranceMs.toNat + 1 < 2 ^ 64) :
    ∃ ticket, Reaches contract program settings (.rested contract program settings ticket
      (settings.delayToleranceMs.toNat + 1)) (settings.maxSize.toNat + 1) 0 [] := by
  have hpositive := PoolConfig.toNat_pos hmin
  have hgrants : ∀ {size count}, size + settings.growStep.toNat ≤ settings.maxSize.toNat →
      settings.Grants (settings.delayToleranceMs.toNat + 1) size count := by
    intro size count hsize
    exact .inr ⟨hsize, .inr (Nat.lt_succ_self _)⟩
  obtain ⟨ticket, h⟩ := exists_rested contract program hmeasurable hstep
    (settings.maxSize.toNat - settings.growStep.toNat) 0 _ _
    ⟨0, by decide, .inl hpositive⟩ (fun i hi => ⟨0, by decide, hgrants (by omega)⟩)
    (absurd rfl) (fun i hi => absurd hi (Nat.not_lt_zero i)) (hgrants (by omega)) (by decide)
    hdelay le_rfl
    (by omega)
  have hsize : settings.maxSize.toNat - settings.growStep.toNat + settings.growStep.toNat + 1 =
      settings.maxSize.toNat + 1 := by omega
  exact ⟨ticket, hsize ▸ h⟩

end

/-- A pool whose settings do not confine it gets larger than its greatest size in some run, and as
large as it may get at all. -/
theorem exists_size_gt (contract : ContractId) (program : Module)
    (hvalid : settings.validate = .ok ()) (hfree : ¬ settings.Confined) {n : Nat}
    (hgt : settings.maxSize.toNat < n)
    (hle : n ≤ max (settings.maxSize.toNat + 1)
      (settings.minSize.toNat + settings.growStep.toNat)) (hlt : n < 2 ^ 32) :
    ∃ sc : Scene Ration, Reachable .rationed contract program settings sc ∧
      sc.pool.size.toNat = n := by
  obtain ⟨-, hmin, hstep, -⟩ := settings.validate_eq_ok_iff.mp hvalid
  have hmin := UInt32.le_iff_toNat_le.mp hmin
  have hmeasurable : settings.isMeasurable = true :=
    eq_true_of_ne_false fun hasleep => hfree (.asleep hasleep)
  by_cases hroom : settings.minSize.toNat + settings.growStep.toNat ≤ settings.maxSize.toNat
  · have hn : n = settings.maxSize.toNat + 1 := by omega
    subst hn
    by_cases hask : settings.applyThreshold.toNat + 1 = 2 ^ 32
    · have hsome : settings.minSize ≠ 0 := fun hempty => hfree (.empty hempty (.inr hask))
      have hdelay : settings.delayToleranceMs.toNat + 1 ≠ 2 ^ 64 :=
        fun hpatient => hfree (.patient hsome hroom hask hpatient)
      have hlimit := settings.delayToleranceMs.toNat_lt
      obtain ⟨ticket, h⟩ := exists_rested_of_delay contract program settings hmeasurable hstep hsome
        hroom hlt (by omega)
      exact h.exists_size hlt
    · have hlimit := settings.applyThreshold.toNat_lt
      obtain ⟨ticket, h⟩ := exists_rested_of_requests contract program settings hmeasurable hstep
        hroom hlt (by omega)
      exact h.exists_size hlt
  -- a pool without room for a step above its smallest size grows all the same while it is smaller
  · have hsome : settings.minSize ≠ 0 := by
      intro hempty
      rw [hempty, UInt32.toNat_zero, Nat.zero_add, Nat.not_le] at hroom
      exact hfree (.empty hempty (.inl (UInt32.lt_iff_toNat_lt.mpr hroom)))
    obtain ⟨left, rfl⟩ := Nat.exists_eq_add_of_le (hmin.trans hgt.le)
    exact exists_size_of_narrow contract program settings hmeasurable hstep hsome left (by omega)
      hlt

/-- **No run of a pool exceeds its greatest size, exactly if its settings are confined.**  Other
pools exceed it by one at most, or their smallest size by a step, as long as their size can be
counted; and they do. -/
theorem size_le_maxSize_iff (contract : ContractId) (program : Module) {settings : PoolTerms}
    (hvalid : settings.validate = .ok ()) :
    ((∀ (σ : Type) (s : NumberedSupply σ) (sc : Scene σ),
        Reachable s contract program settings sc → sc.pool.size ≤ settings.maxSize) ↔
      settings.Confined) ∧
    ∀ bound : Nat,
      bound = max (settings.maxSize.toNat + 1)
        (settings.minSize.toNat + settings.growStep.toNat) →
      bound + settings.growStep.toNat < 2 ^ 32 →
      (∀ (σ : Type) (s : NumberedSupply σ) (sc : Scene σ),
        Reachable s contract program settings sc → sc.pool.size.toNat ≤ bound) ∧
      (¬ settings.Confined → ∃ sc : Scene Ration,
        Reachable .rationed contract program settings sc ∧ sc.pool.size.toNat = bound) := by
  obtain ⟨-, hmin, hstep, -⟩ := settings.validate_eq_ok_iff.mp hvalid
  refine ⟨⟨fun h => ?_, fun h σ s sc hsc => hsc.size_le_maxSize h hmin hstep⟩, ?_⟩
  · by_contra hfree
    have hmax : settings.maxSize.toNat + 1 ≠ 2 ^ 32 := fun hmax => hfree (.uncountable hmax)
    have hlimit := settings.maxSize.toNat_lt
    obtain ⟨sc, hsc, hsize⟩ := exists_size_gt contract program hvalid hfree
      (Nat.lt_succ_self settings.maxSize.toNat) (Nat.le_max_left _ _) (by omega)
    have hle := UInt32.le_iff_toNat_le.mp (h Ration .rationed sc hsc)
    omega
  · rintro bound rfl hlt
    refine ⟨fun σ s sc hsc => hsc.size_le (PoolTerms.roomy_max hlt hmin), fun hfree => ?_⟩
    exact exists_size_gt contract program hvalid hfree (by omega) le_rfl (by omega)

/-- A pool of the default settings gets larger than its 1000 instances by one at most, and it
does. -/
theorem size_le_default :
    ({} : PoolConfig).validate = .ok () ∧
      (∀ (σ : Type) (s : NumberedSupply σ) (sc : Scene σ),
        Reachable s ⟨"counter", "1.0.0"⟩ default {} sc → sc.pool.size.toNat ≤ 1001) ∧
      ∃ sc : Scene Ration,
        Reachable .rationed ⟨"counter", "1.0.0"⟩ default {} sc ∧ sc.pool.size.toNat = 1001 := by
  have hvalid : ({} : PoolTerms).validate = .ok () :=
    (PoolConfig.validate_eq_ok_iff _).mpr (by decide +kernel)
  have hfree : ¬ ({} : PoolTerms).Confined := by
    intro h
    cases h with
    | uncountable hmax => exact absurd hmax (by decide +kernel)
    | asleep hasleep => exact absurd hasleep (by decide +kernel)
    | empty hmin _ => exact absurd hmin (by decide +kernel)
    | patient _ _ hnever _ => exact absurd hnever (by decide +kernel)
  obtain ⟨hall, hsome⟩ := (size_le_maxSize_iff ⟨"counter", "1.0.0"⟩ default hvalid).2 1001
    (by decide +kernel) (by decide +kernel)
  exact ⟨hvalid, hall, hsome hfree⟩

/-- A pool that is to have three instances, no more and no less, may have six.  One of its instances
is given up, and the control task looks at the pool after the removal and before the addition. -/
theorem size_exceeds_maxSize :
    ({ minSize := 3, maxSize := 3, growStep := 3 } : PoolConfig).validate = .ok () ∧
      ∃ sc : Scene Nat,
        Reachable .unfailing ⟨"counter", "1.0.0"⟩ default
          { minSize := 3, maxSize := 3, growStep := 3 } sc ∧
        sc.pool.size = 6 := by
  refine ⟨(PoolConfig.validate_eq_ok_iff _).mpr (by decide +kernel), ?_⟩
  have hcreate : Pool.create NumberedSupply.unfailing.counted ⟨"counter", "1.0.0"⟩ default
      { minSize := 3, maxSize := 3, growStep := 3 } ⟨0, []⟩ = _ := rfl
  have htaken := ((Reachable.create (s := .unfailing) hcreate).step (.acquire _)).step (.claim _ 0)
  have hgone := htaken.step (.discard (l := []) (r := []) rfl ⟨rfl, rfl, rfl⟩)
  have hremoved := hgone.step (.obey rfl rfl)
  have hlooked := hremoved.step (.tick rfl)
  exact ⟨_, hlooked.step (.obey rfl rfl), rfl⟩

end Scene

end ContractHost
