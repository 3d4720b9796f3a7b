import ContractHost.Proofs.Pool.Excess

/-!
# What is decided on the size of a pool

A pool ought to grow if it is too small, or if there is room for a step and callers ask too often or
wait for longer than they should on the average.  To find that out the control task takes the sum of
the size and a step with 32 bits, and it ends where the sum does not fit.  No setting is too large
to be accepted, so it depends on the settings whether such a sum is ever taken.

## Main definitions

* `Pool.Ought` — when a pool ought to grow, with all numbers as they are.
* `Pool.Overflows` — where that cannot be found out.
* `PoolTerms.Summable` — the settings under which every sum that is taken fits.
* `Scene.Sizing` — what is decided on the size of a pool of some settings.

## Main results

* `Pool.shouldGrow_eq` — **the control task decides as it ought to**, or not at all.
* `Scene.Reachable.not_overflows`, `Scene.exists_overflow` — **no sum overflows in any run, exactly
  under these settings.**
* `Scene.sizing` — both together.
-/

namespace ContractHost

/-! ### What ought to be decided -/

namespace Pool

/-- The pool ought to grow. -/
def Ought (p : Pool) : Prop :=
  p.size.toNat < p.settings.minSize.toNat ∨
    p.size.toNat + p.settings.growStep.toNat ≤ p.settings.maxSize.toNat ∧
      (p.settings.applyThreshold.toNat < p.growCount.toNat ∨
        p.settings.delayToleranceMs.toNat < p.averageDelay)

instance (p : Pool) : Decidable p.Ought :=
  inferInstanceAs (Decidable (_ ∨ _))

/-- The size is added to a step, and the sum does not fit 32 bits. -/
def Overflows (p : Pool) : Prop :=
  p.settings.minSize.toNat ≤ p.size.toNat ∧ 2 ^ 32 ≤ p.size.toNat + p.settings.growStep.toNat

instance (p : Pool) : Decidable p.Overflows :=
  inferInstanceAs (Decidable (_ ∧ _))

theorem shouldGrow_eq_none_iff_overflows {p : Pool} : p.shouldGrow = none ↔ p.Overflows := by
  rw [shouldGrow_eq_none_iff, UInt32.le_iff_toNat_le]
  rfl

/-- **The control task decides as it ought to**, unless the sum does not fit; then it decides
nothing. -/
theorem shouldGrow_eq (p : Pool) :
    p.shouldGrow = if p.Overflows then none else some (decide p.Ought) := by
  by_cases hover : p.Overflows
  · rw [if_pos hover]
    exact shouldGrow_eq_none_iff_overflows.mpr hover
  · rw [if_neg hover]
    have hsome : p.shouldGrow ≠ none := mt shouldGrow_eq_none_iff_overflows.mp hover
    have hgrow : p.shouldGrow = some true ↔ p.Ought := p.shouldGrow_iff
    obtain ⟨b, hb⟩ := Option.ne_none_iff_exists'.mp hsome
    rw [hb] at hgrow ⊢
    cases b with
    | true => rw [decide_eq_true (hgrow.mp rfl)]
    | false => rw [decide_eq_false fun hyes => Bool.noConfusion (Option.some.inj (hgrow.mpr hyes))]

end Pool

/-! ### Settings under which every sum fits -/

namespace PoolTerms

/-- The settings under which every sum that is taken fits 32 bits. -/
inductive Summable (settings : PoolTerms) : Prop
  /-- The control task cannot measure its time, and ends as soon as it begins. -/
  | asleep (hasleep : settings.isMeasurable = false)
  /-- The pool begins empty, and has no room for a step, or callers cannot ask often enough. -/
  | empty (hmin : settings.minSize = 0)
    (hnever : settings.maxSize < settings.growStep ∨ settings.applyThreshold.toNat + 1 = 2 ^ 32)
  /-- The pool never grows for its callers, and a step fits above the size that it has when it has
  grown by a step without regard to the greatest size. -/
  | patient (hnever : settings.applyThreshold.toNat + 1 = 2 ^ 32)
    (hpatient : settings.delayToleranceMs.toNat + 1 = 2 ^ 64)
    (hfits : settings.minSize.toNat + settings.growStep.toNat + settings.growStep.toNat < 2 ^ 32)
  /-- A step fits above the size that the pool gets at most. -/
  | small (hfits : max (settings.maxSize.toNat + 1)
    (settings.minSize.toNat + settings.growStep.toNat) + settings.growStep.toNat < 2 ^ 32)

variable {settings : PoolTerms}

/-- A pool that grows only to reach its smallest size gets larger than that by a step at most. -/
theorem roomy_of_patient (hstep : settings.growStep ≠ 0)
    (hlt : settings.minSize.toNat + settings.growStep.toNat < 2 ^ 32)
    (hnever : settings.applyThreshold.toNat + 1 = 2 ^ 32)
    (hpatient : settings.delayToleranceMs.toNat + 1 = 2 ^ 64) :
    settings.Roomy (settings.minSize.toNat + settings.growStep.toNat) := by
  have hpositive := PoolConfig.toNat_pos hstep
  refine ⟨hlt, Nat.le_add_right _ _, fun _ _ => by omega, ?_⟩
  intro _ delay size count hdelay hcount hsize _ hgrants
  rcases hgrants with hsmall | ⟨_, hask | hslow⟩ <;> omega

/-- Some bound is roomy then, and a step fits above it, unless the control task ends at once. -/
theorem Summable.exists_roomy (h : settings.Summable) (hmeasurable : settings.isMeasurable = true)
    (hmin : settings.minSize ≤ settings.maxSize) (hstep : settings.growStep ≠ 0) :
    ∃ bound, settings.Roomy bound ∧ bound + settings.growStep.toNat < 2 ^ 32 := by
  cases h with
  | asleep hasleep => exact absurd (hmeasurable.symm.trans hasleep) (by decide)
  | empty hempty hnever =>
    refine ⟨0, roomy_zero hempty hnever, ?_⟩
    rw [Nat.zero_add]
    exact settings.growStep.toNat_lt
  | patient hnever hpatient hfits =>
    exact ⟨_, roomy_of_patient hstep (by omega) hnever hpatient, hfits⟩
  | small hfits => exact ⟨_, roomy_max hfits hmin, hfits⟩

end PoolTerms

namespace Scene

variable {contract : ContractId} {program : Module} {settings : PoolTerms}

/-- **No sum overflows in any run** under such settings. -/
theorem Reachable.not_overflows {σ : Type} {s : NumberedSupply σ} {sc : Scene σ}
    (h : Reachable s contract program settings sc) (hsummable : settings.Summable)
    (hmeasurable : settings.isMeasurable = true) (hmin : settings.minSize ≤ settings.maxSize)
    (hstep : settings.growStep ≠ 0) : ¬ sc.pool.Overflows := by
  obtain ⟨bound, hroom, hfits⟩ := hsummable.exists_roomy hmeasurable hmin hstep
  rintro ⟨-, hsum⟩
  have hsize := h.size_le hroom
  rw [h.settings_eq] at hsum
  omega

/-- A control task that has not ended could tell when its first look is due. -/
theorem Reachable.measurable_of_awake {σ : Type} {s : NumberedSupply σ} {sc : Scene σ}
    (h : Reachable s contract program settings sc) (hawake : sc.pool.control ≠ .ended) :
    settings.isMeasurable = true :=
  eq_true_of_ne_false fun hasleep =>
    hawake ((h.within (PoolTerms.roomy_of_asleep hasleep)).asleep hasleep)

/-! ### Sums that overflow -/

/-- A run leads to where the control task of an open pool is free, and cannot find out whether the
pool should grow. -/
def Overflowing (contract : ContractId) (program : Module) (settings : PoolTerms) : Prop :=
  ∃ sc : Scene Ration, Reachable .rationed contract program settings sc ∧
    sc.pool.control = .idle ∧ sc.pool.closed = false ∧ sc.pool.Overflows

/-- A pool of which a stage is too large for a step. -/
theorem Reaches.overflowing {p : Pool} {size count : Nat} {l : List Signal}
    (h : Reaches contract program settings p size count l) (hsettings : p.settings = settings)
    (hidle : p.control = .idle) (hopen : p.closed = false) (hlt : size < 2 ^ 32)
    (hmin : settings.minSize.toNat ≤ size) (hsum : 2 ^ 32 ≤ size + settings.growStep.toNat) :
    Overflowing contract program settings := by
  obtain ⟨ready, permits, world, h⟩ := h
  have hsize : (p.stage ready permits size count l).size.toNat = size :=
    UInt32.toNat_ofNat_of_lt' hlt
  have hsame : (p.stage ready permits size count l).settings = settings := hsettings
  refine ⟨_, h, hidle, hopen, ?_⟩
  unfold Pool.Overflows
  rw [hsame, hsize]
  exact ⟨hmin, hsum⟩

section

variable (contract : ContractId) (program : Module) (settings : PoolTerms)
variable (hmeasurable : settings.isMeasurable = true)
variable (hstep : settings.growStep ≠ 0)

include hmeasurable hstep

/-- A pool without a greatest size gets too large for a step, if callers can make it grow. -/
theorem exists_counted_out (delay : Nat) (hdelay : delay < 2 ^ 64)
    (hroom : settings.minSize.toNat + settings.growStep.toNat ≤ settings.maxSize.toNat)
    (hmax : settings.maxSize.toNat + 1 = 2 ^ 32)
    (hfirst : ∃ n, n + 1 < 2 ^ 32 ∧ settings.Grants 0 0 (n + 1))
    (hpressed : ∃ n, n + 1 < 2 ^ 32 ∧ (settings.applyThreshold.toNat < n + 1 ∨
      settings.delayToleranceMs.toNat < delay)) :
    Overflowing contract program settings := by
  have hpositive := PoolConfig.toNat_pos hstep
  have hlimit := settings.growStep.toNat_lt
  -- the pool grows one by one until the sum is 2 ^ 32
  have hgrants : ∀ i < 2 ^ 32 - 1 - settings.growStep.toNat,
      ∃ n, n + 1 < 2 ^ 32 ∧ settings.Grants delay (1 + i) (n + 1) := by
    intro i hi
    obtain ⟨n, hn, hyes⟩ := hpressed
    exact ⟨n, hn, .inr ⟨by omega, hyes⟩⟩
  obtain ⟨ticket, -, h⟩ := exists_climbed contract program hmeasurable hstep
    (2 ^ 32 - 1 - settings.growStep.toNat) 0 delay hfirst hgrants hdelay (by omega)
  exact h.overflowing rfl rfl rfl (by omega) (by omega) (by omega)

/-- A pool that callers ask to grow often enough gets too large for a step. -/
theorem exists_overflow_of_requests
    (hroom : settings.minSize.toNat + settings.growStep.toNat ≤ settings.maxSize.toNat)
    (hsum : 2 ^ 32 ≤ settings.maxSize.toNat + 1 + settings.growStep.toNat)
    (hask : settings.applyThreshold.toNat + 1 < 2 ^ 32) :
    Overflowing contract program settings := by
  have hlimit := settings.maxSize.toNat_lt
  by_cases hmax : settings.maxSize.toNat + 1 = 2 ^ 32
  · exact exists_counted_out contract program settings hmeasurable hstep 0 (by decide) hroom hmax
      ⟨_, hask, .inr ⟨by omega, .inl (Nat.lt_succ_self _)⟩⟩ ⟨_, hask, .inl (Nat.lt_succ_self _)⟩
  · obtain ⟨ticket, h⟩ := exists_rested_of_requests contract program settings hmeasurable hstep
      hroom (by omega) hask
    exact h.overflowing rfl rfl rfl (by omega) (by omega) hsum

/-- So does a pool whose callers have to wait for too long. -/
theorem exists_overflow_of_delay (hmin : settings.minSize ≠ 0)
    (hroom : settings.minSize.toNat + settings.growStep.toNat ≤ settings.maxSize.toNat)
    (hsum : 2 ^ 32 ≤ settings.maxSize.toNat + 1 + settings.growStep.toNat)
    (hdelay : settings.delayToleranceMs.toNat + 1 < 2 ^ 64) :
    Overflowing contract program settings := by
  have hlimit := settings.maxSize.toNat_lt
  by_cases hmax : settings.maxSize.toNat + 1 = 2 ^ 32
  · exact exists_counted_out contract program settings hmeasurable hstep _ hdelay hroom hmax
      ⟨0, by decide, .inl (PoolConfig.toNat_pos hmin)⟩ ⟨0, by decide, .inr (Nat.lt_succ_self _)⟩
  · obtain ⟨ticket, h⟩ := exists_rested_of_delay contract program settings hmeasurable hstep hmin
      hroom (by omega) hdelay
    exact h.overflowing rfl rfl rfl (by omega) (by omega) hsum

/-- So does a pool that has not reached its smallest size, and grows by a step all the same. -/
theorem exists_overflow_of_narrow (hmin : settings.minSize ≠ 0)
    (hsum : 2 ^ 32 ≤
      settings.minSize.toNat + settings.growStep.toNat + settings.growStep.toNat) :
    Overflowing contract program settings := by
  have hpositive := PoolConfig.toNat_pos hstep
  have hlimit := settings.minSize.toNat_lt
  obtain ⟨left, hleft, hlt, hover⟩ : ∃ left, left ≤ settings.growStep.toNat ∧
      settings.minSize.toNat + left < 2 ^ 32 ∧
      2 ^ 32 ≤ settings.minSize.toNat + left + settings.growStep.toNat :=
    ⟨min settings.growStep.toNat (2 ^ 32 - 1 - settings.minSize.toNat), by omega, by omega,
      by omega⟩
  obtain ⟨ticket, h⟩ := exists_rested_of_narrow contract program settings hmeasurable hstep hmin
    left hleft hlt
  exact h.overflowing rfl rfl rfl hlt (Nat.le_add_right _ _) hover

end

/-- **A sum overflows in some run** under all other settings. -/
theorem exists_overflow (contract : ContractId) (program : Module)
    (hvalid : settings.validate = .ok ()) (hfree : ¬ settings.Summable) :
    Overflowing contract program settings := by
  obtain ⟨-, -, hstep, -⟩ := settings.validate_eq_ok_iff.mp hvalid
  have hmeasurable : settings.isMeasurable = true :=
    eq_true_of_ne_false fun hasleep => hfree (.asleep hasleep)
  -- what is left is a sum that may overflow; how it comes to that depends on the least size and on
  -- whether requests or delays are the quicker way
  have hlarge : 2 ^ 32 ≤ max (settings.maxSize.toNat + 1)
      (settings.minSize.toNat + settings.growStep.toNat) + settings.growStep.toNat :=
    Nat.not_lt.mp fun hfits => hfree (.small hfits)
  have hcount := settings.applyThreshold.toNat_lt
  by_cases hempty : settings.minSize = 0
  · -- an empty pool grows for those who ask
    obtain ⟨hroom, hask⟩ := not_or.mp fun hnever => hfree (.empty hempty hnever)
    have hroom := UInt32.le_iff_toNat_le.mp (UInt32.not_lt.mp hroom)
    have hzero : settings.minSize.toNat = 0 := by rw [hempty, UInt32.toNat_zero]
    have hlimit := settings.growStep.toNat_lt
    exact exists_overflow_of_requests contract program settings hmeasurable hstep (by omega)
      (by omega) (by omega)
  · rcases Nat.lt_or_ge (settings.minSize.toNat + settings.growStep.toNat +
      settings.growStep.toNat) (2 ^ 32) with hfits | hnarrow
    · by_cases hask : settings.applyThreshold.toNat + 1 = 2 ^ 32
      · have hdelay : settings.delayToleranceMs.toNat + 1 ≠ 2 ^ 64 :=
          fun hpatient => hfree (.patient hask hpatient hfits)
        have hlimit := settings.delayToleranceMs.toNat_lt
        exact exists_overflow_of_delay contract program settings hmeasurable hstep hempty (by omega)
          (by omega) (by omega)
      · exact exists_overflow_of_requests contract program settings hmeasurable hstep (by omega)
          (by omega) (by omega)
    · exact exists_overflow_of_narrow contract program settings hmeasurable hstep hempty hnarrow

/-! ### What is decided -/

/-- What is decided on the size of a pool of these settings. -/
structure Sizing (contract : ContractId) (program : Module) (settings : PoolTerms) : Prop where
  /-- **No sum overflows** when the control task is free to take one, in any run, exactly if the
  settings are summable. -/
  fits : (∀ (σ : Type) (s : NumberedSupply σ) (sc : Scene σ),
    Reachable s contract program settings sc → sc.pool.control = .idle → ¬ sc.pool.Overflows) ↔
      settings.Summable
  /-- **Then the pool grows exactly if it ought to.**  That is so for a regular look, and for a
  request that is counted before. -/
  decided : settings.Summable → ∀ (σ : Type) (s : NumberedSupply σ) (sc : Scene σ),
    Reachable s contract program settings sc → sc.pool.control = .idle →
      ∀ p : Pool, p = sc.pool ∨ p = sc.pool.countGrowth →
        p.shouldGrow = some (decide p.Ought)
  /-- Whatever the settings are, this is what is decided, unless the sum overflows. -/
  judged : ∀ p : Pool, p.shouldGrow = if p.Overflows then none else some (decide p.Ought)
  /-- Where it does, a regular look is the last thing that the control task does, and so is a
  request for growth. -/
  ends : ∀ (σ : Type) (s : Supply σ) (p : Pool) (x : σ), p.Overflows →
    p.tick s x = ({ p with ticked := p.ticked + 1 }.endControl, x) ∧
      p.obey s x .grow = (p.countGrowth.endControl, x)

/-- **How exactly the size of a pool is decided on**, for all settings that are accepted. -/
theorem sizing (contract : ContractId) (program : Module) {settings : PoolTerms}
    (hvalid : settings.validate = .ok ()) : Sizing contract program settings := by
  obtain ⟨-, hmin, hstep, -⟩ := settings.validate_eq_ok_iff.mp hvalid
  have hfits (hsummable : settings.Summable) {σ : Type} {s : NumberedSupply σ} {sc : Scene σ}
      (h : Reachable s contract program settings sc) (hidle : sc.pool.control = .idle) :
      ¬ sc.pool.Overflows := by
    have hmeasurable := h.measurable_of_awake fun hended =>
      Control.noConfusion (hidle.symm.trans hended)
    exact h.not_overflows hsummable hmeasurable hmin hstep
  refine ⟨⟨fun hnone => ?_, fun hsummable σ s sc h => hfits hsummable h⟩, ?_,
    Pool.shouldGrow_eq, ?_⟩
  · -- settings that are not free of overflow have a run that comes to one
    by_contra hfree
    obtain ⟨sc, h, hidle, -, hover⟩ := exists_overflow contract program hvalid hfree
    exact hnone Ration .rationed sc h hidle hover
  · rintro hsummable σ s sc h hidle p (rfl | rfl)
    · rw [Pool.shouldGrow_eq, if_neg (hfits hsummable h hidle)]
    · have hsame : ¬ sc.pool.countGrowth.Overflows := hfits hsummable h hidle
      rw [Pool.shouldGrow_eq, if_neg hsame]
  · intro σ s p x hover
    have hcounted : p.countGrowth.Overflows := hover
    exact ⟨Pool.tick_none (Pool.shouldGrow_eq_none_iff_overflows.mpr hover) x,
      Pool.obey_grow_none (Pool.shouldGrow_eq_none_iff_overflows.mpr hcounted) x⟩

/-- No run of a pool of the default settings overflows. -/
theorem sizing_default :
    ({} : PoolConfig).validate = .ok () ∧
      ∀ (σ : Type) (s : NumberedSupply σ) (sc : Scene σ),
        Reachable s ⟨"counter", "1.0.0"⟩ default {} sc → sc.pool.control = .idle →
          ¬ sc.pool.Overflows := by
  have hvalid : ({} : PoolTerms).validate = .ok () :=
    (PoolConfig.validate_eq_ok_iff _).mpr (by decide +kernel)
  exact ⟨hvalid, (sizing ⟨"counter", "1.0.0"⟩ default hvalid).fits.mpr
    (.small (by decide +kernel))⟩

/-- Settings for a pool of one instance, and for steps that are as large as can be. -/
def striding : PoolConfig :=
  { minSize := 1, maxSize := 1, growStep := 0xFFFFFFFF, applyThreshold := 0 }

/-- **Nothing is decided** when a caller asks a pool of one instance for a second one.  There is no
room for it, but the control task does not find that out. -/
theorem undecided_of_striding :
    striding.validate = .ok () ∧
      ∃ sc : Scene Nat, Reachable .unfailing ⟨"counter", "1.0.0"⟩ default striding sc ∧
        sc.pool.control = .idle ∧ sc.pool.signals = [.grow] ∧
        ¬ sc.pool.countGrowth.Ought ∧ sc.pool.countGrowth.shouldGrow = none := by
  refine ⟨(PoolConfig.validate_eq_ok_iff _).mpr (by decide +kernel), ?_⟩
  have hcreate : Pool.create NumberedSupply.unfailing.counted ⟨"counter", "1.0.0"⟩ default striding
      ⟨0, []⟩ = _ := rfl
  -- the first caller is served, and the second one has to wait
  have hasked := ((Reachable.create (s := .unfailing) hcreate).step (.acquire _)).step (.acquire _)
  exact ⟨_, hasked, rfl, rfl, by decide, by decide⟩

end Scene

end ContractHost
