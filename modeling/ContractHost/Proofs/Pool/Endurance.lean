import ContractHost.Proofs.Pool.Sizing

/-!
# How long the control task lasts

The control task of an open pool can end for two reasons: it cannot tell when its first regular look
is due, or it cannot find out whether the pool should grow.  Nobody hears of removals then, so the
first instance that is given up stays in the count for ever.

Which settings lead there is known, so it is known as well under which settings the count is right
in every run.

## Main definitions

* `PoolTerms.Enduring` — the settings under which no open pool loses its control task.

## Main results

* `Scene.Reachable.closed_of_enduring` — under these settings the control task ends only with the
  pool.
* `Scene.exists_ended` — under all others an open pool of some instances loses it in some run.
* `Scene.conserved_iff` — **no instance is lost in any run, exactly under these settings**, or if
  the pool never has an instance.
-/

namespace ContractHost

namespace Pool

/-- Where nobody waits, and every creation succeeds, a pool grows by what it was asked to. -/
theorem grow_alone {σ : Type} {s : Supply σ} {p : Pool}
    (hmake : ∀ m x, ∃ i y, s.create m x = (.ok i, y)) (h : p.Alone) (n : UInt32) (x : σ) :
    ∃ l y, l.length = n.toNat ∧ p.grow s n x =
      ({ p with
          ready := p.ready ++ l, permits := p.permits + l.length, size := p.size + n }, y) := by
  -- nobody waits and nobody was woken, so every new instance becomes ready and its permit stays
  have hcounted : GrowthCounted s fun k q _ => ∃ l : List Instance, l.length + k = n.toNat ∧
      q = { p with
        ready := p.ready ++ l
        permits := p.permits + l.length
        size := p.size + UInt32.ofNat l.length } :=
    { resume := fun {k q before ticket since after y} hq hl => by
        obtain ⟨l, -, rfl⟩ := hl
        exact absurd (hq.symm.trans h.woken) (by simp)
      growOne := fun {k q y} hl => by
        obtain ⟨l, hlength, rfl⟩ := hl
        obtain ⟨i, y', hmade⟩ := hmake p.program y
        refine ⟨l ++ [{ i with epoch := p.epoch }], by simp; omega, ?_⟩
        unfold growOne
        dsimp only
        rw [hmade]
        dsimp only
        rw [List.length_append, UInt32.ofNat_add, ← UInt32.add_assoc, ← List.append_assoc,
          ← Nat.add_assoc]
        refine (push_nil ?_ _).trans rfl
        exact h.waiters }
  obtain ⟨l, hlength, hgrown⟩ := hcounted.grow (p := p) (x := x) (n := n) (k := 0)
    ⟨[], Nat.zero_add _, by simp⟩
  rw [Nat.add_zero] at hlength
  have hsize : UInt32.ofNat l.length = n := by rw [hlength, UInt32.ofNat_toNat]
  rw [hsize] at hgrown
  exact ⟨l, (p.grow s n x).2, hlength, Prod.ext hgrown rfl⟩

end Pool

/-- No open pool of these settings loses its control task. -/
structure PoolTerms.Enduring (settings : PoolTerms) : Prop where
  /-- The control task can tell when its first look is due. -/
  measurable : settings.isMeasurable = true
  /-- No sum that it takes overflows. -/
  summable : settings.Summable

/-- The pool never has an instance. -/
structure PoolTerms.Barren (settings : PoolTerms) : Prop where
  /-- It begins empty. -/
  empty : settings.minSize = 0
  /-- There is no control task, or no room for a step, or callers cannot ask often enough. -/
  idle : settings.isMeasurable = false ∨ settings.maxSize < settings.growStep ∨
    settings.applyThreshold.toNat + 1 = 2 ^ 32

theorem PoolTerms.Barren.roomy {settings : PoolTerms} (h : settings.Barren) :
    settings.Roomy 0 := by
  rcases h.idle with hasleep | hnever
  · have hzero : settings.minSize.toNat = 0 := by rw [h.empty, UInt32.toNat_zero]
    exact hzero ▸ roomy_of_asleep hasleep
  · exact roomy_zero h.empty hnever

namespace Scene

section

variable {σ : Type} {s : NumberedSupply σ} {contract : ContractId} {program : Module}
variable {settings : PoolTerms} {sc : Scene σ}

theorem Reachable.fits_of_enduring (hvalid : settings.validate = .ok ())
    (henduring : settings.Enduring) (h : Reachable s contract program settings sc) :
    sc.pool.shouldGrow ≠ none := by
  obtain ⟨-, hmin, hstep, -⟩ := settings.validate_eq_ok_iff.mp hvalid
  exact mt Pool.shouldGrow_eq_none_iff_overflows.mp
    (h.not_overflows henduring.summable henduring.measurable hmin hstep)

/-- **The control task ends only with the pool** under such settings. -/
theorem Reachable.closed_of_enduring (hvalid : settings.validate = .ok ())
    (henduring : settings.Enduring) (h : Reachable s contract program settings sc)
    (hended : sc.pool.control = .ended) : sc.pool.closed = true :=
  h.closed_of_ended henduring.measurable (fun hsc => hsc.fits_of_enduring hvalid henduring) hended

theorem Reachable.invariant_of_enduring (hvalid : settings.validate = .ok ())
    (henduring : settings.Enduring) (h : Reachable s contract program settings sc) :
    sc.Invariant s 0 :=
  h.invariant_of_lasting henduring.measurable fun hsc => hsc.fits_of_enduring hvalid henduring

/-- Under barren settings a pool is empty in every run. -/
theorem Reachable.size_eq_zero (hbarren : settings.Barren)
    (h : Reachable s contract program settings sc) : sc.pool.size = 0 ∧ sc.total = 0 := by
  have hfits := (h.within hbarren.roomy).fits
  have hsize := hfits.size
  have hcount := hfits.counted
  rw [Pool.tally_true, Invariant.held_length] at hcount
  exact ⟨UInt32.toNat_inj.mp (by rw [UInt32.toNat_zero]; omega), by omega⟩

/-- What a control task comes to that cannot find out whether the pool should grow. -/
theorem Reachable.tick_of_overflows (h : Reachable s contract program settings sc)
    (hidle : sc.pool.control = .idle) (hover : sc.pool.Overflows) :
    Reachable s contract program settings
      { sc with pool := { sc.pool with ticked := sc.pool.ticked + 1 }.endControl } := by
  have hlooked := h.step (Step.tick hidle)
  rw [Pool.tick_none (Pool.shouldGrow_eq_none_iff_overflows.mpr hover)] at hlooked
  exact hlooked

end

variable (contract : ContractId) (program : Module) {settings : PoolTerms}

theorem create_unfailing (m : Module) (x : Census Nat) :
    ∃ i y, NumberedSupply.unfailing.counted.create m x = (.ok i, y) :=
  ⟨_, _, rfl⟩

/-- A pool is created with all instances that it must have. -/
theorem exists_created_whole (settings : PoolTerms) :
    ∃ ready world, ready.length = settings.minSize.toNat ∧
      Reachable .unfailing contract program settings
        ⟨{ contract, program, settings, ready
           permits := ready.length
           size := settings.minSize
           control := if settings.isMeasurable then .idle else .ended }, [], world⟩ := by
  obtain ⟨l, y, hlength, hgrown⟩ := Pool.grow_alone (p := { contract, program, settings })
    create_unfailing ⟨rfl, rfl⟩ settings.minSize ⟨1, []⟩
  have hcreate : Pool.create NumberedSupply.unfailing.counted contract program settings ⟨0, []⟩ =
      (.ok { (Pool.grow NumberedSupply.unfailing.counted { contract, program, settings }
          settings.minSize ⟨1, []⟩).1 with
        control := if settings.isMeasurable then .idle else .ended },
        (Pool.grow NumberedSupply.unfailing.counted { contract, program, settings }
          settings.minSize ⟨1, []⟩).2) := rfl
  rw [hgrown, List.nil_append, UInt32.zero_add, Nat.zero_add] at hcreate
  exact ⟨l, y, hlength, Reachable.create (s := .unfailing) hcreate⟩

/-- **An open pool loses its control task in some run**, under all settings that do not let it last,
and has a size then, unless it began empty. -/
theorem exists_ended (hvalid : settings.validate = .ok ()) (hfinite : ¬ settings.Enduring)
    (hsome : settings.isMeasurable = true ∨ settings.minSize ≠ 0) :
    ∃ (σ : Type) (s : NumberedSupply σ) (sc : Scene σ), Reachable s contract program settings sc ∧
      sc.pool.closed = false ∧ sc.pool.control = .ended ∧ sc.pool.size ≠ 0 := by
  by_cases hmeasurable : settings.isMeasurable = true
  · obtain ⟨sc, h, hidle, hopen, hover⟩ := exists_overflow contract program hvalid
      fun hsummable => hfinite ⟨hmeasurable, hsummable⟩
    refine ⟨Ration, .rationed, _, h.tick_of_overflows hidle hover, hopen, rfl, fun hzero => ?_⟩
    -- a step alone fits, so the pool has a size
    have hlimit := sc.pool.settings.growStep.toNat_lt
    have hsize : sc.pool.size.toNat = 0 := congrArg UInt32.toNat hzero
    obtain ⟨-, hsum⟩ := hover
    omega
  · obtain ⟨ready, world, -, h⟩ := exists_created_whole contract program settings
    rw [if_neg hmeasurable] at h
    exact ⟨Nat, .unfailing, _, h, rfl, rfl, hsome.resolve_left hmeasurable⟩

/-- **No instance is lost in any run, exactly if the control task lasts**, or never has anything to
count.  Only the size can go wrong: whatever the settings are, every living instance is in one
place. The size is the number of instances, ready and with somebody, and of the removals to come, as
long as that is a number of 32 bits; so nothing can be taken off the size that was not counted
before. -/
theorem conserved_iff (hvalid : settings.validate = .ok ()) :
    ((∀ (σ : Type) (s : NumberedSupply σ) (sc : Scene σ),
        Reachable s contract program settings sc → sc.Conserved) ↔
      settings.Enduring ∨ settings.isMeasurable = false ∧ settings.minSize = 0) ∧
    (∀ (σ : Type) (s : NumberedSupply σ) (sc : Scene σ),
      Reachable s contract program settings sc →
        (sc.Conserved ↔ sc.pool.size = UInt32.ofNat sc.total)) ∧
    ∀ (σ : Type) (sc : Scene σ), sc.Conserved →
      (sc.pool.size.toNat = sc.total ↔ sc.total < 2 ^ 32) := by
  have hplaces {σ : Type} {s : NumberedSupply σ} {sc : Scene σ}
      (h : Reachable s contract program settings sc) :
      sc.Conserved ↔ sc.pool.size = UInt32.ofNat sc.total := by
    obtain ⟨lost, hlost⟩ := h.invariant
    exact ⟨Conserved.size, hlost.conserved⟩
  refine ⟨⟨fun hall => ?_, fun hsettings σ s sc h => ?_⟩, fun σ s sc h => hplaces h,
    fun σ sc h => ?_⟩
  · -- settings that are neither have a run in which the task ends while the pool is open, and then
    -- what is given up is lost
    by_contra hnot
    obtain ⟨hfinite, hsome⟩ := not_or.mp hnot
    rw [not_and_or, Bool.not_eq_false] at hsome
    obtain ⟨σ, s, sc, h, hopen, hended, hsize⟩ :=
      exists_ended contract program hvalid hfinite hsome
    obtain ⟨sc', h', hne⟩ := h.exists_size_ne hopen hended hsize
    exact hne (hall σ s sc' h').size
  · refine (hplaces h).mpr ?_
    -- either nothing is ever lost, or there is nothing to lose
    rcases hsettings with henduring | ⟨hasleep, hmin⟩
    · exact (h.invariant_of_enduring hvalid henduring).size_eq
    · obtain ⟨hsize, htotal⟩ := h.size_eq_zero ⟨hmin, .inl hasleep⟩
      rw [hsize, htotal]
      rfl
  · rw [h.size, UInt32.toNat_ofNat']
    omega

/-- Under the default settings no instance is lost. -/
theorem conserved_default :
    ({} : PoolConfig).validate = .ok () ∧
      ∀ (σ : Type) (s : NumberedSupply σ) (sc : Scene σ),
        Reachable s ⟨"counter", "1.0.0"⟩ default {} sc → sc.Conserved := by
  have hvalid : ({} : PoolTerms).validate = .ok () :=
    (PoolConfig.validate_eq_ok_iff _).mpr (by decide +kernel)
  exact ⟨hvalid, (conserved_iff ⟨"counter", "1.0.0"⟩ default hvalid).1.mpr
    (.inl ⟨by decide +kernel, .small (by decide +kernel)⟩)⟩

/-- **The size goes wrong** in a pool whose interval of 2 ^ 63 seconds is accepted, and in a pool of
one instance whose steps are as large as can be. -/
theorem size_ne_total_of_ended :
    ({ minSize := 1, refreshIntervalSecs := 2 ^ 63 } : PoolConfig).validate = .ok () ∧
      striding.validate = .ok () ∧
      (∃ sc : Scene Nat,
        Reachable .unfailing ⟨"counter", "1.0.0"⟩ default
          { minSize := 1, refreshIntervalSecs := 2 ^ 63 } sc ∧
        sc.pool.size.toNat = 1 ∧ sc.total = 0) ∧
      ∃ sc : Scene Nat,
        Reachable .unfailing ⟨"counter", "1.0.0"⟩ default striding sc ∧
        sc.pool.size.toNat = 1 ∧ sc.total = 0 := by
  have hcreate (settings : PoolTerms) : Pool.create NumberedSupply.unfailing.counted
      ⟨"counter", "1.0.0"⟩ default settings ⟨0, []⟩ = _ := rfl
  have hcreated (settings : PoolTerms) := Reachable.create (s := .unfailing) (hcreate settings)
  -- in the first pool the task ends at once, in the second when a sum overflows
  refine ⟨(PoolConfig.validate_eq_ok_iff _).mpr (by decide +kernel),
    (PoolConfig.validate_eq_ok_iff _).mpr (by decide +kernel), ?_, ?_⟩
  · -- a caller takes the only instance and gives it up
    have htaken := ((hcreated { minSize := 1, refreshIntervalSecs := 2 ^ 63 }).step
      (.acquire _)).step (.claim _ 0)
    exact ⟨_, htaken.step (.discard (l := []) (r := []) rfl ⟨rfl, rfl, rfl⟩), by decide +kernel,
      by decide +kernel⟩
  · -- here a second caller asks before that
    have hasked := ((hcreated striding).step (.acquire _)).step (.acquire _)
    have htaken := (hasked.step (.obey rfl rfl)).step (.claim _ 0)
    exact ⟨_, htaken.step (.discard (l := []) (r := []) rfl ⟨rfl, rfl, rfl⟩), by decide +kernel,
      by decide +kernel⟩

end Scene

end ContractHost
