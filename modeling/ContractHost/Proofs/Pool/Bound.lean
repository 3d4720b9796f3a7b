import ContractHost.Proofs.Pool.Conservation

/-!
# How large a pool gets

The size of a pool goes up when its control task looks at the pool or is asked to grow it, when a
reset brings it back to its smallest size, and when an instance is replaced.  A replacement is told
in two signals, a removal and an addition; anything may happen between them.

So a pool may be larger by one than what the control task has decided on: a removal makes room, the
control task uses it, and then the addition is made all the same.  It is never larger by more, since
no second addition is due before its own removal.

## Main definitions

* `Signal.surplus`, `Signal.Orderly` — the additions that are due in a queue of signals.
* `PoolConfig.Grants` — when a pool grows, as numbers.
* `PoolConfig.Roomy` — a bound that leaves room for all that a control task may decide.
* `Pool.Fits`, `Scene.Within` — the size stays within a bound, and is not too small to be reduced.

## Main results

* `PoolConfig.roomy_max` — **one more than the greatest size is roomy**, or a step above the
  smallest one.
* `Pool.Fits.grow`, `Pool.Fits.lose` — what growing and shrinking do to the size.
* `Scene.Step.within` — a single action keeps the size within a roomy bound.
* `Scene.Reachable.size_le` — **a roomy bound holds in every run.**
-/

namespace ContractHost

/-! ### Additions that are due -/

namespace Signal

/-- By how many instances replacing alone may make a pool larger than it is now, while its control
task works through a queue of signals. -/
def surplus : List Signal → Nat
  | [] => 0
  | .add :: l => surplus l + 1
  | .remove :: l => surplus l - 1
  | _ :: l => surplus l

/-- Wherever in the queue the control task is, at most one addition is due without its removal. -/
def Orderly : List Signal → Prop
  | [] => True
  | signal :: l => surplus (signal :: l) ≤ 1 ∧ Orderly l

theorem surplus_append {l' : List Signal} (h : surplus l' = 0) :
    ∀ l, surplus (l ++ l') = surplus l
  | [] => h
  | .add :: l => congrArg (· + 1) (surplus_append h l)
  | .remove :: l => congrArg (· - 1) (surplus_append h l)
  | .grow :: l => surplus_append h l
  | .reset _ :: l => surplus_append h l
  | .shutdown :: l => surplus_append h l

theorem Orderly.append {l l' : List Signal} (h : Orderly l) (h' : Orderly l')
    (hnone : surplus l' = 0) : Orderly (l ++ l') := by
  induction l with
  | nil => exact h'
  | cons signal l ih =>
    obtain ⟨hone, hrest⟩ := h
    have hsame := surplus_append hnone (signal :: l)
    exact ⟨hsame.trans_le hone, ih hrest⟩

theorem Orderly.surplus_le {l : List Signal} (h : Orderly l) : surplus l ≤ 1 := by
  cases l with
  | nil => exact Nat.zero_le 1
  | cons signal l => exact h.1

end Signal

/-! ### Room for growth -/

theorem PoolConfig.toNat_pos {n : UInt32} (h : n ≠ 0) : 0 < n.toNat :=
  UInt32.lt_iff_toNat_lt.mp (UInt32.pos_iff_ne_zero.mpr h)

/-- A pool of these settings grows, when callers have waited for `delay` milliseconds on the average
and have asked for growth `count` times. -/
def PoolConfig.Grants (settings : PoolConfig) (delay size count : Nat) : Prop :=
  size < settings.minSize.toNat ∨
    size + settings.growStep.toNat ≤ settings.maxSize.toNat ∧
      (settings.applyThreshold.toNat < count ∨ settings.delayToleranceMs.toNat < delay)

/-- A bound that leaves room for all that a control task with these settings may decide, and for
one addition. -/
structure PoolTerms.Roomy (settings : PoolTerms) (bound : Nat) : Prop where
  /-- The size can be counted that far. -/
  lt : bound < 2 ^ 32
  /-- There is room for a new pool. -/
  minSize_le : settings.minSize.toNat ≤ bound
  /-- A reset leaves room. -/
  minSize_lt : settings.isMeasurable = true → settings.minSize ≠ 0 →
    settings.minSize.toNat < bound
  /-- Growing leaves room.  Nobody has waited for an instance of a pool that never has one. -/
  grow : settings.isMeasurable = true →
    ∀ {delay size count : Nat}, delay < 2 ^ 64 → count < 2 ^ 32 → size ≤ bound →
      (bound = 0 → delay = 0) → settings.Grants delay size count →
      size + settings.growStep.toNat < bound

namespace PoolTerms

variable {settings : PoolTerms}

/-- Without a clock the control task does nothing, and the pool stays as small as it was made. -/
theorem roomy_of_asleep (h : settings.isMeasurable = false) :
    settings.Roomy settings.minSize.toNat :=
  { lt := settings.minSize.toNat_lt
    minSize_le := le_rfl
    minSize_lt := fun hmeasurable => absurd (h.symm.trans hmeasurable) (by decide)
    grow := fun hmeasurable => absurd (h.symm.trans hmeasurable) (by decide) }

/-- A pool that is made empty stays empty if a step is larger than the pool may be, or callers
cannot ask often enough: nobody can have waited for an instance either. -/
theorem roomy_zero (hmin : settings.minSize = 0)
    (hidle : settings.maxSize < settings.growStep ∨ settings.applyThreshold.toNat + 1 = 2 ^ 32) :
    settings.Roomy 0 := by
  have hzero : settings.minSize.toNat = 0 := by rw [hmin, UInt32.toNat_zero]
  refine ⟨by decide, hzero.le, fun _ hne => absurd hmin hne, ?_⟩
  intro _ delay size count _ hcount hsize hdelay hgrants
  have hdelay := hdelay rfl
  rcases hgrants with hsmall | ⟨hroom, hask | hslow⟩
  · omega
  · rcases hidle with hstep | hnever
    · have hstep := UInt32.lt_iff_toNat_lt.mp hstep
      omega
    · omega
  · omega

/-- A pool that grows only to reach its smallest size, and has room for a step then, stays within
its greatest size. -/
theorem roomy_maxSize (hstep : settings.growStep ≠ 0)
    (hfit : settings.minSize.toNat + settings.growStep.toNat ≤ settings.maxSize.toNat)
    (hnever : settings.applyThreshold.toNat + 1 = 2 ^ 32)
    (hpatient : settings.delayToleranceMs.toNat + 1 = 2 ^ 64) :
    settings.Roomy settings.maxSize.toNat := by
  have hpositive := PoolConfig.toNat_pos hstep
  refine ⟨settings.maxSize.toNat_lt, by omega, fun _ _ => by omega, ?_⟩
  intro _ delay size count hdelay hcount hsize _ hgrants
  rcases hgrants with hsmall | ⟨_, hask | hslow⟩ <;> omega

/-- **One more than the greatest size is enough**, or a step above the smallest one, as long as the
size can be counted. -/
theorem roomy_max
    (hlt : max (settings.maxSize.toNat + 1) (settings.minSize.toNat + settings.growStep.toNat) +
      settings.growStep.toNat < 2 ^ 32)
    (hmin : settings.minSize ≤ settings.maxSize) :
    settings.Roomy
      (max (settings.maxSize.toNat + 1) (settings.minSize.toNat + settings.growStep.toNat)) := by
  have hmin := UInt32.le_iff_toNat_le.mp hmin
  refine ⟨by omega, by omega, fun _ _ => by omega, ?_⟩
  intro _ delay size count _ _ hsize _ hgrants
  rcases hgrants with hsmall | ⟨hroom, _⟩ <;> omega

end PoolTerms

namespace Pool

variable {σ : Type} {s : Supply σ}

theorem shouldGrow_iff (p : Pool) : p.shouldGrow = some true ↔
    p.settings.Grants p.averageDelay p.size.toNat p.growCount.toNat := by
  have hmax := p.settings.maxSize.toNat_lt
  unfold shouldGrow isSlow PoolConfig.Grants
  by_cases hsmall : p.size < p.settings.minSize
  · rw [if_pos hsmall]
    exact iff_of_true rfl (.inl (UInt32.lt_iff_toNat_lt.mp hsmall))
  · rw [if_neg hsmall]
    rw [UInt32.lt_iff_toNat_lt] at hsmall
    -- where the sum overflows nothing is decided, and more than the greatest size would be asked
    -- for anyway
    by_cases hsum : UInt32.size ≤ p.size.toNat + p.settings.growStep.toNat
    · rw [if_pos hsum]
      unfold UInt32.size at hsum
      exact iff_of_false nofun fun h => by omega
    · rw [if_neg hsum]
      simp only [Option.some.injEq, Bool.or_eq_true, Bool.and_eq_true, decide_eq_true_eq,
        UInt32.lt_iff_toNat_lt, UInt32.le_iff_toNat_le, UInt32.toNat_add]
      rw [Nat.mod_eq_of_lt (Nat.not_le.mp hsum)]
      exact (or_iff_right hsmall).symm

/-- A control task that can find out whether the pool should grow, and sees no reason, refuses. -/
theorem shouldGrow_eq_false {p : Pool} (hfits : p.shouldGrow ≠ none)
    (hno : p.shouldGrow ≠ some true) : p.shouldGrow = some false := by
  obtain ⟨b, hb⟩ := Option.ne_none_iff_exists'.mp hfits
  cases b with
  | true => exact absurd hb hno
  | false => exact hb

theorem averageDelay_lt (p : Pool) : p.averageDelay < 2 ^ 64 :=
  (Nat.div_le_self _ _).trans_lt p.totalDelay.toNat_lt

/-! ### The size and what it counts -/

/-- The size of the pool stays within `bound` even if `due` instances are added, and is not less
than the number of instances that the pool holds together with `extra`. -/
structure Fits (settings : PoolTerms) (bound extra due : Nat) (p : Pool) : Prop where
  /-- The pool has the settings. -/
  settings : p.settings = settings
  /-- What is due may be added. -/
  size : p.size.toNat + due ≤ bound
  /-- What there is was counted. -/
  counted : p.tally (fun _ => true) + extra ≤ p.size.toNat
  /-- Of a pool that never has an instance, no caller gets one. -/
  unused : bound = 0 → p.uses = 0

namespace Fits

variable {settings : PoolTerms} {bound extra extra' due due' : Nat} {p p' : Pool}

theorem congr (h : p.Fits settings bound extra due) (hsettings : p'.settings = p.settings)
    (hsize : p'.size = p.size)
    (hplace : p'.tally (fun _ => true) + extra' ≤ p.tally (fun _ => true) + extra)
    (huses : p.tally (fun _ => true) = 0 → p.uses = 0 → p'.uses = 0) :
    p'.Fits settings bound extra' due := by
  refine ⟨hsettings.trans h.settings, hsize ▸ h.size, ?_, fun hbound => ?_⟩
  · rw [hsize]
    exact hplace.trans h.counted
  · have hsum := h.size
    have hcount := h.counted
    exact huses (by omega) (h.unused hbound)

theorem mono (h : p.Fits settings bound extra due) (hdue : due' ≤ due) :
    p.Fits settings bound extra due' :=
  { h with size := (Nat.add_le_add_left hdue _).trans h.size }

theorem lose (h : p.Fits settings bound extra due) (n : Nat) (hsettings : p'.settings = p.settings)
    (hsize : p'.size = p.size - UInt32.ofNat n) (hdue : due' ≤ due + n)
    (hplace : p'.tally (fun _ => true) + extra' + n ≤ p.tally (fun _ => true) + extra)
    (huses : p.uses = 0 → p'.uses = 0) : p'.Fits settings bound extra' due' := by
  have hcount := h.counted
  have hsum := h.size
  have hlt := p.size.toNat_lt
  -- all that leaves was counted, so nothing wraps around
  have hn : (UInt32.ofNat n).toNat = n := UInt32.toNat_ofNat_of_lt' (by rw [UInt32.size]; omega)
  have hle : UInt32.ofNat n ≤ p.size := UInt32.le_iff_toNat_le.mpr (by omega)
  have hless : p'.size.toNat = p.size.toNat - n := by
    rw [hsize, UInt32.toNat_sub_of_le _ _ hle, hn]
  exact ⟨hsettings.trans h.settings, by omega, by omega, fun hbound => huses (h.unused hbound)⟩

theorem resume (h : p.Fits settings bound extra due) (woken : List Waiter) (ticket : Ticket)
    (since : Nat) : ({ p with woken }.resume ticket since).Fits settings bound extra due := by
  have htally : ({ p with woken }.resume ticket since).tally (fun _ => true) + extra =
      p.tally (fun _ => true) + extra :=
    congrArg (· + extra) (tally_resume _ { p with woken } ticket since)
  have hlabel := label_resume { p with woken } ticket since
  refine h.congr (congrArg (·.2.2) hlabel) (size_resume _ _ _) htally.le fun hnone hunused => ?_
  -- a pool that holds nothing has nothing ready
  obtain ⟨-, heq⟩ | ⟨-, -, heq⟩ | ⟨-, i, rest, hready, heq⟩ :=
    ({ p with woken } : Pool).resume_cases ticket since
  · rw [heq]
    exact hunused
  · rw [heq]
    exact hunused
  · have hready : p.ready = i :: rest := hready
    rw [tally_ready _ hready] at hnone
    exact absurd hnone (Nat.succ_ne_zero _)

theorem growOne (hbound : bound < 2 ^ 32) (x : σ) (h : p.Fits settings bound extra (due + 1)) :
    (p.growOne s x).2.1.Fits settings bound extra due := by
  unfold Pool.growOne
  split
  · rename_i i y _
    have hsum := h.size
    have hcount := h.counted
    -- there is room for one more below the bound, so the size does not wrap
    have hone : (p.size + 1).toNat = p.size.toNat + 1 := by
      rw [UInt32.toNat_add, UInt32.toNat_one, Nat.mod_eq_of_lt (by omega)]
    have htally := tally_push (fun _ => true) { p with size := p.size + 1 }
      { i with epoch := p.epoch }
    have hlabel := label_push { p with size := p.size + 1 } { i with epoch := p.epoch }
    have hsize : { p with size := p.size + 1 }.tally (fun _ => true) =
        p.tally (fun _ => true) := rfl
    rw [hsize, if_pos rfl] at htally
    refine ⟨(congrArg (·.2.2) hlabel).trans h.settings, ?_, ?_, fun hnone => ?_⟩
    · rw [size_push]
      dsimp only
      omega
    · rw [size_push]
      dsimp only
      omega
    · omega
  · exact h.mono (Nat.le_succ due)

/-- **What is due is made.** -/
theorem grow (hbound : bound < 2 ^ 32) {n : UInt32} (x : σ)
    (h : p.Fits settings bound extra (n.toNat + due)) :
    (p.grow s n x).1.Fits settings bound extra due := by
  have hcounted : GrowthCounted s fun n q _ => q.Fits settings bound extra n :=
    { resume := fun _ hq => hq.resume _ _ _
      growOne := growOne hbound _ }
  exact hcounted.grow h

/-- **Shrinking makes a pool no larger.** -/
theorem shrink (n : Nat) {p : Pool} {x : σ} (h : p.Fits settings bound extra due) :
    (Pool.shrink s n p x).1.Fits settings bound extra due := by
  refine shrink_induction
    (P := fun _ p _ r => p.Fits settings bound extra due → r.1.Fits settings bound extra due)
    (fun p x h => ?_) (fun {n p x permits i rest r} _ _ hready hrest h => hrest ?_)
    (fun {n p x r} _ _ _ hrest h => hrest ?_) (fun {n p x} _ h => ?_)
    (fun {n p x} _ _ h => ?_) n p x h
  · exact h.congr rfl rfl le_rfl fun _ _ => rfl
  · refine h.lose 1 rfl rfl (Nat.le_succ due) ?_ id
    rw [tally_ready _ hready, if_pos rfl]
    exact (Nat.add_right_comm _ _ _).le
  · exact h.congr rfl rfl le_rfl fun _ => id
  · exact h.congr rfl rfl le_rfl fun _ _ => rfl
  · exact h.congr rfl rfl le_rfl fun _ => id

theorem clear (h : p.Fits settings bound extra due) :
    p.cleared.Fits settings bound extra due := by
  refine h.lose p.unclaimed rfl rfl (Nat.le_add_right _ _) ?_ id
  have htrue : (p.ready.take p.unclaimed).countP (fun _ => true) = p.unclaimed :=
    (congrFun List.countP_true _).trans p.length_unclaimed
  rw [tally_cleared _ p, htrue]
  omega

/-- Growing that the settings grant leaves room for one addition. -/
theorem room (h : p.Fits settings bound extra due) (hroom : settings.Roomy bound)
    (hmeasurable : settings.isMeasurable = true) (hdue : due ≤ 1)
    (hgrow : p.shouldGrow = some true) :
    p.Fits settings bound extra (p.settings.growStep.toNat + due) := by
  have hgrants := p.shouldGrow_iff.mp hgrow
  have hdelay : bound = 0 → p.averageDelay = 0 := by
    intro hbound
    unfold averageDelay
    rw [h.unused hbound]
    exact Nat.div_zero _
  have hsize := (Nat.le_add_right _ _).trans h.size
  rw [h.settings] at hgrants
  have hlt := hroom.grow hmeasurable p.averageDelay_lt p.growCount.toNat_lt hsize hdelay hgrants
  rw [h.settings]
  exact { h with size := by omega }

/-- **A regular look keeps the size within the bound.** -/
theorem tick (h : p.Fits settings bound extra due) (hroom : settings.Roomy bound)
    (hmeasurable : settings.isMeasurable = true) (hdue : due ≤ 1) (x : σ) :
    (p.tick s x).1.Fits settings bound extra due := by
  have hp : { p with ticked := p.ticked + 1 }.Fits settings bound extra due :=
    h.congr rfl rfl le_rfl fun _ => id
  obtain ⟨-, heq⟩ | ⟨hgrow, heq⟩ | ⟨-, -, heq⟩ | ⟨-, -, heq⟩ := tick_cases s p x
  · rw [heq]
    exact hp.congr rfl rfl le_rfl fun _ => id
  · -- it grows only where a whole step fits
    have hall := (hp.room hroom hmeasurable hdue hgrow).grow (s := s) hroom.lt x
    rw [heq]
    exact hall.congr rfl rfl le_rfl fun _ _ => rfl
  · rw [heq]
    exact shrink _ hp
  · rw [heq]
    exact hp.congr rfl rfl le_rfl fun _ _ => rfl

/-- **Going on keeps the size within the bound.** -/
theorem goOn (h : p.Fits settings bound extra due) (x : σ) :
    (p.goOn s x).1.Fits settings bound extra due := by
  have hleft : { p with woken := p.woken.erase .control }.Fits settings bound extra due :=
    h.congr rfl rfl le_rfl fun _ => id
  obtain heq | ⟨left, -, ⟨-, heq⟩ | ⟨-, -, -, heq⟩ | ⟨-, -, i, rest, hready, heq⟩⟩ :=
    goOn_cases s p x
  · rw [heq]
    exact h
  · rw [heq]
    exact shrink _ hleft
  · rw [heq]
    exact shrink _ hleft
  · rw [heq]
    refine shrink _ (h.lose 1 rfl rfl (Nat.le_succ due) ?_ id)
    rw [tally_ready _ hready, if_pos rfl]
    exact (Nat.add_right_comm _ _ _).le

/-- What is missing from the smallest size may be added. -/
theorem fill (h : p.Fits settings bound extra due) (hroom : settings.Roomy bound)
    (hmeasurable : settings.isMeasurable = true) (hdue : due ≤ 1) :
    p.Fits settings bound extra (p.missing.toNat + due) := by
  have hsum := h.size
  refine { h with size := ?_ }
  unfold missing
  rw [h.settings]
  split
  · rename_i hlt
    have hless := UInt32.lt_iff_toNat_lt.mp hlt
    have hmin : settings.minSize ≠ 0 := by
      intro hzero
      rw [hzero, UInt32.toNat_zero] at hless
      exact Nat.not_lt_zero _ hless
    -- what is missing up to the least size fits below the bound
    have hreset := hroom.minSize_lt hmeasurable hmin
    rw [UInt32.toNat_sub_of_le _ _ (UInt32.le_of_lt hlt)]
    omega
  · rw [UInt32.toNat_zero]
    omega

/-- **Obeying a signal keeps the size within the bound.**  A removal leaves the queue with it, and
so does an addition that is due. -/
theorem obey {signal : Signal} {rest : List Signal}
    (h : p.Fits settings bound (extra + (signal :: rest).count .remove)
      (Signal.surplus (signal :: rest))) (hroom : settings.Roomy bound)
    (hmeasurable : settings.isMeasurable = true)
    (hdue : Signal.surplus (signal :: rest) ≤ 1) (x : σ) :
    (p.obey s x signal).1.Fits settings bound (extra + rest.count .remove)
      (Signal.surplus rest) := by
  cases signal with
  | grow =>
    have hp : p.countGrowth.Fits settings bound (extra + rest.count .remove)
        (Signal.surplus rest) := h.congr rfl rfl le_rfl fun _ => id
    obtain ⟨-, heq⟩ | ⟨-, heq⟩ | ⟨hgrow, heq⟩ := obey_grow_cases s p x
    · rw [heq]
      exact hp.congr rfl rfl le_rfl fun _ => id
    · rw [heq]
      exact hp
    · have hall := (hp.room hroom hmeasurable hdue hgrow).grow (s := s) hroom.lt x
      rw [heq]
      exact hall.congr rfl rfl le_rfl fun _ => id
  | add =>
    have hone : p.Fits settings bound (extra + rest.count .remove)
        ((1 : UInt32).toNat + Signal.surplus rest) :=
      (h.mono (Nat.add_comm _ _).le).congr rfl rfl le_rfl fun _ => id
    exact hone.grow hroom.lt x
  | remove =>
    -- the addition that goes with the removal is due from now on, and one instance less is counted
    have hless : Signal.surplus rest ≤ Signal.surplus (.remove :: rest) + 1 := by
      rw [Signal.surplus]
      omega
    refine h.lose 1 rfl rfl hless ?_ id
    rw [List.count_cons_self]
    exact le_rfl
  | reset request =>
    have hp : { p with epoch := p.epoch + 1 }.Fits settings bound
        (extra + rest.count Signal.remove) (Signal.surplus rest) :=
      h.congr rfl rfl le_rfl fun _ => id
    have hfill : p.renewed.Fits settings bound (extra + rest.count .remove)
        (p.renewed.missing.toNat + Signal.surplus rest) := hp.clear.fill hroom hmeasurable hdue
    rw [obey_reset]
    exact (hfill.grow (s := s) hroom.lt _).congr rfl rfl le_rfl fun _ _ => rfl
  | shutdown =>
    have hp : p.Fits settings bound (extra + rest.count .remove) (Signal.surplus rest) :=
      h.congr rfl rfl le_rfl fun _ => id
    rw [obey_shutdown]
    exact hp.clear.congr rfl rfl le_rfl fun _ => id

end Fits

end Pool

/-! ### Runs -/

namespace Scene

variable {σ : Type}

/-- The size of the pool stays within `bound`, whatever replacements are due. -/
structure Within (settings : PoolTerms) (bound : Nat) (sc : Scene σ) : Prop where
  /-- All additions that are due may be made. -/
  fits : sc.pool.Fits settings bound (sc.outside + sc.removals) (Signal.surplus sc.pool.signals)
  /-- At most one is due at a time. -/
  orderly : Signal.Orderly sc.pool.signals
  /-- A control task that cannot measure its time has ended. -/
  asleep : settings.isMeasurable = false → sc.pool.control = .ended

namespace Within

variable {s : NumberedSupply σ} {settings : PoolTerms} {bound : Nat} {sc : Scene σ}

theorem measurable (h : sc.Within settings bound) (hawake : sc.pool.control ≠ .ended) :
    settings.isMeasurable = true := by
  cases hasleep : settings.isMeasurable with
  | true => rfl
  | false => exact absurd (h.asleep hasleep) hawake

/-- Instances move between the pool and its users, and the control task is told nothing. -/
theorem move (h : sc.Within settings bound) {pool : Pool} {out : List Instance}
    (world : Census σ) (hlabel : pool.label = sc.pool.label)
    (hsignals : pool.signals = sc.pool.signals) (hcontrol : pool.control = sc.pool.control)
    (hsize : pool.size = sc.pool.size)
    (hplace : pool.tally (fun _ => true) + out.countP (!·.detached) ≤
      sc.pool.tally (fun _ => true) + sc.outside)
    (huses : sc.pool.tally (fun _ => true) = 0 → sc.pool.uses = 0 → pool.uses = 0) :
    Within settings bound ⟨pool, out, world⟩ := by
  refine ⟨?_, hsignals ▸ h.orderly, fun hasleep => hcontrol.trans (h.asleep hasleep)⟩
  dsimp only [outside, removals] at hplace ⊢
  rw [hsignals]
  refine h.fits.congr (congrArg (·.2.2) hlabel) hsize ?_ huses
  rw [← Nat.add_assoc, ← Nat.add_assoc]
  exact Nat.add_le_add_right hplace _

/-- Instances leave the pool, or its users, and the control task is told of their removal and of
what else is in `l`. -/
theorem tell (h : sc.Within settings bound) {l : List Signal} {out : List Instance}
    (world : Census σ) (hsurplus : Signal.surplus l = 0) (horderly : Signal.Orderly l)
    (hplace : out.countP (!·.detached) + l.count .remove ≤ sc.outside) :
    Within settings bound ⟨sc.pool.signal l, out, world⟩ := by
  by_cases hended : sc.pool.control = .ended
  · have hsame : sc.pool.signal l = sc.pool := if_pos hended
    rw [hsame]
    refine h.move world rfl rfl rfl rfl (Nat.add_le_add_left ?_ _) fun _ => id
    exact (Nat.le_add_right _ _).trans hplace
  · rw [Pool.signal_of_awake hended]
    refine ⟨?_, h.orderly.append horderly hsurplus, h.asleep⟩
    dsimp only [outside, removals] at hplace ⊢
    rw [Signal.surplus_append hsurplus, List.count_append]
    refine h.fits.congr rfl rfl (Nat.add_le_add_left ?_ _) fun _ => id
    dsimp only [outside, removals]
    omega

/-! ### Users -/

theorem acquire (h : sc.Within settings bound) :
    Within settings bound { sc with pool := sc.pool.acquire.2 } := by
  have htally := Pool.tally_acquire (fun _ => true) sc.pool
  cases hclosed : sc.pool.closed with
  | true =>
    rw [Pool.acquire_closed hclosed] at htally ⊢
    exact h.move _ rfl rfl rfl rfl (Nat.add_le_add_right htally.le _) fun _ => id
  | false =>
    -- a caller that finds nothing tells the task; one that is served leaves the task alone
    obtain hnone | ⟨permits, i, rest, hpermits, hready⟩ := sc.pool.takes_or_not
    · rw [Pool.acquire_empty hclosed hnone]
      have hnext : Within settings bound
          { sc with pool := { sc.pool with
              nextTicket := sc.pool.nextTicket + 1, permits := sc.pool.permits - 1 } } :=
        h.move _ rfl rfl rfl rfl le_rfl fun _ => id
      have htold := hnext.tell (l := [.grow]) sc.world rfl ⟨Nat.zero_le 1, trivial⟩ le_rfl
      exact htold.move _ rfl rfl rfl rfl le_rfl fun _ => id
    · rw [Pool.acquire_ready hclosed hpermits hready] at htally ⊢
      refine h.move _ rfl rfl rfl rfl (Nat.add_le_add_right htally.le _) fun hnone => ?_
      rw [Pool.tally_ready _ hready, if_pos rfl] at hnone
      exact absurd hnone (Nat.succ_ne_zero _)

theorem cancel (h : sc.Within settings bound) (ticket : Ticket) :
    Within settings bound { sc with pool := sc.pool.cancel ticket } := by
  have horders := Pool.orders_cancel sc.pool ticket
  have htally := Pool.tally_cancel (fun _ => true) sc.pool ticket
  have hmove (hsize : (sc.pool.cancel ticket).size = sc.pool.size)
      (huses : (sc.pool.cancel ticket).uses = sc.pool.uses) :
      Within settings bound { sc with pool := sc.pool.cancel ticket } :=
    h.move _ (Pool.label_cancel _ _) (congrArg (·.1) horders) (congrArg (·.2.1) horders) hsize
      (Nat.add_le_add_right htally.le _) fun _ => huses.trans
  obtain heq | ⟨l, since, r, -, heq⟩ := sc.pool.cancel_cases ticket
  · rw [heq] at hmove ⊢
    exact hmove rfl rfl
  · rw [heq] at hmove ⊢
    exact hmove (Pool.size_grant _) (Pool.uses_grant _)

theorem resume (h : sc.Within settings bound) (woken : List Waiter) (ticket : Ticket)
    (since : Nat) :
    Within settings bound { sc with pool := { sc.pool with woken }.resume ticket since } := by
  have horders := Pool.orders_resume { sc.pool with woken } ticket since
  have hsignals : ({ sc.pool with woken }.resume ticket since).signals = sc.pool.signals :=
    congrArg (·.1) horders
  refine ⟨?_, hsignals ▸ h.orderly,
    fun hasleep => (congrArg (·.2.1) horders).trans (h.asleep hasleep)⟩
  dsimp only [removals]
  rw [hsignals]
  exact h.fits.resume woken ticket since

theorem requestReset (h : sc.Within settings bound) :
    Within settings bound { sc with pool := sc.pool.requestReset.2 } := by
  have hcount : [Signal.reset sc.pool.nextRequest].count .remove = 0 :=
    List.count_eq_zero.mpr (by simp)
  have htold : Within settings bound
      ⟨sc.pool.signal [.reset sc.pool.nextRequest], sc.out, sc.world⟩ := by
    refine h.tell sc.world rfl ⟨Nat.zero_le 1, trivial⟩ ?_
    rw [hcount]
    exact le_rfl
  exact htold.move _ rfl rfl rfl rfl le_rfl fun _ => id

theorem requestShutdown (h : sc.Within settings bound) :
    Within settings bound { sc with pool := sc.pool.requestShutdown } := by
  have htally := Pool.tally_requestShutdown (fun _ => true) sc.pool
  cases hclosed : sc.pool.closed with
  | true =>
    rw [Pool.requestShutdown_closed hclosed]
    exact h
  | false =>
    rw [Pool.requestShutdown_open hclosed] at htally ⊢
    rw [Pool.tally_signal] at htally
    have hdismissed : Within settings bound { sc with pool := sc.pool.dismissed } :=
      h.move _ rfl rfl rfl rfl (Nat.add_le_add_right htally.le _) fun _ => id
    exact hdismissed.tell (l := [.shutdown]) sc.world rfl ⟨Nat.zero_le 1, trivial⟩ le_rfl

/-- An instance outside the pool ends. -/
theorem endApart (h : sc.Within settings bound) {l r : List Instance} {i : Instance}
    (world : Census σ) (hout : sc.out = l ++ i :: r) :
    Within settings bound ⟨sc.pool, l ++ r, world⟩ := by
  refine h.move world rfl rfl rfl rfl (Nat.add_le_add_left ?_ _) fun _ => id
  have hcount := Invariant.countP_out hout (!·.detached)
  exact (Nat.le_add_right _ _).trans hcount.ge

/-- An instance of a pool that is shut down ends, and is taken off the size at once. -/
theorem endClosed (h : sc.Within settings bound) {l r : List Instance} {i : Instance}
    (world : Census σ) (hout : sc.out = l ++ i :: r) (hpooled : i.detached = false) :
    Within settings bound ⟨{ sc.pool with size := sc.pool.size - 1 }, l ++ r, world⟩ := by
  refine ⟨h.fits.lose 1 rfl rfl (Nat.le_succ _) ?_ id, h.orderly, h.asleep⟩
  rw [Invariant.outside_of_pooled hout hpooled, Nat.add_right_comm _ 1]
  exact le_rfl

/-- An instance of an open pool ends, and is to be replaced. -/
theorem endReplaced (h : sc.Within settings bound) {l r : List Instance} {i : Instance}
    (world : Census σ) (hout : sc.out = l ++ i :: r) (hpooled : i.detached = false) :
    Within settings bound ⟨sc.pool.signal [.remove, .add], l ++ r, world⟩ := by
  refine h.tell world rfl ⟨Nat.zero_le 1, le_rfl, trivial⟩ ?_
  exact (Invariant.outside_of_pooled hout hpooled).ge

theorem release (h : sc.Within settings bound) {l r : List Instance} {i i' : Instance}
    (hout : sc.out = l ++ i :: r) (hafter : i.After i') :
    Within settings bound ({ sc with out := l ++ r }.act
      (sc.pool.release s.counted i' sc.world)) := by
  have hbefore := hafter.detached.symm
  -- it belongs to no pool, the pool is closed, it is replaced, or it comes back
  rcases Pool.release_cases s.counted sc.pool i' sc.world with
    ⟨-, heq⟩ | ⟨hpooled, -, heq⟩ | ⟨hpooled, -, heq⟩ | ⟨hpooled, -, heq⟩
  · rw [heq]
    exact h.endApart _ hout
  · rw [heq]
    exact h.endClosed _ hout (hbefore.trans hpooled)
  · rw [heq]
    exact h.endReplaced _ hout (hbefore.trans hpooled)
  · rw [heq]
    have hcount := Invariant.outside_of_pooled hout (hbefore.trans hpooled)
    have hpush := Pool.tally_push (fun _ => true) sc.pool i'.unbind
    rw [if_pos rfl] at hpush
    have horders := Pool.orders_push sc.pool i'.unbind
    refine h.move _ (Pool.label_push _ _) (congrArg (·.1) horders)
      (congrArg (·.2.1) horders) (Pool.size_push _ _) ?_ fun _ hunused => ?_
    · rw [hcount]
      dsimp only
      omega
    · exact (Pool.uses_push _ _).trans hunused

theorem discard (h : sc.Within settings bound) {l r : List Instance} {i i' : Instance}
    (hout : sc.out = l ++ i :: r) (hafter : i.After i') :
    Within settings bound ({ sc with out := l ++ r }.act
      (sc.pool.discard s.counted i' sc.world)) := by
  have hbefore := hafter.detached.symm
  rcases Pool.discard_cases s.counted sc.pool i' sc.world with
    ⟨-, heq⟩ | ⟨hpooled, -, heq⟩ | ⟨hpooled, -, heq⟩
  · rw [heq]
    exact h.endApart _ hout
  · rw [heq]
    exact h.endClosed _ hout (hbefore.trans hpooled)
  · rw [heq]
    exact h.endReplaced _ hout (hbefore.trans hpooled)

theorem claim (h : sc.Within settings bound) (ticket : Ticket) :
    Within settings bound { sc with
      pool := (sc.pool.claim ticket).2
      out := sc.out ++ (sc.pool.claim ticket).1.elim [] (·.toOption.toList) } := by
  refine h.move _ rfl rfl rfl rfl ?_ fun _ => id
  have htally := Pool.tally_claim (fun _ => true) sc.pool ticket
  have hmono : ((sc.pool.claim ticket).1.elim [] (·.toOption.toList)).countP (!·.detached) ≤
      ((sc.pool.claim ticket).1.elim [] (·.toOption.toList)).countP (fun _ => true) :=
    List.countP_mono_left fun _ _ _ => rfl
  rw [List.countP_append]
  dsimp only [outside]
  omega

theorem spawn (h : sc.Within settings bound) {i : Instance} {world : Census σ}
    (hcreate : sc.pool.createDetached s.counted sc.world = (.ok i, world)) :
    Within settings bound { sc with out := sc.out ++ [i], world } := by
  unfold Pool.createDetached at hcreate
  split at hcreate
  · cases hcreate
    refine h.move _ rfl rfl rfl rfl ?_ fun _ => id
    rw [List.countP_append]
    exact le_rfl
  · cases hcreate

/-! ### The control task -/

/-- Work of a control task that has a clock, and leaves the signals in `rest`. -/
theorem work {r : Pool × Census σ} {rest : List Signal}
    (hfits : r.1.Fits settings bound (sc.outside + rest.count .remove) (Signal.surplus rest))
    (hsignals : r.1.signals = rest) (horderly : Signal.Orderly rest)
    (hmeasurable : settings.isMeasurable = true) :
    Within settings bound (sc.act r) := by
  subst hsignals
  exact ⟨hfits, horderly, fun hasleep => absurd (hmeasurable.symm.trans hasleep) (by decide)⟩

/-- Work that ends the control task.  Whatever was still in the queue is not told any more. -/
theorem endWork {r : Pool × Census σ} {rest : List Signal}
    (hfits : r.1.Fits settings bound (sc.outside + rest.count .remove) (Signal.surplus rest))
    (hsignals : r.1.signals = []) (hmeasurable : settings.isMeasurable = true) :
    Within settings bound (sc.act r) := by
  refine work ((hfits.mono (Nat.zero_le _)).congr rfl rfl ?_ fun _ => id) hsignals trivial
    hmeasurable
  exact Nat.add_le_add_left (Nat.add_le_add_left (Nat.zero_le _) _) _

theorem obey (h : sc.Within settings bound) (hroom : settings.Roomy bound) {signal : Signal}
    {rest : List Signal} (hidle : sc.pool.control = .idle)
    (hsignals : sc.pool.signals = signal :: rest) :
    Within settings bound
      (sc.act ({ sc.pool with signals := rest }.obey s.counted sc.world signal)) := by
  have hmeasurable := h.measurable fun hended => Control.noConfusion (hidle.symm.trans hended)
  have horderly := h.orderly
  have hfits := h.fits
  dsimp only [removals] at hfits
  rw [hsignals] at hfits horderly
  have hnext : { sc.pool with signals := rest }.Fits settings bound
      (sc.outside + (signal :: rest).count Signal.remove) (Signal.surplus (signal :: rest)) :=
    hfits.congr rfl rfl le_rfl fun _ => id
  have hobey := hnext.obey (s := s.counted) hroom hmeasurable horderly.1 sc.world
  -- the task goes on with the signals that are left, or it ends and none are left
  obtain hsame | ⟨-, hnone, -⟩ :=
    Pool.control_obey (s := s.counted) { sc.pool with signals := rest } sc.world signal
  · refine work hobey (Pool.signals_obey _ _ _ ?_) horderly.2 hmeasurable
    rw [hsame, hidle]
    exact nofun
  · exact endWork hobey hnone hmeasurable

theorem tick (h : sc.Within settings bound) (hroom : settings.Roomy bound)
    (hidle : sc.pool.control = .idle) :
    Within settings bound (sc.act (sc.pool.tick s.counted sc.world)) := by
  have hawake : sc.pool.control ≠ .ended := fun hended =>
    Control.noConfusion (hidle.symm.trans hended)
  have hmeasurable := h.measurable hawake
  have hlook := h.fits.tick (s := s.counted) hroom hmeasurable h.orderly.surplus_le sc.world
  obtain ⟨-, hsignals⟩ | ⟨-, hnone, -⟩ := Pool.control_tick (s := s.counted) hawake sc.world
  · exact work hlook hsignals h.orderly hmeasurable
  · exact endWork hlook hnone hmeasurable

theorem goOn (h : sc.Within settings bound) :
    Within settings bound (sc.act (sc.pool.goOn s.counted sc.world)) := by
  cases hcontrol : sc.pool.control with
  | idle | ended =>
    have hsame : sc.pool.goOn s.counted sc.world = (sc.pool, sc.world) := by
      unfold Pool.goOn
      rw [hcontrol]
    rw [hsame]
    exact h
  | shrinking left =>
    have hmeasurable := h.measurable fun hended =>
      Control.noConfusion (hcontrol.symm.trans hended)
    exact work (h.fits.goOn sc.world) (Pool.signals_goOn _ _) h.orderly hmeasurable

end Within

section

variable {s : NumberedSupply σ} {settings : PoolTerms} {bound : Nat}

/-- **A single action keeps the size within a roomy bound.** -/
theorem Step.within {sc sc' : Scene σ} (hstep : Step s sc sc') (hroom : settings.Roomy bound)
    (h : sc.Within settings bound) : sc'.Within settings bound := by
  -- one lemma for each kind of step; what only passes time changes none of the numbers
  cases hstep with
  | acquire => exact h.acquire
  | cancel ticket => exact h.cancel ticket
  | resume hp => exact h.resume _ _ _
  | claim ticket => exact h.claim ticket
  | release hout hafter => exact h.release hout hafter
  | discard hout hafter => exact h.discard hout hafter
  | spawn hcreate => exact h.spawn hcreate
  | spawnFailed hcreate => exact h.move _ rfl rfl rfl rfl le_rfl fun _ => id
  | close hout hafter hdetached => exact h.endApart _ hout
  | requestReset => exact h.requestReset
  | requestShutdown => exact h.requestShutdown
  | obey hidle hsignals => exact h.obey hroom hidle hsignals
  | tick hidle => exact h.tick hroom hidle
  | goOn => exact h.goOn
  | wait milliseconds => exact h.move _ rfl rfl rfl rfl le_rfl fun _ => id
  | advance seconds => exact h.move _ rfl rfl rfl rfl le_rfl fun _ => id
  | elsewhere hnext => exact h.move _ rfl rfl rfl rfl le_rfl fun _ => id

theorem Within.create {contract : ContractId} {program : Module} {host : σ} {p : Pool}
    {world : Census σ} (hroom : settings.Roomy bound)
    (hcreate : Pool.create s.counted contract program settings ⟨host, []⟩ = (.ok p, world)) :
    Within settings bound ⟨p, [], world⟩ := by
  obtain ⟨trial, y, _, rfl, rfl⟩ := Pool.create_eq_ok hcreate
  -- an empty pool has room for the least size
  have hempty : ({ contract, program, settings } : Pool).Fits settings bound 0
      (settings.minSize.toNat + 0) :=
    ⟨rfl, (Nat.zero_add _).trans_le hroom.minSize_le, le_rfl, fun _ => rfl⟩
  have hgrow := hempty.grow (s := s.counted) hroom.lt (s.counted.teardown trial y)
  have horders := Pool.orders_grow (s := s.counted) { contract, program, settings }
    settings.minSize (s.counted.teardown trial y)
  generalize Pool.grow s.counted { contract, program, settings } settings.minSize
    (s.counted.teardown trial y) = g at hgrow horders ⊢
  have hsignals : g.1.signals = [] := congrArg (·.1) horders
  refine ⟨?_, ?_, fun hasleep => ?_⟩
  · dsimp only [outside, removals]
    rw [hsignals]
    exact hgrow.congr rfl rfl le_rfl fun _ => id
  · dsimp only
    rw [hsignals]
    trivial
  · dsimp only
    rw [hasleep]
    rfl

/-- The size stays within a roomy bound in every run. -/
theorem Reachable.within {contract : ContractId} {program : Module} {sc : Scene σ}
    (hroom : settings.Roomy bound) (h : Reachable s contract program settings sc) :
    sc.Within settings bound := by
  induction h with
  | create hcreate => exact Within.create hroom hcreate
  | step _ hstep ih => exact hstep.within hroom ih

/-- **A roomy bound holds in every run.** -/
theorem Reachable.size_le {contract : ContractId} {program : Module} {sc : Scene σ}
    (hroom : settings.Roomy bound) (h : Reachable s contract program settings sc) :
    sc.pool.size.toNat ≤ bound :=
  (Nat.le_add_right _ _).trans (h.within hroom).fits.size

end

end Scene

end ContractHost
