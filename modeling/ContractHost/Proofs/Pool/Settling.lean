import ContractHost.Proofs.Pool.Stuck
import Mathlib.Order.OrderIsoNat

/-!
# Pools that never settle

At regular times the control task looks at the pool and changes its size by a step, up or down.  If
nobody uses the pool meanwhile, nothing but the size decides: a pool below its smallest size grows,
and one above it shrinks if it is larger than a step.

Shrinking does not ask how far the smallest size is.  Where a step leads below it, the next look
leads back, and the one after that leads below it again.  A pool of any size between the bounds can
come about by a reset, which leaves the instances that users have and ends the others.

## Main definitions

* `Scene.Resting` — nobody has an instance of the pool, and its size is within the bounds.
* `Scene.sizeAfter`, `Scene.Settles` — the sizes that regular looks lead to, and when they settle.
* `PoolTerms.Calm` — the settings under which no step leads below the smallest size.

## Main results

* `Pool.size_grow`, `Pool.size_shrink` — how far growing and shrinking go.
* `Scene.Reachable.settles` — a pool of calm settings settles.
* `Pool.AtRest.alternates` — a step that leads below the smallest size is taken for ever.
* `Scene.settles_iff` — **regular looks settle within the bounds from every resting state, exactly
  if the settings are calm.**
-/

namespace ContractHost

namespace Pool

variable {σ : Type} {s : Supply σ}

/-! ### How far a look changes the size -/

/-- Growing makes a pool no smaller, and larger by what was asked for at most. -/
theorem size_grow {p : Pool} {n : UInt32} (hlt : p.size.toNat + n.toNat < 2 ^ 32) (x : σ) :
    p.size.toNat ≤ (p.grow s n x).1.size.toNat ∧
      (p.grow s n x).1.size.toNat ≤ p.size.toNat + n.toNat := by
  -- what is still to be made and what is there already add up to no more than was asked for
  have hcounted : GrowthCounted s fun k q _ =>
      p.size.toNat ≤ q.size.toNat ∧ q.size.toNat + k ≤ p.size.toNat + n.toNat :=
    { resume := fun _ hq => by
        rw [size_resume]
        exact hq
      growOne := fun {k q y} hq => by
        unfold growOne
        split
        · have hone : (q.size + 1).toNat = q.size.toNat + 1 := by
            rw [UInt32.toNat_add, UInt32.toNat_one, Nat.mod_eq_of_lt (by omega)]
          rw [size_push]
          dsimp only
          omega
        · exact ⟨hq.1, (Nat.le_succ _).trans hq.2⟩ }
  exact hcounted.grow (p := p) (n := n) (k := 0) ⟨le_rfl, le_rfl⟩

/-- Shrinking makes a pool no larger, and smaller by what was asked for at most. -/
theorem size_shrink (n : Nat) {p : Pool} (x : σ) (h : n ≤ p.size.toNat) :
    p.size.toNat ≤ (shrink s n p x).1.size.toNat + n ∧
      (shrink s n p x).1.size.toNat ≤ p.size.toNat := by
  have hless : ∀ {n : Nat} {size : UInt32}, n + 1 ≤ size.toNat →
      (size - 1).toNat = size.toNat - 1 := by
    intro n size hn
    rw [UInt32.toNat_sub_of_le _ _ (UInt32.le_iff_toNat_le.mpr (by rw [UInt32.toNat_one]; omega)),
      UInt32.toNat_one]
  -- along the run of the task: it takes an instance, waits for one, or stops early
  refine shrink_induction
    (P := fun n p _ r => n ≤ p.size.toNat → p.size.toNat ≤ r.1.size.toNat + n ∧
      r.1.size.toNat ≤ p.size.toNat)
    (fun p x _ => ⟨le_rfl, le_rfl⟩) (fun {n p x permits i rest r} _ _ _ hrest h => ?_)
    (fun {n p x r} _ _ _ hrest h => ?_)
    (fun {n p x} _ _ => ⟨Nat.le_add_right _ _, le_rfl⟩)
    (fun {n p x} _ _ _ => ⟨Nat.le_add_right _ _, le_rfl⟩) n p x h
  · have hrest := hrest ((hless h).symm ▸ Nat.le_sub_one_of_lt h)
    rw [hless h] at hrest
    omega
  · have hrest := hrest (Nat.le_of_succ_le h)
    exact ⟨hrest.1.trans (Nat.add_le_add_left (Nat.le_succ n) _), hrest.2⟩

/-- A control task that is free knows of nobody who has asked or waited since it has looked at the
pool. -/
def Cleared (p : Pool) : Prop :=
  p.control = .idle → p.growCount = 0 ∧ p.totalDelay = 0

theorem cleared_shrink (n : Nat) (p : Pool) (x : σ) : (shrink s n p x).1.Cleared := by
  refine shrink_induction (P := fun _ _ _ r => r.1.Cleared) ?_ ?_ ?_ ?_ ?_ n p x
  · exact fun _ _ _ => ⟨rfl, rfl⟩
  · exact fun _ _ _ hrest => hrest
  · exact fun _ _ _ hrest => hrest
  · exact fun _ _ => ⟨rfl, rfl⟩
  · exact fun _ _ hidle => Control.noConfusion hidle

/-- A regular look begins the counts again. -/
theorem cleared_tick (p : Pool) (x : σ) : (p.tick s x).1.Cleared := by
  obtain ⟨-, heq⟩ | ⟨-, heq⟩ | ⟨-, -, heq⟩ | ⟨-, -, heq⟩ := tick_cases s p x
  · rw [heq]
    exact fun hidle => Control.noConfusion hidle
  · rw [heq]
    exact fun _ => ⟨rfl, rfl⟩
  · rw [heq]
    exact cleared_shrink _ _ x
  · rw [heq]
    exact fun _ => ⟨rfl, rfl⟩

/-! ### One look after another -/

theorem tickAll_of_busy {p : Pool} (h : p.control ≠ .idle) (n : Nat) (x : σ) :
    tickAll s n p x = (p, x) := by
  cases n with
  | zero => rfl
  | succ n =>
    unfold tickAll
    split
    · rename_i hidle
      exact absurd hidle h
    · rfl

theorem tickAll_of_idle {p : Pool} (h : p.control = .idle) (n : Nat) (x : σ) :
    tickAll s (n + 1) p x = tickAll s n (p.tick s x).1 (p.tick s x).2 := by
  rw [tickAll, h]

theorem tickAll_add (m n : Nat) (p : Pool) (x : σ) :
    tickAll s (m + n) p x = tickAll s n (tickAll s m p x).1 (tickAll s m p x).2 := by
  induction m generalizing p x with
  | zero => rw [Nat.zero_add]; rfl
  | succ m ih =>
    by_cases h : p.control = .idle
    · rw [Nat.succ_add, tickAll_of_idle h, tickAll_of_idle h, ih]
    · rw [tickAll_of_busy h, tickAll_of_busy h, tickAll_of_busy h]

/-- What every look keeps, all looks keep. -/
theorem tickAll_induction {P : Pool → σ → Prop}
    (step : ∀ {p x}, p.control = .idle → P p x → P (p.tick s x).1 (p.tick s x).2) :
    ∀ (n : Nat) {p : Pool} {x : σ}, P p x → P (tickAll s n p x).1 (tickAll s n p x).2 := by
  intro n
  induction n with
  | zero => exact fun hp => hp
  | succ n ih =>
    intro p x hp
    by_cases h : p.control = .idle
    · rw [tickAll_of_idle h]
      exact ih (step h hp)
    · rw [tickAll_of_busy h]
      exact hp

end Pool

/-! ### Calm settings -/

/-- The settings under which no step leads below the smallest size. -/
inductive PoolTerms.Calm (settings : PoolTerms) : Prop
  /-- There is no step from a larger pool to one without the single instance that it must have. -/
  | small (hmin : settings.minSize.toNat ≤ 1)
  /-- The size changes by one. -/
  | gradual (hstep : settings.growStep.toNat ≤ 1)
  /-- There is one size only. -/
  | rigid (hmax : settings.maxSize ≤ settings.minSize)
  /-- No size is larger than a step. -/
  | coarse (hmax : settings.maxSize ≤ settings.growStep)
  /-- A pool that is larger than it must be, and than a step, is so large that a look at it ends the
  control task. -/
  | overwhelming (hover : 2 ^ 32 ≤ max settings.minSize.toNat settings.growStep.toNat + 1 +
      settings.growStep.toNat)
  /-- The control task cannot measure its time, and ends as soon as it begins. -/
  | asleep (hasleep : settings.isMeasurable = false)

namespace PoolTerms

variable {settings : PoolTerms}

theorem calm_iff (settings : PoolTerms) :
    settings.Calm ↔ settings.minSize.toNat ≤ 1 ∨ settings.growStep.toNat ≤ 1 ∨
      settings.maxSize ≤ settings.minSize ∨ settings.maxSize ≤ settings.growStep ∨
      2 ^ 32 ≤ max settings.minSize.toNat settings.growStep.toNat + 1 + settings.growStep.toNat ∨
      settings.isMeasurable = false := by
  constructor
  · -- the disjuncts stand in the order of the constructors
    rintro (h | h | h | h | h | h)
    · exact .inl h
    · exact .inr (.inl h)
    · exact .inr (.inr (.inl h))
    · exact .inr (.inr (.inr (.inl h)))
    · exact .inr (.inr (.inr (.inr (.inl h))))
    · exact .inr (.inr (.inr (.inr (.inr h))))
  · rintro (h | h | h | h | h | h)
    · exact .small h
    · exact .gradual h
    · exact .rigid h
    · exact .coarse h
    · exact .overwhelming h
    · exact .asleep h

instance (settings : PoolTerms) : Decidable settings.Calm :=
  decidable_of_iff' _ settings.calm_iff

/-- A pool that is shrunk keeps its smallest size. -/
theorem Calm.room (h : settings.Calm)
    (hmeasurable : settings.isMeasurable = true) {size : Nat}
    (hmax : size ≤ settings.maxSize.toNat) (hmin : settings.minSize.toNat < size)
    (hstep : settings.growStep.toNat < size) (hfits : size + settings.growStep.toNat < 2 ^ 32) :
    settings.minSize.toNat + settings.growStep.toNat ≤ size := by
  cases h with
  | small hsmall => omega
  | gradual hone => omega
  | rigid hrigid =>
    have hrigid := UInt32.le_iff_toNat_le.mp hrigid
    omega
  | coarse hcoarse =>
    have hcoarse := UInt32.le_iff_toNat_le.mp hcoarse
    omega
  | overwhelming hover => omega
  | asleep hasleep => exact absurd (hasleep.symm.trans hmeasurable) (by decide)

/-- Otherwise some step leads below it. -/
theorem of_not_calm (h : ¬ settings.Calm) :
    settings.isMeasurable = true ∧ 1 < settings.minSize.toNat ∧
      1 < settings.growStep.toNat ∧ settings.minSize.toNat < settings.maxSize.toNat ∧
      settings.growStep.toNat < settings.maxSize.toNat ∧
      max settings.minSize.toNat settings.growStep.toNat + 1 + settings.growStep.toNat
        < 2 ^ 32 := by
  refine ⟨eq_true_of_ne_false fun hasleep => h (.asleep hasleep), ?_, ?_, ?_, ?_,
    Nat.lt_of_not_le fun hover => h (.overwhelming hover)⟩
  · exact Nat.lt_of_not_le fun hmin => h (.small hmin)
  · exact Nat.lt_of_not_le fun hstep => h (.gradual hstep)
  · exact Nat.lt_of_not_le fun hmax => h (.rigid (UInt32.le_iff_toNat_le.mpr hmax))
  · exact Nat.lt_of_not_le fun hmax => h (.coarse (UInt32.le_iff_toNat_le.mpr hmax))

end PoolTerms

namespace Pool

variable {σ : Type} {s : Supply σ} {settings : PoolTerms} {p : Pool} {x : σ}

theorem settings_tick (p : Pool) (x : σ) : (p.tick s x).1.settings = p.settings := by
  obtain ⟨hlabel, -⟩ := (workStable_label s p.label p.closed).tick (p := p) (x := x) ⟨rfl, rfl⟩
  exact congrArg (·.2.2) hlabel

/-- The size of a pool of these settings is within their bounds. -/
structure Bounded (settings : PoolTerms) (p : Pool) : Prop where
  /-- It is not too small. -/
  minSize_le : settings.minSize.toNat ≤ p.size.toNat
  /-- It is not too large. -/
  le_maxSize : p.size.toNat ≤ settings.maxSize.toNat
  /-- The pool has the settings. -/
  settings : p.settings = settings

namespace Bounded

/-- **A look keeps the size within the bounds of calm settings.** -/
theorem tick (h : p.Bounded settings) (hcalm : settings.Calm)
    (hmeasurable : settings.isMeasurable = true) (x : σ) :
    (p.tick s x).1.Bounded settings := by
  obtain ⟨hmin, hmax, rfl⟩ := h
  have hsize : p.settings.minSize.toNat ≤ (p.tick s x).1.size.toNat ∧
      (p.tick s x).1.size.toNat ≤ p.settings.maxSize.toNat := by
    obtain ⟨-, heq⟩ | ⟨hgrow, heq⟩ | ⟨hgrow, hshrink, heq⟩ | ⟨-, -, heq⟩ := tick_cases s p x
    · rw [heq]
      exact ⟨hmin, hmax⟩
    · -- a pool that has its smallest size grows only where there is room for a step
      obtain hsmall | ⟨hroom, -⟩ := p.shouldGrow_iff.mp hgrow
      · exact absurd hsmall (Nat.not_lt.mpr hmin)
      have hgrown := size_grow (s := s) (p := { p with ticked := p.ticked + 1 })
        (n := p.settings.growStep) (hroom.trans_lt p.settings.maxSize.toNat_lt) x
      rw [heq]
      exact ⟨hmin.trans hgrown.1, hgrown.2.trans hroom⟩
    · have hfits : p.size.toNat + p.settings.growStep.toNat < 2 ^ 32 := by
        by_contra hover
        rw [shouldGrow_eq_none_iff.mpr ⟨UInt32.le_iff_toNat_le.mpr hmin, Nat.not_lt.mp hover⟩]
          at hgrow
        cases hgrow
      obtain ⟨habove, hstep, -⟩ := p.shouldShrink_iff.mp hshrink
      have hshrunk := size_shrink (s := s) (p := { p with ticked := p.ticked + 1 })
        p.settings.growStep.toNat x hstep.le
      have hroom := hcalm.room hmeasurable hmax habove hstep hfits
      rw [heq]
      exact ⟨Nat.le_of_add_le_add_right (hroom.trans hshrunk.1), hshrunk.2.trans hmax⟩
    · rw [heq]
      exact ⟨hmin, hmax⟩
  exact ⟨hsize.1, hsize.2, settings_tick p x⟩

/-- Where nobody has asked or waited, a look makes the pool no larger. -/
theorem size_tick_le (h : p.Bounded settings) (hcleared : p.Cleared) (hidle : p.control = .idle)
    (x : σ) : (p.tick s x).1.size.toNat ≤ p.size.toNat := by
  obtain ⟨hcount, hdelay⟩ := hcleared hidle
  have hno := shouldGrow_ne_true (h.settings.symm ▸ h.minSize_le) hcount hdelay
  -- a pool that rests is asked for no growth, so it may only become smaller
  obtain ⟨-, heq⟩ | ⟨hgrow, -⟩ | ⟨-, hshrink, heq⟩ | ⟨-, -, heq⟩ := tick_cases s p x
  · rw [heq]
    exact le_rfl
  · exact absurd hgrow hno
  · obtain ⟨-, hstep, -⟩ := p.shouldShrink_iff.mp hshrink
    rw [heq]
    exact (size_shrink (p := { p with ticked := p.ticked + 1 }) _ x hstep.le).2
  · rw [heq]
    exact le_rfl

/-- From some number of looks on, the size stays the same. -/
theorem exists_settled (h : p.Bounded settings) (hcleared : p.Cleared) (hcalm : settings.Calm)
    (hmeasurable : settings.isMeasurable = true) (x : σ) :
    ∃ n, ∀ m, n ≤ m → (tickAll s n p x).1.size.toNat = (tickAll s m p x).1.size.toNat := by
  refine WellFoundedLT.antitone_chain_condition (antitone_nat_of_succ_le fun n => ?_)
  -- what holds of the pool holds of it after any number of looks
  obtain ⟨hbounded, hafter⟩ := tickAll_induction (s := s)
    (P := fun p _ => p.Bounded settings ∧ p.Cleared)
    (fun {p x} _ hp => ⟨hp.1.tick hcalm hmeasurable x, cleared_tick p x⟩) n (x := x)
    ⟨h, hcleared⟩
  rw [tickAll_add n 1]
  by_cases hidle : (tickAll s n p x).1.control = .idle
  · rw [tickAll_of_idle hidle]
    exact hbounded.size_tick_le hafter hidle _
  · rw [tickAll_of_busy hidle]

end Bounded

end Pool

namespace Scene

variable {σ : Type} {s : NumberedSupply σ} {sc : Scene σ}
variable {contract : ContractId} {program : Module} {settings : PoolTerms}

/-! ### Settling within the bounds -/

/-- Nobody has an instance of an open pool, nothing is to be told, and the size is within the
bounds. -/
structure Resting (sc : Scene σ) : Prop where
  /-- The pool is open. -/
  opened : sc.pool.closed = false
  /-- The control task has been told everything. -/
  signals : sc.pool.signals = []
  /-- Nobody has an instance. -/
  out : sc.checkedOut = []
  /-- The pool is not too small. -/
  minSize_le : sc.pool.settings.minSize ≤ sc.pool.size
  /-- It is not too large. -/
  le_maxSize : sc.pool.size ≤ sc.pool.settings.maxSize

/-- The size of the pool after a number of regular looks, where nothing else happens. -/
def sizeAfter (s : NumberedSupply σ) (sc : Scene σ) (looks : Nat) : UInt32 :=
  (Pool.tickAll s.counted looks sc.pool sc.world).1.size

/-- Regular looks settle: they never lead below the smallest size, and from some look on the size
stays the same. -/
structure Settles (s : NumberedSupply σ) (sc : Scene σ) : Prop where
  /-- No look leads below the smallest size. -/
  minSize_le : ∀ n, sc.pool.settings.minSize ≤ sc.sizeAfter s n
  /-- Some look is the last one that changes the size. -/
  last : ∃ n, ∀ m, n ≤ m → sc.sizeAfter s n = sc.sizeAfter s m

/-- Where the control task is not free, looks change nothing. -/
theorem Resting.settles_of_busy (h : sc.Resting) (hbusy : sc.pool.control ≠ .idle) :
    sc.Settles s := by
  have hsame : ∀ n, sc.sizeAfter s n = sc.pool.size := fun n =>
    congrArg (·.1.size) (Pool.tickAll_of_busy hbusy n sc.world)
  exact ⟨fun n => hsame n ▸ h.minSize_le, 0, fun m _ => (hsame 0).trans (hsame m).symm⟩

/-- **A pool of calm settings settles.** -/
theorem Reachable.settles (h : Reachable s contract program settings sc) (hresting : sc.Resting)
    (hcalm : settings.Calm) : sc.Settles s := by
  by_cases hidle : sc.pool.control = .idle
  · have hmeasurable := h.measurable_of_awake (by rw [hidle]; exact nofun)
    have hsettings := h.settings_eq
    have hbounded : sc.pool.Bounded settings :=
      ⟨UInt32.le_iff_toNat_le.mp (hsettings ▸ hresting.minSize_le),
        UInt32.le_iff_toNat_le.mp (hsettings ▸ hresting.le_maxSize), hsettings⟩
    refine ⟨fun n => ?_, ?_⟩
    · have hafter := Pool.tickAll_induction (s := s.counted)
        (P := fun p _ => p.Bounded settings)
        (fun {p x} _ hp => hp.tick hcalm hmeasurable x) n (x := sc.world) hbounded
      rw [hsettings]
      exact UInt32.le_iff_toNat_le.mpr hafter.minSize_le
    · -- from the first look on, nobody has asked or waited
      obtain ⟨n, hn⟩ := (hbounded.tick hcalm hmeasurable sc.world).exists_settled
        (s := s.counted) (Pool.cleared_tick _ _) hcalm hmeasurable
        (sc.pool.tick s.counted sc.world).2
      refine ⟨n + 1, fun m hm => ?_⟩
      obtain ⟨m, rfl⟩ := Nat.exists_eq_add_of_le' (Nat.le_of_add_left_le hm)
      unfold sizeAfter
      rw [Pool.tickAll_of_idle hidle, Pool.tickAll_of_idle hidle]
      exact UInt32.toNat_inj.mp (hn m (Nat.le_of_add_le_add_right hm))
  · exact hresting.settles_of_busy hidle

end Scene

/-! ### Steps to and fro -/

namespace Pool

variable {σ : Type} {s : Supply σ} {settings : PoolTerms} {p : Pool} {k : Nat}

/-- Shrinking takes the instances that are ready for longest. -/
theorem shrink_of_ready {rest : List Instance} {permits : Nat} :
    ∀ (l : List Instance) {p : Pool} (x : σ), p.closed = false → p.ready = l ++ rest →
    p.permits = l.length + permits →
    (shrink s l.length p x).1 = { p.resetCounters with
      ready := rest, permits, size := p.size - UInt32.ofNat l.length, control := .idle } := by
  intro l
  -- one ready instance after the other goes, and none has to be waited for
  induction l with
  | nil =>
    intro p x _ hready hpermits
    have hsize : p.size - UInt32.ofNat 0 = p.size := UInt32.sub_zero _
    have hsame : p.permits = permits := hpermits.trans (Nat.zero_add _)
    rw [List.length_nil, hsize, ← List.nil_append rest, ← hready, ← hsame]
    rfl
  | cons i l ih =>
    intro p x hopen hready hpermits
    have hsize : p.size - 1 - UInt32.ofNat l.length = p.size - UInt32.ofNat (i :: l).length := by
      rw [List.length_cons, UInt32.ofNat_add]
      grind
    have hmore : p.permits = l.length + permits + 1 := by
      rw [hpermits, List.length_cons]
      exact Nat.add_right_comm _ _ _
    have hrest := ih (p := { p with
      permits := l.length + permits, ready := l ++ rest, size := p.size - 1 }) (s.teardown i x)
      hopen rfl rfl
    dsimp only at hrest
    rw [hsize] at hrest
    rw [List.length_cons, shrink_ready hopen hmore hready]
    exact hrest

/-- All `k` instances of an open pool are ready, nobody has asked, and the control task has nothing
to do. -/
structure AtRest (k : Nat) (p : Pool) : Prop extends p.Alone where
  /-- The control task is free. -/
  idle : p.control = .idle
  /-- The pool is open. -/
  opened : p.closed = false
  /-- Nobody has an answer to take. -/
  served : p.served = []
  /-- The control task has been told everything. -/
  signals : p.signals = []
  /-- The instances are ready. -/
  ready : p.ready.length = k
  /-- Nobody has a claim to them. -/
  permits : p.permits = k
  /-- They are what the size counts. -/
  size : p.size.toNat = k
  /-- Nobody has asked for growth. -/
  growCount : p.growCount = 0
  /-- Nobody has waited. -/
  totalDelay : p.totalDelay = 0

namespace AtRest

/-- A look at a pool that is larger than it must be, and than a step, leads a step down. -/
theorem down (h : p.AtRest k) (hmin : p.settings.minSize.toNat < k)
    (hstep : p.settings.growStep.toNat < k) (hlt : k + p.settings.growStep.toNat < 2 ^ 32)
    (x : σ) : (p.tick s x).1.AtRest (k - p.settings.growStep.toNat) := by
  have hfits : p.shouldGrow ≠ none := by
    rw [Ne, shouldGrow_eq_none_iff, h.size]
    exact fun hover => Nat.not_le.mpr hlt hover.2
  have hgrow : p.shouldGrow = some false :=
    shouldGrow_eq_false hfits (shouldGrow_ne_true (h.size ▸ hmin.le) h.growCount h.totalDelay)
  have hquick : p.averageDelay ≤ p.settings.delayToleranceMs.toNat := by
    rw [averageDelay_of_totalDelay h.totalDelay]
    exact Nat.zero_le _
  have hshrink : p.shouldShrink = true :=
    p.shouldShrink_iff.mpr ⟨h.size ▸ hmin, h.size ▸ hstep, hquick⟩
  -- it takes away a whole step at once, and everything it takes is ready
  have hready := List.take_append_drop p.settings.growStep.toNat p.ready
  have hlength : (p.ready.take p.settings.growStep.toNat).length = p.settings.growStep.toNat :=
    List.length_take_of_le (h.ready ▸ hstep.le)
  have hpermits : p.permits = (p.ready.take p.settings.growStep.toNat).length +
      (k - p.settings.growStep.toNat) := by
    rw [hlength, h.permits, Nat.add_sub_cancel' hstep.le]
  have hshrunk := shrink_of_ready (s := s) (p.ready.take p.settings.growStep.toNat)
    (p := { p with ticked := p.ticked + 1 }) x h.opened hready.symm hpermits
  rw [hlength, UInt32.ofNat_toNat] at hshrunk
  rw [tick_false hgrow, if_pos hshrink, hshrunk]
  refine ⟨⟨h.waiters, h.woken⟩, rfl, h.opened, h.served, h.signals, ?_, rfl, ?_, rfl, rfl⟩
  · rw [List.length_drop, h.ready]
  · rw [UInt32.toNat_sub_of_le _ _ (UInt32.le_iff_toNat_le.mpr (h.size ▸ hstep.le))]
    exact congrArg (· - _) h.size

/-- A look at a pool that is too small leads a step up. -/
theorem up (h : p.AtRest k) (hmake : ∀ m x, ∃ i y, s.create m x = (.ok i, y))
    (hmin : k < p.settings.minSize.toNat) (hlt : k + p.settings.growStep.toNat < 2 ^ 32) (x : σ) :
    (p.tick s x).1.AtRest (k + p.settings.growStep.toNat) := by
  have hgrow : p.shouldGrow = some true := p.shouldGrow_iff.mpr (.inl (h.size ▸ hmin))
  obtain ⟨l, y, hlength, hgrown⟩ := grow_alone (p := { p with ticked := p.ticked + 1 }) hmake
    ⟨h.waiters, h.woken⟩ p.settings.growStep x
  rw [tick_true hgrow, hgrown]
  refine ⟨⟨h.waiters, h.woken⟩, h.idle, h.opened, h.served, h.signals, ?_,
    congrArg₂ (· + ·) h.permits hlength, ?_, rfl, rfl⟩
  · exact List.length_append.trans (congrArg₂ (· + ·) h.ready hlength)
  · rw [← h.size] at hlt ⊢
    exact (UInt32.toNat_add _ _).trans (Nat.mod_eq_of_lt hlt)

/-- **A step that leads below the smallest size is taken for ever**, down and up again. -/
theorem alternates (h : p.AtRest k) (hmake : ∀ m x, ∃ i y, s.create m x = (.ok i, y))
    (hmin : p.settings.minSize.toNat < k) (hstep : p.settings.growStep.toNat < k)
    (hbelow : k - p.settings.growStep.toNat < p.settings.minSize.toNat)
    (hlt : k + p.settings.growStep.toNat < 2 ^ 32) (x : σ) (n : Nat) :
    (tickAll s (2 * n) p x).1.AtRest k ∧
      (tickAll s (2 * n + 1) p x).1.AtRest (k - p.settings.growStep.toNat) := by
  -- two looks of the task come back to the size from which they started
  induction n generalizing p x with
  | zero =>
    rw [Nat.mul_zero, tickAll_of_idle h.idle]
    exact ⟨h, h.down hmin hstep hlt x⟩
  | succ n ih =>
    have hdown := h.down hmin hstep hlt x (s := s)
    have hsettings := settings_tick (s := s) p x
    have hup := hdown.up (s := s) hmake (hsettings.symm ▸ hbelow) (by rw [hsettings]; omega)
      (p.tick s x).2
    have hagain := settings_tick (s := s) (p.tick s x).1 (p.tick s x).2
    have htwice : 2 * (n + 1) = 2 * n + 1 + 1 := rfl
    rw [htwice, tickAll_of_idle h.idle, tickAll_of_idle hdown.idle, tickAll_of_idle h.idle,
      tickAll_of_idle hdown.idle]
    rw [hsettings, Nat.sub_add_cancel hstep.le] at hup
    rw [hsettings] at hagain
    have hall := ih hup
    rw [hagain] at hall
    exact hall hmin hstep hbelow hlt _

end AtRest

/-- A reset that leaves enough instances makes no new ones. -/
theorem obey_reset_of_enough (h : p.settings.minSize ≤ p.renewed.size) (x : σ) (request : Nat) :
    p.obey s x (.reset request) =
      (p.renewed.resetCounters, s.teardownAll (p.ready.take p.unclaimed) x) := by
  have hnone : p.renewed.missing = 0 := if_neg (UInt32.not_lt.mpr h)
  rw [obey_reset, hnone, grow_zero]

end Pool

namespace Scene

variable {contract : ContractId} {program : Module} {settings : PoolTerms}

/-! ### A run to any size between the bounds -/

theorem Reachable.pooled {σ : Type} {s : NumberedSupply σ} {sc : Scene σ}
    (h : Reachable s contract program settings sc) :
    ∀ i ∈ sc.pool.ready, i.detached = false := by
  intro i hi
  obtain ⟨lost, hlost⟩ := h.invariant
  have hnot := List.countP_eq_zero.mp hlost.sound.pooled i (List.mem_append_left _ hi)
  exact eq_false_of_ne_true hnot

/-- The control task replaces all instances that were given up. -/
theorem Reachable.replaceAll : ∀ (out : List Instance) {p : Pool} {world : Census Nat},
    Reachable .unfailing contract program settings
      ⟨{ p with signals := replacements out }, [], world⟩ → p.control = .idle → p.Alone →
    (∀ i ∈ out, i.detached = false) → ∃ l world', l.length = out.length ∧
      Reachable .unfailing contract program settings
        ⟨{ p with signals := [], ready := p.ready ++ l, permits := p.permits + l.length }, [],
          world'⟩ := by
  intro out
  induction out with
  | nil =>
    intro p world h _ _ _
    exact ⟨[], world, rfl, by rwa [List.append_nil]⟩
  | cons i out ih =>
    intro p world h hidle halone hpooled
    obtain ⟨hi, hrest⟩ := List.forall_mem_cons.mp hpooled
    rw [replacements, if_neg (Bool.eq_false_iff.mp hi)] at h
    -- the first two signals are for this instance: its place goes, and a new one comes
    have hremoved := h.step (Step.obey hidle rfl)
    have hadded := hremoved.step (Step.obey hidle rfl)
    unfold act Pool.obey at hadded
    obtain ⟨j, y, hone, hgrown⟩ := Pool.grow_alone
      (p := { p with signals := replacements out, size := p.size - 1 }) create_unfailing
      ⟨halone.waiters, halone.woken⟩ 1 world
    have hsize : p.size - 1 + 1 = p.size := UInt32.sub_add_cancel _ _
    dsimp only at hadded hgrown
    rw [hgrown, hsize] at hadded
    obtain ⟨l, world', hlength, hall⟩ := ih
      (p := { p with ready := p.ready ++ j, permits := p.permits + j.length }) hadded hidle
      ⟨halone.waiters, halone.woken⟩ hrest
    dsimp only at hall
    rw [List.append_assoc, Nat.add_assoc, ← List.length_append] at hall
    refine ⟨j ++ l, world', ?_, hall⟩
    rw [List.length_append, hone, hlength, List.length_cons, UInt32.toNat_one, Nat.add_comm]

/-- When an instance is given up, and the control task looks at the pool after it has heard of the
removal, then the pool grows by a step. -/
theorem exists_widened (contract : ContractId) (program : Module)
    (hmeasurable : settings.isMeasurable = true)
    (hmin : settings.minSize ≠ 0) :
    ∃ ready nextTicket world, ready.length = settings.minSize.toNat + settings.growStep.toNat ∧
      Reachable .unfailing contract program settings
        ⟨{ contract, program, settings, ready, permits := ready.length
           size := settings.minSize + settings.growStep, nextTicket, ticked := 1 }, [], world⟩ := by
  obtain ⟨ready, world, hlength, h⟩ := exists_created_whole contract program settings
  rw [hmeasurable] at h
  obtain ⟨i, rest, rfl⟩ := List.exists_cons_of_length_pos
    (hlength ▸ PoolConfig.toNat_pos hmin)
  have hfirst : i :: rest = [i] ++ rest := rfl
  -- an instance is taken and given up, which leaves a removal and an addition to be obeyed
  obtain ⟨uses, nextTicket, htaken⟩ := h.takeAll [i] rfl rfl hfirst (Nat.add_comm rest.length 1)
  obtain ⟨world', hgone⟩ := htaken.giveUpAll _ rfl
  rw [Pool.signal_of_awake fun he => Control.noConfusion he] at hgone
  dsimp only at hgone
  rw [List.nil_append, List.nil_append, replacements,
    if_neg (Bool.eq_false_iff.mp (h.pooled i List.mem_cons_self))] at hgone
  let p : Pool :=
    { contract, program, settings, ready := rest, permits := rest.length
      size := settings.minSize - 1, uses, nextTicket }
  have hremoved := hgone.step (Step.obey rfl rfl)
  have hremoved : Reachable .unfailing contract program settings
      ⟨{ p with signals := [.add] }, [], world'⟩ := hremoved
  -- between the two the task looks at the pool, which is one below the least size, and adds a whole
  -- step
  have hless : (settings.minSize - 1).toNat = settings.minSize.toNat - 1 :=
    UInt32.toNat_sub_of_le _ _ (UInt32.le_iff_toNat_le.mpr (PoolConfig.toNat_pos hmin))
  have hgrow : ({ p with signals := [.add] } : Pool).shouldGrow = some true :=
    Pool.shouldGrow_iff _ |>.mpr (.inl (hless ▸ Nat.sub_one_lt (PoolConfig.toNat_pos hmin).ne'))
  obtain ⟨l, y, hstep, hgrown⟩ := Pool.grow_alone
    (p := { p with signals := [.add], ticked := 1 }) create_unfailing ⟨rfl, rfl⟩ settings.growStep
    world'
  have hlooked := hremoved.step (Step.tick rfl)
  unfold act at hlooked
  rw [Pool.tick_true hgrow, hgrown] at hlooked
  -- only then is the addition obeyed
  obtain ⟨j, z, hone, hadded⟩ := Pool.grow_alone
    (p := { p with
      ready := rest ++ l, permits := rest.length + l.length
      size := settings.minSize - 1 + settings.growStep, ticked := 1, uses := 0 })
    create_unfailing ⟨rfl, rfl⟩ 1 y
  have hwide := hlooked.step (Step.obey rfl rfl)
  have hsize : settings.minSize - 1 + settings.growStep + 1 =
      settings.minSize + settings.growStep := by grind
  unfold act Pool.obey at hwide
  dsimp only [Pool.resetCounters] at hwide hadded
  rw [hadded, hsize, ← List.length_append, ← List.length_append] at hwide
  refine ⟨rest ++ l ++ j, nextTicket, z, ?_, hwide⟩
  rw [List.length_append, List.length_append, hstep, hone, ← hlength, List.length_cons]
  exact Nat.add_right_comm _ _ _

/-- A pool can be at rest with any size from the smallest one to a step above it. -/
theorem exists_atRest (contract : ContractId) (program : Module)
    (hmeasurable : settings.isMeasurable = true)
    (hmin : settings.minSize ≠ 0)
    (hlt : settings.minSize.toNat + settings.growStep.toNat < 2 ^ 32) {k : Nat}
    (hk : settings.minSize.toNat ≤ k)
    (hle : k ≤ settings.minSize.toNat + settings.growStep.toNat) :
    ∃ p world, Reachable .unfailing contract program settings ⟨p, [], world⟩ ∧ p.AtRest k := by
  obtain ⟨ready, nextTicket, world, hlength, h⟩ :=
    exists_widened contract program hmeasurable hmin
  have hparts := (List.take_append_drop k ready).symm
  have htake : (ready.take k).length = k := List.length_take_of_le (hlength ▸ hle)
  have hpooled : ∀ i ∈ ready.take k, i.detached = false :=
    fun i hi => h.pooled i (List.mem_of_mem_take hi)
  have hpermits : ready.length = (ready.take k).length + (ready.drop k).length := by
    rw [← List.length_append, List.take_append_drop]
  obtain ⟨uses, ticket, htaken⟩ := h.takeAll (ready.take k) rfl rfl hparts hpermits
  -- users have `k` instances, and the reset ends the others
  let p : Pool :=
    { contract, program, settings, ready := ready.drop k, permits := (ready.drop k).length
      size := settings.minSize + settings.growStep, uses, nextTicket := ticket, ticked := 1
      nextRequest := 1 }
  have hasked : Reachable .unfailing contract program settings
      ⟨{ p with signals := [.reset 0] }, ready.take k, world⟩ := htaken.step (Step.requestReset _)
  have hreset := hasked.step (Step.obey rfl rfl)
  have hrenewed := Pool.renewed_of_free (p := p) rfl
  have hsize : p.renewed.size.toNat = k := by
    rw [hrenewed]
    have hrest : (UInt32.ofNat (ready.drop k).length).toNat = ready.length - k := by
      rw [List.length_drop]
      exact UInt32.toNat_ofNat_of_lt' (by rw [UInt32.size]; omega)
    have hsum : (settings.minSize + settings.growStep).toNat = ready.length := by
      rw [UInt32.toNat_add, Nat.mod_eq_of_lt hlt, hlength]
    have hfewer := UInt32.toNat_sub_of_le (settings.minSize + settings.growStep)
      (UInt32.ofNat (ready.drop k).length)
      (UInt32.le_iff_toNat_le.mpr (by rw [hrest, hsum]; exact Nat.sub_le _ _))
    rw [hrest, hsum, hlength, Nat.sub_sub_self hle] at hfewer
    exact hfewer
  have henough : p.settings.minSize ≤ p.renewed.size := UInt32.le_iff_toNat_le.mpr (hsize ▸ hk)
  unfold act at hreset
  dsimp only at hreset
  rw [Pool.obey_reset_of_enough henough, hrenewed] at hreset
  obtain ⟨world', hgone⟩ := hreset.giveUpAll _ rfl
  rw [Pool.signal_of_awake fun he => Control.noConfusion he] at hgone
  obtain ⟨l, y, hreplaced, hall⟩ := hgone.replaceAll _ rfl ⟨rfl, rfl⟩ hpooled
  have hcount : l.length = k := hreplaced.trans htake
  rw [hrenewed] at hsize
  exact ⟨_, _, hall, ⟨rfl, rfl⟩, rfl, rfl, rfl, rfl, hcount, (Nat.zero_add _).trans hcount, hsize,
    rfl, rfl⟩

/-- Nobody has an instance of a pool that is at rest. -/
theorem resting_of_atRest {σ : Type} {p : Pool} {world : Census σ} {k : Nat} (h : p.AtRest k)
    (hmin : p.settings.minSize.toNat ≤ k) (hmax : k ≤ p.settings.maxSize.toNat) :
    Resting ⟨p, [], world⟩ := by
  refine ⟨h.opened, h.signals, ?_, ?_, ?_⟩
  · unfold checkedOut Pool.taken
    dsimp only
    rw [h.served]
    rfl
  · exact UInt32.le_iff_toNat_le.mpr (h.size.symm ▸ hmin)
  · exact UInt32.le_iff_toNat_le.mpr (h.size.symm ▸ hmax)

/-- Under settings that are not calm a pool comes to rest at a size from which looks lead a step
down, below the smallest size, and up again, for ever; and every creation succeeds. -/
theorem exists_alternating (contract : ContractId) (program : Module)
    (hwild : ¬ settings.Calm) :
    ∃ sc : Scene Nat, Reachable .unfailing contract program settings sc ∧ sc.Resting ∧
      ∃ size : UInt32, size.toNat = max settings.minSize.toNat settings.growStep.toNat + 1 ∧
        size - settings.growStep < settings.minSize ∧
        ∀ n, sc.sizeAfter .unfailing (2 * n) = size ∧
          sc.sizeAfter .unfailing (2 * n + 1) = size - settings.growStep := by
  obtain ⟨hmeasurable, hmin, hstep, hminlt, hsteplt, hfits⟩ := PoolTerms.of_not_calm hwild
  have hsome : settings.minSize ≠ 0 := fun hzero => by
    rw [hzero, UInt32.toNat_zero] at hmin
    exact Nat.not_lt_zero _ hmin
  -- from this size one step down leads below the least size
  let k := max settings.minSize.toNat settings.growStep.toNat + 1
  have hk : settings.minSize.toNat < k := by omega
  have hk' : settings.growStep.toNat < k := by omega
  have hbelow : k - settings.growStep.toNat < settings.minSize.toNat := by omega
  obtain ⟨p, world, h, hrest⟩ := exists_atRest contract program hmeasurable hsome (by omega) hk.le
    (by omega)
  have hsettings : p.settings = settings := h.settings_eq
  have hlooks := fun n => hrest.alternates create_unfailing (hsettings.symm ▸ hk)
    (hsettings.symm ▸ hk') (hsettings.symm ▸ hbelow) (by rw [hsettings]; omega) world n
  have hdown : (p.size - settings.growStep).toNat = k - settings.growStep.toNat := by
    rw [UInt32.toNat_sub_of_le _ _ (UInt32.le_iff_toNat_le.mpr (hrest.size.symm ▸ hk'.le)),
      hrest.size]
  refine ⟨⟨p, [], world⟩, h, resting_of_atRest hrest (hsettings.symm ▸ hk.le)
    (by rw [hsettings]; omega), p.size, hrest.size, ?_, fun n => ⟨?_, ?_⟩⟩
  · exact UInt32.lt_iff_toNat_lt.mpr (hdown.trans_lt hbelow)
  · exact UInt32.toNat_inj.mp ((hlooks n).1.size.trans hrest.size.symm)
  · have hlow := (hlooks n).2.size
    rw [hsettings] at hlow
    exact UInt32.toNat_inj.mp (hlow.trans hdown.symm)

/-- **Regular looks settle within the bounds from every resting state, exactly if the settings are
calm.**  Otherwise a pool comes to rest, with every creation a success, at a size from which looks
lead below the smallest size and back for ever. -/
theorem settles_iff (contract : ContractId) (program : Module) {settings : PoolTerms} :
    ((∀ (σ : Type) (s : NumberedSupply σ) (sc : Scene σ),
        Reachable s contract program settings sc → sc.Resting → sc.Settles s) ↔ settings.Calm) ∧
      (¬ settings.Calm → ∃ sc : Scene Nat,
        Reachable .unfailing contract program settings sc ∧ sc.Resting ∧
        ∃ size : UInt32, size.toNat = max settings.minSize.toNat settings.growStep.toNat + 1 ∧
          size - settings.growStep < settings.minSize ∧
          ∀ n, sc.sizeAfter .unfailing (2 * n) = size ∧
            sc.sizeAfter .unfailing (2 * n + 1) = size - settings.growStep) := by
  have hnever (hwild : ¬ settings.Calm) := exists_alternating contract program hwild
  refine ⟨⟨fun h => ?_, fun hcalm σ s sc hsc hresting => hsc.settles hresting hcalm⟩, hnever⟩
  by_contra hwild
  obtain ⟨sc, hsc, hresting, size, -, hlow, hlooks⟩ := hnever hwild
  have habove := (h Nat .unfailing sc hsc hresting).minSize_le 1
  rw [hsc.settings_eq, (hlooks 0).2] at habove
  exact absurd hlow (UInt32.not_lt.mpr habove)

/-- Pools of the default settings do not settle. -/
theorem not_settles_default :
    ({} : PoolConfig).validate = .ok () ∧
      ¬ ∀ (σ : Type) (s : NumberedSupply σ) (sc : Scene σ),
        Reachable s ⟨"counter", "1.0.0"⟩ default {} sc → sc.Resting → sc.Settles s := by
  refine ⟨(PoolConfig.validate_eq_ok_iff _).mpr (by decide +kernel), fun h => ?_⟩
  have hcalm := (settles_iff ⟨"counter", "1.0.0"⟩ default).1.mp h
  exact absurd hcalm (by decide +kernel)

/-- A pool of two to four instances, which are made and ended two at a time, comes to rest with
three of them.  Every look at it then leads to one instance, or to three again. -/
theorem three_and_one_in_turn :
    ({ minSize := 2, maxSize := 4, growStep := 2, applyThreshold := 0 } : PoolConfig).validate =
        .ok () ∧
      ∃ sc : Scene Nat,
        Reachable .unfailing ⟨"counter", "1.0.0"⟩ default
          { minSize := 2, maxSize := 4, growStep := 2, applyThreshold := 0 } sc ∧
        sc.Resting ∧
        ∀ n, sc.sizeAfter .unfailing (2 * n) = 3 ∧ sc.sizeAfter .unfailing (2 * n + 1) = 1 := by
  refine ⟨(PoolConfig.validate_eq_ok_iff _).mpr (by decide +kernel), ?_⟩
  let settings : PoolTerms := { minSize := 2, maxSize := 4, growStep := 2, applyThreshold := 0 }
  have hwild : ¬ settings.Calm := by decide +kernel
  obtain ⟨sc, hsc, hresting, size, hsize, -, hlooks⟩ :=
    exists_alternating ⟨"counter", "1.0.0"⟩ default hwild
  have hthree : size = 3 := UInt32.toNat_inj.mp (hsize.trans (by decide +kernel))
  have hone : (3 : UInt32) - settings.growStep = 1 := by decide +kernel
  rw [hthree, hone] at hlooks
  exact ⟨sc, hsc, hresting, hlooks⟩

end Scene

end ContractHost
