import ContractHost.Proofs.Pool.Settling
import ContractHost.Proofs.Pool.Sources

/-!
# What a pool hands out

An instance becomes ready only if it belongs to the pool, serves no invocation, has not failed too
often and is of the present generation.  A reset begins a new generation and ends what is ready,
except for as many instances as there are callers with a claim that have not gone on yet.

These instances are owed to callers that asked before the reset.  But they stand in the queue like
all others, and a claim is to no instance in particular: if such a caller does not go on, or another
instance becomes ready first, then a caller that asks after the reset gets one of them.  A reset
that finds nobody with a claim renews the pool: whoever asks afterwards gets an instance that is
younger. So does no reset at all where the control task has ended, though it is answered.

The number of the generation has 64 bits.  An older instance is known by it in runs with fewer than
2 ^ 64 resets; one that a user keeps for so many is taken for a new one.

## Main definitions

* `Pool.WellStocked` — what a pool holds is fit to be handed out.
* `Scene.OwedSince` — an instance was owed to a caller when the last reset was carried out.
* `Scene.BarsFailed` — an instance that has failed too often and is given back is gone for good.
* `Scene.Renews` — who asks after a reset gets no instance that was made before it.
* `Scene.RenewsUnclaimed` — that is so if nobody has a claim when it is carried out.

## Main results

* `Scene.Reachable.wellStocked`, `ready_epoch`, `barsFailed`, `renewsUnclaimed` — what holds in
  every run.
* `Scene.Reachable.exists_not_renews`, `Scene.exists_not_renews_of_asleep` — how an old instance is
  handed out after a reset.
* `Scene.admission` — all of this, and **resets renew in every run only of a pool that never has an
  instance.**
-/

namespace ContractHost

variable {σ : Type} {s : NumberedSupply σ}

namespace Pool

/-- What a pool holds is fit to be handed out. -/
def WellStocked (p : Pool) : Prop :=
  ∀ i ∈ p.held, p.Fit i

/-- A pool stays well stocked if it admits what enters it. -/
theorem WellStocked.of_sources {E : Instance → Prop} {p q : Pool} (h : p.WellStocked)
    (hsources : Sources E p q) (hE : ∀ i, E i → q.Admits i) (hlabel : q.label = p.label) :
    q.WellStocked := by
  intro i hi
  rcases hsources.held hi with hi | hi
  · exact (h i hi).congr hlabel
  · exact (hE i hi).toFit

theorem WellStocked.create (hfresh : s.Fresh) {contract : ContractId} {program : Module}
    {settings : PoolTerms} {x y : Census σ} {p : Pool}
    (hcreate : Pool.create s.counted contract program settings x = (.ok p, y)) : p.WellStocked := by
  obtain ⟨z, hsources, hlabel, hterms⟩ := sources_create hfresh hcreate
  have hempty : WellStocked { contract, program, settings } :=
    fun _ hi => absurd hi List.not_mem_nil
  exact hempty.of_sources hsources
    (fun i hi => hi.admitted.congr hlabel (congrArg (·.1) hterms)) hlabel

/-- Where nobody has a claim, a reset spares no instance. -/
theorem Matched.not_mem_drop {p : Pool} (h : p.Matched) (hwoken : p.woken = []) (i : Instance) :
    i ∉ p.ready.drop p.unclaimed := by
  have hall : p.ready.length ≤ p.unclaimed := by
    unfold Pool.unclaimed
    split
    · exact le_rfl
    · rename_i hopen
      have hlength := h.ready (eq_false_of_ne_true hopen)
      rw [hwoken, List.length_nil] at hlength
      omega
  rw [List.drop_eq_nil_of_le hall]
  exact List.not_mem_nil

end Pool

namespace Scene

variable {sc sc' : Scene σ} {contract : ContractId} {program : Module} {settings : PoolTerms}

/-- **A single action keeps a pool well stocked.** -/
theorem Step.wellStocked (hfresh : s.Fresh) (h : Step s sc sc') (hsc : sc.pool.WellStocked) :
    sc'.pool.WellStocked :=
  hsc.of_sources (h.sources hfresh) (fun _ hi => hi.admitted) h.label_closed.1

/-- **Every pool is well stocked in every run.** -/
theorem Reachable.wellStocked (hfresh : s.Fresh) (h : Reachable s contract program settings sc) :
    sc.pool.WellStocked := by
  induction h with
  | create hcreate => exact .create hfresh hcreate
  | step _ hstep ih => exact hstep.wellStocked hfresh ih

/-! ### Instances that are owed -/

/-- What the control task makes of the pool when it carries out a reset. -/
def carryOut (s : NumberedSupply σ) (sc : Scene σ) (request : Nat) (rest : List Signal) : Scene σ :=
  sc.act ({ sc.pool with signals := rest }.obey s.counted sc.world (.reset request))

/-- When the last reset was carried out, callers had claims that had not gone on, and the instance
was one of as many that were spared for them. -/
structure OwedSince (s : NumberedSupply σ) (before sc : Scene σ) (i : Instance) : Prop where
  /-- The reset was carried out, and the rest of the run followed. -/
  reset : ∃ request rest, before.pool.signals = .reset request :: rest ∧
    Relation.ReflTransGen (Step s) (before.carryOut s request rest) sc
  /-- It was the last one. -/
  epoch : sc.pool.epoch = before.pool.epoch + 1
  /-- Callers had claims. -/
  woken : before.pool.woken ≠ []
  /-- The instance was spared. -/
  ready : i ∈ before.pool.ready.drop before.pool.unclaimed

/-- **What is ready is of the present generation, unless it is owed.** -/
theorem Reachable.ready_epoch (hfresh : s.Fresh) (h : Reachable s contract program settings sc) :
    ∀ i ∈ sc.pool.ready, i.epoch = sc.pool.epoch ∨ ∃ before,
      Reachable s contract program settings before ∧ OwedSince s before sc i := by
  induction h with
  | create hcreate =>
    intro i hi
    obtain ⟨z, hsources, hlabel, hterms⟩ := Pool.sources_create hfresh hcreate
    have hborn := (hsources.ready i hi).resolve_left List.not_mem_nil
    exact .inl (hborn.admitted.epoch.trans (congrArg (·.1) hterms).symm)
  | step hreach hstep ih =>
    rename_i sc sc'
    -- an action that begins no new generation leaves what was ready, or admits what enters
    have hkept (hepoch : sc'.pool.epoch = sc.pool.epoch) : ∀ i ∈ sc'.pool.ready,
        i.epoch = sc'.pool.epoch ∨ ∃ before,
          Reachable s contract program settings before ∧ OwedSince s before sc' i := by
      intro i hi
      rcases (hstep.sources hfresh).ready i hi with hi | henters
      · rcases ih i hi with hnow | ⟨before, hbefore, howed⟩
        · exact .inl (hnow.trans hepoch.symm)
        · obtain ⟨request, rest, hsignals, hrun⟩ := howed.reset
          exact .inr ⟨before, hbefore, ⟨request, rest, hsignals, hrun.tail hstep⟩,
            hepoch.trans howed.epoch, howed.woken, howed.ready⟩
      · exact .inl henters.admitted.epoch
    cases hstep.hearing with
    | told _ hepoch _ => exact hkept hepoch
    | obeyed _ _ _ hepoch _ => exact hkept hepoch
    | ended _ _ _ hepoch _ => exact hkept hepoch
    | reset hidle hsignals hrest hepoch hresets heq =>
      rename_i request rest
      intro i hi
      obtain ⟨hsources, -, hterms, -⟩ :=
        Pool.sources_reset hfresh { sc.pool with signals := rest } sc.world request
      rw [heq] at hi
      rcases hsources.ready i hi with hspared | hborn
      · refine .inr ⟨sc, hreach, ⟨request, rest, hsignals, ?_⟩, hepoch, fun hnobody => ?_, hspared⟩
        · rw [heq]
          exact .refl
        · exact absurd hspared (hreach.matched.not_mem_drop hnobody i)
      · refine .inl (hborn.admitted.epoch.trans ?_)
        rw [heq]
        exact (congrArg (·.1) hterms).symm

/-! ### Instances that have failed too often -/

/-- An instance that has failed too often, and is given back, is gone for good. -/
def BarsFailed (s : NumberedSupply σ) (sc : Scene σ) : Prop :=
  ∀ {l r : List Instance} {i i' : Instance}, sc.out = l ++ i :: r → i.After i' →
    sc.pool.settings.discardThreshold < i'.errors →
    ∀ {later : Scene σ}, Relation.ReflTransGen (Step s)
      ({ sc with out := l ++ r }.act (sc.pool.release s.counted i' sc.world)) later →
      ∀ j ∈ later.pool.held ++ later.out, j.id ≠ i.id

/-- No instance has a copy, and no number is in use before it was given out. -/
theorem Reachable.copies_le (h : Reachable s contract program settings sc) (n : Nat) :
    sc.copies s n ≤ 1 := by
  induction h with
  | create hcreate =>
    obtain ⟨trial, z, -, rfl, rfl⟩ := Pool.create_eq_ok hcreate
    have hwork := Pool.workStable_copies s n 1
    refine hwork.grow (p := { contract, program, settings }) settings.minSize ?_
    unfold NumberedSupply.unborn
    split
    · exact le_rfl
    · exact Nat.zero_le 1
  | step _ hstep ih => exact (hstep.copies_le n).trans ih

theorem Reachable.id_lt_next (h : Reachable s contract program settings sc) {i : Instance}
    (hi : i ∈ sc.pool.held ++ sc.out) : i.id < s.next sc.world.host := by
  by_contra hnew
  have hcopies := h.copies_le i.id
  have hpos : 0 < (sc.pool.held ++ sc.out).countP (·.id == i.id) :=
    List.countP_pos_iff.mpr ⟨i, hi, beq_self_eq_true _⟩
  have hunborn : s.unborn i.id sc.world.host = 1 := if_pos (Nat.not_lt.mp hnew)
  rw [List.countP_append] at hpos
  unfold copies Pool.tally at hcopies
  omega

/-- An instance without a copy left does not come back. -/
theorem not_mem_of_copies {n : Nat} (h : sc.copies s n = 0)
    (hrun : Relation.ReflTransGen (Step s) sc sc') :
    ∀ j ∈ sc'.pool.held ++ sc'.out, j.id ≠ n := by
  have hnone : sc'.copies s n = 0 := by
    induction hrun with
    | refl => exact h
    | tail _ hstep ih => exact Nat.le_zero.mp (ih ▸ hstep.copies_le n)
  intro j hj hid
  have hpos : 0 < (sc'.pool.held ++ sc'.out).countP (·.id == n) :=
    List.countP_pos_iff.mpr ⟨j, hj, beq_iff_eq.mpr hid⟩
  rw [List.countP_append] at hpos
  unfold copies Pool.tally at hnone
  omega

/-- **An instance that has failed too often is never handed out again.** -/
theorem Reachable.barsFailed (h : Reachable s contract program settings sc) : sc.BarsFailed s := by
  intro l r i i' hout hafter hfailed later hrun
  refine not_mem_of_copies (n := i.id) ?_ hrun
  -- the one copy there is goes back, and the pool does not take it
  have hone := h.copies_le i.id
  have hless := Invariant.countP_out hout (·.id == i.id)
  have htally := Pool.tally_release_failed (·.id == i.id) s.counted sc.world hfailed
  have hlater := s.unborn_le (Pool.next_release s sc.pool i' sc.world) i.id
  rw [beq_self_eq_true, if_pos rfl] at hless
  unfold copies act at *
  dsimp only at *
  omega

/-! ### The order of callers, resets and instances -/

/-- Callers, resets and instances follow one another. -/
structure Timely (sc : Scene σ) : Prop where
  /-- Who expects an answer has asked. -/
  expecting : ∀ {t}, sc.pool.Expecting t → t < sc.pool.nextTicket
  /-- So has who got an instance as an answer. -/
  served : ∀ a ∈ sc.pool.served, ∀ i, a.2 = .ok i → a.1 < sc.pool.nextTicket
  /-- Resets are carried out that were asked for. -/
  resets : sc.pool.epoch.toNat + sc.pool.signals.countP Signal.isReset ≤ sc.pool.nextRequest
  /-- No instance is of a generation to come, as long as generations can be told apart. -/
  epochs : sc.pool.nextRequest < 2 ^ 64 → ∀ i ∈ sc.pool.held ++ sc.out, i.detached = false →
    i.epoch.toNat ≤ sc.pool.epoch.toNat

/-- What the pool or its users have they had before, or it has entered the pool, or is outside. -/
theorem Step.origin (hfresh : s.Fresh) (h : Step s sc sc') {i : Instance}
    (hi : i ∈ sc'.pool.held ++ sc'.out) :
    i ∈ sc.pool.held ++ sc.out ∨ Enters s sc sc' i ∨ i.detached = true := by
  rcases List.mem_append.mp hi with hi | hi
  · rcases (h.sources hfresh).held hi with hi | hi
    · exact .inl (List.mem_append_left _ hi)
    · exact .inr (.inl hi)
  · rcases h.out hi with hi | hserved | hdetached
    · exact .inl (List.mem_append_right _ hi)
    · exact .inl (List.mem_append_left _ (Pool.mem_held.mpr (.inr hserved)))
    · exact .inr (.inr hdetached)

/-- Resets are numbered in their order. -/
theorem Hearing.nextRequest_le (h : Hearing s sc sc') :
    sc.pool.nextRequest ≤ sc'.pool.nextRequest := by
  cases h with
  | told _ _ hresets => exact Nat.le_of_add_right_le hresets
  | obeyed _ _ _ _ hresets | reset _ _ _ _ hresets | ended _ _ _ _ hresets => exact hresets.ge

/-- No more resets are carried out, or waited for, than were asked for. -/
theorem Hearing.resets_le (h : Hearing s sc sc')
    (hsc : sc.pool.epoch.toNat + sc.pool.signals.countP Signal.isReset ≤ sc.pool.nextRequest) :
    sc'.pool.epoch.toNat + sc'.pool.signals.countP Signal.isReset ≤ sc'.pool.nextRequest := by
  cases h with
  | told hsignals hepoch hresets =>
    rw [hsignals, hepoch, List.countP_append]
    omega
  | obeyed hsignals hno hrest hepoch hresets =>
    rw [hsignals, List.countP_cons, hno] at hsc
    rw [hrest, hepoch, hresets]
    exact hsc
  -- one request is taken from the signals, and the generation is at most one further on
  | reset hidle hsignals hrest hepoch hresets heq =>
    have hone : (sc.pool.epoch + 1).toNat ≤ sc.pool.epoch.toNat + 1 :=
      (UInt64.toNat_add _ _).trans_le (Nat.mod_le _ _)
    rw [hsignals, List.countP_cons_of_pos rfl] at hsc
    rw [hrest, hepoch, hresets]
    omega
  | ended hcontrol hcause hnone hepoch hresets =>
    rw [hnone, hepoch, hresets]
    exact Nat.le_of_add_right_le hsc

/-- A reset that is carried out begins the next generation, as long as generations can be told
apart. -/
theorem toNat_epoch_succ {request : Nat} {rest : List Signal}
    (hsc : sc.pool.epoch.toNat + sc.pool.signals.countP Signal.isReset ≤ sc.pool.nextRequest)
    (hsignals : sc.pool.signals = .reset request :: rest) (hbound : sc.pool.nextRequest < 2 ^ 64) :
    (sc.pool.epoch + 1).toNat = sc.pool.epoch.toNat + 1 := by
  have hone : (1 : UInt64).toNat = 1 := rfl
  rw [hsignals, List.countP_cons_of_pos rfl] at hsc
  rw [UInt64.toNat_add, hone, Nat.mod_eq_of_lt (by omega)]

/-- Generations follow one another. -/
theorem Hearing.epoch_le (h : Hearing s sc sc')
    (hsc : sc.pool.epoch.toNat + sc.pool.signals.countP Signal.isReset ≤ sc.pool.nextRequest)
    (hbound : sc.pool.nextRequest < 2 ^ 64) : sc.pool.epoch.toNat ≤ sc'.pool.epoch.toNat := by
  cases h with
  | told _ hepoch _ | obeyed _ _ _ hepoch _ | ended _ _ _ hepoch _ => rw [hepoch]
  | reset _ hsignals _ hepoch _ _ =>
    rw [hepoch, toNat_epoch_succ hsc hsignals hbound]
    exact Nat.le_succ _

/-- Callers follow one another wherever instances come from. -/
theorem Timely.of_sources {E : Instance → Prop} (h : sc.Timely)
    (hsources : Pool.Sources E sc.pool sc'.pool)
    (hresets : sc'.pool.epoch.toNat + sc'.pool.signals.countP Signal.isReset ≤
      sc'.pool.nextRequest)
    (hepochs : sc'.pool.nextRequest < 2 ^ 64 → ∀ i ∈ sc'.pool.held ++ sc'.out,
      i.detached = false → i.epoch.toNat ≤ sc'.pool.epoch.toNat) : sc'.Timely := by
  have hasked : ∀ {t}, t < sc.pool.nextTicket → t < sc'.pool.nextTicket := fun ht =>
    ht.trans_le hsources.nextTicket
  refine ⟨fun {t} ht => ?_, fun a ha i hi => ?_, hresets, hepochs⟩
  · rcases hsources.expecting ht with ht | ⟨rfl, hlt⟩
    · exact hasked (h.expecting ht)
    · exact hlt
  · rcases hsources.served a ha i hi with ha | ⟨-, -, hwaited | ⟨hticket, hlt⟩⟩
    · exact hasked (h.served a ha i hi)
    · exact hasked (h.expecting hwaited)
    · exact hticket ▸ hlt

/-- **A single action keeps the order.** -/
theorem Step.timely (hfresh : s.Fresh) (h : Step s sc sc') (hsc : sc.Timely) : sc'.Timely := by
  refine hsc.of_sources (h.sources hfresh) (h.hearing.resets_le hsc.resets)
    fun hbound i hi hpooled => ?_
  have hbefore := h.hearing.nextRequest_le.trans_lt hbound
  rcases h.origin hfresh hi with hi | henters | hdetached
  · exact (hsc.epochs hbefore i hi hpooled).trans (h.hearing.epoch_le hsc.resets hbefore)
  · exact (congrArg UInt64.toNat henters.admitted.epoch).le
  · exact absurd (hpooled.symm.trans hdetached) Bool.false_ne_true

/-- **The order is kept in every run.** -/
theorem Reachable.timely (hfresh : s.Fresh) (h : Reachable s contract program settings sc) :
    sc.Timely := by
  induction h with
  | create hcreate =>
    rename_i host p world
    obtain ⟨z, hsources, hlabel, hterms⟩ := Pool.sources_create hfresh hcreate
    have hsignals := Pool.signals_create hcreate
    have hepoch := congrArg (·.1) hterms
    -- a pool is made out of an empty one, of which all of this is true
    have hempty : Timely ⟨{ contract, program, settings }, [], z⟩ :=
      { expecting := fun ⟨_, hmem⟩ => absurd hmem List.not_mem_nil
        served := fun _ ha => absurd ha List.not_mem_nil
        resets := le_rfl
        epochs := fun _ _ hi => absurd hi List.not_mem_nil }
    refine hempty.of_sources hsources ?_ fun _ i hi _ => ?_
    · rw [hsignals]
      exact (congrArg (·.1.toNat) hterms).le.trans (Nat.zero_le _)
    · rw [List.append_nil] at hi
      have hborn := (hsources.held hi).resolve_left List.not_mem_nil
      have hzero : i.epoch = p.epoch := hborn.admitted.epoch.trans hepoch.symm
      exact (congrArg UInt64.toNat hzero).le
  | step _ hstep ih => exact hstep.timely hfresh ih

/-! ### After a reset -/

/-- Who has asked since a reset, from ticket `t` on, has no instance with a number below `n`; and as
long as the pool is open, no such instance is of generation `e` or later, so that none becomes ready
again. -/
structure Renewed (s : NumberedSupply σ) (n : Nat) (t : Ticket) (e : Nat) (sc : Scene σ) :
    Prop where
  /-- The numbers were given out before. -/
  next : n ≤ s.next sc.world.host
  /-- Callers got none of these instances. -/
  served : ∀ a ∈ sc.pool.served, ∀ i, a.2 = .ok i → t ≤ a.1 → n ≤ i.id
  /-- None is ready. -/
  ready : sc.pool.closed = false → ∀ i ∈ sc.pool.ready, n ≤ i.id
  /-- The generation has come. -/
  epoch : sc.pool.closed = false → e ≤ sc.pool.epoch.toNat
  /-- None of these instances is of it. -/
  older : sc.pool.closed = false → ∀ i ∈ sc.pool.held ++ sc.out, i.detached = false → i.id < n →
    i.epoch.toNat < e

namespace Renewed

variable {n : Nat} {t : Ticket} {e : Nat}

/-- Nobody has asked since now. -/
theorem of_timely (h : sc.Timely) (hnext : n ≤ s.next sc.world.host)
    (hready : sc.pool.closed = false → ∀ i ∈ sc.pool.ready, n ≤ i.id)
    (hepoch : sc.pool.closed = false → e ≤ sc.pool.epoch.toNat)
    (holder : sc.pool.closed = false → ∀ i ∈ sc.pool.held ++ sc.out, i.detached = false →
      i.id < n → i.epoch.toNat < e) : sc.Renewed s n sc.pool.nextTicket e :=
  { next := hnext
    served := fun a ha i hi hle => absurd (h.served a ha i hi) (Nat.not_lt.mpr hle)
    ready := hready
    epoch := hepoch
    older := holder }

end Renewed

/-- What enters the pool after a reset is younger. -/
theorem Enters.le_id {n : Nat} {t : Ticket} {e : Nat} {i : Instance} (h : Enters s sc sc' i)
    (hsc : sc.Renewed s n t e) (hepoch : sc.pool.epoch.toNat ≤ sc'.pool.epoch.toNat) :
    n ≤ i.id := by
  rcases h.source with hnew | ⟨hopen, j, hj, hafter⟩
  · exact hsc.next.trans hnew
  · by_contra hlt
    -- an older instance that is given back is of an earlier generation, and is not admitted
    have hpooled : j.detached = false := hafter.detached.symm.trans h.admitted.pooled
    have holder := hsc.older hopen j (List.mem_append_right _ hj) hpooled
      (hafter.id ▸ Nat.not_le.mp hlt)
    have hsame : j.epoch = sc'.pool.epoch := hafter.epoch.symm.trans h.admitted.epoch
    have hcome := (hsc.epoch hopen).trans hepoch
    rw [hsame] at holder
    omega

/-- **A single action keeps a pool renewed.** -/
theorem Step.renewed (hfresh : s.Fresh) (h : Step s sc sc') (htimely : sc.Timely)
    (hbound : sc.pool.nextRequest < 2 ^ 64) {n : Nat} {t : Ticket} {e : Nat}
    (hsc : sc.Renewed s n t e) : sc'.Renewed s n t e := by
  have hsources := h.sources hfresh
  have hepoch := h.hearing.epoch_le htimely.resets hbound
  have hopen : sc'.pool.closed = false → sc.pool.closed = false := fun hopen =>
    Bool.eq_false_iff.mpr fun hclosed =>
      Bool.eq_false_iff.mp hopen (h.label_closed.2 hclosed)
  refine
    { next := hsc.next.trans h.next_le
      served := fun a ha i hi hle => ?_
      ready := fun hstill i hi => ?_
      epoch := fun hstill => (hsc.epoch (hopen hstill)).trans hepoch
      older := fun hstill i hi hpooled hlt => ?_ }
  · rcases hsources.served a ha i hi with ha | ⟨hstill, hready | henters, -⟩
    · exact hsc.served a ha i hi hle
    · exact hsc.ready hstill i hready
    · exact henters.le_id hsc hepoch
  · -- what is ready was ready before, or has come in, and then it is new or of this generation
    rcases hsources.ready i hi with hi | henters
    · exact hsc.ready (hopen hstill) i hi
    · exact henters.le_id hsc hepoch
  · -- an older one that is checked out was checked out before
    rcases h.origin hfresh hi with hi | henters | hdetached
    · exact hsc.older (hopen hstill) i hi hpooled hlt
    · exact absurd hlt (Nat.not_lt.mpr (henters.le_id hsc hepoch))
    · exact absurd (hpooled.symm.trans hdetached) Bool.false_ne_true

/-- **A reset renews the pool** if nobody has a claim when it is carried out. -/
theorem renewed_carryOut (hfresh : s.Fresh) (htimely : sc.Timely) (hmatched : sc.pool.Matched)
    {request : Nat} {rest : List Signal} (hstep : Step s sc (sc.carryOut s request rest))
    (hbound : sc.pool.nextRequest < 2 ^ 64) (hsignals : sc.pool.signals = .reset request :: rest)
    (hwoken : sc.pool.woken = []) :
    (sc.carryOut s request rest).Renewed s (s.next sc.world.host)
      (sc.carryOut s request rest).pool.nextTicket (sc.pool.epoch.toNat + 1) := by
  have hsucc := toNat_epoch_succ htimely.resets hsignals hbound
  obtain ⟨hsources, -, hterms, -⟩ :=
    Pool.sources_reset hfresh { sc.pool with signals := rest } sc.world request
  have hepoch : (sc.carryOut s request rest).pool.epoch = sc.pool.epoch + 1 :=
    congrArg (·.1) hterms
  refine .of_timely (hstep.timely hfresh htimely) hstep.next_le (fun _ i hi => ?_) (fun _ => ?_)
    fun _ i hi hpooled hlt => ?_
  · rcases hsources.ready i hi with hspared | hborn
    · exact absurd hspared (hmatched.not_mem_drop hwoken i)
    · exact hborn.new
  · rw [hepoch, hsucc]
  -- what was there before is of an earlier generation, and what is new has a new number
  · refine Nat.lt_succ_of_le ?_
    rcases hstep.origin hfresh hi with hi | henters | hdetached
    · exact htimely.epochs hbound i hi hpooled
    · rcases henters.source with hnew | ⟨-, j, hj, hafter⟩
      · exact absurd hlt (Nat.not_lt.mpr hnew)
      · have hj := htimely.epochs hbound j (List.mem_append_right _ hj)
          (hafter.detached.symm.trans hpooled)
        rwa [hafter.epoch]
    · exact absurd (hpooled.symm.trans hdetached) Bool.false_ne_true

theorem nextRequest_le_of_run (hrun : Relation.ReflTransGen (Step s) sc sc') :
    sc.pool.nextRequest ≤ sc'.pool.nextRequest := by
  induction hrun with
  | refl => exact le_rfl
  | tail _ hstep ih => exact ih.trans hstep.hearing.nextRequest_le

/-- **A pool stays renewed in every run**, as long as generations can be told apart. -/
theorem Renewed.of_run (hfresh : s.Fresh) (hreach : Reachable s contract program settings sc)
    {n : Nat} {t : Ticket} {e : Nat} (h : sc.Renewed s n t e)
    (hrun : Relation.ReflTransGen (Step s) sc sc') (hbound : sc'.pool.nextRequest < 2 ^ 64) :
    sc'.Renewed s n t e := by
  induction hrun with
  | refl => exact h
  | tail hbefore hstep ih =>
    have hless := hstep.hearing.nextRequest_le.trans_lt hbound
    exact hstep.renewed hfresh ((hreach.run hbefore).timely hfresh) hless (ih hless)

/-- Who asks after a reset gets no instance that was made before the reset was asked for, in runs
with fewer resets than the limit. -/
def Renews (s : NumberedSupply σ) (limit : Nat) (asked : Scene σ) : Prop :=
  ∀ {returned later : Scene σ},
    Relation.ReflTransGen (Step s) { asked with pool := asked.pool.requestReset.2 } returned →
    returned.pool.isPending asked.pool.requestReset.1 = false →
    Relation.ReflTransGen (Step s) returned later → later.pool.nextRequest < limit →
    ∀ {ticket : Ticket} {i : Instance}, returned.pool.nextTicket ≤ ticket →
      (ticket, .ok i) ∈ later.pool.served → s.next asked.world.host ≤ i.id

theorem Renews.mono {m n : Nat} (h : sc.Renews s n) (hle : m ≤ n) : sc.Renews s m :=
  fun hrun hreturned hafter hlater => h hrun hreturned hafter (hlater.trans_le hle)

/-- If the next signal asks for a reset, and nobody has a claim, then who asks after the reset gets
no instance that was made before it, in runs with fewer resets than the limit. -/
def RenewsUnclaimed (s : NumberedSupply σ) (limit : Nat) (sc : Scene σ) : Prop :=
  ∀ {request : Nat} {rest : List Signal}, sc.pool.control = .idle →
    sc.pool.signals = .reset request :: rest → sc.pool.woken = [] →
    ∀ {later : Scene σ}, Relation.ReflTransGen (Step s) (sc.carryOut s request rest) later →
      later.pool.nextRequest < limit → ∀ {ticket : Ticket} {i : Instance},
        sc.pool.nextTicket ≤ ticket → (ticket, .ok i) ∈ later.pool.served →
          s.next sc.world.host ≤ i.id

/-- **Resets renew that find nobody with a claim.** -/
theorem Reachable.renewsUnclaimed (hfresh : s.Fresh)
    (h : Reachable s contract program settings sc) : sc.RenewsUnclaimed s (2 ^ 64) := by
  intro request rest hidle hsignals hwoken later hrun hbound ticket i hticket hserved
  have hstep : Step s sc (sc.carryOut s request rest) := Step.obey hidle hsignals
  have hless := hstep.hearing.nextRequest_le.trans (nextRequest_le_of_run hrun)
  have hrenewed := renewed_carryOut hfresh (h.timely hfresh) h.matched hstep
    (hless.trans_lt hbound) hsignals hwoken
  have hterms := Pool.terms_reset s.counted { sc.pool with signals := rest } sc.world request
  have hsame : (sc.carryOut s request rest).pool.nextTicket = sc.pool.nextTicket :=
    congrArg (·.2.1) hterms
  have hstill := hrenewed.of_run hfresh (h.step hstep) hrun hbound
  exact hstill.served _ hserved i rfl (hsame.trans_le hticket)

/-- Of a pool that never has an instance nobody gets one. -/
theorem Reachable.renews_of_barren (hbarren : settings.Barren)
    (h : Reachable s contract program settings sc) (limit : Nat) : sc.Renews s limit := by
  intro returned later hrun _ hafter _ ticket i _ hserved
  have hlater := ((h.step (Step.requestReset sc)).run hrun).run hafter
  have hnone := (hlater.size_eq_zero hbarren).2
  have hheld : i ∈ later.pool.held := Pool.mem_held.mpr (.inr ⟨_, hserved, rfl⟩)
  rw [← Invariant.held_length] at hnone
  have hpos := List.length_pos_of_mem hheld
  omega

/-! ### Old instances after a reset -/

/-- A new instance of this supply serves no invocation, and has not failed. -/
theorem fresh_unfailing : NumberedSupply.unfailing.Fresh := by
  intro m n i n' h
  cases h
  exact ⟨rfl, rfl⟩

theorem fresh_rationed : NumberedSupply.rationed.Fresh := by
  intro m x i x' h
  unfold NumberedSupply.rationed at h
  dsimp only at h
  split at h
  · cases h
  · cases h
    exact ⟨rfl, rfl⟩

/-- **A claim that outlives the reset**: while users have all instances of a pool, a caller waits.
It is given the claim to an instance that a user gives back just before the reset is carried out,
and does not go on.  The claim is free then, and goes to the next caller, with the old instance. -/
theorem Reachable.exists_not_renews (hfresh : s.Fresh) {p : Pool} {i : Instance}
    {rest : List Instance} {world : Census σ}
    (h : Reachable s contract program settings ⟨p, i :: rest, world⟩) (hopen : p.closed = false)
    (hidle : p.control = .idle) (hsignals : p.signals = []) (halone : p.Alone)
    (hready : p.ready = []) (hepoch : p.epoch = 0) (hfirst : p.nextRequest = 0)
    (hsize : p.settings.minSize ≤ p.size) (hpooled : i.detached = false) :
    ∃ sc : Scene σ, Reachable s contract program settings sc ∧ ¬ sc.Renews s 2 := by
  refine ⟨_, h, fun hrenews => ?_⟩
  have hold := h.id_lt_next (List.mem_append_right _ List.mem_cons_self)
  have hsame : i.epoch = p.epoch := by
    have hage := (h.timely hfresh).epochs (hfirst.trans_lt (by decide)) i
      (List.mem_append_right _ List.mem_cons_self) hpooled
    rw [hepoch] at hage
    exact (UInt64.toNat_inj.mp (Nat.le_zero.mp hage)).trans hepoch.symm
  have hpermits : p.permits = 0 := by
    have hclaims := h.matched.ready hopen
    rw [hready] at hclaims
    exact Nat.eq_zero_of_add_eq_zero_right hclaims.symm
  obtain ⟨contract', program', settings', ready, permits, waiters, woken, served, size, uses,
    totalDelay, epoch, closed, signals, control, growCount, nextTicket, nextRequest, now, clock,
    ticked⟩ := p
  obtain ⟨hwaiters, hwoken⟩ := halone
  dsimp only at *
  subst hopen hidle hsignals hready hepoch hfirst hpermits hwaiters hwoken
  let p : Pool :=
    { contract := contract', program := program', settings := settings', served, size, uses,
      totalDelay, growCount, nextTicket, nextRequest := 0, now, clock, ticked }
  -- after the reset is asked for a caller waits, and a user gives an instance back
  let waiting : Pool := { p with
    signals := [.reset 0, .grow]
    waiters := [.caller nextTicket now]
    nextTicket := nextTicket + 1
    nextRequest := 1 }
  have hwaits : Step s ⟨p.requestReset.2, i :: rest, world⟩ ⟨waiting, i :: rest, world⟩ :=
    Step.acquire _
  let given : Pool := { waiting with
    ready := [{ i with errors := 0 }.unbind]
    waiters := []
    woken := [.caller nextTicket now] }
  have hgives : Step s ⟨waiting, i :: rest, world⟩ ⟨given, rest, world⟩ := by
    have hback := Pool.release_pooled s.counted (p := waiting) (i := { i with errors := 0 })
      hpooled rfl world
    rw [if_pos ⟨hsame, UInt32.not_lt.mp nofun⟩, Pool.push_cons rfl] at hback
    have hrelease : Step s ⟨waiting, i :: rest, world⟩
        (Scene.act ⟨waiting, rest, world⟩
          (waiting.release s.counted { i with errors := 0 } world)) :=
      Step.release (l := []) (i := i) rfl ⟨rfl, rfl, rfl⟩
    rw [hback] at hrelease
    exact hrelease
  -- the instance is spared for the caller
  let renewed : Pool := { given with
    signals := [.grow], size := size - 0, uses := 0, totalDelay := 0, epoch := 1, growCount := 0 }
  have hreset : Step s ⟨given, rest, world⟩ ⟨renewed, rest, world⟩ := by
    have hobey : Step s ⟨given, rest, world⟩ _ := Step.obey rfl rfl
    have henough : settings'.minSize ≤ size - 0 := hsize.trans_eq (UInt32.sub_zero size).symm
    rw [Pool.obey_reset_of_enough henough] at hobey
    exact hobey
  -- it does not go on, and the next caller gets the instance
  have hgone : Step s ⟨renewed, rest, world⟩
      ⟨{ renewed with permits := 1, woken := [] }, rest, world⟩ := by
    have hone : [Waiter.caller nextTicket now].any (Pool.isWaiting nextTicket) := by
      simp [Pool.isWaiting]
    have hnobody : [Waiter.caller nextTicket now].eraseP (Pool.isWaiting nextTicket) = [] := by
      simp [Pool.isWaiting]
    have hcancel := Step.cancel (s := s) ⟨renewed, rest, world⟩ nextTicket
    unfold Pool.cancel at hcancel
    dsimp only [renewed, given] at hcancel
    rw [if_pos hone, hnobody] at hcancel
    exact hcancel
  have hserved := Step.acquire (s := s)
    ⟨{ renewed with permits := 1, woken := [] }, rest, world⟩
  rw [Pool.acquire_ready rfl rfl rfl] at hserved
  have hnew := hrenews (.tail (.tail (.single hwaits) hgives) hreset) rfl
    (.tail (.single hgone) hserved) Nat.one_lt_two le_rfl
    (List.mem_append_right _ List.mem_cons_self)
  exact absurd hold (Nat.not_lt.mpr hnew)

/-- **Without a clock no instance is replaced**, though the reset is answered. -/
theorem exists_not_renews_of_asleep (contract : ContractId) (program : Module)
    {settings : PoolTerms} (hmin : settings.minSize ≠ 0)
    (hasleep : settings.isMeasurable = false) :
    ∃ sc : Scene Nat, Reachable .unfailing contract program settings sc ∧
      ¬ sc.Renews .unfailing 2 := by
  obtain ⟨ready, world, hlength, h⟩ := exists_created_whole contract program settings
  rw [hasleep] at h
  obtain ⟨i, rest, rfl⟩ := List.exists_cons_of_length_pos (hlength ▸ PoolConfig.toNat_pos hmin)
  let p : Pool :=
    { contract, program, settings, ready := i :: rest, permits := rest.length + 1
      size := settings.minSize, control := .ended }
  have hold := h.id_lt_next (i := i) (List.mem_append_left _ List.mem_cons_self)
  refine ⟨⟨p, [], world⟩, h, fun hrenews => ?_⟩
  -- the reset is answered at once, and the next caller gets what was ready before
  have hacquire := Step.acquire (s := .unfailing) ⟨{ p with nextRequest := 1 }, [], world⟩
  rw [Pool.acquire_ready rfl rfl rfl] at hacquire
  have hnew := hrenews .refl rfl (.single hacquire) Nat.one_lt_two le_rfl List.mem_cons_self
  exact absurd hold (Nat.not_lt.mpr hnew)

/-! ### Generations that cannot be told apart -/

/-- A pool of its smallest size after a number of resets, one of whose instances is with a user. -/
def lentPool (contract : ContractId) (program : Module) (settings : PoolTerms) (resets : Nat)
    (ready : List Instance) (uses : UInt32) : Pool :=
  { contract, program, settings, ready, permits := ready.length, size := settings.minSize, uses
    epoch := UInt64.ofNat resets, nextTicket := 1, nextRequest := resets }

/-- A reset replaces all instances but the one with the user. -/
theorem exists_carryOut (contract : ContractId) (program : Module) (n : Nat)
    {ready : List Instance} (hready : ready.length + 1 = settings.minSize.toNat) (uses : UInt32)
    (out : List Instance) (world : Census Nat) :
    ∃ ready' world', ready'.length + 1 = settings.minSize.toNat ∧
      carryOut .unfailing ⟨(lentPool contract program settings n ready uses).requestReset.2, out,
          world⟩ n [] =
        ⟨lentPool contract program settings (n + 1) ready' 0, out, world'⟩ := by
  let p : Pool := { lentPool contract program settings n ready uses with nextRequest := n + 1 }
  have hrenewed := Pool.renewed_of_free (p := p) rfl
  have hpos : 1 ≤ settings.minSize.toNat := hready ▸ Nat.le_add_left 1 _
  have hminsize : settings.minSize = UInt32.ofNat ready.length + 1 := by
    have hofNat := congrArg UInt32.ofNat hready
    rw [UInt32.ofNat_add, UInt32.ofNat_toNat] at hofNat
    exact hofNat.symm
  -- of the pool that is emptied the one instance is left that the user has
  have hsize : p.renewed.size = 1 := by
    rw [hrenewed]
    show settings.minSize - UInt32.ofNat ready.length = 1
    rw [hminsize]
    grind
  have hmissing : p.renewed.missing = settings.minSize - 1 := by
    have hterms : p.renewed.settings = settings := rfl
    unfold Pool.missing
    rw [hsize, hterms]
    split
    · rfl
    · rename_i hnot
      have hle : settings.minSize.toNat ≤ 1 := UInt32.le_iff_toNat_le.mp (UInt32.not_lt.mp hnot)
      have hsame : settings.minSize = 1 := UInt32.toNat_inj.mp (Nat.le_antisymm hle hpos)
      rw [hsame]
      rfl
  have hwhole : (1 : UInt32) + (settings.minSize - 1) = settings.minSize := by grind
  have hless : (settings.minSize - 1).toNat = settings.minSize.toNat - 1 :=
    UInt32.toNat_sub_of_le _ _ (UInt32.le_iff_toNat_le.mpr hpos)
  have halone : p.renewed.Alone := by
    rw [hrenewed]
    exact ⟨rfl, rfl⟩
  obtain ⟨l, y, hlength, hgrown⟩ := Pool.grow_alone create_unfailing halone p.renewed.missing
    (NumberedSupply.unfailing.counted.teardownAll (p.ready.take p.unclaimed) world)
  have hobey := Pool.obey_reset (s := NumberedSupply.unfailing.counted) p world n
  have hepoch : UInt64.ofNat n + 1 = UInt64.ofNat (n + 1) := (UInt64.ofNat_add n 1).symm
  rw [hgrown, hsize, hmissing, hwhole, hrenewed, List.nil_append, Nat.zero_add] at hobey
  refine ⟨l, y, ?_, ?_⟩
  · rw [hlength, hmissing, hless, Nat.sub_add_cancel hpos]
  · unfold lentPool
    rw [← hepoch]
    exact congrArg (act ⟨p, out, world⟩) hobey

/-- Any number of resets can be asked for and carried out. -/
theorem Reachable.resets {ready : List Instance} {uses : UInt32} {out : List Instance}
    {world : Census Nat} (hready : ready.length + 1 = settings.minSize.toNat)
    (h : Reachable .unfailing contract program settings
      ⟨lentPool contract program settings 0 ready uses, out, world⟩) (n : Nat) :
    ∃ ready uses world, ready.length + 1 = settings.minSize.toNat ∧
      Reachable .unfailing contract program settings
        ⟨lentPool contract program settings n ready uses, out, world⟩ := by
  induction n with
  | zero => exact ⟨ready, uses, world, hready, h⟩
  | succ n ih =>
    obtain ⟨ready, uses, world, hready, h⟩ := ih
    obtain ⟨ready', world', hready', hreset⟩ :=
      exists_carryOut contract program n hready uses out world
    have hobeyed := (h.step (Step.requestReset _)).step (Step.obey rfl rfl)
    exact ⟨ready', 0, world', hready', hreset ▸ hobeyed⟩

/-- Sooner or later a caller gets an instance that is ready. -/
theorem exists_served (out : List Instance) (world : Census σ) {i : Instance}
    {rest : List Instance} : ∀ (l : List Instance) {p : Pool}, p.closed = false →
    p.ready = l ++ i :: rest → p.ready.length ≤ p.permits →
    ∃ later ticket, Relation.ReflTransGen (Step s) ⟨p, out, world⟩ later ∧ p.nextTicket ≤ ticket ∧
      (ticket, .ok i) ∈ later.pool.served ∧ later.pool.nextRequest = p.nextRequest := by
  intro l
  -- one caller for each instance in front of it takes that one out of the way
  induction l with
  | nil =>
    intro p hopen hready hfree
    rw [hready, List.length_append, List.length_cons] at hfree
    obtain ⟨permits, hpermits⟩ := Nat.exists_eq_add_one_of_ne_zero (n := p.permits) (by omega)
    have hasked := Step.acquire (s := s) ⟨p, out, world⟩
    rw [Pool.acquire_ready hopen hpermits hready] at hasked
    exact ⟨_, p.nextTicket, .single hasked, le_rfl,
      List.mem_append_right _ List.mem_cons_self, rfl⟩
  | cons j l ih =>
    intro p hopen hready hfree
    rw [hready, List.cons_append, List.length_cons] at hfree
    obtain ⟨permits, hpermits⟩ := Nat.exists_eq_add_one_of_ne_zero (n := p.permits) (by omega)
    have hasked := Step.acquire (s := s) ⟨p, out, world⟩
    rw [Pool.acquire_ready hopen hpermits hready] at hasked
    obtain ⟨later, ticket, hrun, hticket, hserved, hnext⟩ := ih (p := { p with
      nextTicket := p.nextTicket + 1, permits, ready := l ++ i :: rest, uses := p.uses + 1
      served := p.served ++ [(p.nextTicket, .ok j)] }) hopen rfl (by dsimp only; omega)
    exact ⟨later, ticket, .head hasked hrun, Nat.le_of_succ_le hticket, hserved, hnext⟩

/-- **An instance that a user keeps for 2 ^ 64 resets is taken for a new one**, because generations
are numbered with 64 bits. -/
theorem exists_not_renewsUnclaimed (contract : ContractId) (program : Module)
    {settings : PoolTerms} (hmin : settings.minSize ≠ 0)
    (hmeasurable : settings.isMeasurable = true) :
    ∃ sc : Scene Nat, Reachable .unfailing contract program settings sc ∧
      ¬ sc.RenewsUnclaimed .unfailing (2 ^ 64 + 1) := by
  obtain ⟨ready, world, hlength, h⟩ := exists_created_whole contract program settings
  rw [hmeasurable] at h
  obtain ⟨i, rest, rfl⟩ := List.exists_cons_of_length_pos (hlength ▸ PoolConfig.toNat_pos hmin)
  have hmem : i ∈ (i :: rest) ++ [] := List.mem_append_left _ List.mem_cons_self
  have hfit := h.wellStocked fresh_unfailing i hmem
  have hfirst : i.epoch = 0 := by
    have hage := (h.timely fresh_unfailing).epochs (Nat.two_pow_pos 64) i
      (List.mem_append_left _ hmem) hfit.pooled
    exact UInt64.toNat_inj.mp (Nat.le_zero.mp hage)
  -- a user takes an instance, and keeps it during all resets but the last
  have hasked := h.step (Step.acquire _)
  rw [Pool.acquire_ready rfl rfl rfl] at hasked
  have htaken : Reachable .unfailing contract program settings
      ⟨lentPool contract program settings 0 rest 1, [i], world⟩ := hasked.step (Step.claim _ 0)
  obtain ⟨n, hn⟩ : ∃ n, n + 1 = 2 ^ 64 := ⟨2 ^ 64 - 1, rfl⟩
  obtain ⟨ready, uses, world', hready, hmany⟩ := htaken.resets hlength n
  have hold := hmany.id_lt_next (i := i) (List.mem_append_right _ List.mem_cons_self)
  refine ⟨_, hmany.step (Step.requestReset _), fun hrenews => ?_⟩
  -- after the last one it gives the instance back, and another caller gets it
  obtain ⟨ready', y, -, hreset⟩ := exists_carryOut contract program n hready uses [i] world'
  let returned : Pool := lentPool contract program settings (n + 1) ready' 0
  have hepoch : i.epoch = returned.epoch := by
    show i.epoch = UInt64.ofNat (n + 1)
    rw [hfirst, hn]
    decide
  have hrelease : Step .unfailing ⟨returned, [i], y⟩
      (act ⟨returned, [], y⟩ (returned.release NumberedSupply.unfailing.counted i y)) :=
    Step.release (l := []) (r := []) rfl ⟨rfl, rfl, rfl⟩
  rw [Pool.release_pooled _ hfit.pooled rfl, if_pos ⟨hepoch, hfit.errors⟩, Pool.push_nil rfl]
    at hrelease
  obtain ⟨later, ticket, hrun, hticket, hserved, hnext⟩ := exists_served (s := .unfailing) [] y
    ready' (p := { returned with
      ready := ready' ++ [i.unbind], permits := ready'.length + 1 }) rfl rfl
      List.length_append.le
  have hall : Relation.ReflTransGen (Step .unfailing)
      (carryOut .unfailing ⟨(lentPool contract program settings n ready uses).requestReset.2, [i],
        world'⟩ n []) later := by
    rw [hreset]
    exact .head hrelease hrun
  have hnew := hrenews rfl rfl rfl hall (hnext.trans_lt (hn ▸ Nat.lt_succ_self _)) hticket hserved
  exact absurd hold (Nat.not_lt.mpr hnew)

/-! ### All of it -/

/-- A pool that is created with instances gives its users all of them. -/
theorem exists_all_lent (contract : ContractId) (program : Module) {settings : PoolTerms}
    (hmin : settings.minSize ≠ 0) (hmeasurable : settings.isMeasurable = true) :
    ∃ sc : Scene Nat, Reachable .unfailing contract program settings sc ∧
      ¬ sc.Renews .unfailing 2 := by
  obtain ⟨ready, world, hlength, h⟩ := exists_created_whole contract program settings
  rw [hmeasurable] at h
  obtain ⟨i, rest, rfl⟩ := List.exists_cons_of_length_pos (hlength ▸ PoolConfig.toNat_pos hmin)
  have hfit := h.wellStocked fresh_unfailing i (List.mem_append_left _ List.mem_cons_self)
  obtain ⟨uses, nextTicket, htaken⟩ := h.takeAll (i :: rest) rfl rfl
    (List.append_nil _).symm (Nat.add_zero _).symm
  exact htaken.exists_not_renews fresh_unfailing rfl rfl rfl ⟨rfl, rfl⟩ rfl rfl rfl
    (UInt32.le_refl _) hfit.pooled

/-- A pool that is created empty gives a caller the first instance that it makes. -/
theorem exists_first_lent (contract : ContractId) (program : Module) {settings : PoolTerms}
    (hmin : settings.minSize = 0) (hmeasurable : settings.isMeasurable = true)
    (hstep : settings.growStep ≠ 0) (hroom : settings.growStep ≤ settings.maxSize)
    (hpatience : settings.applyThreshold.toNat + 1 < 2 ^ 32) :
    ∃ sc : Scene Ration, Reachable .rationed contract program settings sc ∧
      ¬ sc.Renews .rationed 2 := by
  have hlimit := settings.growStep.toNat_lt
  have hgrants : settings.Grants 0 0 (settings.applyThreshold.toNat + 1) := by
    refine .inr ⟨?_, .inl (Nat.lt_succ_self _)⟩
    rw [Nat.zero_add]
    exact UInt32.le_iff_toNat_le.mp hroom
  obtain ⟨n, hn, hyes, hno⟩ := Reaches.exists_patience ⟨_, hpatience, hgrants⟩
  -- all requests but the last are refused, and then the caller that has waited first is served
  have hstart := Reaches.start contract program hmeasurable n 0
  rw [List.replicate_succ'] at hstart
  have hasked := Reaches.refuseAll (Pool.poised_awaited _ _ _ _ _) n (by omega) hstart (by omega)
    (by simpa using hno)
  rw [Nat.zero_add] at hasked
  obtain ⟨i, world, hpooled, h⟩ := hasked.first hn hyes hstep
  refine h.exists_not_renews fresh_rationed rfl rfl rfl ⟨rfl, rfl⟩ rfl rfl rfl ?_ hpooled
  show settings.minSize ≤ _
  rw [hmin]
  exact UInt32.zero_le

/-- A pool that may have instances hands out an old one after a reset, in some run. -/
theorem exists_not_renews (contract : ContractId) (program : Module) {settings : PoolTerms}
    (hvalid : settings.validate = .ok ()) (hfertile : ¬ settings.Barren) :
    ∃ (σ : Type) (s : NumberedSupply σ) (sc : Scene σ), s.Fresh ∧
      Reachable s contract program settings sc ∧ ¬ sc.Renews s 2 := by
  obtain ⟨-, -, hstep, -⟩ := settings.validate_eq_ok_iff.mp hvalid
  by_cases hmin : settings.minSize = 0
  · -- an empty pool has to be asked until it grows; any other has an instance to lend at once
    have hbusy := not_or.mp fun hidle => hfertile ⟨hmin, hidle⟩
    have hlimit := settings.applyThreshold.toNat_lt
    rw [Bool.not_eq_false, not_or, UInt32.not_lt] at hbusy
    obtain ⟨sc, h, hold⟩ := exists_first_lent contract program hmin hbusy.1 hstep hbusy.2.1
      (by omega)
    exact ⟨_, _, sc, fresh_rationed, h, hold⟩
  · cases hclock : settings.isMeasurable with
    | true =>
      obtain ⟨sc, h, hold⟩ := exists_all_lent contract program hmin hclock
      exact ⟨_, _, sc, fresh_unfailing, h, hold⟩
    | false =>
      obtain ⟨sc, h, hold⟩ := exists_not_renews_of_asleep contract program hmin hclock
      exact ⟨_, _, sc, fresh_unfailing, h, hold⟩

/-- **What pools hand out.**  Every pool is well stocked, and keeps out what has failed too often;
what is ready is of the present generation unless it is owed; and resets renew that find nobody with
a claim, in runs with fewer than 2 ^ 64 of them, which is exact.  **All resets renew exactly the
pools that never have an instance.** -/
theorem admission (contract : ContractId) (program : Module) {settings : PoolTerms}
    (hvalid : settings.validate = .ok ()) :
    (∀ (σ : Type) (s : NumberedSupply σ), s.Fresh → ∀ sc : Scene σ,
        Reachable s contract program settings sc →
          sc.pool.WellStocked ∧ sc.BarsFailed s ∧ sc.RenewsUnclaimed s (2 ^ 64) ∧
            ∀ i ∈ sc.pool.ready, i.epoch = sc.pool.epoch ∨ ∃ before,
              Reachable s contract program settings before ∧ OwedSince s before sc i) ∧
      ((∀ (σ : Type) (s : NumberedSupply σ), s.Fresh → ∀ sc : Scene σ,
          Reachable s contract program settings sc → sc.Renews s (2 ^ 64)) ↔ settings.Barren) ∧
      (settings.minSize ≠ 0 → settings.isMeasurable = true → ∃ sc : Scene Nat,
        Reachable .unfailing contract program settings sc ∧
          ¬ sc.RenewsUnclaimed .unfailing (2 ^ 64 + 1)) := by
  refine ⟨fun σ s hfresh sc h => ⟨h.wellStocked hfresh, h.barsFailed, h.renewsUnclaimed hfresh,
      h.ready_epoch hfresh⟩,
    ⟨fun hall => ?_, fun hbarren σ s _ sc h => h.renews_of_barren hbarren _⟩,
    fun hmin hmeasurable => exists_not_renewsUnclaimed contract program hmin hmeasurable⟩
  by_contra hfertile
  obtain ⟨σ, s, sc, hfresh, h, hold⟩ := exists_not_renews contract program hvalid hfertile
  exact hold (Renews.mono (hall σ s hfresh sc h) (by decide))

/-- Under the default settings all of this holds, and pools with ready instances are reset. -/
theorem admission_default :
    ({} : PoolConfig).validate = .ok () ∧
      (∀ (σ : Type) (s : NumberedSupply σ), s.Fresh → ∀ sc : Scene σ,
        Reachable s ⟨"counter", "1.0.0"⟩ default {} sc →
          sc.pool.WellStocked ∧ sc.BarsFailed s ∧ sc.RenewsUnclaimed s (2 ^ 64)) ∧
      NumberedSupply.unfailing.Fresh ∧
      ∃ sc : Scene Nat, Reachable .unfailing ⟨"counter", "1.0.0"⟩ default {} sc ∧
        sc.pool.ready ≠ [] ∧ sc.pool.signals = [.reset 0] ∧ sc.pool.woken = [] := by
  have hvalid : ({} : PoolTerms).validate = .ok () :=
    (PoolConfig.validate_eq_ok_iff _).mpr (by decide +kernel)
  refine ⟨hvalid, fun σ s hfresh sc h => ?_, fresh_unfailing, ?_⟩
  · obtain ⟨hall, -⟩ := admission ⟨"counter", "1.0.0"⟩ default hvalid
    obtain ⟨hstocked, hbars, hrenews, -⟩ := hall σ s hfresh sc h
    exact ⟨hstocked, hbars, hrenews⟩
  · obtain ⟨ready, world, hlength, h⟩ := exists_created_whole ⟨"counter", "1.0.0"⟩ default {}
    have hsome : ({} : PoolTerms).minSize.toNat ≠ 0 := by decide +kernel
    exact ⟨_, h.step (Step.requestReset _),
      List.ne_nil_of_length_pos (hlength ▸ Nat.pos_of_ne_zero hsome), rfl, rfl⟩

/-- A caller that asks after the first reset gets an instance that was made before it: in a pool of
one or two instances, and in one whose interval is 2 ^ 63 seconds. -/
theorem old_instance_after_reset :
    ({ minSize := 1, maxSize := 2, growStep := 1 } : PoolConfig).validate = .ok () ∧
      ({ minSize := 1, maxSize := 2, growStep := 1, refreshIntervalSecs := 2 ^ 63 } :
        PoolConfig).validate = .ok () ∧
      (∃ sc : Scene Nat,
        Reachable .unfailing ⟨"counter", "1.0.0"⟩ default
          { minSize := 1, maxSize := 2, growStep := 1 } sc ∧
        ¬ sc.Renews .unfailing 2) ∧
      ∃ sc : Scene Nat,
        Reachable .unfailing ⟨"counter", "1.0.0"⟩ default
          { minSize := 1, maxSize := 2, growStep := 1, refreshIntervalSecs := 2 ^ 63 } sc ∧
        ¬ sc.Renews .unfailing 2 :=
  ⟨(PoolConfig.validate_eq_ok_iff _).mpr (by decide +kernel),
    (PoolConfig.validate_eq_ok_iff _).mpr (by decide +kernel),
    exists_all_lent ⟨"counter", "1.0.0"⟩ default (by decide +kernel) (by decide +kernel),
    exists_not_renews_of_asleep ⟨"counter", "1.0.0"⟩ default (by decide +kernel)
      (by decide +kernel)⟩

end Scene

end ContractHost
