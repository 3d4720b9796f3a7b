import ContractHost.Proofs.Host.Events
import ContractHost.Proofs.Host.Holding
import ContractHost.Proofs.Host.Records
import ContractHost.Proofs.Host.Registration

/-!
# How failures are counted

An instance counts how often in a row the calls that it was used for have broken down: no gas was
left, the script has trapped or left, or the host has crashed.  A pool takes an instance back only
while that was not too often.  So whatever happens on a host, the instances in its pools have the
right counts, and one that has broken down too often in a row is gone for good.  When a call that is
to set its contract up breaks down, nothing is counted, and the pool of the contract is shut down.

A failure that was only recorded counts for nothing.  The script has reported an error itself, or
one of its requests has failed, but it has come to its end: its instance is sound again, and a
contract that could not be set up keeps its pool.

## Main definitions

* `Host.Fit` — an instance with the right count, that has not failed too often.
* `Host.Booked` — all instances in pools and in use are fit.
* `Host.Reckoned`, `Host.Ending` — what concluding a call comes to.
* `Host.CarriedOut` — a call that is carried out as a whole.
* `Host.CountsFailures` — how a host counts failures.

## Main results

* `Host.Step.booked` — **every step keeps the counts right.**
* `Host.Recorded.booked` — **so does every run**, whatever has happened.
* `Host.counts_failures` — **every host counts the breakdowns in a row.**
* `Host.failures_without_count` — failures that count for nothing.
-/

namespace ContractHost

/-! ### Counts -/

/-- The greatest number of failures that is counted. -/
def mostErrors : Nat :=
  UInt32.size - 1

theorem Instance.toNat_recordError (i : Instance) :
    i.recordError.errors.toNat = min (i.errors.toNat + 1) mostErrors := by
  have hlt := i.errors.toNat_lt
  have hadd : (i.errors + 1).toNat = (i.errors.toNat + 1) % 2 ^ 32 := UInt32.toNat_add _ _
  unfold recordError mostErrors UInt32.size
  dsimp only
  split
  · rename_i hwraps
    rw [hwraps] at hadd
    change 0 = _ at hadd
    omega
  · rename_i hcounts
    have hne : (i.errors + 1).toNat ≠ 0 := fun hzero => hcounts (UInt32.toNat_inj.mp hzero)
    omega

namespace Host

variable {τ : Type} [LedgerAccess τ] {setup : HostSetup} {x y z : Host τ}
variable {busy rest : List Lease} {uses more : List Use} {l : Lease} {i j : Instance} {n : Nat}
variable {c : Context} {ended : Except CallFault Unit}

/-- What went wrong in a call, if anything, the verdict on its instance, and the instance with what
is noted on it. -/
inductive Judged (c : Context) (i : Instance) : Option String → Verdict → Instance → Prop
  /-- Nothing went wrong. -/
  | sound : Judged c i none .sound i.clearErrors
  /-- The run has broken down. -/
  | broken (reason : String) (hmethod : c.method ≠ exportNames.init) :
      Judged c i (some reason) .broken i.recordError
  /-- It has broken down while it was to set the contract up. -/
  | unset (reason : String) (hmethod : c.method = exportNames.init) :
      Judged c i (some reason) .unset i

/-- **The verdict on an instance decides what is noted on it.** -/
theorem judged (setup : HostSetup) (c : Context) (ended : Except CallFault Unit) (i : Instance) :
    Judged c i (reasonOf setup.config.execution.gasLimit i.gas ended) (verdict setup c ended i)
      (noted setup c ended i) := by
  unfold noted verdict
  cases reasonOf setup.config.execution.gasLimit i.gas ended with
  | none => exact .sound
  | some reason =>
    by_cases hmethod : c.method = exportNames.init
    · simp only [if_pos hmethod]
      exact .unset reason hmethod
    · simp only [if_neg hmethod]
      exact .broken reason hmethod

/-- **What is noted on an instance is what its use counts for.** -/
theorem toNat_noted {k : Nat} (h : i.errors.toNat = min k mostErrors) :
    (noted setup c ended i).errors.toNat = min ((verdict setup c ended i).count k) mostErrors := by
  have hjudged := judged setup c ended i
  generalize reasonOf setup.config.execution.gasLimit i.gas ended = reason at hjudged
  generalize noted setup c ended i = j at hjudged ⊢
  generalize verdict setup c ended i = v at hjudged ⊢
  cases hjudged with
  | sound => exact (Nat.zero_min _).symm
  | broken reason hmethod =>
    rw [Instance.toNat_recordError, h]
    dsimp only [Verdict.count]
    omega
  | unset reason hmethod => exact h

/-- The count of an instance is right, and it has not failed too often. -/
structure Fit (setup : HostSetup) (uses : List Use) (i : Instance) : Prop where
  /-- It has counted its breakdowns in a row, up to the greatest number. -/
  counted : i.errors.toNat = min (streak uses i.id) mostErrors
  /-- They are not too many. -/
  few : i.errors ≤ setup.config.pool.discardThreshold

namespace Fit

instance : DecidablePred (Fit setup uses) := fun i =>
  decidable_of_iff (i.errors.toNat = min (streak uses i.id) mostErrors ∧
    i.errors ≤ setup.config.pool.discardThreshold)
    ⟨fun h => ⟨h.1, h.2⟩, fun h => ⟨h.counted, h.few⟩⟩

theorem congr (h : Fit setup uses i) (hid : j.id = i.id) (herrors : j.errors = i.errors) :
    Fit setup uses j :=
  ⟨hid ▸ herrors ▸ h.counted, herrors ▸ h.few⟩

theorem append (h : Fit setup uses i) (hne : ∀ u ∈ more, u.inst ≠ i.id) :
    Fit setup (uses ++ more) i :=
  ⟨(streak_append_of_ne hne).symm ▸ h.counted, h.few⟩

theorem concat (h : Fit setup uses i) (v : Verdict) (hne : n ≠ i.id) :
    Fit setup (uses ++ [⟨n, v⟩]) i :=
  h.append fun u hu => by
    obtain rfl := List.mem_singleton.mp hu
    exact hne

/-- An instance that has broken down too often is not fit. -/
theorem streak_le (h : Fit setup uses i) :
    min (streak uses i.id) mostErrors ≤ setup.config.pool.discardThreshold.toNat :=
  h.counted ▸ UInt32.le_iff_toNat_le.mp h.few

end Fit

/-- The instances that are not fit, of whatever module. -/
def unfit (setup : HostSetup) (uses : List Use) (_ : Module) (i : Instance) : Bool :=
  !decide (Fit setup uses i)

theorem unfit_eq_false_iff {m : Module} : unfit setup uses m i = false ↔ Fit setup uses i := by
  unfold unfit
  rw [Bool.not_eq_false', decide_eq_true_iff]

/-- New instances are fit. -/
theorem spares_unfit (hused : ∀ u ∈ uses, u.inst < n) : Pool.Spares n (unfit setup uses) where
  told hid herrors _ := by
    refine Bool.eq_iff_iff.mpr (not_iff_not.mp ?_)
    rw [Bool.not_eq_true, Bool.not_eq_true, unfit_eq_false_iff, unfit_eq_false_iff]
    exact ⟨fun h => h.congr hid.symm herrors.symm, fun h => h.congr hid herrors⟩
  new {_ i} hid herrors _ := by
    have hnone : streak uses i.id = 0 :=
      streak_eq_zero fun u hu heq => Nat.lt_irrefl _ ((hid.trans_eq heq.symm).trans_lt (hused u hu))
    refine unfit_eq_false_iff.mpr ⟨?_, ?_⟩
    · rw [herrors, hnone, Nat.zero_min]
      rfl
    · rw [herrors]
      exact UInt32.zero_le

omit [LedgerAccess τ] in
/-- No pool holds an instance that is not fit if all are fit. -/
theorem free_unfit (hx : x.Orderly)
    (hheld : ∀ {id p}, x.pools.get? id = some p → ∀ i ∈ p.held, Fit setup uses i)
    (hnext : n ≤ x.nextInstance) : x.Free n (unfit setup uses) where
  orderly := hx
  pools hp := List.countP_eq_zero.mpr fun i hi =>
    Bool.eq_false_iff.mp (unfit_eq_false_iff.mpr (hheld hp i hi))
  next := hnext

/-! ### Every step keeps the counts right -/

theorem Leased.id_lt_next {gone : Set Nat} (h : Leased setup gone busy x) (hl : l ∈ busy) :
    l.inst.id < x.nextInstance := by
  obtain ⟨out, hlends, hout⟩ := h.lends
  obtain ⟨i, hi, hafter⟩ := hout.exists_mem hl
  obtain ⟨p, hp⟩ := hlends.exists_pool hi
  obtain ⟨live, hreach⟩ := hlends.reachable hp
  rw [hafter.id]
  exact hreach.id_lt_next (List.mem_append_right _ hi)

/-- The leases `busy` are in use, and all instances are fit, in pools and in use, after the uses
`uses`. -/
structure Booked (setup : HostSetup) (uses : List Use) (busy : List Lease) (x : Host τ) : Prop
    extends Leased setup ∅ busy x where
  /-- What a pool holds is fit. -/
  held : ∀ {id p}, x.pools.get? id = some p → ∀ i ∈ p.held, Fit setup uses i
  /-- What is in use is fit. -/
  lent : ∀ l ∈ busy, Fit setup uses l.inst
  /-- What was used has a number that was given. -/
  used : ∀ u ∈ uses, u.inst < x.nextInstance

namespace Booked

theorem of_empty (setup : HostSetup) (ledger : τ) :
    Booked setup [] [] ({ ledger } : Host τ) where
  toLeased := .of_empty setup ledger
  held hp := nomatch hp
  lent _ hl := absurd hl List.not_mem_nil
  used _ hu := absurd hu List.not_mem_nil

theorem spares (h : Booked setup uses busy x) : Pool.Spares x.nextInstance (unfit setup uses) :=
  spares_unfit h.used

theorem free (h : Booked setup uses busy x) : x.Free x.nextInstance (unfit setup uses) :=
  free_unfit h.orderly h.held le_rfl

theorem of_free (hleased : Leased setup ∅ busy y) (hfree : y.Free n (unfit setup uses))
    (hlent : ∀ l ∈ busy, Fit setup uses l.inst) (hused : ∀ u ∈ uses, u.inst < n) :
    Booked setup uses busy y where
  toLeased := hleased
  held hp _ hi := unfit_eq_false_iff.mp ((hfree.pools hp).of_held hi)
  lent := hlent
  used u hu := (hused u hu).trans_le hfree.next

/-- The use of an instance in use may be recorded. -/
theorem used_concat (h : Booked setup uses (l :: rest) x) (v : Verdict) :
    ∀ u ∈ uses ++ [⟨l.inst.id, v⟩], u.inst < x.nextInstance := by
  intro u hu
  rcases List.mem_append.mp hu with hu | hlast
  · exact h.used u hu
  · obtain rfl := List.mem_singleton.mp hlast
    exact h.id_lt_next List.mem_cons_self

/-- **An instance that is given back** with the right count comes back fit, or not at all. -/
theorem giveBack (h : Booked setup uses (l :: rest) x) {v : Verdict} (hid : i.id = l.inst.id)
    (hcount : i.errors.toNat = min (v.count (streak uses l.inst.id)) mostErrors) (handle : Int32) :
    Free x.nextInstance (unfit setup (uses ++ [⟨l.inst.id, v⟩]))
      ({ x with registry := x.registry.remove handle }.giveBack setup l.pool i) := by
  have hremoved : Free x.nextInstance (unfit setup (uses ++ [⟨l.inst.id, v⟩]))
      { x with registry := x.registry.remove handle } :=
    free_unfit (h.orderly.congr rfl rfl rfl) (fun hp j hj =>
      (h.held hp j hj).concat v ((h.unused hp hj).2 l List.mem_cons_self)) le_rfl
  refine hremoved.giveBack (spares_unfit (h.used_concat v)) l.pool fun {p} hp hfew => ?_
  obtain ⟨out, hlends, -⟩ := h.lends
  refine unfit_eq_false_iff.mpr ⟨?_, hlends.settings hp ▸ hfew⟩
  rw [hid, streak_concat_self]
  exact hcount

/-- **When a call is concluded** its instance comes back fit, or not at all. -/
theorem conclude (h : Booked setup uses (l :: rest) x) (hc : c.handle = l.handle)
    (ended : Except CallFault Unit) :
    Booked setup (uses ++ [⟨l.inst.id, verdict setup c ended l.inst⟩]) rest
      (x.conclude setup l.pool c ended l.inst).2 := by
  have hused := h.used_concat (verdict setup c ended l.inst)
  have hback := h.giveBack (after_noted setup c ended l.inst).id
    (toNat_noted (h.lent l List.mem_cons_self).counted) c.handle
  refine of_free (h.toLeased.conclude hc ended).1 ?_ (fun k hk => ?_) hused
  · obtain ⟨-, heq⟩ | ⟨-, heq⟩ := snd_conclude setup x l.pool c ended l.inst
    · rw [heq]
      exact hback
    · rw [heq]
      exact hback.closeKey (spares_unfit hused) c.contract.key
  · exact (h.lent k (List.mem_cons_of_mem _ hk)).concat _ (Ne.symm (h.others k hk))

end Booked

/-- **Every step keeps the counts right.** -/
theorem Step.booked {u v : Tenancy τ} (h : Step setup u more v)
    (hu : Booked setup uses u.busy u.host) : Booked setup (uses ++ more) v.busy v.host := by
  have hleased := h.leased hu.toLeased
  -- only the conclusion of a call adds to the record
  cases h.transfer hleased.orderly hu.spares hu.free with
  | idle hfree hbusy =>
    rw [List.append_nil]
    exact .of_free hleased hfree (fun l hl => hu.lent l (hbusy l hl)) hu.used
  | lend henter hfree hspared =>
    rw [List.append_nil]
    obtain ⟨_, hinst, -⟩ := hspared
    exact .of_free hleased hfree
      (List.forall_mem_cons.mpr ⟨unfit_eq_false_iff.mp hinst, hu.lent⟩) hu.used
  | work hfree hran =>
    rw [List.append_nil]
    obtain ⟨hl, hrest⟩ := List.forall_mem_cons.mp hu.lent
    obtain ⟨memory, gas, rfl⟩ := hran
    exact .of_free hleased hfree (List.forall_mem_cons.mpr ⟨hl.congr rfl rfl, hrest⟩) hu.used
  | back hc ended => exact hu.conclude hc ended

theorem Runs.booked {u v : Tenancy τ} (h : Runs setup u more v)
    (hu : Booked setup uses u.busy u.host) : Booked setup (uses ++ more) v.busy v.host := by
  induction h with
  | refl => rwa [List.append_nil]
  | tail _ hstep ih =>
    rw [← List.append_assoc]
    exact hstep.booked ih

/-- **So they are right whatever has happened.** -/
theorem Recorded.booked (h : Recorded setup uses busy x) : Booked setup uses busy x := by
  obtain ⟨ledger, hruns⟩ := h
  exact hruns.booked (.of_empty setup ledger)

/-! ### How calls are reckoned with -/

/-- What concluding a call comes to: its outcome, and the host that it leaves. -/
inductive Reckoned (setup : HostSetup) (l : Lease) (c : Context) (ended : Except CallFault Unit)
    (x : Host τ) : Outcome × Host τ → Prop
  /-- The method has come to its end.  The code is that of its invocation, be it a failure or not;
  nothing is counted any more, and no pool is shut down. -/
  | sound {o : Outcome} {y : Host τ} (hverdict : verdict setup c ended l.inst = .sound)
      (hcode : o.code = (x.current c).outcome.code)
      (hcount : (noted setup c ended l.inst).errors = 0) (hmoved : Unmoved x y) :
      Reckoned setup l c ended x (o, y)
  /-- The run has broken down.  This is a failure, and one more is counted. -/
  | broken {o : Outcome} {y : Host τ} (hverdict : verdict setup c ended l.inst = .broken)
      (hcode : o.code = Outcome.failure)
      (hcount : (noted setup c ended l.inst).errors.toNat =
        min (l.inst.errors.toNat + 1) mostErrors)
      (hmoved : Unmoved x y) : Reckoned setup l c ended x (o, y)
  /-- It has broken down while it was to set the contract up.  This is a failure, and the pool of
  the contract is shut down and no longer filed. -/
  | unset {o : Outcome} {y : Host τ} (hverdict : verdict setup c ended l.inst = .unset)
      (hcode : o.code = Outcome.failure)
      (hregistered : y.registered = x.registered.erase c.contract.key)
      (hshut : ∀ {id}, x.poolId? c.contract = some id →
        ∃ p, y.pools.get? id = some p ∧ p.closed = true)
      (hothers : ∀ {id}, x.poolId? c.contract ≠ some id →
        (y.pools.get? id).map Pool.standing = (x.pools.get? id).map Pool.standing) :
      Reckoned setup l c ended x (o, y)

/-- Giving the instance of a call back opens no pool and shuts none down. -/
theorem unmoved_back (setup : HostSetup) (hx : x.Orderly) (handle : Int32) (id : PoolId)
    (i : Instance) :
    Unmoved x ({ x with registry := x.registry.remove handle }.giveBack setup id i) := by
  have hremoved : Unmoved x { x with registry := x.registry.remove handle } :=
    .of_same hx rfl rfl rfl
  exact hremoved.trans (unmoved_giveBack setup (hremoved.orderly hx) id i)

theorem standing_closePool (hx : x.Orderly) (setup : HostSetup) (c : ContractId) {id : PoolId}
    (hother : x.poolId? c ≠ some id) :
    ((x.closePool setup c).pools.get? id).map Pool.standing =
      (x.pools.get? id).map Pool.standing := by
  obtain ⟨-, hlabel⟩ := closeKey_frame hx setup c.key
  unfold closePool
  cases hp : x.pools.get? id with
  | some p => rw [(leaves_closeKey hx setup c.key).kept hp hother]
  | none =>
    have hnone := hlabel id
    rw [hp] at hnone
    rw [Option.map_eq_none_iff.mp hnone]

/-- **What concluding a call comes to.** -/
theorem reckoned_conclude (setup : HostSetup) (hx : x.Orderly) (l : Lease) (c : Context)
    (ended : Except CallFault Unit) :
    Reckoned setup l c ended x (x.conclude setup l.pool c ended l.inst) := by
  have hmoved (i : Instance) := unmoved_back setup hx c.handle l.pool i
  have hjudged := judged setup c ended l.inst
  generalize hverdict : verdict setup c ended l.inst = v at hjudged
  generalize hnoted : noted setup c ended l.inst = j at hjudged
  unfold conclude
  dsimp only
  generalize reasonOf setup.config.execution.gasLimit l.inst.gas ended = reason at hjudged ⊢
  -- by the verdict: no fault, a fault that counts, or a fault of the initialisation
  cases hjudged with
  | sound =>
    refine .sound hverdict ?_ (by rw [hnoted]; rfl) (hmoved _)
    split <;> rfl
  | broken reason hmethod =>
    dsimp only
    rw [if_neg hmethod]
    exact .broken hverdict rfl (by rw [hnoted]; exact l.inst.toNat_recordError) (hmoved _)
  -- the pool under the key of the contract is closed after the instance has gone back
  | unset reason hmethod =>
    dsimp only
    rw [if_pos hmethod]
    have hback := hmoved l.inst
    have horderly := hback.orderly hx
    have hsame (id : PoolId) : x.poolId? c.contract = some id ↔
        ({ x with registry := x.registry.remove c.handle }.giveBack setup l.pool
          l.inst).poolId? c.contract = some id := by
      unfold poolId?
      rw [hback.registered]
    refine .unset hverdict rfl ?_ (fun {id} hid => ?_) fun {id} hid => ?_
    · exact (closeKey_frame horderly setup c.contract.key).1.trans
        (congrArg (·.erase c.contract.key) hback.registered)
    · have hfiled := (hsame id).mp hid
      obtain ⟨p, hp⟩ := Option.isSome_iff_exists.mp (horderly.filed hfiled)
      obtain ⟨q, hq, hclosed, -⟩ := (leaves_closeKey horderly setup c.contract.key).ended hp hfiled
      exact ⟨q, hq, hclosed⟩
    · have hother := standing_closePool horderly setup c.contract (mt (hsame id).mpr hid)
      exact hother.trans (hback.standing id)

/-! ### How failures are counted -/

/-- What the end of a call that has the lease `l` comes to, on a host `x` on which the uses `uses`
are over: its outcome `o`, and a host `y` on which the leases `rest` are in use. -/
structure Ending (setup : HostSetup) (uses : List Use) (rest : List Lease) (l : Lease) (c : Context)
    (ended : Except CallFault Unit) (x : Host τ) (o : Outcome) (y : Host τ) : Prop where
  /-- It is reckoned with. -/
  reckoned : Reckoned setup l c ended x (o, y)
  /-- The use of its instance is recorded. -/
  recorded : Recorded setup (uses ++ [⟨l.inst.id, verdict setup c ended l.inst⟩]) rest y
  /-- Its instance goes back with what is noted on it. -/
  back : Concluded setup l c ended x y
  /-- If a pool holds it again, it has the count that is noted on it. -/
  count : ∀ {id : PoolId} {p : Pool}, y.pools.get? id = some p → ∀ i ∈ p.held,
    i.id = l.inst.id → i.errors = (noted setup c ended l.inst).errors

/-- A call is carried out as a whole, while the leases `busy` are in use and after the uses `uses`:
it begins with the instance `s.inst`, which runs until it is `i` and then is given back.  In between
the uses `inner` are recorded.  The call is made now or has waited. -/
structure CarriedOut (setup : HostSetup) (uses : List Use) (busy : List Lease) (breaksOff : Bool)
    (levels : Nat) (e : Entry) (x : Host τ) (s : Begun τ) (ended : Except CallFault Unit)
    (i : Instance) (z : Host τ) (inner : List Use) (o : Outcome) (y : Host τ) : Prop where
  /-- The call begins. -/
  begun : x.enter setup e = .ok s
  /-- It is one of the same contract. -/
  contract : s.context.contract = e.call.contract
  /-- It is one of the same method. -/
  method : s.context.method = e.call.method
  /-- Its instance runs. -/
  ran : callGuest setup.guest (hostCalls setup (invokeWithin setup breaksOff levels)) breaksOff
    s.context (budgetOf setup e.call) s.inst s.host = (ended, i, z)
  /-- It is the same one afterwards, but for its memory and its gas. -/
  same : s.inst.Ran i
  /-- In between neither it nor an instance of another lease is used. -/
  apart : Apart inner (⟨s.pool, s.context.handle, i⟩ :: busy)
  /-- Then the call comes to its end. -/
  ending : Ending setup (uses ++ inner) busy ⟨s.pool, s.context.handle, i⟩ s.context ended z o y

/-- How a host counts failures, while the leases `busy` are in use on it and the uses `uses` are
over. -/
structure CountsFailures (setup : HostSetup) (uses : List Use) (busy : List Lease) (x : Host τ) :
    Prop where
  /-- **Every instance that a pool holds** has counted its breakdowns in a row, and they are not too
  many. -/
  held : ∀ {id : PoolId} {p : Pool}, x.pools.get? id = some p → ∀ i ∈ p.held, Fit setup uses i
  /-- So has every instance that is in use. -/
  lent : ∀ l ∈ busy, Fit setup uses l.inst
  /-- **An instance that has broken down too often in a row** is gone, and stays so. -/
  discarded : ∀ {n : Nat},
    setup.config.pool.discardThreshold.toNat < min (streak uses n) mostErrors →
      ∀ {more : List Use} {rest : List Lease} {y : Host τ},
        Runs setup ⟨busy, x⟩ more ⟨rest, y⟩ → Gone rest n y
  /-- **A call that is concluded**, while others are under way, comes to its end. -/
  concluded : ∀ {l : Lease} {rest : List Lease}, busy.Perm (l :: rest) →
    ∀ {c : Context}, c.handle = l.handle → ∀ ended : Except CallFault Unit,
      Ending setup uses rest l c ended x (x.conclude setup l.pool c ended l.inst).1
        (x.conclude setup l.pool c ended l.inst).2
  /-- **So does a call that is carried out as a whole**, with any number of levels nested in it,
  whether it has waited or not. -/
  called : ∀ {breaksOff : Bool} {levels : Nat} {e : Entry} {o : Outcome} {y : Host τ},
    x.perform setup breaksOff levels e = (.finished (.ok o), y) →
      ∃ s ended i z inner,
        CarriedOut setup uses busy breaksOff (levels - 1) e x s ended i z inner o y

/-- An instance that has broken down too often in a row is gone. -/
theorem Booked.gone (h : Booked setup uses busy x)
    (hmany : setup.config.pool.discardThreshold.toNat < min (streak uses n) mostErrors) :
    Gone busy n x := by
  have hunfit {i : Instance} (hfit : Fit setup uses i) : i.id ≠ n := by
    rintro rfl
    exact absurd hfit.streak_le (Nat.not_le.mpr hmany)
  refine ⟨⟨?_, fun hp i hi => hunfit (h.held hp i hi)⟩, fun l hl => hunfit (h.lent l hl)⟩
  -- it was used, for otherwise it has not broken down
  by_contra hlt
  have hnone : streak uses n = 0 := streak_eq_zero fun u hu heq => hlt (heq ▸ h.used u hu)
  rw [hnone, Nat.zero_min] at hmany
  exact Nat.not_lt_zero _ hmany

/-- **How a call ends**, when its lease comes first. -/
theorem Recorded.ending (h : Recorded setup uses (l :: rest) x) (hc : c.handle = l.handle)
    (ended : Except CallFault Unit) :
    Ending setup uses rest l c ended x (x.conclude setup l.pool c ended l.inst).1
      (x.conclude setup l.pool c ended l.inst).2 := by
  have hrecorded := h.trans (.single (.conclude rest x hc ended))
  refine ⟨reckoned_conclude setup h.booked.orderly l c ended, hrecorded,
    h.leased.concluded hc ended, ?_⟩
  intro id p hp i hi hid
  have hcount := (hrecorded.booked.held hp i hi).counted
  rw [hid, streak_concat_self] at hcount
  have hlent := h.booked.lent l List.mem_cons_self
  exact UInt32.toNat_inj.mp (hcount.trans (toNat_noted hlent.counted).symm)

/-- **How a call that is carried out as a whole ends.** -/
theorem Recorded.called (h : Recorded setup uses busy x) {breaksOff : Bool} {levels : Nat}
    {e : Entry} {o : Outcome}
    (hperform : x.perform setup breaksOff (levels + 1) e = (.finished (.ok o), y)) :
    ∃ s ended i z inner, CarriedOut setup uses busy breaksOff levels e x s ended i z inner o y := by
  have hleased := h.leased
  have hkeeps : Invoker.Keeps setup (invokeWithin (τ := τ) setup breaksOff levels) :=
    keeps_invokeWithin setup breaksOff levels
  have htidy : Invoker.Tidy (invokeWithin (τ := τ) setup breaksOff levels) :=
    tidy_invokeWithin setup breaksOff levels
  have hcarried := carried_perform setup breaksOff levels e x
  rw [hperform] at hcarried
  -- a call that was refused has no outcome, so an instance was lent
  cases hcarried with
  | early henter =>
    have hbeginning := beginning_enter setup e hleased.orderly
    rw [henter] at hbeginning
    cases hbeginning with
    | ended hcompletion => exact absurd rfl (hcompletion o)
  | @concluded s ended i z henter hran hends =>
    obtain ⟨left, -, hstalled, -, hnone⟩ := hleased.run henter htidy hkeeps hran
    obtain rfl : left = [] := hnone.resolve_left hends
    obtain ⟨inner, hruns, hapart⟩ := hleased.runs henter htidy hkeeps
      (records_invokeWithin setup breaksOff levels) hran hstalled
    have hinst := Instance.ran_callGuest setup.guest
      (hostCalls setup (invokeWithin setup breaksOff levels)) breaksOff
      s.context (budgetOf setup e.call) s.inst s.host
    rw [hran] at hinst
    obtain ⟨hcontract, -, hmethod, -⟩ := context_of_enter henter
    exact ⟨s, ended, i, z, inner, henter, hcontract, hmethod, hran, hinst, hapart,
      (h.trans hruns).ending rfl ended⟩

/-- What is recorded of a host is what it counts. -/
theorem Recorded.counts (h : Recorded setup uses busy x) : CountsFailures setup uses busy x := by
  have hbooked := h.booked
  constructor
  case held => exact hbooked.held
  case lent => exact hbooked.lent
  -- an instance that has been given up is marked as gone, and what is gone stays so
  case discarded =>
    intro n hmany more rest y hruns
    have hmarked : Leased setup (insert n ∅) busy x := hbooked.toLeased.mark (hbooked.gone hmany)
    exact (hruns.leased hmarked).ended (Set.mem_insert _ _)
  case concluded =>
    intro l rest hl c hc ended
    have hfirst := h.trans (.single (.reorder x hl))
    rw [List.append_nil] at hfirst
    exact hfirst.ending hc ended
  case called =>
    intro breaksOff levels e o y hperform
    cases levels with
    | zero => cases e <;> cases hperform
    | succ levels => exact h.called hperform

/-- **Every host counts the breakdowns in a row.**  Whatever has happened there, step by step, in
whole calls and in calls nested in them, there is a record of it; and with any record the instances
in pools and in use have counted how often in a row they have broken down, and an instance of which
that is too often is gone for good.  A call that has come to its end counts as sound, and keeps the
pool of its contract open, even if it has failed. -/
theorem counts_failures (setup : HostSetup) :
    (∀ {busy : List Lease} {x : Host τ}, Reached setup busy x →
      ∃ uses, Recorded setup uses busy x) ∧
    ∀ {uses : List Use} {busy : List Lease} {x : Host τ}, Recorded setup uses busy x →
      CountsFailures setup uses busy x :=
  ⟨fun h => h.recorded, fun h => h.counts⟩

/-- A contract that traps has broken down once, and its instance is ready again. -/
theorem counts_failures_trapping :
    ∃ (uses : List Use) (y : Host Session) (p : Pool) (i : Instance), Reached singleSetup [] y ∧
      Recorded singleSetup uses [] y ∧ CountsFailures singleSetup uses [] y ∧
      y.pools.get? 0 = some p ∧ p.held = [i] ∧ i.errors = 1 ∧ streak uses i.id = 1 := by
  have hcode : code? (trappedHost.invoke singleSetup trapping).1 = some 1 := by decide +kernel
  have hpool : ((trappedHost.invoke singleSetup trapping).2.pools.get? 0).map (fun p =>
      p.held.map (·.errors)) = some [1] := by decide +kernel
  cases hinvoke : trappedHost.invoke singleSetup trapping with
  | mk completion y =>
    rw [hinvoke] at hcode hpool
    obtain ⟨o, rfl, -⟩ := exists_of_code? hcode
    obtain ⟨p, hp, herrors⟩ := Option.map_eq_some_iff.mp hpool
    obtain ⟨i, hheld, hone⟩ := List.map_eq_singleton_iff.mp herrors
    have hreached : Reached singleSetup [] y :=
      (Reached.new singleSetup trappedHost.ledger).tail (.serve (perform_of_invoke hinvoke))
    obtain ⟨hrecords, hcounts⟩ := counts_failures (τ := Session) singleSetup
    obtain ⟨uses, huses⟩ := hrecords hreached
    have hcount := ((hcounts huses).held hp i (hheld ▸ List.mem_singleton_self i)).counted
    refine ⟨uses, y, p, i, hreached, huses, hcounts huses, hp, hheld, hone, ?_⟩
    rw [hone] at hcount
    change 1 = min _ (UInt32.size - 1) at hcount
    unfold UInt32.size at hcount
    omega

/-! ### Failures that count for nothing -/

/-- A call of a contract that does nothing but report an error. -/
def refusing (method : String) : Call :=
  let header := headerOf 1 .errorResult
  let body := Utf8.encode "no"
  let script : Script :=
    { data := [(1024, header ++ body)]
      methods := [(method, { body := [askedAt 1024 header body] })] }
  { contract := ⟨"refusing", "1"⟩, code := ⟨[1], some script⟩, method }

/-- **Failures that count for nothing.**  A contract that reports an error when it is to be set up
fails, and its pool stays filed and open.  One that reports an error in another method fails as
well, and its instance is ready again without having counted that. -/
theorem failures_without_count :
    (∃ (o : Outcome) (y : Host Session) (p : Pool),
      trappedHost.invoke singleSetup (refusing exportNames.init) = (.finished (.ok o), y) ∧
        o.code = 1 ∧ y.pool? ⟨"refusing", "1"⟩ = some p ∧ p.closed = false) ∧
    ∃ (o : Outcome) (y : Host Session) (p : Pool),
      trappedHost.invoke singleSetup (refusing "run") = (.finished (.ok o), y) ∧
        o.code = 1 ∧ y.pool? ⟨"refusing", "1"⟩ = some p ∧ p.held.map (·.errors) = [0] := by
  constructor
  · have hcode : code? (trappedHost.invoke singleSetup (refusing exportNames.init)).1 = some 1 := by
      decide +kernel
    have hpool : ((trappedHost.invoke singleSetup (refusing exportNames.init)).2.pool?
        ⟨"refusing", "1"⟩).map (·.closed) = some false := by decide +kernel
    generalize trappedHost.invoke singleSetup (refusing exportNames.init) = ended at hcode hpool ⊢
    obtain ⟨completion, y⟩ := ended
    obtain ⟨o, rfl, hfailed⟩ := exists_of_code? hcode
    obtain ⟨p, hp, hopen⟩ := Option.map_eq_some_iff.mp hpool
    exact ⟨o, y, p, rfl, hfailed, hp, hopen⟩
  · have hcode : code? (trappedHost.invoke singleSetup (refusing "run")).1 = some 1 := by
      decide +kernel
    have hpool : ((trappedHost.invoke singleSetup (refusing "run")).2.pool?
        ⟨"refusing", "1"⟩).map (fun p => p.held.map (·.errors)) = some [0] := by decide +kernel
    generalize trappedHost.invoke singleSetup (refusing "run") = ended at hcode hpool ⊢
    obtain ⟨completion, y⟩ := ended
    obtain ⟨o, rfl, hfailed⟩ := exists_of_code? hcode
    obtain ⟨p, hp, herrors⟩ := Option.map_eq_some_iff.mp hpool
    exact ⟨o, y, p, rfl, hfailed, hp, herrors⟩

end Host

end ContractHost
