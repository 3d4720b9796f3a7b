import ContractHost.Proofs.Host.Holding
import ContractHost.Proofs.Host.Records
import ContractHost.Proofs.Host.Registration

/-!
# Of which module an instance is

A pool makes its instances of one module, and an instance has the script of its module for as long
as it exists.  It goes back to the pool that it comes from, or nowhere.  So whatever happens on a
host, what is known of the module of a pool is known of every instance that the pool holds, and of
every one that a call has from it.

## Main definitions

* `Host.alien` — instances that are not of a module.
* `Host.Kindred` — all instances are of the modules of their pools.

## Main results

* `Host.Lasting.step` — what lasts survives single steps.
* `Host.Step.kindred` — **no step mixes instances of different modules.**
* `Host.Reached.kindred` — **so no run does**, whatever has happened.
* `Host.Kindred.enter` — a call that begins has an instance of the module of its pool.
-/

namespace ContractHost

namespace Host

variable {τ : Type} [LedgerAccess τ] {setup : HostSetup} {x y : Host τ}
variable {busy rest : List Lease} {uses more : List Use} {l : Lease} {n : Nat}

/-! ### What lasts -/

/-- **What lasts survives single steps.** -/
theorem Lasting.step {P : Host τ → Prop} (h : Lasting setup P) {u v : Tenancy τ}
    (hstep : Step setup u more v) (hu : P u.host) : P v.host := by
  have horderly := h.orderly hu
  -- step by step; what concerns pools is within what the property lasts through
  cases hstep with
  | reorder x hperm => exact hu
  | move busy x ledger journal stalled uptime => exact h.elsewhere hu rfl rfl rfl
  | order busy x order => exact h.carryOut hu order
  | wait busy x id milliseconds =>
    exact h.work hu (unmoved_tell setup horderly id (fun _ hp => hp) (fun _ => rfl) fun _ => rfl)
  | advance busy x id seconds =>
    exact h.work hu (unmoved_tell setup horderly id (fun _ hp => hp) (fun _ => rfl) fun _ => rfl)
  | @early busy x e ended henter => exact (h.enter e hu).1 ended henter
  | leave busy x q => exact h.work hu (unmoved_leave setup horderly q)
  | @enter busy x e s henter => exact (h.enter e hu).2 s henter
  | work rest x hran => exact hu
  | rewrite hmem hrewritten =>
    obtain ⟨c, -, rfl⟩ := hrewritten
    exact h.elsewhere hu rfl rfl rfl
  | conclude rest x hc ended => exact h.conclude _ _ ended _ hu
  | abandon rest l x => exact h.work hu (unmoved_abandonLease setup horderly l)

/-- **A step leaves every pool with its label.** -/
theorem Step.endures {u v : Tenancy τ} (h : Step setup u more v) (hu : u.host.Orderly) :
    u.host.Endures v.host :=
  ((lasting_endures setup u.host).step h ⟨hu, .refl u.host⟩).2

/-! ### Instances of other modules -/

/-- The instances that are not of the module. -/
def alien (m : Module) (i : Instance) : Bool :=
  !decide (i.script = m.script)

theorem alien_eq_false_iff {m : Module} {i : Instance} :
    alien m i = false ↔ i.script = m.script := by
  unfold alien
  rw [Bool.not_eq_false', decide_eq_true_iff]

/-- New instances are of the module that they are made of. -/
theorem spares_alien (n : Nat) : Pool.Spares n alien where
  told _ _ hscript := by
    unfold alien
    rw [hscript]
  new _ _ hscript := alien_eq_false_iff.mpr hscript

theorem script_noted (setup : HostSetup) (c : Context) (ended : Except CallFault Unit)
    (i : Instance) : (noted setup c ended i).script = i.script := by
  unfold noted
  split
  · rfl
  · split <;> rfl

/-- The leases `busy` are in use, and all instances are of the modules of their pools, those that
pools hold and those in use. -/
structure Kindred (setup : HostSetup) (busy : List Lease) (x : Host τ) : Prop
    extends Leased setup ∅ busy x where
  /-- What a pool holds is of its module. -/
  held : ∀ {id p}, x.pools.get? id = some p → ∀ i ∈ p.held, i.script = p.program.script
  /-- What is in use is of the module of the pool that it comes from. -/
  lent : ∀ l ∈ busy, ∀ {p}, x.pools.get? l.pool = some p → l.inst.script = p.program.script

namespace Kindred

theorem of_empty (setup : HostSetup) (ledger : τ) : Kindred setup [] ({ ledger } : Host τ) where
  toLeased := .of_empty setup ledger
  held hp := nomatch hp
  lent _ hl := absurd hl List.not_mem_nil

theorem free (h : Kindred setup busy x) : x.Free x.nextInstance alien where
  orderly := h.orderly
  pools hp := List.countP_eq_zero.mpr fun i hi =>
    Bool.eq_false_iff.mp (alien_eq_false_iff.mpr (h.held hp i hi))
  next := le_rfl

/-- The pool that an instance in use comes from is there. -/
theorem exists_pool (h : Kindred setup busy x) (hl : l ∈ busy) :
    ∃ p, x.pools.get? l.pool = some p := by
  obtain ⟨out, hlends, hout⟩ := h.lends
  obtain ⟨i, hi, -⟩ := hout.exists_mem hl
  exact hlends.exists_pool hi

/-- An instance in use is of the module that its pool has later. -/
theorem lent_of_endures (h : Kindred setup busy x) (hendures : x.Endures y) (hl : l ∈ busy)
    {q : Pool} (hq : y.pools.get? l.pool = some q) : l.inst.script = q.program.script := by
  obtain ⟨p, hp⟩ := h.exists_pool hl
  obtain ⟨q', hq', hlabel, -⟩ := hendures.pool hp
  obtain rfl := Option.some.inj (hq.symm.trans hq')
  rw [Pool.program_eq_of_label hlabel]
  exact h.lent l hl hp

theorem keep (h : Kindred setup busy x) (hleased : Leased setup ∅ rest y) (hfree : y.Free n alien)
    (hendures : x.Endures y) (hrest : ∀ l ∈ rest, l ∈ busy) : Kindred setup rest y where
  toLeased := hleased
  held hp _ hi := alien_eq_false_iff.mp ((hfree.pools hp).of_held hi)
  lent _ hl _ hq := h.lent_of_endures hendures (hrest _ hl) hq

/-- **A call that begins has an instance of the module of its pool.** -/
theorem enter (h : Kindred setup busy x) {e : Entry} {s : Begun τ}
    (henter : x.enter setup e = .ok s) {p : Pool} (hp : s.host.pools.get? s.pool = some p) :
    s.inst.script = p.program.script := by
  have hbegun : s.host.Free x.nextInstance alien ∧ Spared alien s.pool s.host s.inst :=
    (h.free.enter (spares_alien _) e).2 s henter
  obtain ⟨-, m, hinst, hprogram⟩ := hbegun
  rw [hprogram hp]
  exact alien_eq_false_iff.mp hinst

theorem conclude (h : Kindred setup (l :: rest) x) (c : Context)
    (ended : Except CallFault Unit) :
    Free x.nextInstance alien (x.conclude setup l.pool c ended l.inst).2 := by
  have hremoved : Free x.nextInstance alien { x with registry := x.registry.remove c.handle } :=
    h.free.move rfl (h.orderly.congr rfl rfl rfl) le_rfl
  have hback : Free x.nextInstance alien ({ x with registry := x.registry.remove c.handle }.giveBack
      setup l.pool (noted setup c ended l.inst)) :=
    hremoved.giveBack (spares_alien _) l.pool fun hp _ => alien_eq_false_iff.mpr
      ((script_noted setup c ended l.inst).trans (h.lent l List.mem_cons_self hp))
  obtain ⟨-, heq⟩ | ⟨-, heq⟩ := snd_conclude setup x l.pool c ended l.inst
  · rw [heq]
    exact hback
  · rw [heq]
    exact hback.closeKey (spares_alien _) c.contract.key

end Kindred

/-! ### No step mixes instances of different modules -/

/-- **No step mixes instances of different modules.** -/
theorem Step.kindred {u v : Tenancy τ} (h : Step setup u more v)
    (hu : Kindred setup u.busy u.host) : Kindred setup v.busy v.host := by
  have hleased := h.leased hu.toLeased
  have hendures := h.endures hu.orderly
  have hspares : Pool.Spares u.host.nextInstance alien := spares_alien _
  -- an instance that is lent or held has the script of its pool, and no step changes a script
  cases h.transfer hleased.orderly hspares hu.free with
  | idle hfree hbusy => exact hu.keep hleased hfree hendures hbusy
  | lend henter hfree hspared =>
    refine ⟨hleased, fun hp i hi => alien_eq_false_iff.mp ((hfree.pools hp).of_held hi), ?_⟩
    exact List.forall_mem_cons.mpr ⟨hu.enter henter, fun l hl p => hu.lent_of_endures hendures hl⟩
  | work hfree hran =>
    obtain ⟨hl, hrest⟩ := List.forall_mem_cons.mp hu.lent
    obtain ⟨memory, gas, rfl⟩ := hran
    exact ⟨hleased, hu.held, List.forall_mem_cons.mpr ⟨hl, hrest⟩⟩
  | back hc ended =>
    exact hu.keep hleased (hu.conclude _ ended) hendures fun _ => List.mem_cons_of_mem _

theorem Runs.kindred {u v : Tenancy τ} (h : Runs setup u uses v)
    (hu : Kindred setup u.busy u.host) : Kindred setup v.busy v.host := by
  induction h with
  | refl => exact hu
  | tail _ hstep ih => exact hstep.kindred ih

/-- **So no run does**, whatever has happened. -/
theorem Reached.kindred (h : Reached setup busy x) : Kindred setup busy x := by
  obtain ⟨uses, ledger, hruns⟩ := h.recorded
  exact hruns.kindred (.of_empty setup ledger)

end Host

end ContractHost
