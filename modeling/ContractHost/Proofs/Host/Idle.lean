import ContractHost.Host.Pools
import ContractHost.Proofs.Guest.Instances
import ContractHost.Proofs.Pool.Frame

/-!
# Instances that serve nobody

In its first and last actions an instance serves no invocation.  Whatever it requests then is
refused, and what it logs goes into the journal.  So the making and the ending of instances change
the journal of a host and its count of instances, and nothing else.

## Main definitions

* `Host.Idled` — only the journal and the count of instances have changed.

## Main results

* `Host.alike_idle` — **for an instance that serves nobody all hosts are alike**, whatever they have
  in common besides their journals.
* `Host.createInstance_eq_ok`, `createInstance_eq_error`, `teardownInstance_eq` — what the making
  and the ending of an instance leave.
* `Host.within_supply` — **the supply of a host leaves the rest of it alone.**
* `Host.fresh_supply` — its instances serve nobody at first, and have not failed.
-/

namespace ContractHost

namespace Host

variable {τ τ' : Type}

/-! ### Requests of nobody -/

theorem addressee?_of_unbound {linkage : Linkage} (h : linkage.bound = none) (r : Regions)
    (m : Memory) (x : Host τ) : x.addressee? linkage r m = none := by
  unfold addressee?
  split
  · rfl
  · cases (readRequest linkage m r).toOption with
    | none => rfl
    | some request =>
      obtain ⟨header, body⟩ := request
      -- whatever handle the header names, the instance is bound to none
      cases hheader : (readHeader header).toOption with
      | none => simp only [Option.bind_eq_bind, Option.bind_some, hheader, Option.bind_none]
      | some named => simp [h]

/-- The host as it was, but for its journal. -/
def Logged (x y : Host τ) : Prop :=
  ∃ journal, y = { x with journal }

theorem Logged.refl (x : Host τ) : Logged x x :=
  ⟨x.journal, rfl⟩

variable [LedgerAccess τ] [LedgerAccess τ'] {setup : HostSetup}

/-- **A request of nobody is refused.** -/
theorem request_of_unbound {linkage : Linkage} (h : linkage.bound = none) (setup : HostSetup)
    (invoke : Invoker τ) (r : Regions) (caller : Caller) (x : Host τ) :
    x.request setup invoke linkage r caller = (.signal signals.failure, caller, x) := by
  unfold request
  rw [addressee?_of_unbound h]

theorem log_of_unbound {linkage : Linkage} (h : linkage.bound = none) (ptr len : Int32)
    (m : Memory) (x : Host τ) : ∃ journal, x.log linkage ptr len m = { x with journal } := by
  unfold log
  rw [h]
  split
  · exact ⟨x.journal, rfl⟩
  · exact ⟨_, rfl⟩

/-- **For an instance that serves nobody all hosts are alike.** -/
theorem alike_idle {R : Host τ → Host τ' → Prop}
    (hR : ∀ {x x'} (j j' : List LogLine), R x x' →
      R { x with journal := j } { x' with journal := j' })
    {linkage : Linkage} (h : linkage.bound = none) (hsteady : linkage.breaksOff = false)
    (setup setup' : HostSetup) (invoke : Invoker τ)
    (invoke' : Invoker τ') :
    HostCalls.Alike R linkage (hostCalls setup invoke) (hostCalls setup' invoke') where
  steady := hsteady
  answers {c c' x x'} regions _ _ := by
    simp only [hostCalls, request_of_unbound h]
    exact nofun
  request {c c' x x'} regions hc hx := by
    have hrequest := request_of_unbound h setup invoke regions c x
    have hrequest' := request_of_unbound h setup' invoke' regions c' x'
    simp only [hostCalls, hrequest, hrequest']
    exact ⟨trivial, hc, hx⟩
  log {m m' x x'} ptr len _ hx := by
    obtain ⟨j, hj⟩ := log_of_unbound h ptr len m x
    obtain ⟨j', hj'⟩ := log_of_unbound h ptr len m' x'
    simp only [hostCalls, hj, hj']
    exact hR j j' hx

/-! ### Making and ending instances -/

/-- Being as before, but for the journal, is a relation that idle work keeps. -/
theorem alike_logged (setup : HostSetup) (x : Host τ) {linkage : Linkage} (h : linkage.bound = none)
    (hsteady : linkage.breaksOff = false) :
    HostCalls.Alike (fun y z => Logged x y ∧ Logged x z) linkage (idleCalls setup)
      (idleCalls setup) := by
  refine alike_idle (fun j j' hyz => ?_) h hsteady setup setup _ _
  obtain ⟨⟨_, rfl⟩, ⟨_, rfl⟩⟩ := hyz
  exact ⟨⟨j, rfl⟩, ⟨j', rfl⟩⟩

theorem logged_create (setup : HostSetup) (x : Host τ) (m : Module) (id live : Nat) :
    Logged x (Instance.create setup.guest (idleCalls setup) setup.config.engine
      setup.config.execution m id live x).2 :=
  (Instance.alike_create (fun _ => alike_logged setup x) ⟨.refl x, .refl x⟩ m id id
    fun _ => Iff.rfl).world.1

theorem createInstance_eq_ok {m : Module} {x y : Host τ} {i : Instance}
    (h : createInstance setup m x = (.ok i, y)) :
    (i.id = x.nextInstance ∧ i.bound = none ∧ i.detached = false ∧ i.errors = 0) ∧
      ∃ journal, y = { x with
        journal, live := x.live + 1, nextInstance := x.nextInstance + 1 } := by
  have hworld := logged_create setup x m x.nextInstance x.live
  unfold createInstance at h
  split at h
  · rename_i j z hz
    cases h
    rw [hz] at hworld
    obtain ⟨journal, rfl⟩ := hworld
    exact ⟨Instance.create_eq_ok hz, journal, rfl⟩
  · cases h

/-- The engine can hold an instance at all. -/
def HasSlot (setup : HostSetup) : Prop :=
  setup.config.engine.poolingAllocator = true → 0 < setup.config.engine.maxInstances.toNat

/-- An instance was made, so there was a slot for it. -/
theorem hasSlot_of_create {m : Module} {x y : Host τ} {i : Instance}
    (h : createInstance setup m x = (.ok i, y)) : HasSlot setup := by
  intro hpooling
  unfold createInstance at h
  split at h
  · rename_i j z hz
    have hfree := Instance.slot_of_create hz hpooling
    exact Nat.zero_lt_of_lt hfree
  · cases h

/-- **A module without contents can be instantiated**, as long as there is a slot. -/
theorem createInstance_blank {m : Module} (hm : m.script = .blank) (x : Host τ)
    (hslot : setup.config.engine.poolingAllocator = true →
      x.live < setup.config.engine.maxInstances.toNat) :
    ∃ i y, createInstance setup m x = (.ok i, y) := by
  have hcreate := Instance.create_blank setup.guest (idleCalls setup) setup.config.execution hm
    x.nextInstance hslot x
  unfold createInstance
  rw [hcreate]
  exact ⟨_, _, rfl⟩

theorem createInstance_eq_error {m : Module} {x y : Host τ} {e : ExecutionError}
    (h : createInstance setup m x = (.error e, y)) : Logged x y := by
  have hworld := logged_create setup x m x.nextInstance x.live
  unfold createInstance at h
  split at h
  · cases h
  · rename_i e' z hz
    cases h
    rw [hz] at hworld
    exact hworld

theorem teardownInstance_eq (setup : HostSetup) {i : Instance} (h : i.bound = none) (x : Host τ) :
    ∃ journal, teardownInstance setup i x = { x with journal, live := x.live - 1 } := by
  have hlinkage : (i.linkage false).bound = none := h
  obtain ⟨⟨journal, hy⟩, -⟩ := Instance.alike_teardown
    (alike_logged setup x hlinkage rfl) (.refl i) ⟨.refl x, .refl x⟩
  refine ⟨journal, ?_⟩
  unfold teardownInstance
  rw [hy]
  rfl

/-! ### The supply -/

/-- Only the journal and the count of instances have changed, and no number was taken back. -/
structure Idled (x y : Host τ) : Prop where
  /-- The ledger is as before. -/
  ledger : y.ledger = x.ledger
  /-- The invocations under way are. -/
  registry : y.registry = x.registry
  /-- The pools are. -/
  pools : y.pools = x.pools
  /-- They are filed as before. -/
  registered : y.registered = x.registered
  /-- No pool was added. -/
  nextPool : y.nextPool = x.nextPool
  /-- No more calls are stalled. -/
  stalled : y.stalled = x.stalled
  /-- No more calls wait. -/
  queued : y.queued = x.queued
  /-- It is as late as before. -/
  uptime : y.uptime = x.uptime
  /-- Numbers go up. -/
  nextInstance : x.nextInstance ≤ y.nextInstance

omit [LedgerAccess τ] in
theorem Idled.refl (x : Host τ) : Idled x x :=
  ⟨rfl, rfl, rfl, rfl, rfl, rfl, rfl, rfl, Nat.le_refl _⟩

/-- **The supply of a host leaves the rest of it alone.** -/
theorem within_supply (setup : HostSetup) : (supply setup : Supply (Host τ)).Within Idled where
  refl := Idled.refl
  trans h h' := ⟨h'.ledger.trans h.ledger, h'.registry.trans h.registry, h'.pools.trans h.pools,
    h'.registered.trans h.registered, h'.nextPool.trans h.nextPool, h'.stalled.trans h.stalled,
    h'.queued.trans h.queued, h'.uptime.trans h.uptime, h.nextInstance.trans h'.nextInstance⟩
  -- creating an instance writes to the journal and takes the next number, no more
  create m x := by
    cases hcreate : createInstance setup m x with
    | mk result y =>
      show Idled x (createInstance setup m x).2
      rw [hcreate]
      cases result with
      | ok i =>
        obtain ⟨-, journal, rfl⟩ := createInstance_eq_ok hcreate
        exact ⟨rfl, rfl, rfl, rfl, rfl, rfl, rfl, rfl, Nat.le_succ _⟩
      | error e =>
        obtain ⟨journal, rfl⟩ := createInstance_eq_error hcreate
        exact ⟨rfl, rfl, rfl, rfl, rfl, rfl, rfl, rfl, Nat.le_refl _⟩
  unbound h := (createInstance_eq_ok h).1.2.1
  teardown {i} x h := by
    obtain ⟨journal, hy⟩ := teardownInstance_eq setup h x
    show Idled x (teardownInstance setup i x)
    rw [hy]
    exact ⟨rfl, rfl, rfl, rfl, rfl, rfl, rfl, rfl, Nat.le_refl _⟩
  drop i x := ⟨rfl, rfl, rfl, rfl, rfl, rfl, rfl, rfl, Nat.le_refl _⟩

theorem script_of_createInstance {m : Module} {x y : Host τ} {i : Instance}
    (h : createInstance setup m x = (.ok i, y)) : i.script = m.script := by
  unfold createInstance at h
  split at h
  · rename_i j z hcreate
    cases h
    obtain ⟨_, memory, gas, rfl⟩ := Instance.ran_of_create hcreate
    rfl
  · cases h

theorem fresh_supply (setup : HostSetup) : (supply setup : Supply (Host τ)).Fresh := by
  intro m x i y h
  obtain ⟨-, hunbound, -, herrors⟩ := (createInstance_eq_ok h).1
  exact ⟨hunbound, herrors⟩

end Host

end ContractHost
