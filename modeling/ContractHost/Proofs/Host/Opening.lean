import ContractHost.Proofs.Host.Frame

/-!
# What a pool is made of

As long as instances are not made in reserved slots, whether a module can be instantiated, and what
it gives then, is settled by the module and the settings.  So is the module that a contract's code
gives.  A pool that is filed may hide this: it answers for its key with the module that it was made
of, whatever code comes with the call.  But where only one module ever comes up under a key, it does
not matter whether the pool was there already.

## Main definitions

* `trial` — the instance that a module gives.
* `opening` — the module that a contract's pool is made of.
* `Unambiguous` — under every key only one module comes up.
* `Host.Made` — everything filed was made of a code that may come up.

## Main results

* `Host.agree_createInstance` — **the same instance on every host.**
* `Host.agree_openPool` — **the same module, whether the pool was there or not.**
-/

namespace ContractHost

variable {setup : HostSetup}

/-- Host calls that refuse every request. -/
def silent : HostCalls Unit where
  request _ _ caller world := (.signal signals.failure, caller, world)
  log _ _ _ _ world := world

/-- The instance that a module gives, if it gives one, on a host without other instances. -/
def trial (setup : HostSetup) (m : Module) : Except ExecutionError Instance :=
  (Instance.create setup.guest silent setup.config.engine setup.config.execution m 0 0 ()).1

/-- The module that the pool of a contract is made of, if one can be made. -/
def opening (setup : HostSetup) (c : ContractId) (code : Code) : Except ExecutionError Module := do
  let m ← Host.making setup c code
  let _ ← trial setup m
  pure m

/-- Among contracts with their codes, only one module comes up under a key. -/
def Unambiguous (setup : HostSetup) (D : ContractId → Code → Prop) : Prop :=
  ∀ {c code d code'}, D c code → D d code' → c.key = d.key →
    opening setup c code = opening setup d code'

theorem opening_of_error {c : ContractId} {code : Code} {e : ExecutionError}
    (h : Host.making setup c code = .error e) : opening setup c code = .error e := by
  unfold opening
  rw [h]
  rfl

theorem opening_of_ok {c : ContractId} {code : Code} {m : Module}
    (h : Host.making setup c code = .ok m) :
    opening setup c code = (trial setup m).map fun _ => m := by
  unfold opening
  rw [h]
  cases htrial : trial setup m <;> simp [htrial, bind, Except.bind, pure, Except.pure, Except.map]

namespace Host

variable {τ : Type} [LedgerAccess τ]

/-! ### Instances -/

theorem alike_silent {linkage : Linkage} (h : linkage.bound = none)
    (hsteady : linkage.breaksOff = false) :
    HostCalls.Alike (fun (_ : Host τ) (_ : Unit) => True) linkage (idleCalls setup) silent where
  steady := hsteady
  answers {c c' x x'} regions _ _ := by
    simp only [idleCalls, hostCalls, request_of_unbound h]
    rintro ⟨⟩
  request {c c' x x'} regions hc hx := by
    have hrequest := request_of_unbound h setup (fun _ y => (.suspended, y)) regions c x
    simp only [idleCalls, hostCalls, hrequest]
    exact ⟨rfl, hc, hx⟩
  log _ _ _ _ := trivial

/-- **The same instance on every host.** -/
theorem agree_createInstance (hslots : setup.config.engine.poolingAllocator = false) (m : Module)
    (x : Host τ) : Agree Instance.Same (createInstance setup m x).1 (trial setup m) := by
  have hcreate : Instance.Creations (fun (_ : Host τ) (_ : Unit) => True)
      (Instance.create setup.guest (idleCalls setup) setup.config.engine setup.config.execution m
        x.nextInstance x.live x)
      (Instance.create setup.guest silent setup.config.engine setup.config.execution m 0 0 ()) :=
    Instance.alike_create (fun _ => alike_silent) trivial m x.nextInstance 0
      fun hpooling => absurd hpooling (by simp [hslots])
  have hresult := hcreate.result
  unfold createInstance trial
  generalize Instance.create setup.guest (idleCalls setup) _ _ m x.nextInstance x.live x = a
    at hresult ⊢
  obtain ⟨result, y⟩ := a
  cases result with
  | ok i => exact hresult
  | error e => exact hresult

/-! ### Pools -/

/-- Everything filed was made of a code that may come up. -/
def Made (setup : HostSetup) (D : ContractId → Code → Prop) (x : Host τ) : Prop :=
  x.Files fun key c m => c.key = key ∧ ∃ code, D c code ∧ opening setup c code = .ok m

/-- The result of opening is a pool of the module. -/
def Gives (x : Host τ) (id : PoolId) (m : Module) : Prop :=
  ∃ p, x.pools.get? id = some p ∧ p.program = m

section

variable {D : ContractId → Code → Prop} {x : Host τ} {c : ContractId} {code : Code}

/-- A pool is created exactly if its module can be made and instantiated. -/
theorem agree_createPool (hslots : setup.config.engine.poolingAllocator = false) (x : Host τ)
    (c : ContractId) (code : Code) :
    Agree (fun id m => (x.createPool setup c code).2.Gives id m) (x.createPool setup c code).1
      (opening setup c code) := by
  rw [createPool_eq]
  cases hm : making setup c code with
  | error e =>
    rw [opening_of_error hm]
    exact .error e
  | ok m =>
    -- the instance on trial tells whether there will be a pool
    have htrial := agree_createInstance hslots m x
    have hlabel := (Pool.stays_create (within_supply setup) c m (x.terms setup) x).2
    rw [opening_of_ok hm]
    dsimp only
    cases hp : Pool.create (supply setup) c m (x.terms setup) x with
    | mk result y =>
      cases result with
      | error e =>
        have hcreate : createInstance setup m x = (.error e, y) := Pool.create_eq_error hp
        rw [hcreate] at htrial
        generalize trial setup m = t at htrial ⊢
        cases htrial
        exact .error e
      | ok p =>
        obtain ⟨i, z, hcreate, -, -⟩ := Pool.create_eq_ok hp
        have hi : createInstance setup m x = (.ok i, z) := hcreate
        rw [hp] at hlabel
        rw [hi] at htrial
        generalize trial setup m = t at htrial ⊢
        cases htrial
        refine .ok ⟨p, OrderedMap.get?_insert_self _ _ _, ?_⟩
        exact congrArg (·.2.1) (hlabel p rfl).1

/-- **The same module, whether the pool was there or not.** -/
theorem agree_openPool (hslots : setup.config.engine.poolingAllocator = false)
    (hD : Unambiguous setup D) (h : Made setup D x) (hc : D c code) :
    Agree (fun id m => (x.openPool setup c code).2.Gives id m) (x.openPool setup c code).1
      (opening setup c code) := by
  unfold openPool
  split
  · rename_i id hid
    obtain ⟨p, hp⟩ := Option.isSome_iff_exists.mp (h.orderly.filed hid)
    have hfiled : x.filed? c.key = some p.label := by
      have hregistered : x.registered.get? c.key = some id := hid
      unfold filed?
      rw [hregistered, Option.bind_some, hp]
      rfl
    obtain ⟨hkey, code', hd, hmodule⟩ := h.each hfiled
    -- the pool that is filed was made of the one module that comes up under this key
    rw [hD hc hd hkey.symm, hmodule]
    exact .ok ⟨p, hp, rfl⟩
  · exact agree_createPool hslots x c code

/-- Opening files nothing but what may come up. -/
theorem Made.openPool (hslots : setup.config.engine.poolingAllocator = false)
    (h : Made setup D x) (hc : D c code) : Made setup D (x.openPool setup c code).2 := by
  refine Files.openPool h fun {m i z} hm hcreate => ⟨rfl, code, hc, ?_⟩
  have htrial := agree_createInstance hslots m x
  rw [hcreate] at htrial
  rw [opening_of_ok hm]
  generalize trial setup m = t at htrial ⊢
  cases htrial
  rfl

/-- Where two calls stand that asked for an instance: with instances that match, or with none for
the same reason. -/
inductive Obtained.Alike : Obtained → Obtained → Prop
  /-- Both have one. -/
  | instance {i i' : Instance} (h : i.Matches i') : Alike (.instance i) (.instance i')
  /-- There is none to be had. -/
  | refused (e : ExecutionError) : Alike (.refused e) (.refused e)
  /-- Both wait, under whatever numbers. -/
  | waiting (ticket ticket' : Ticket) : Alike (.waiting ticket) (.waiting ticket')

/-- **Outside of pools the same instances are made**, and nobody waits for them. -/
theorem alike_takeDetached (hslots : setup.config.engine.poolingAllocator = false) {x x' : Host τ}
    {id id' : PoolId} {m : Module} (h : x.Gives id m) (h' : x'.Gives id' m) :
    Obtained.Alike (x.takeDetached setup id).1 (x'.takeDetached setup id').1 ∧
      ∀ ticket, (x.takeDetached setup id).1 ≠ .waiting ticket := by
  obtain ⟨p, hp, rfl⟩ := h
  obtain ⟨p', hp', hprogram⟩ := h'
  -- both are made from the same program, whatever else the two hosts hold
  have hmade := (agree_createInstance hslots p.program x).join
    (agree_createInstance hslots p.program x')
  rw [takeDetached_of_some hp, takeDetached_of_some hp', hprogram]
  generalize createInstance setup p.program x = a at hmade ⊢
  generalize createInstance setup p.program x' = a' at hmade ⊢
  obtain ⟨result, y⟩ := a
  obtain ⟨result', y'⟩ := a'
  cases hmade with
  | error e => exact ⟨.refused e, fun _ => nofun⟩
  | ok hi =>
    obtain ⟨j, hj, hj'⟩ := hi
    have hm := (hj.trans hj'.symm).toMatches
    exact ⟨.instance ⟨hm.script, hm.pageLimit, hm.memory, hm.gas, hm.bound⟩, fun _ => nofun⟩

end

end Host

end ContractHost
