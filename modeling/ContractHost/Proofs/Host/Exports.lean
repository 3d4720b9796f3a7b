import ContractHost.Proofs.Host.Filing
import ContractHost.Proofs.Host.Kindred
import ContractHost.Proofs.Host.Opening

/-!
# Exports that are missing

A module reports which of the exports that every call needs it is without.  A call looks them up one
by one on its instance, and in between the instance works.  It comes to its method only if it finds
all of them, and it complains of none that the report does not name.  So the report tells whether
calls of the contract can succeed at all.

## Main definitions

* `Needs` — what the result of a step says of the exports that it needs.
* `Host.prepare` — the steps of a call before its method.
* `Host.ServedBy` — the contract of a call has a pool of a module.
* `Host.ReportsExports` — what the report says of the calls of the contract.

## Main results

* `Host.callGuest_eq` — a call is made ready, and then its method is called.
* `Host.needs_prepare` — **a call that is made ready misses nothing**, and complains of what is
  reported only.
* `Host.callGuest_of_missing`, `complaint_of_complete` — what that means for runs.
* `Host.reports_exports` — **the report is exact.**
-/

namespace ContractHost

/-! ### The report -/

namespace Module

variable {m : Module} {name : String}

/-- What is reported: the memory, if it is not exported, and the two functions, if they are not
exported with their types. -/
theorem mem_missingExports : name ∈ m.missingExports ↔
    name = exportNames.memory ∧ m.script.exportsMemory = false ∨
      name = exportNames.runtimeType ∧ m.script.typed? exportNames.runtimeType 0 1 = none ∨
      name = exportNames.allocate ∧ m.script.typed? exportNames.allocate 1 1 = none := by
  unfold missingExports
  cases m.script.exportsMemory <;>
    cases m.script.typed? exportNames.runtimeType 0 1 <;>
      cases m.script.typed? exportNames.allocate 1 1 <;> simp

theorem memory_mem_missingExports :
    exportNames.memory ∈ m.missingExports ↔ m.script.exportsMemory = false := by
  simp [mem_missingExports, exportNames]

theorem runtimeType_mem_missingExports : exportNames.runtimeType ∈ m.missingExports ↔
    m.script.typed? exportNames.runtimeType 0 1 = none := by
  simp [mem_missingExports, exportNames]

theorem allocate_mem_missingExports : exportNames.allocate ∈ m.missingExports ↔
    m.script.typed? exportNames.allocate 1 1 = none := by
  simp [mem_missingExports, exportNames]

theorem missingExports_eq_nil (h : ∀ name ∈ [exportNames.runtimeType, exportNames.allocate,
    exportNames.memory], name ∉ m.missingExports) : m.missingExports = [] := by
  refine List.eq_nil_iff_forall_not_mem.mpr fun name hmem => h name ?_ hmem
  rcases mem_missingExports.mp hmem with ⟨rfl, -⟩ | ⟨rfl, -⟩ | ⟨rfl, -⟩ <;> decide

end Module

/-- The result of a step that needs some exports.  It complains of none but those that are reported,
and where it has come to its end, those that it needs are not. -/
structure Needs {α : Type} (m : Module) (names : List String) (result : Except CallFault α) :
    Prop where
  /-- What it complains of is reported. -/
  complaint : ∀ name, result = .error (.error (.exportNotFound name)) → name ∈ m.missingExports
  /-- What it has found is not. -/
  found : ∀ a, result = .ok a → ∀ name ∈ names, name ∉ m.missingExports

theorem Needs.error {α β : Type} {m : Module} {names names' : List String} {e : CallFault}
    (h : Needs m names (.error e : Except CallFault α)) :
    Needs m names' (.error e : Except CallFault β) :=
  ⟨fun name he => h.complaint name (congrArg Except.error (Except.error.inj he)), nofun⟩

namespace Instance

variable {σ α : Type} {i j : Instance} {m : Module} {name : String} {x : σ}

theorem Ran.script (h : i.Ran j) : j.script = i.script := by
  obtain ⟨memory, gas, rfl⟩ := h
  rfl

theorem call_ne_exportNotFound (i : Instance) (r : Run σ α) (x : σ) (name : String) :
    (i.call r x).1 ≠ .error (.error (.exportNotFound name)) := by
  show (i.run r x).1.mapError Halt.toCallFault ≠ _
  cases (i.run r x).1 with
  | ok a => nofun
  | error halt => cases halt <;> nofun

theorem needs_notExported (h : name ∈ m.missingExports) {names : List String} :
    Needs m names (i.notExported (α := α) name x).1 := by
  refine ⟨fun other he => ?_, nofun⟩
  cases he
  exact h

variable (guest : Guest) (calls : HostCalls σ) (breaksOff : Bool)

theorem needs_runtimeType (hm : i.script = m.script) (x : σ) :
    Needs m [exportNames.runtimeType] (i.runtimeType calls breaksOff x guest).1 := by
  unfold runtimeType
  rw [hm]
  cases hf : m.script.typed? exportNames.runtimeType 0 1 with
  | none => exact needs_notExported (Module.runtimeType_mem_missingExports.mpr hf)
  | some f =>
    refine ⟨fun name he => absurd he (call_ne_exportNotFound i _ x name), fun kind _ => ?_⟩
    rw [List.forall_mem_singleton, Module.runtimeType_mem_missingExports, hf]
    nofun

/-- An instance that takes parameters exports the function that gives room for them, and its
memory. -/
theorem needs_writeParams (hm : i.script = m.script) (params : Bytes) (x : σ) :
    Needs m [exportNames.allocate, exportNames.memory]
      (i.writeParams calls breaksOff params x guest).1 := by
  -- without the allocator nothing is called at all
  cases hf : i.script.typed? exportNames.allocate 1 1 with
  | none =>
    rw [writeParams_of_none hf]
    exact needs_notExported (Module.allocate_mem_missingExports.mpr (hm ▸ hf))
  | some f =>
    rw [writeParams_of_typed hf]
    have hcall := call_ne_exportNotFound i
      ((guest.call params.lengthWord.toInt32 f).run calls (i.linkage breaksOff)) x
    have hscript := (ran_call i
      ((guest.call params.lengthWord.toInt32 f).run calls (i.linkage breaksOff)) x).script
    generalize i.call ((guest.call params.lengthWord.toInt32 f).run calls (i.linkage breaksOff)) x
      = a at hcall hscript
    obtain ⟨result, j, y⟩ := a
    cases result with
    | error e => exact ⟨fun name he => absurd he (hcall name), nofun⟩
    | ok ptr =>
      dsimp only [placeParams] at hscript ⊢
      rw [hscript, hm]
      split
      · exact ⟨nofun, nofun⟩
      · -- the allocator has answered; now the memory must be exported
        cases hmemory : m.script.exportsMemory with
        | false => exact needs_notExported (Module.memory_mem_missingExports.mpr hmemory)
        | true =>
          have hfound : ∀ name ∈ [exportNames.allocate, exportNames.memory],
              name ∉ m.missingExports := by
            rw [List.forall_mem_cons, List.forall_mem_singleton,
              Module.allocate_mem_missingExports, Module.memory_mem_missingExports, hmemory, ← hm,
              hf]
            exact ⟨nofun, nofun⟩
          rw [Bool.not_true, if_neg Bool.false_ne_true]
          split
          · exact ⟨nofun, nofun⟩
          · exact ⟨nofun, fun _ _ => hfound⟩

end Instance

namespace Host

/-! ### The steps before the method -/

section

variable {σ : Type}

/-- The steps of a call before its method: the gas is set, the kind of host is checked, and the
parameters are written. -/
def prepare (guest : Guest) (calls : HostCalls σ) (breaksOff : Bool) (handle : Int32)
    (params : OrderedMap String Bytes) (budget : UInt64) (i : Instance) (world : σ) :
    Except CallFault Unit × Instance × σ :=
  match (i.setGas budget).runtimeType calls breaksOff world guest with
  | (.error e, i, world) => (.error e, i, world)
  | (.ok kind, i, world) =>
    if kind ≠ hostKind then (.error (.error (.runtimeTypeMismatch hostKind kind)), i, world)
    else
      let params := (Packet.ofParams handleParam handle params).encode
      match i.writeParams calls breaksOff params world guest with
      | (.error e, i, world) => (.error e, i, world)
      | (.ok _, i, world) => (.ok (), i, world)

variable (guest : Guest) (calls : HostCalls σ) (breaksOff : Bool)

/-- **A call is made ready, and then its method is called.** -/
theorem callGuest_eq (c : Context) (budget : UInt64) (i : Instance) (x : σ) :
    callGuest guest calls breaksOff c budget i x =
      match prepare guest calls breaksOff c.handle c.params budget i x with
      | (.error e, j, y) => (.error e, j, y)
      | (.ok (), j, y) => j.callMethod calls breaksOff c.method y guest := by
  unfold callGuest prepare
  generalize (i.setGas budget).runtimeType calls breaksOff x guest = a
  obtain ⟨result, j, y⟩ := a
  cases result with
  | error e => rfl
  | ok kind =>
    dsimp only
    split
    · rfl
    · generalize j.writeParams calls breaksOff _ y guest = b
      obtain ⟨result, k, z⟩ := b
      cases result <;> rfl

variable {m : Module} {i : Instance} {name : String}

/-- **A call that is made ready misses nothing**, and complains of what is reported only. -/
theorem needs_prepare (hm : i.script = m.script) (handle : Int32)
    (params : OrderedMap String Bytes) (budget : UInt64) (x : σ) :
    Needs m [exportNames.runtimeType, exportNames.allocate, exportNames.memory]
      (prepare guest calls breaksOff handle params budget i x).1 := by
  have hset : (i.setGas budget).script = m.script := hm
  have htype := Instance.needs_runtimeType guest calls breaksOff hset x
  have hscript := (Instance.ran_runtimeType guest (i.setGas budget) calls breaksOff x).script
  unfold prepare
  generalize (i.setGas budget).runtimeType calls breaksOff x guest = a at htype hscript
  obtain ⟨result, j, y⟩ := a
  -- each step either complains about an export of its own or goes on
  cases result with
  | error e => exact htype.error
  | ok kind =>
    dsimp only at hscript ⊢
    split
    · exact ⟨nofun, nofun⟩
    · have hparams := Instance.needs_writeParams guest calls breaksOff (hscript.trans hm)
        (Packet.ofParams handleParam handle params).encode y
      generalize j.writeParams calls breaksOff _ y guest = b at hparams
      obtain ⟨result, k, z⟩ := b
      cases result with
      | error e => exact hparams.error
      | ok ptr =>
        exact ⟨nofun, fun _ _ => List.forall_mem_cons.mpr
          ⟨htype.found kind rfl _ List.mem_cons_self, hparams.found ptr rfl⟩⟩

/-- **With an export missing no call comes to its method**: it fails before, and as it does for
every other method. -/
theorem callGuest_of_missing (hm : i.script = m.script) (hmissing : m.missingExports ≠ [])
    (handle : Int32) (params : OrderedMap String Bytes) (budget : UInt64) (x : σ) :
    ∃ fault j y, prepare guest calls breaksOff handle params budget i x = (.error fault, j, y) ∧
      ∀ c : Context, c.handle = handle → c.params = params →
        callGuest guest calls breaksOff c budget i x = (.error fault, j, y) := by
  have hneeds := needs_prepare guest calls breaksOff hm handle params budget x
  cases hready : prepare guest calls breaksOff handle params budget i x with
  | mk result rest =>
    obtain ⟨j, y⟩ := rest
    rw [hready] at hneeds
    cases result with
    | ok u => exact absurd (Module.missingExports_eq_nil (hneeds.found u rfl)) hmissing
    | error fault =>
      refine ⟨fault, j, y, rfl, fun c hhandle hparams => ?_⟩
      rw [callGuest_eq, hhandle, hparams, hready]

/-- **With none missing a call complains of none**, but for its method. -/
theorem complaint_of_complete (hm : i.script = m.script) (hcomplete : m.missingExports = [])
    (c : Context) (budget : UInt64) (x : σ)
    (h : (callGuest guest calls breaksOff c budget i x).1 =
      .error (.error (.exportNotFound name))) : name = c.method := by
  have hneeds := needs_prepare guest calls breaksOff hm c.handle c.params budget x
  rw [callGuest_eq] at h
  generalize prepare guest calls breaksOff c.handle c.params budget i x = a at hneeds h
  obtain ⟨result, j, y⟩ := a
  -- the preparation cannot complain, as nothing is missing, so it is the method
  cases result with
  | error e =>
    have hmem := hneeds.complaint name (congrArg Except.error (Except.error.inj h))
    exact absurd (hcomplete ▸ hmem) List.not_mem_nil
  | ok u =>
    dsimp only [Instance.callMethod] at h
    split at h
    · cases h
      rfl
    · split at h
      · cases h
      · exact absurd h (Instance.call_ne_exportNotFound j _ y name)

end

/-! ### Calls of a contract -/

section

variable {τ : Type} [LedgerAccess τ] {setup : HostSetup} {busy : List Lease} {x : Host τ}
variable {e : Entry} {m : Module} {s : Begun τ}

/-- The contract of a call has a pool of the module, or is given one for the call.  A call that has
waited did so at a pool of the module. -/
def ServedBy (setup : HostSetup) (x : Host τ) (e : Entry) (m : Module) : Prop :=
  match e with
  | .new call => ∃ id y, x.openPool setup call.contract call.code = (.ok id, y) ∧ y.Gives id m
  | .waited q => x.Gives q.pool m

/-- **A call of a contract has an instance of its module.** -/
theorem Kindred.script_of_enter (h : Kindred setup busy x) (hserved : x.ServedBy setup e m)
    (henter : x.enter setup e = .ok s) : s.inst.script = m.script := by
  -- the instance comes from the pool of the call, or from the pool in whose line the caller stood
  cases e with
  | new call =>
    obtain ⟨id, y, hopen, p, hp, rfl⟩ := hserved
    have hy : (x.openPool setup call.contract call.code).2.Orderly :=
      orderly_openPool setup h.orderly call.contract call.code
    have hstart : Start setup call x (x.enter setup (.new call)) := start_begin setup call x
    rw [henter] at hstart
    rw [hopen] at hy
    cases hstart with
    | @begun id' i c registry y' z hopen' hobtain hregister =>
      cases hopen.symm.trans hopen'
      have hz : Unmoved y (y.obtain setup call.depth id).2 := unmoved_obtain setup hy call.depth id
      rw [hobtain] at hz
      obtain ⟨q, hq, hlabel, -⟩ := hz.exists_after hp
      rw [← Pool.program_eq_of_label hlabel]
      exact h.enter henter hq
  | waited q =>
    obtain ⟨p, hp, rfl⟩ := hserved
    have hrejoining : Rejoining setup q x (x.enter setup (.waited q)) := rejoining_rejoin setup q x
    rw [henter] at hrejoining
    cases hrejoining with
    | @begun i c registry z hclaim hregister =>
      have hdequeued : (x.dequeue q).Orderly := h.orderly.congr rfl rfl rfl
      have hz : Unmoved (x.dequeue q) ((x.dequeue q).claim q.pool q.ticket).2 :=
        unmoved_claim hdequeued q.pool q.ticket
      rw [hclaim] at hz
      obtain ⟨p', hp', hlabel, -⟩ := hz.exists_after hp
      rw [← Pool.program_eq_of_label hlabel]
      exact h.enter henter hp'

theorem code_conclude (setup : HostSetup) (id : PoolId) (c : Context) (fault : CallFault)
    (i : Instance) (x : Host τ) :
    (x.conclude setup id c (.error fault) i).1.code = Outcome.failure := by
  obtain ⟨o, -, -, -, houtcome⟩ := outcome_conclude setup id c (.error fault) i x
  rw [houtcome]
  cases hreason : reasonOf setup.config.execution.gasLimit i.gas (.error fault) with
  | none =>
    unfold reasonOf at hreason
    split at hreason <;> cases hreason
  | some reason => rfl

/-- What the report of missing exports says of the calls of a contract of the module, which may have
any method, parameters and gas, and may have waited for their instances. -/
structure ReportsExports (m : Module) : Prop where
  /-- A call runs on an instance of the module. -/
  script : ∀ {τ : Type} [LedgerAccess τ] {setup : HostSetup} {busy : List Lease} {x : Host τ},
    Reached setup busy x → ∀ {e : Entry}, x.ServedBy setup e m →
      ∀ {s : Begun τ}, x.enter setup e = .ok s → s.inst.script = m.script
  /-- **With an export missing** no run on an instance of the module comes to the method, whatever
  the host does: it fails before, and as it does for every other method. -/
  unready : m.missingExports ≠ [] → ∀ {σ : Type} (guest : Guest) (calls : HostCalls σ)
    (breaksOff : Bool) (handle : Int32) (params : OrderedMap String Bytes) (budget : UInt64)
    {i : Instance}, i.script = m.script → ∀ x : σ, ∃ fault j y,
        prepare guest calls breaksOff handle params budget i x = (.error fault, j, y) ∧
          ∀ c : Context, c.handle = handle → c.params = params →
            callGuest guest calls breaksOff c budget i x = (.error fault, j, y)
  /-- So a call has no outcome but that of a failure. -/
  failed : m.missingExports ≠ [] → ∀ {τ : Type} [LedgerAccess τ] {setup : HostSetup}
    {busy : List Lease} {x y : Host τ}, Reached setup busy x → ∀ {e : Entry},
      x.ServedBy setup e m → ∀ {breaksOff : Bool} {levels : Nat} {o : Outcome},
        x.perform setup breaksOff levels e = (.finished (.ok o), y) → o.code = Outcome.failure
  /-- It has that outcome once it has begun. -/
  ended : m.missingExports ≠ [] → ∀ {τ : Type} [LedgerAccess τ] {setup : HostSetup}
    {busy : List Lease} {x : Host τ}, Reached setup busy x → ∀ {e : Entry},
      x.ServedBy setup e m → ∀ {s : Begun τ}, x.enter setup e = .ok s → ∀ levels : Nat, ∃ o y,
        x.perform setup false (levels + 1) e = (.finished (.ok o), y) ∧ o.code = Outcome.failure
  /-- **With none missing** no run on an instance of the module complains of an export, but for the
  method that was asked for. -/
  complete : m.missingExports = [] → ∀ {σ : Type} (guest : Guest) (calls : HostCalls σ)
    (breaksOff : Bool) (c : Context) (budget : UInt64) {i : Instance}, i.script = m.script →
    ∀ (x : σ) {name : String},
      (callGuest guest calls breaksOff c budget i x).1 = .error (.error (.exportNotFound name)) →
        name = c.method

/-- A call of a contract whose module misses an export is broken off or has failed. -/
theorem Kindred.failed (h : Kindred setup busy x) (hserved : x.ServedBy setup e m)
    (hmissing : m.missingExports ≠ []) {breaksOff : Bool} {levels : Nat} {o : Outcome} {y : Host τ}
    (hperform : x.perform setup breaksOff levels e = (.finished (.ok o), y)) :
    o.code = Outcome.failure := by
  cases levels with
  | zero => cases e <;> cases hperform
  | succ levels =>
    have hcarried := carried_perform setup breaksOff levels e x
    rw [hperform] at hcarried
    -- a call that was refused has no outcome, and one that ran has met the missing export
    cases hcarried with
    | early henter =>
      have hbeginning := beginning_enter setup e h.orderly
      rw [henter] at hbeginning
      cases hbeginning with
      | ended hcompletion => exact absurd rfl (hcompletion o)
    | @concluded s ended i z henter hran hends =>
      obtain ⟨fault, j, w, -, hguest⟩ := callGuest_of_missing setup.guest
        (hostCalls setup (invokeWithin setup breaksOff levels)) breaksOff
        (h.script_of_enter hserved henter) hmissing s.context.handle s.context.params
        (budgetOf setup e.call) s.host
      cases hran.symm.trans (hguest s.context rfl rfl)
      exact code_conclude setup s.pool s.context fault i z

/-- A call that has begun is not broken off. -/
theorem exists_outcome (hx : x.Orderly) (henter : x.enter setup e = .ok s) (levels : Nat) :
    ∃ o y, x.perform setup false (levels + 1) e = (.finished (.ok o), y) := by
  have hends := run_ends (tidy_invokeWithin setup false levels) (ends_invokeWithin setup levels) hx
    henter
  have hcarried := carried_perform setup false levels e x
  generalize x.perform setup false (levels + 1) e = ended at hcarried
  cases hcarried with
  | early herror => cases herror.symm.trans henter
  | brokenOff hok hran =>
    cases henter.symm.trans hok
    exact absurd (congrArg Prod.fst hran) hends
  | concluded => exact ⟨_, _, rfl⟩

/-- **The report of missing exports is exact.**  With an export missing every call of the contract
fails, and never comes to its method.  With none missing no call complains of an export that the
host needs, unless it asks for it as its method. -/
theorem reports_exports (m : Module) : ReportsExports m where
  script hreached _ hserved _ henter := hreached.kindred.script_of_enter hserved henter
  unready hmissing _ guest calls breaksOff handle params budget _ hm x :=
    callGuest_of_missing guest calls breaksOff hm hmissing handle params budget x
  failed hmissing _ _ _ _ _ _ hreached _ hserved _ _ _ hperform :=
    hreached.kindred.failed hserved hmissing hperform
  ended := by
    intro hmissing τ _ setup busy x hreached e hserved s henter levels
    obtain ⟨o, y, hperform⟩ := exists_outcome hreached.leased.orderly henter levels
    exact ⟨o, y, hperform, hreached.kindred.failed hserved hmissing hperform⟩
  complete hcomplete _ guest calls breaksOff c budget _ hm x _ h :=
    complaint_of_complete guest calls breaksOff hm hcomplete c budget x h

/-- A call of a contract without contents. -/
def blankCall : Call :=
  { contract := ⟨"blank", "1"⟩, code := blankCode, method := "run" }

/-- A contract without contents misses all three exports, and a call of it fails. -/
theorem reports_exports_blank : ∃ (m : Module) (o : Outcome) (y : Host Session),
    ServedBy singleSetup ({ ledger := default } : Host Session) (.new blankCall) m ∧
      m.missingExports = ["memory", "runtime_type", "allocate"] ∧
      ({ ledger := default } : Host Session).invokeWithin singleSetup false 1 blankCall =
        (.finished (.ok o), y) ∧ o.code = Outcome.failure := by
  have hpool : ((({ ledger := default } : Host Session).openPool singleSetup blankCall.contract
      blankCode).2.pools.get? 0).map (·.program.missingExports) =
        some ["memory", "runtime_type", "allocate"] := by decide +kernel
  have hbegun : ((({ ledger := default } : Host Session).begin singleSetup blankCall).toOption.map
      (·.pool)) = some 0 := by decide +kernel
  cases hbegin : ({ ledger := default } : Host Session).begin singleSetup blankCall with
  | error ended =>
    rw [hbegin] at hbegun
    cases hbegun
  | ok s =>
    have hstart := start_begin singleSetup blankCall ({ ledger := default } : Host Session)
    rw [hbegin] at hstart hbegun
    cases hstart with
    | @begun id i c registry z w hopen hobtain hregister =>
      obtain rfl : id = 0 := Option.some.inj hbegun
      rw [show blankCode = blankCall.code from rfl, hopen] at hpool
      obtain ⟨p, hp, hmissing⟩ := Option.map_eq_some_iff.mp hpool
      have hserved : ServedBy singleSetup ({ ledger := default } : Host Session) (.new blankCall)
          p.program := ⟨0, z, hopen, p, hp, rfl⟩
      obtain ⟨o, y, hinvoke, hcode⟩ := (reports_exports p.program).ended (hmissing ▸ nofun)
        (Reached.new singleSetup default) hserved hbegin 0
      exact ⟨p.program, o, y, hserved, hmissing, hinvoke, hcode⟩

end

end Host

end ContractHost
