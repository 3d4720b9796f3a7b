import ContractHost.Proofs.Host.Calling
import ContractHost.Proofs.Host.Filing

/-!
# What a host remembers

A host that has served calls before may answer a call in another way than a new host over the same
ledger does.  It may have filed a pool under the key of the contract, whose module then answers
whatever code comes with the call.  The instance that the pool hands out has the memory that earlier
calls left.  And the handle of the invocation, which the contract is told, follows the handle that
was given out last.

This is true of every host that can hold an instance at all.  But where only one module comes up
under a key, and instances are not made in reserved slots, nothing else gets through: two hosts that
have given out the same handle last, and would hand a call instances that match, answer it alike.

## Main definitions

* `Host.Past` — the hosts that have served any calls before.
* `Host.offer` — what a call is handed.
* `Host.HistoryFree` — whatever was served before, a call is answered in one way.
* `Host.AnswersByOffer` — a call is answered by what it is handed and by its handle alone.

## Main results

* `Host.historyFree_iff` — **history shows exactly if the engine can hold an instance.**
* `Host.answersByOffer` — **it shows in the instance and in the handle alone.**
* `Host.memory_shows` — it does show in the memory of the instance.
-/

namespace ContractHost

/-- All ledgers, whatever contracts they list. -/
def Listing.all (τ : Type) [LedgerAccess τ] : Listing τ fun _ _ => True where
  Holds _ := True
  contract _ _ := trivial
  put _ _ := trivial
  delete _ _ := trivial
  executeUpdate _ := trivial
  executeDdl _ := trivial
  query _ := trivial
  queryOne _ := trivial

/-- The ledgers in memory with deployed contracts of a set only.  No operation deploys anything. -/
def Listing.deployed (D : ContractId → Code → Prop) : Listing Session D where
  Holds s := ∀ {name a}, s.contract? name = some a → D a.1 a.2
  contract {s name c code} hs h := by
    simp only [LedgerAccess.getContract] at h
    split at h
    · rename_i a ha
      cases h
      exact hs ha
    · cases h
  put hs h := by
    cases h
    exact hs
  delete hs h := by
    cases h
    exact hs
  executeUpdate hs := hs
  executeDdl hs := hs
  query hs := hs
  queryOne hs := hs

/-! ### Instances without gas -/

section

variable {σ α : Type}

/-- Without gas the kind of host is not found, and nothing happens. -/
theorem Instance.runtimeType_of_no_gas {i : Instance} (h : i.gas = 0) (guest : Guest)
    (host : HostCalls σ) (breaksOff : Bool) (x : σ) :
    ∃ e, i.runtimeType host breaksOff x guest = (.error (.error e), i, x) := by
  unfold Instance.runtimeType
  split
  · rename_i f _
    unfold Instance.call Instance.run
    have hexec := (guest.call 0 f).needsGas (m := ⟨⟨i.memory, i.gas.toNat⟩, x⟩)
      (congrArg UInt64.toNat h) host (i.linkage breaksOff)
    unfold Run.exec at hexec
    rw [hexec]
    simp only [UInt64.ofNat_toNat]
    exact ⟨_, rfl⟩
  · exact ⟨_, rfl⟩

end

namespace Host

variable {τ : Type} [LedgerAccess τ] {D : ContractId → Code → Prop}

/-- The hosts that have served any calls before, of contracts with codes of a set.  Between two
calls the ledger may become another one, and what was logged may be taken out. -/
inductive Past (setup : HostSetup) (L : Listing τ D) : Host τ → Prop
  /-- A new host. -/
  | new {ledger : τ} (h : L.Holds ledger) : Past setup L { ledger }
  /-- A host over another ledger. -/
  | moved {x : Host τ} {ledger : τ} (journal : List LogLine) (hx : Past setup L x)
      (h : L.Holds ledger) : Past setup L { x with ledger, journal }
  /-- A host that has served one more call. -/
  | served {x : Host τ} {call : Call} (hx : Past setup L x) (hcall : D call.contract call.code)
      (htop : call.depth = 0) : Past setup L (x.invoke setup call).2

/-- Whatever hosts have served before, over the same ledger they answer a call in the same way. -/
def HistoryFree (setup : HostSetup) (L : Listing τ D) : Prop :=
  ∀ {x x' : Host τ} {call : Call}, Past setup L x → Past setup L x' → x.ledger = x'.ledger →
    D call.contract call.code → call.depth = 0 →
    (x.invoke setup call).1 = (x'.invoke setup call).1

/-- What a topmost call is handed. -/
def offer (setup : HostSetup) (call : Call) (x : Host τ) : Obtained :=
  match x.openPool setup call.contract call.code with
  | (.error e, _) => .refused e
  | (.ok id, y) => (y.takeReady setup id).1

/-- Hosts over the same ledger answer a call in the same way if they have given out the same handle
last and would hand the call instances that match, whatever else they have served before. -/
def AnswersByOffer (setup : HostSetup) (L : Listing τ D) : Prop :=
  ∀ {x x' : Host τ} {call : Call}, Past setup L x → Past setup L x' → x.ledger = x'.ledger →
    D call.contract call.code → call.depth = 0 →
    x.registry.last = x'.registry.last → Obtained.Alike (x.offer setup call) (x'.offer setup call) →
    (x.invoke setup call).1 = (x'.invoke setup call).1

variable {setup : HostSetup} {L : Listing τ D} {x x' : Host τ} {call : Call}

/-! ### Topmost calls -/

theorem withdraw_fst (x : Host τ) (ended : Completion × Host τ) :
    (x.withdraw setup ended).1 = ended.1 := by
  obtain ⟨completion, y⟩ := ended
  cases completion <;> rfl

/-- What leaving a line keeps, waiting no longer keeps. -/
theorem withdraw_of_leave {P : Host τ → Prop} (hdequeue : ∀ {y q}, P y → P (y.dequeue q))
    (htended : ∀ {y z}, Tended y z → P y → P z) {ended : Completion × Host τ}
    (hy : ended.2.Orderly) (h : P ended.2) (x : Host τ) : P (x.withdraw setup ended).2 := by
  obtain ⟨completion, y⟩ := ended
  cases completion with
  | finished result => exact h
  | suspended => exact foldl_leave hdequeue htended _ hy h

/-- A topmost call is carried out on an instance of the contract's pool. -/
theorem invoke_eq (htop : call.depth = 0) (x : Host τ) :
    x.invoke setup call = x.withdraw setup (
      match x.openPool setup call.contract call.code with
      | (.error e, y) => (.finished (.error e), y)
      | (.ok id, y) =>
        match y.takeReady setup id with
        | (.refused e, z) => (.finished (.error e), z)
        | (.waiting ticket, z) =>
          (.suspended, { z with queued := z.queued ++ [⟨id, ticket, call⟩] })
        | (.instance i, z) =>
          z.runOn setup (hostCalls setup (invokeWithin setup false setup.gasLimit)) false call id
            i) := by
  have hshallow : ¬ setup.config.execution.maxCallDepth < call.depth := by simp [htop]
  have hready (id : PoolId) (y : Host τ) : y.obtain setup call.depth id = y.takeReady setup id := by
    unfold obtain
    rw [if_neg (by simp [htop])]
  unfold invoke invokeWithin
  dsimp only
  rw [if_neg hshallow]
  rcases x.openPool setup call.contract call.code with ⟨_ | id, y⟩
  · rfl
  · dsimp only
    rewrite [hready]
    rcases y.takeReady setup id with ⟨_ | _ | _, z⟩ <;> rfl

/-! ### The instance and the handle -/

theorem Obtained.Alike.refl (o : Obtained) : Obtained.Alike o o := by
  cases o with
  | «instance» i => exact .instance (Instance.Same.refl _)
  | refused e => exact .refused e
  | waiting ticket => exact .waiting ticket ticket

section

variable (hslots : setup.config.engine.poolingAllocator = false)
variable (hD : Unambiguous setup D)

omit hD in
theorem Alike.withdraw {keys : List Int32} {y y' : Host τ} (h : Alike setup L keys y y')
    (completion : Completion) (x x' : Host τ) :
    Alike setup L keys (x.withdraw setup (completion, y)).2
      (x'.withdraw setup (completion, y')).2 := by
  have hkept {z : Host τ} (hz : Made setup D z) (w : Host τ) :
      let z' := (w.withdraw setup (completion, z)).2
      z'.ledger = z.ledger ∧ z'.registry = z.registry ∧ Made setup D z' :=
    withdraw_of_leave (P := fun u => u.ledger = z.ledger ∧ u.registry = z.registry ∧ Made setup D u)
      (fun hu => ⟨hu.1, hu.2.1, hu.2.2.congr rfl rfl rfl⟩)
      (fun ht hu => ⟨ht.ledger.trans hu.1, ht.registry.trans hu.2.1, Files.tended hu.2.2 ht⟩)
      hz.orderly ⟨rfl, rfl, hz⟩ w
  obtain ⟨hledger, hregistry, hmade⟩ := hkept h.made x
  obtain ⟨hledger', hregistry', hmade'⟩ := hkept h.made' x'
  exact h.around ⟨hledger, hregistry⟩ ⟨hledger', hregistry'⟩ hmade hmade'

include hslots hD

/-- **Hosts that are alike answer a topmost call alike** if they hand it instances that match, and
are alike afterwards. -/
theorem alike_invoke {keys : List Int32} (h : Alike setup L keys x x')
    (hcall : D call.contract call.code) (htop : call.depth = 0)
    (hoffer : Obtained.Alike (x.offer setup call) (x'.offer setup call)) :
    (x.invoke setup call).1 = (x'.invoke setup call).1 ∧
      Alike setup L keys (x.invoke setup call).2 (x'.invoke setup call).2 := by
  obtain ⟨hgives, hopened⟩ := h.opened hslots hD hcall
  rw [invoke_eq htop, invoke_eq htop, withdraw_fst, withdraw_fst]
  unfold offer at hoffer
  generalize x.openPool setup call.contract call.code = a at hgives hopened hoffer ⊢
  generalize x'.openPool setup call.contract call.code = a' at hgives hopened hoffer ⊢
  obtain ⟨opened, y⟩ := a
  obtain ⟨opened', y'⟩ := a'
  cases hgives with
  | error e => exact ⟨rfl, hopened⟩
  | @ok id id' _ =>
    have hafter := hopened.takeReady id id'
    dsimp only at hoffer hafter ⊢
    generalize y.takeReady setup id = b at hoffer hafter ⊢
    generalize y'.takeReady setup id' = b' at hoffer hafter ⊢
    obtain ⟨taken, z⟩ := b
    obtain ⟨taken', z'⟩ := b'
    cases hoffer with
    | refused e => exact ⟨rfl, hafter⟩
    | waiting ticket ticket' =>
      -- both leave the lines in which they would wait
      have hqueued : Alike setup L _ { z with queued := z.queued ++ [⟨id, ticket, call⟩] }
          { z' with queued := z'.queued ++ [⟨id', ticket', call⟩] } :=
        hafter.around ⟨rfl, rfl⟩ ⟨rfl, rfl⟩ (hafter.made.congr rfl rfl rfl)
          (hafter.made'.congr rfl rfl rfl)
      exact ⟨rfl, hqueued.withdraw .suspended x x'⟩
    | «instance» hi =>
      obtain ⟨result, hfirst, hsecond, hend⟩ := alike_runOn
        (settles_invokeWithin hslots hD L setup.gasLimit) hafter call hi id id'
      dsimp only
      generalize z.runOn setup _ false call id _ = ran at hfirst hend ⊢
      generalize z'.runOn setup _ false call id' _ = ran' at hsecond hend ⊢
      obtain ⟨_, w⟩ := ran
      obtain ⟨_, w'⟩ := ran'
      cases hfirst
      cases hsecond
      exact ⟨rfl, hend⟩

/-- **Whatever a host has served before, no invocation is under way**, and everything that it files
was made of a code that may come up.  A host is alike to itself, so each call keeps this. -/
theorem Past.alike (h : Past setup L x) : Alike setup L [] x x := by
  induction h with
  | new h =>
    exact ⟨rfl, h, rfl, .empty, rfl, Files.of_empty _, Files.of_empty _⟩
  | moved journal _ h ih =>
    exact ⟨rfl, h, rfl, ih.contexts, ih.keys, ih.made.congr rfl rfl rfl, ih.made'.congr rfl rfl rfl⟩
  | served _ hcall htop ih =>
    exact (alike_invoke hslots hD ih hcall htop (.refl _)).2

/-- **History shows in the instance and in the handle alone.** -/
theorem answersByOffer : AnswersByOffer setup L := by
  intro x x' call hx hx' hledger hcall htop hlast hoffer
  have h := hx.alike hslots hD
  have h' := hx'.alike hslots hD
  -- between two calls no invocation is under way, so the registries have nothing but their last
  -- handles
  have hempty {y : Host τ} (hy : Alike setup L [] y y) : y.registry.contexts = ∅ :=
    OrderedMap.ext (List.map_eq_nil_iff.mp hy.keys)
  have hboth : Alike setup L [] x x' := by
    refine ⟨hledger, h.lists, hlast, ?_, h.keys, h.made, h'.made⟩
    rw [hempty h, hempty h']
    exact .empty
  exact (alike_invoke hslots hD hboth hcall htop hoffer).1

end

/-! ### Hosts that can hold no instance -/

/-- Without a slot no instance can be made, for a reason that lies in the module. -/
theorem createInstance_of_no_slot (hslot : ¬ HasSlot setup) (m : Module) :
    ∃ e, ∀ x : Host τ, createInstance setup m x = (.error e, x) := by
  obtain ⟨hpooling, hnone⟩ := Classical.not_imp.mp hslot
  have hfull (live : Nat) : (setup.config.engine.poolingAllocator &&
      decide (setup.config.engine.maxInstances.toNat ≤ live)) = true := by
    simp only [hpooling, Bool.true_and, decide_eq_true_eq]
    omega
  unfold createInstance
  simp only [Instance.create_eq]
  cases importFault? m.script.imports with
  | some reason => exact ⟨_, fun _ => rfl⟩
  | none =>
    simp only [hfull, if_true]
    exact ⟨_, fun _ => rfl⟩

theorem invoke_of_refused (htop : call.depth = 0) {e : ExecutionError}
    (hnone : x.poolId? call.contract = none)
    (hcreate : x.createPool setup call.contract call.code = (.error e, x)) :
    x.invoke setup call = (.finished (.error e), x) := by
  have hopen : x.openPool setup call.contract call.code = (.error e, x) := by
    unfold openPool
    rw [hnone]
    exact hcreate
  rw [invoke_eq htop, hopen]
  rfl

/-- Without a slot no pool can be made, for a reason that lies in the code. -/
theorem createPool_of_no_slot (hslot : ¬ HasSlot setup) (c : ContractId) (code : Code) :
    ∃ e, ∀ x : Host τ, x.createPool setup c code = (.error e, x) := by
  cases hm : making setup c code with
  | error e => exact ⟨e, fun x => by rw [createPool_eq, hm]⟩
  | ok m =>
    obtain ⟨e, he⟩ := createInstance_of_no_slot (τ := τ) hslot m
    refine ⟨e, fun x => ?_⟩
    rw [createPool_eq, hm]
    simp only [Pool.create, supply, he]

/-- Without a slot nothing is ever filed. -/
theorem Past.unfiled (hslot : ¬ HasSlot setup) (h : Past setup L x) :
    ∀ c : ContractId, x.poolId? c = none := by
  induction h with
  | new _ => exact fun _ => rfl
  | moved _ _ _ ih => exact ih
  | @served x call _ _ htop ih =>
    obtain ⟨e, he⟩ := createPool_of_no_slot (τ := τ) hslot call.contract call.code
    rw [invoke_of_refused htop (ih call.contract) (he x)]
    exact ih

/-- **Where no instance can be made, history does not show.** -/
theorem historyFree_of_no_slot (hslot : ¬ HasSlot setup) : HistoryFree setup L := by
  intro x x' call hx hx' _ _ htop
  obtain ⟨e, he⟩ := createPool_of_no_slot (τ := τ) hslot call.contract call.code
  rw [invoke_of_refused htop (hx.unfiled hslot _) (he x),
    invoke_of_refused htop (hx'.unfiled hslot _) (he x')]

/-! ### Pools that answer for any code -/

/-- **A pool that is filed answers whatever code comes with the call.** -/
theorem invoke_of_filed (htop : call.depth = 0) {id : PoolId}
    (hfiled : x.poolId? call.contract = some id) (code : Code) :
    (x.invoke setup { call with code }).1 = (x.invoke setup call).1 := by
  have hother : ({ call with code } : Call).depth = 0 := htop
  rw [invoke_eq htop, invoke_eq hother, withdraw_fst, withdraw_fst]
  unfold openPool
  simp only [hfiled]
  rcases x.takeReady setup id with ⟨_ | _ | _, z⟩ <;> rfl

/-- What is filed stays filed at the end of a call, unless the call was to set its contract up. -/
theorem registered_conclude (hx : x.Orderly) {c : Context} (hmethod : c.method ≠ exportNames.init)
    (id : PoolId) (result : Except CallFault Unit) (i : Instance) :
    (x.conclude setup id c result i).2.Orderly ∧
      (x.conclude setup id c result i).2.registered = x.registered := by
  have hremoved : Orderly { x with registry := x.registry.remove c.handle } :=
    hx.congr rfl rfl rfl
  have hback (i : Instance) : Tended { x with registry := x.registry.remove c.handle }
      ({ x with registry := x.registry.remove c.handle }.giveBack setup id i) :=
    tended_giveBack hremoved i
  unfold conclude
  dsimp only
  split
  · exact ⟨hremoved.tended (hback _), (hback _).registered⟩
  · rw [if_neg hmethod]
    exact ⟨hremoved.tended (hback _), (hback _).registered⟩

/-- **Without gas a call leaves filed what was filed**, unless it was to set its contract up. -/
theorem registered_runOn {calls : HostCalls (Host τ)} {i : Instance} (hx : x.Orderly)
    (hgas : setup.gasLimit ≤ call.gasUsed.toNat) (hmethod : call.method ≠ exportNames.init)
    (id : PoolId) :
    (x.runOn setup calls false call id i).2.Orderly ∧
      (x.runOn setup calls false call id i).2.registered = x.registered := by
  cases hregister : x.registry.register (contextOf call i) with
  | error e =>
    have hback : Tended x (x.giveBack setup id i) := tended_giveBack hx i
    unfold runOn
    rw [hregister]
    exact ⟨hx.tended hback, hback.registered⟩
  | ok a =>
    obtain ⟨c, registry⟩ := a
    obtain ⟨n, -, rfl, -⟩ := Registry.register_eq_ok hregister
    -- the instance gets no gas, so it does not even tell for which host it was built
    have hbudget : setup.gasLimit - call.gasUsed.toNat = 0 := Nat.sub_eq_zero_of_le hgas
    have hbound : Orderly { x with registry } := hx.congr rfl rfl rfl
    obtain ⟨e, he⟩ := Instance.runtimeType_of_no_gas
      (i := (i.bind (Int32.ofNat n)).setGas 0) rfl setup.guest calls false { x with registry }
    have hguest : callGuest setup.guest calls false
        { contextOf call i with handle := Int32.ofNat n }
        (UInt64.ofNat (setup.gasLimit - call.gasUsed.toNat)) (i.bind (Int32.ofNat n))
        { x with registry } =
          (.error (.error e), (i.bind (Int32.ofNat n)).setGas 0, { x with registry }) := by
      rw [hbudget]
      unfold callGuest
      rw [show UInt64.ofNat 0 = 0 from rfl, he]
    rw [runOn_of_register hregister hguest nofun]
    exact registered_conclude hbound hmethod id _ _

/-- Without gas, the pool that a call has opened stays filed. -/
theorem poolId?_invoke (hx : x.Orderly) (htop : call.depth = 0)
    (hgas : setup.gasLimit ≤ call.gasUsed.toNat) (hmethod : call.method ≠ exportNames.init)
    {id : PoolId} {y : Host τ}
    (hopen : x.openPool setup call.contract call.code = (.ok id, y)) :
    (x.invoke setup call).2.poolId? call.contract = some id := by
  have hfiled : y.poolId? call.contract = some id := (openPool_eq_ok hx hopen).1
  have hfiles : (x.openPool setup call.contract call.code).2.Files fun _ _ _ => True :=
    Files.openPool ⟨hx, fun _ => trivial⟩ fun _ _ => trivial
  have hy : y.Orderly := by
    rw [hopen] at hfiles
    exact hfiles.orderly
  have htended : Tended y (y.takeReady setup id).2 := tended_takeReady hy
  rw [invoke_eq htop, hopen]
  dsimp only
  generalize y.takeReady setup id = a at htended ⊢
  obtain ⟨taken, z⟩ := a
  have hz : z.Orderly := hy.tended htended
  have hstays : z.poolId? call.contract = some id := by
    unfold poolId? at hfiled ⊢
    exact htended.registered ▸ hfiled
  -- a caller who gives up touches its place in the line, never what is filed
  have hwithdrawn {ended : Completion × Host τ} (hended : ended.2.Orderly)
      (h : ended.2.registered = z.registered) :
      (x.withdraw setup ended).2.poolId? call.contract = some id := by
    refine withdraw_of_leave (P := fun w => w.poolId? call.contract = some id) (fun h => h) ?_
      hended ?_ x
    · intro v w ht hv
      unfold poolId? at hv ⊢
      exact ht.registered ▸ hv
    · unfold poolId? at hstays ⊢
      exact h ▸ hstays
  -- the pool is refused, waited for, or lends an instance that then runs out of gas
  cases taken with
  | refused e => exact hwithdrawn hz rfl
  | waiting ticket => exact hwithdrawn (hz.congr rfl rfl rfl) rfl
  | «instance» i =>
    let calls : HostCalls (Host τ) := hostCalls setup (invokeWithin setup false setup.gasLimit)
    have hran : (z.runOn setup calls false call id i).2.Orderly ∧
        (z.runOn setup calls false call id i).2.registered = z.registered :=
      registered_runOn hz hgas hmethod id
    exact hwithdrawn hran.1 hran.2

/-- **Where an instance can be made, history shows.**  A new host tells a call without any code from
one whose code is of no use.  A host that has filed a pool under the key of their contract does
not. -/
theorem not_historyFree (hslot : HasSlot setup) (ledger : τ) :
    ¬ HistoryFree setup (Listing.all τ) := by
  intro hfree
  let c : ContractId := ⟨"name", "version"⟩
  let first : Call :=
    { contract := c, code := blankCode, method := "", gasUsed := setup.config.execution.gasLimit }
  let x : Host τ := { ({ ledger } : Host τ).invoke setup first |>.2 with ledger }
  have hpast : Past setup (Listing.all τ) x :=
    .moved _ (.served (.new trivial) trivial rfl) trivial
  obtain ⟨id, y, hopen⟩ := openPool_blankCode hslot ledger (c := c) rfl
  have htop : first.depth = 0 := rfl
  have hgas : setup.gasLimit ≤ first.gasUsed.toNat := Nat.le_refl _
  have hmethod : first.method ≠ exportNames.init := by
    show "" ≠ exportNames.init
    decide
  have hfiled : x.poolId? first.contract = some id :=
    poolId?_invoke (.of_empty ledger) htop hgas hmethod hopen
  -- whatever the code is, the answer of a new host would have to be that of the other one
  have hsame (code : Code) : (({ ledger } : Host τ).invoke setup { first with code }).1 =
      (x.invoke setup first).1 := by
    rw [← invoke_of_filed htop hfiled code]
    exact hfree (.new trivial) hpast rfl trivial rfl
  have hmissing : (({ ledger } : Host τ).invoke setup { first with code := ⟨[], none⟩ }).1 =
      .finished (.error (.invalidContract s!"no bytecode for contract {c.key}")) := by
    rw [invoke_of_refused rfl rfl rfl]
  have huseless : (({ ledger } : Host τ).invoke setup { first with code := ⟨[0], none⟩ }).1 =
      .finished (.error (.compilationFailed "contract bytecode too short for a wasm header")) := by
    rw [invoke_of_refused rfl rfl rfl]
  -- but it tells the two calls apart
  have hclash := (hmissing.symm.trans (hsame _)).trans ((huseless.symm.trans (hsame _)).symm)
  cases hclash

/-- **History shows exactly if the engine can hold an instance.**  But as long as only one module
comes up under a key, and instances are not made in reserved slots, it shows in the instance that a
call is handed and in its handle alone. -/
theorem historyFree_iff (setup : HostSetup) (ledger : τ) :
    (HistoryFree setup (Listing.all τ) ↔ ¬ HasSlot setup) ∧
      (setup.config.engine.poolingAllocator = false →
        ∀ {D : ContractId → Code → Prop} (L : Listing τ D), Unambiguous setup D →
          AnswersByOffer setup L) := by
  refine ⟨⟨fun hfree hslot => not_historyFree hslot ledger hfree, historyFree_of_no_slot⟩, ?_⟩
  intro hslots D L hD
  exact answersByOffer hslots hD

/-! ### A memory that grows -/

/-- The gas that the outcome of a call reports. -/
def gasUsed? : Completion → Option UInt64
  | .finished (.ok o) => some o.gasUsed
  | _ => none

/-- Settings for pools of one instance. -/
def singleSetup : HostSetup :=
  { chainId := "chain1"
    config := {
      engine := { poolingAllocator := false }
      pool := { minSize := 1, maxSize := 1, growStep := 1 } } }

/-- A call of a contract whose memory grows by a page with every call, and that stores a number in
the third page then. -/
def creeping : Call :=
  let runtimeType : RuntimeTypeExport := { body := [.grow 1 0, .store 131072 0] }
  { contract := ⟨"creeping", "1"⟩
    code := { image := [1], script := some { runtimeType, allocate := none } }
    method := "run" }

/-- **One call made twice is answered in two ways**, although there is no other contract and no
other code: the memory has only two pages at first, and three the second time. -/
theorem memory_shows :
    ¬ HistoryFree singleSetup
      (.deployed fun c code => c = creeping.contract ∧ code = creeping.code) := by
  intro hfree
  let L : Listing Session fun c code => c = creeping.contract ∧ code = creeping.code := .deployed _
  have hbare : L.Holds default := fun {_ _} h => nomatch h
  have hnew : Past singleSetup L { ledger := default } := .new hbare
  have hserved : Past singleSetup L
      { (({ ledger := default } : Host Session).invoke singleSetup creeping).2 with
        ledger := default, journal := [] } := .moved [] (.served hnew ⟨rfl, rfl⟩ rfl) hbare
  have hgas := congrArg gasUsed? (hfree hnew hserved rfl ⟨rfl, rfl⟩ rfl)
  revert hgas
  decide +kernel

end Host

end ContractHost
