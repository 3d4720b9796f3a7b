import ContractHost.Proofs.Host.Keeping
import ContractHost.Proofs.Host.Passage
import ContractHost.Proofs.Host.Propagation

/-!
# Nested calls

A call that is nested in another one is one level deeper, and no call is carried out below the
greatest depth.  A nested call makes an instance of its own, which ends with it.  So it leaves the
pools that were there before it as they are, but for one that is shut down because a contract could
not be set up.

The depth is a number of 32 bits.  A caller at the greatest of these numbers crashes when it asks
for a call, before anything comes of it.

## Main definitions

* `Host.Leaves` — what becomes of the pools that were there before.
* `Entry.Topmost` — only a call at the top has waited.
* `Attempt.Closes` — a call that shuts a pool down, for it could not set its contract up.
* `Attempt.Disciplined` — a call that keeps to the rules of nesting.

## Main results

* `Host.leaves_enter`, `leaves_conclude` — **a nested call touches pools only where it shuts one
  down.**
* `Attempt.Ended.leaves` — so does its tree.
* `Host.ends_invokeWithin` — nested calls always come to an end.
* `Host.nesting_disciplined` — **all trees of calls keep to the rules.**
-/

namespace ContractHost

variable {τ : Type} [LedgerAccess τ]

namespace Host

variable {setup : HostSetup} {x y z : Host τ}

/-! ### Pools that were there before -/

omit [LedgerAccess τ] in
/-- Of the pools that were there before, some are shut down, and all others are as they were.  New
ones may have been added. -/
structure Leaves (shut : PoolId → Prop) (x y : Host τ) : Prop where
  /-- These are as they were. -/
  kept : ∀ {id p}, x.pools.get? id = some p → ¬ shut id → y.pools.get? id = some p
  /-- These are shut down. -/
  ended : ∀ {id p}, x.pools.get? id = some p → shut id →
    ∃ q, y.pools.get? id = some q ∧ q.closed = true ∧ q.label = p.label

namespace Leaves

variable {A B : PoolId → Prop}

omit [LedgerAccess τ] in
theorem of_get? (h : ∀ {id p}, x.pools.get? id = some p → y.pools.get? id = some p) :
    Leaves (fun _ => False) x y :=
  ⟨fun hp _ => h hp, fun _ => False.elim⟩

omit [LedgerAccess τ] in
theorem of_pools (h : y.pools = x.pools) : Leaves (fun _ => False) x y :=
  of_get? fun hp => h ▸ hp

omit [LedgerAccess τ] in
theorem congr (h : Leaves A x y) (hAB : ∀ id, B id ↔ A id) : Leaves B x y :=
  ⟨fun hp hB => h.kept hp (mt (hAB _).mpr hB), fun hp hB => h.ended hp ((hAB _).mp hB)⟩

omit [LedgerAccess τ] in
theorem trans (h : Leaves A x y) (h' : Leaves B y z) : Leaves (fun id => A id ∨ B id) x z where
  kept hp hnot := h'.kept (h.kept hp fun hA => hnot (.inl hA)) fun hB => hnot (.inr hB)
  ended {id p} hp hAB := by
    by_cases hA : A id
    · obtain ⟨q, hq, hclosed, hlabel⟩ := h.ended hp hA
      by_cases hB : B id
      · obtain ⟨r, hr, hclosed', hlabel'⟩ := h'.ended hq hB
        exact ⟨r, hr, hclosed', hlabel'.trans hlabel⟩
      · exact ⟨q, h'.kept hq hB, hclosed, hlabel⟩
    · exact h'.ended (h.kept hp hA) (hAB.resolve_left hA)

omit [LedgerAccess τ] in
/-- Before or afterwards, nothing may have happened to the pools. -/
theorem followed (h : Leaves A x y) (hz : z.pools = y.pools) : Leaves A x z := by
  constructor <;> rw [hz]
  exacts [h.kept, h.ended]

omit [LedgerAccess τ] in
theorem preceded (h : Leaves A x y) (hz : z.pools = x.pools) : Leaves A z y := by
  constructor <;> rw [hz]
  exacts [h.kept, h.ended]

end Leaves

theorem leaves_openPool (hx : x.Orderly) (setup : HostSetup) (c : ContractId) (code : Code) :
    Leaves (fun _ => False) x (x.openPool setup c code).2 := by
  refine Leaves.of_get? fun {id p} hp => ?_
  unfold openPool
  split
  · exact hp
  · rw [createPool_eq]
    split
    · exact hp
    · rename_i m _
      obtain ⟨hidle, -⟩ := Pool.stays_create (within_supply setup) c m (x.terms setup) x
      have hkept := hidle.pools.symm ▸ hp
      split
      · rename_i hcreate
        rw [hcreate] at hkept
        exact hkept
      · rename_i q z hcreate
        rw [hcreate] at hkept hidle
        -- the number of the new pool is not yet in use
        have hne : z.nextPool ≠ id := (hidle.nextPool ▸ hx.numbered hp).ne'
        show (z.pools.insert z.nextPool q).get? id = some p
        rw [OrderedMap.get?_insert_ite, if_neg hne]
        exact hkept

theorem takeDetached_frame (setup : HostSetup) (x : Host τ) (id : PoolId) :
    (x.takeDetached setup id).2.pools = x.pools ∧
      (x.takeDetached setup id).2.registered = x.registered ∧
      (∀ i, (x.takeDetached setup id).1 = .instance i → i.detached = true) ∧
      ∀ ticket, (x.takeDetached setup id).1 = .waiting ticket → x.pools.get? id = none := by
  cases hp : x.pools.get? id with
  | none =>
    rw [takeDetached_of_none hp]
    refine ⟨rfl, rfl, fun i hi => ?_, fun _ _ => rfl⟩
    cases hi
  | some p =>
    have hidled : Idled x (createInstance setup p.program x).2 :=
      (within_supply setup).create p.program x
    rw [takeDetached_of_some hp]
    -- the instance goes to the caller and never to a pool
    cases hcreate : createInstance setup p.program x with
    | mk result z =>
      rw [hcreate] at hidled
      cases result with
      | error e =>
        refine ⟨hidled.pools, hidled.registered, fun i hi => ?_, fun ticket hwaiting => ?_⟩
        · cases hi
        · cases hwaiting
      | ok i =>
        refine ⟨hidled.pools, hidled.registered, fun j hj => ?_, fun ticket hwaiting => ?_⟩
        · cases hj
          rfl
        · cases hwaiting

theorem giveBack_frame (setup : HostSetup) (x : Host τ) (id : PoolId) {i : Instance}
    (h : i.detached = true) :
    (x.giveBack setup id i).pools = x.pools ∧
      (x.giveBack setup id i).registered = x.registered := by
  obtain ⟨journal, hteardown⟩ := teardownInstance_eq setup (i := i.unbind) rfl x
  unfold giveBack
  rw [if_pos h, hteardown]
  exact ⟨rfl, rfl⟩

theorem leaves_closeKey (hx : x.Orderly) (setup : HostSetup) (key : String) :
    Leaves (fun id => x.registered.get? key = some id) x (x.closeKey setup key) := by
  cases hfiled : x.registered.get? key with
  | none =>
    unfold closeKey
    rw [hfiled]
    exact (Leaves.of_pools rfl).congr fun id => ⟨nofun, False.elim⟩
  | some filed =>
    obtain ⟨q, hq⟩ := Option.isSome_iff_exists.mp (hx.filed hfiled)
    have hstays := Pool.stays_shutdown (within_supply setup) (hx.quiet hq) (x.unfiled key)
    have hshut := Pool.closed_of_shutdown (supply setup) q (x.unfiled key)
    -- the shut pool takes the place of the one that was filed
    have hpools : (x.closeKey setup key).pools = x.pools.insert filed
        (q.requestShutdown.settle (supply setup) (x.unfiled key)).1 := by
      have hunfiled : (x.unfiled key).pools.get? filed = some q := hq
      have hclose : x.closeKey setup key = (x.unfiled key).withPool filed
          fun p y => p.requestShutdown.settle (supply setup) y := by
        unfold closeKey
        rw [hfiled]
        rfl
      rw [hclose]
      unfold withPool
      rw [hunfiled]
      exact congrArg (OrderedMap.insert · filed _) hstays.host.pools
    constructor
    · intro id p hp hne
      rw [hpools, OrderedMap.get?_insert_ite, if_neg fun heq => hne (congrArg some heq)]
      exact hp
    · rintro id p hp ⟨⟩
      obtain rfl : q = p := Option.some.inj (hq.symm.trans hp)
      rw [hpools]
      exact ⟨_, OrderedMap.get?_insert_self _ _ _, hshut, hstays.label⟩

/-! ### Calls below the top -/

end Host

/-- Only a call at the top has waited. -/
def Entry.Topmost : Entry → Prop
  | .new _ => True
  | .waited q => q.call.depth = 0

theorem Entry.Topmost.eq_new {e : Entry} (h : e.Topmost) (hdepth : 0 < e.call.depth) :
    e = .new e.call := by
  cases e with
  | new call => rfl
  | waited q =>
    have htop : q.call.depth = 0 := h
    exact absurd htop (UInt32.pos_iff_ne_zero.mp hdepth)

namespace Host

variable {setup : HostSetup} {x y : Host τ}

/-- **A nested call that begins leaves the pools alone**, and has an instance outside all pools. -/
theorem leaves_enter (hx : x.Orderly) (setup : HostSetup) {e : Entry} (he : e.Topmost)
    (hdepth : 0 < e.call.depth) :
    (∀ ended, x.enter setup e = .error ended →
        Leaves (fun _ => False) x ended.2 ∧ ended.1 ≠ .suspended) ∧
      ∀ s, x.enter setup e = .ok s →
        Leaves (fun _ => False) x s.host ∧ s.inst.detached = true := by
  obtain ⟨call, rfl⟩ : ∃ call, e = .new call := ⟨_, he.eq_new hdepth⟩
  change 0 < call.depth at hdepth
  have hstart : Start setup call x (x.enter setup (.new call)) := start_begin setup call x
  generalize x.enter setup (.new call) = begun at hstart ⊢
  have hopened {result : Except ExecutionError PoolId} {y : Host τ}
      (hopen : x.openPool setup call.contract call.code = (result, y)) :
      Leaves (fun _ => False) x y := by
    have hleaves := leaves_openPool hx setup call.contract call.code
    rw [hopen] at hleaves
    exact hleaves
  have hobtained {id : PoolId} {taken : Obtained} {y z : Host τ}
      (hopen : x.openPool setup call.contract call.code = (.ok id, y))
      (hobtain : y.obtain setup call.depth id = (taken, z)) :
      Leaves (fun _ => False) x z ∧ (∀ i, taken = .instance i → i.detached = true) ∧
        ∀ ticket, taken ≠ .waiting ticket := by
    have hleaves := leaves_openPool hx setup call.contract call.code
    obtain ⟨-, p, hp, -⟩ := openPool_eq_ok hx hopen
    obtain ⟨hpools, -, hdetached, hwaiting⟩ := takeDetached_frame setup y id
    -- the depth is positive, so the instance is a detached one
    unfold obtain at hobtain
    rw [if_pos hdepth] at hobtain
    rw [hobtain] at hpools hdetached hwaiting
    rw [hopen] at hleaves
    refine ⟨hleaves.followed hpools, hdetached, fun ticket heq => ?_⟩
    exact nomatch hp.symm.trans (hwaiting ticket heq)
  constructor
  · rintro ended rfl
    cases hstart with
    | tooDeep => exact ⟨Leaves.of_pools rfl, nofun⟩
    | unopened hopen => exact ⟨hopened hopen, nofun⟩
    | refused hopen hobtain => exact ⟨(hobtained hopen hobtain).1, nofun⟩
    | waiting hopen hobtain => exact absurd rfl ((hobtained hopen hobtain).2.2 _)
    | @unregistered id i e y z hopen hobtain hregister =>
      obtain ⟨hleaves, hdetached, -⟩ := hobtained hopen hobtain
      exact ⟨hleaves.followed (giveBack_frame setup z id (hdetached i rfl)).1, nofun⟩
  · rintro s rfl
    cases hstart with
    | @begun id i c registry y z hopen hobtain hregister =>
      obtain ⟨hleaves, hdetached, -⟩ := hobtained hopen hobtain
      exact ⟨hleaves.followed rfl, hdetached i rfl⟩

/-- **A nested call that is concluded shuts down the pool of a contract that it could not set up**,
and leaves all others alone. -/
theorem leaves_conclude (hx : x.Orderly) (setup : HostSetup) (id : PoolId) (c : Context)
    (result : Except CallFault Unit) {i : Instance} (h : i.detached = true) :
    Leaves (fun k => SetupFailed setup c result i ∧ x.poolId? c.contract = some k) x
      (x.conclude setup id c result i).2 := by
  have hremoved : Orderly { x with registry := x.registry.remove c.handle } :=
    hx.congr rfl rfl rfl
  have hnoted : (noted setup c result i).detached = true :=
    (after_noted setup c result i).detached.trans h
  obtain ⟨hpools, hregistered⟩ :=
    giveBack_frame setup { x with registry := x.registry.remove c.handle } id hnoted
  -- a detached instance is torn down, so only a failed initialisation touches a pool: it closes it
  obtain ⟨hsound, heq⟩ | ⟨hfailed, heq⟩ := snd_conclude setup x id c result i
  · rw [heq]
    have hkept : Leaves (fun _ => False) x ({ x with
        registry := x.registry.remove c.handle }.giveBack setup id (noted setup c result i)) :=
      .of_pools hpools
    exact hkept.congr fun k => ⟨fun hk => hsound hk.1, False.elim⟩
  · have hback : Tended _ ({ x with registry := x.registry.remove c.handle }.giveBack setup id
        (noted setup c result i)) := tended_giveBack hremoved _
    have hclosed := leaves_closeKey (hremoved.tended hback) setup c.contract.key
    rw [hregistered] at hclosed
    rw [heq]
    refine (hclosed.preceded (z := x) hpools.symm).congr fun k => ?_
    exact ⟨fun hk => hk.2, fun hk => ⟨hfailed, hk⟩⟩

end Host

namespace Attempt

variable {setup : HostSetup} {a b : Attempt τ}

/-- The call was to set its contract up and something went wrong, so that it shuts down the pool
that is filed for the contract by then. -/
def Closes (setup : HostSetup) (a : Attempt τ) (id : PoolId) : Prop :=
  ∃ s, a.begun? setup = some s ∧
    Host.SetupFailed setup s.context (a.run setup s).1 (a.run setup s).2.1 ∧
    (a.run setup s).2.2.poolId? a.call.contract = some id

/-- Where a call at the top has waited, no call below it has. -/
theorem topmost_of_mem_family (ha : a.entry.Topmost) (hb : b ∈ a.family setup) :
    b.entry.Topmost := by
  refine induct (P := fun a => a.entry.Topmost → ∀ b ∈ a.family setup, b.entry.Topmost) setup
    ?_ a ha b hb
  intro a ih ha b hb
  rcases mem_family.mp hb with rfl | hb
  · exact ha
  · obtain ⟨c, hc, hb⟩ := mem_below.mp hb
    obtain ⟨v, -, hv⟩ := List.mem_filterMap.mp hc
    obtain ⟨s, -, hasked⟩ := Option.bind_eq_some_iff.mp hv
    obtain ⟨asked, -, rfl⟩ := Option.map_eq_some_iff.mp hasked
    exact ih _ hc trivial b hb

/-- **No call is carried out below the greatest depth.** -/
theorem depth_le_of_begun (ha : a.entry.Topmost) (h : (a.begun? setup).isSome) :
    a.call.depth ≤ setup.config.execution.maxCallDepth := by
  obtain ⟨s, hs⟩ := Option.isSome_iff_exists.mp h
  obtain ⟨-, henter⟩ := enter_of_begun hs
  by_cases hdepth : 0 < a.call.depth
  · rw [ha.eq_new hdepth] at henter
    have hbegin : a.host.begin setup a.call = .ok s := henter
    unfold Host.begin at hbegin
    split at hbegin
    · cases hbegin
    · exact UInt32.not_lt.mp ‹_›
  · exact UInt32.le_trans (UInt32.not_lt.mp hdepth) UInt32.zero_le

/-- **A call nested in another one is exactly one level deeper.** -/
theorem Ended.depth_nested (ha : a.Ended setup) (hb : b ∈ a.nested setup) :
    b.call.depth.toNat = a.call.depth.toNat + 1 := by
  obtain ⟨s, result, i, y, c, hran, -, v, hv, hin, -⟩ := ha.sequel hb
  cases hran.passage v hv with
  | alone hnested => exact nomatch hnested.symm.trans hin
  | nested hnested _ hdepth _ =>
    obtain rfl := Option.some.inj (hnested.symm.trans hin)
    exact hdepth

/-- **What the calls nested in a call leave, the call itself leaves while it runs.** -/
theorem Ran.leaves {s : Begun τ} {result : Except CallFault Unit} {i : Instance} {y : Host τ}
    {c : Context} (h : a.Ran setup s result i y c)
    (hnested : ∀ b ∈ a.nested setup,
      Host.Leaves (fun id => ∃ d ∈ b.family setup, d.Closes setup id) b.host (b.after setup)) :
    Host.Leaves (fun id => ∃ d ∈ a.below setup, d.Closes setup id) s.host y := by
  -- along the course: so far only the nested calls that were made have closed pools
  refine h.throughout (P := fun visits x =>
    Host.Leaves (fun id => ∃ d ∈ (visits.filterMap (a.nestedIn setup)).flatMap (family setup),
      d.Closes setup id) s.host x) ?_ ?_ ?_
  · refine (Host.Leaves.of_pools rfl).congr fun id => iff_false_intro ?_
    rintro ⟨d, hd, -⟩
    cases hd
  · rintro visits x z ⟨registry, journal, rfl⟩ hleaves
    exact hleaves.followed rfl
  · intro visits v hv hpassage hleaves
    cases hpassage with
    | alone hin hledger hafter =>
      obtain ⟨registry, journal, hafter⟩ := hafter
      rw [List.filterMap_append, List.filterMap_cons_none hin, List.filterMap_nil,
        List.append_nil, hafter]
      exact hleaves.followed rfl
    | @nested b hin hhost hdepth hafter =>
      obtain ⟨registry, journal, hafter⟩ := hafter
      have hb : b ∈ a.nested setup := List.mem_filterMap.mpr ⟨v, hv, hin⟩
      have hboth := hleaves.trans (hhost ▸ hnested b hb)
      rw [hafter]
      refine (hboth.followed (z := { b.after setup with registry, journal }) rfl).congr fun id => ?_
      rw [List.filterMap_append, List.filterMap_cons_some hin, List.filterMap_nil,
        List.flatMap_append, List.flatMap_singleton]
      simp only [List.mem_append, or_and_right, exists_or]

/-- **A nested call leaves the pools that were there before it**, but for those that it or a call
below it shuts down. -/
theorem Ended.leaves (ha : a.Ended setup) (hentry : a.entry.Topmost) (hdepth : 0 < a.call.depth) :
    Host.Leaves (fun id => ∃ d ∈ a.family setup, d.Closes setup id) a.host (a.after setup) := by
  -- by induction on the tree: entering, running and concluding each leave the pools but for those
  -- closed below
  refine induct (P := fun a => a.Ended setup → a.entry.Topmost → 0 < a.call.depth →
    Host.Leaves (fun id => ∃ d ∈ a.family setup, d.Closes setup id) a.host (a.after setup)) setup
    ?_ a ha hentry hdepth
  intro a ih ha hentry hdepth
  have hnobody (hbegun : a.begun? setup = none) (id : PoolId) :
      (∃ d ∈ a.family setup, d.Closes setup id) ↔ False := by
    rw [family_of_not_begun hbegun]
    simp only [List.mem_singleton, exists_eq_left, iff_false]
    rintro ⟨s, hs, -⟩
    exact nomatch hbegun.symm.trans hs
  cases ha.closing with
  | levelless hbegun hafter =>
    exact (Host.Leaves.of_pools (congrArg _ hafter)).congr (hnobody hbegun)
  | early hbegun henter =>
    exact ((Host.leaves_enter ha.orderly setup hentry hdepth).1 _ henter).1.congr (hnobody hbegun)
  | @concluded s result i y c hran hafter =>
    obtain ⟨-, henter⟩ := enter_of_begun hran.begun
    obtain ⟨hcontract, -⟩ := Host.context_of_enter henter
    obtain ⟨hbegun, hdetached⟩ := (Host.leaves_enter ha.orderly setup hentry hdepth).2 s henter
    have hrun := hran.leaves fun b hb => by
      have hdeeper : 0 < b.call.depth := by
        rw [UInt32.lt_iff_toNat_lt, ha.depth_nested hb]
        exact Nat.succ_pos _
      exact ih b hb (ha.nested hb)
        (topmost_of_mem_family hentry (mem_family.mpr (.inr (mem_below.mpr
          ⟨b, hb, b.self_mem_family setup⟩)))) hdeeper
    have hout : i.detached = true := by
      have hinst := Instance.ran_callGuest setup.guest (hostCalls setup (a.inner setup)) false
        s.context (budgetOf setup a.call) s.inst s.host
      have hrun := hran.run
      unfold run at hrun
      rw [hrun] at hinst
      exact hinst.after.detached.trans hdetached
    have hend := Host.leaves_conclude hran.underway.orderly setup s.pool s.context result hout
    have hcloses (id : PoolId) : a.Closes setup id ↔
        Host.SetupFailed setup s.context result i ∧ y.poolId? s.context.contract = some id := by
      unfold Closes call
      rw [hran.begun, hcontract]
      simp only [Option.some.injEq, exists_eq_left', hran.run]
    rw [hafter]
    refine ((hbegun.trans hrun).trans hend).congr fun id => ?_
    rw [family_eq, List.exists_mem_cons_iff, hcloses, false_or, or_comm]

end Attempt

/-! ### Nested calls come to an end -/

/-- Nested calls are not broken off. -/
def Invoker.Ends (invoke : Invoker τ) : Prop :=
  ∀ {call : Call} {x : Host τ}, x.Orderly → 0 < call.depth → (invoke call x).1 ≠ .suspended

namespace Host

variable {setup : HostSetup} {x : Host τ} {e : Entry} {s : Begun τ}

/-- A call that has begun is not broken off, if those nested in it are not. -/
theorem run_ends {invoke : Invoker τ} (htidy : invoke.Tidy) (hends : invoke.Ends)
    (hx : x.Orderly) (henter : x.enter setup e = .ok s) :
    (callGuest setup.guest (hostCalls setup invoke) false s.context (budgetOf setup e.call) s.inst
      s.host).1 ≠ .error .suspended := by
  intro hsuspended
  have hbeginning := beginning_enter setup e hx
  rw [henter] at hbeginning
  have hbroken := (follows_callGuest setup.guest (hostCalls setup invoke) false s.context
    (budgetOf setup e.call) s.inst s.host).broken hsuspended
  cases hbeginning with
  | begun hunderway hfree hbound houtcome hcached =>
    generalize (callGuest setup.guest (hostCalls setup invoke) false s.context
      (budgetOf setup e.call) s.inst s.host).2.2 = y at hbroken
    cases hbroken with
    | looping hcourse hbreaksOff => cases hbreaksOff
    | @inside visits m hcourse regions caller world hserved =>
      have hstart : Underway x.registry.contexts s.context
          ((s.inst.setGas (budgetOf setup e.call)).machine s.host).world := hunderway
      have hlinked : (s.inst.linkage false).bound = some s.context.handle := hbound
      obtain ⟨c, hc, hadvances, -⟩ := hstart.along htidy hlinked hcourse
        (P := fun _ _ => True) trivial (fun _ _ => trivial) fun _ _ _ => trivial
      have hrequest : m.world.request setup invoke (s.inst.linkage false) regions m.toCaller =
          (.suspended, caller, y) := hserved
      have hbound' : (s.inst.linkage false).bound = some c.handle := hadvances.handle ▸ hbound
      obtain ⟨-, hunheard⟩ | ⟨name, body, -, hreaches⟩ :=
        hc.requested setup htidy hbound' regions m.toCaller
      · exact nomatch hrequest.symm.trans hunheard
      · rw [hrequest] at hreaches
        cases hreaches with
        | served _ hanswer _ => exact hanswer rfl
        | refused _ _ hanswer _ => exact hanswer rfl
        | nested _ _ _ hanswer _ => exact hanswer rfl
        | @broken _ inner hname hasked hinvoke =>
          -- the nested call is deeper, and so it has ended
          exact hends hc.orderly (UInt32.pos_iff_ne_zero.mpr (depth_callAsked_ne_zero hasked))
            (congrArg Prod.fst hinvoke)

/-- **Nested calls come to an end**: they wait for no instance. -/
theorem ends_invokeWithin (setup : HostSetup) (levels : Nat) :
    Invoker.Ends (invokeWithin (τ := τ) setup false levels) := by
  -- by induction on the levels, since a nested call can only wait in a call of its own
  induction levels with
  | zero => exact fun _ _ => nofun
  | succ levels ih =>
    intro call x hx hdepth
    have hcarried : Carried setup false levels (.new call) x
        (x.invokeWithin setup false (levels + 1) call) :=
      carried_perform setup false levels (.new call) x
    generalize x.invokeWithin setup false (levels + 1) call = ended at hcarried ⊢
    cases hcarried with
    | early henter => exact ((leaves_enter (e := .new call) hx setup trivial hdepth).1 _ henter).2
    | brokenOff henter hran =>
      have hends := run_ends (tidy_invokeWithin setup false levels) ih hx henter
      rw [hran] at hends
      exact absurd rfl hends
    | concluded => exact nofun

/-- A call leaves the pools quiet, even if it waits. -/
theorem orderly_perform (hx : x.Orderly) (setup : HostSetup) (levels : Nat) (e : Entry) :
    (x.perform setup false levels e).2.Orderly := by
  cases levels with
  | zero => cases e <;> exact hx
  | succ levels =>
    have hbeginning := beginning_enter setup e hx
    have hcarried := carried_perform setup false levels e x
    cases hperform : x.perform setup false (levels + 1) e with
    | mk completion y =>
      -- a call that ended is tidy, and a call suspended on entry has only taken a place in line
      cases completion with
      | finished result => exact (tidy_perform setup false (levels + 1) hx hperform).1
      | suspended =>
        rw [hperform] at hcarried
        cases hcarried with
        | early henter =>
          rw [henter] at hbeginning
          cases hbeginning with
          | ended _ horderly => exact horderly
        | brokenOff henter hran =>
          have hends := run_ends (tidy_invokeWithin setup false levels)
            (ends_invokeWithin setup levels) hx henter
          exact absurd (congrArg Prod.fst hran) hends

end Host

/-! ### The rules of nesting -/

namespace Attempt

variable {setup : HostSetup} {a b : Attempt τ}

/-- A call that keeps to the rules of nesting. -/
structure Disciplined (setup : HostSetup) (a : Attempt τ) : Prop where
  /-- It is carried out only within the greatest depth. -/
  bounded : (a.begun? setup).isSome → a.call.depth ≤ setup.config.execution.maxCallDepth
  /-- The calls nested in it are exactly one level deeper. -/
  deeper : ∀ b ∈ a.nested setup, b.call.depth.toNat = a.call.depth.toNat + 1
  /-- If it is nested, then of the pools that were there before it only those are touched that are
  shut down because a contract could not be set up. -/
  pools : 0 < a.call.depth →
    Host.Leaves (fun id => ∃ d ∈ a.family setup, d.Closes setup id) a.host (a.after setup)

/-- A call that has begun comes to an end. -/
theorem ended_of_begun (hx : a.host.Orderly) {s : Begun τ} (h : a.begun? setup = some s) :
    a.Ended setup := by
  obtain ⟨hlevels, henter⟩ := enter_of_begun h
  obtain ⟨n, hn⟩ := Nat.exists_eq_succ_of_ne_zero hlevels
  have hcarried := Host.carried_perform setup false n a.entry a.host
  refine ⟨hx, ?_⟩
  unfold result
  rw [hn]
  generalize a.host.perform setup false (n + 1) a.entry = ended at hcarried ⊢
  -- a nested call never waits, so neither does the guest
  cases hcarried with
  | early herror => exact nomatch herror.symm.trans henter
  | brokenOff hok hran =>
    have hends := Host.run_ends (Host.tidy_invokeWithin setup false n)
      (Host.ends_invokeWithin setup n) hx hok
    rw [hran] at hends
    exact absurd rfl hends
  | concluded => exact ⟨_, rfl⟩

/-- A nested call comes to an end, whether it has begun or not. -/
theorem ended_of_deep (hx : a.host.Orderly) (hentry : a.entry.Topmost) (hdepth : 0 < a.call.depth) :
    a.Ended setup := by
  have hends := Host.ends_invokeWithin setup a.levels hx hdepth
  have hperform : a.host.perform setup false a.levels a.entry =
      a.host.invokeWithin setup false a.levels a.call := by
    rw [hentry.eq_new hdepth]
    rfl
  refine ⟨hx, ?_⟩
  unfold result
  rw [hperform]
  generalize (a.host.invokeWithin setup false a.levels a.call).1 = completion at hends ⊢
  cases completion with
  | finished finished => exact ⟨finished, rfl⟩
  | suspended => exact absurd rfl hends

/-- **Every tree of calls keeps to the rules.** -/
theorem disciplined (hx : a.host.Orderly) (hentry : a.entry.Topmost) :
    ∀ t ∈ a.family setup, t.Disciplined setup := by
  have hended (ha : a.Ended setup) : ∀ t ∈ a.family setup, t.Disciplined setup := by
    intro t ht
    have hsound := topmost_of_mem_family hentry ht
    exact ⟨depth_le_of_begun hsound, fun b hb => (ha.family t ht).depth_nested hb,
      fun hdepth => (ha.family t ht).leaves hsound hdepth⟩
  cases hbegun : a.begun? setup with
  | some s => exact hended (ended_of_begun hx hbegun)
  | none =>
    by_cases hdepth : 0 < a.call.depth
    · exact hended (ended_of_deep hx hentry hdepth)
    · -- a call at the top that has not begun has none below it, and may wait
      rw [family_of_not_begun hbegun, List.forall_mem_singleton]
      refine ⟨depth_le_of_begun hentry, fun b hb => ?_, fun hdeep => absurd hdeep hdepth⟩
      rw [nested_of_not_begun hbegun] at hb
      cases hb

end Attempt

/-- **All trees of calls keep to the rules of nesting**, on every host whose pools are in order and
for every call, whether it is made now or has waited: a nested call is exactly one level deeper than
its caller, nothing is carried out below the greatest depth, and a nested call leaves every pool
that was there before it as it was, but for the pool of a contract that could not be set up, which
is shut down. -/
theorem Host.nesting_disciplined {setup : HostSetup} {x : Host τ} (hx : x.Orderly) {e : Entry}
    (he : e.Topmost) : ∀ t ∈ (x.root setup e).family setup, t.Disciplined setup :=
  Attempt.disciplined hx he

namespace Host

/-! ### Trees of two calls -/

/-- A contract that does nothing. -/
def restingCode : Code :=
  ⟨[1], some { methods := [("run", {})] }⟩

/-- A host with a contract that does nothing, and with a pool for it. -/
def restingHost (setup : HostSetup) : Host Session :=
  (openPool setup ⟨"resting", "1"⟩ restingCode
    { ledger := ⟨Ledger.deploy {} ⟨"resting", "1"⟩ restingCode, default⟩ }).2

theorem orderly_restingHost (setup : HostSetup) : (restingHost setup).Orderly :=
  orderly_openPool setup (.of_empty _) _ _

/-- A call, at some depth, of a contract that calls the one that does nothing. -/
def rousing (depth : UInt32) : Call :=
  let header := headerOf 1 .callContractLen
  let body := Packet.encode ⟨[⟨.user, "contract_name", .text "resting"⟩,
    ⟨.user, "method", .text "run"⟩, ⟨.user, "value_ptr", .int32 0⟩]⟩
  let request : Action := .request 1024 (Int32.ofNat header.length)
    (Int32.ofNat (1024 + header.length)) (Int32.ofNat body.length)
  let script : Script :=
    { data := [(1024, header ++ body)], methods := [("run", { body := [request] })] }
  { contract := ⟨"rousing", "1"⟩, code := ⟨[1], some script⟩, method := "run", depth }

/-- How often instances of a pool were used. -/
def usesOf (x : Host Session) (id : PoolId) : Option UInt32 :=
  (x.pools.get? id).map (·.uses)

/-- The contract that is called runs on an instance of its own, and its pool is not used. -/
theorem nesting_disciplined_rousing :
    ∃ b ∈ ((restingHost singleSetup).root singleSetup (.new (rousing 0))).nested singleSetup,
      b.call.depth = 1 ∧ b.Disciplined singleSetup ∧ code? (b.result singleSetup) = some 0 ∧
        usesOf b.host 0 = some 0 ∧ usesOf (b.after singleSetup) 0 = some 0 := by
  have hnested :
      (((restingHost singleSetup).root singleSetup (.new (rousing 0))).nested singleSetup).map
      (fun b => (b.call.depth, code? (b.result singleSetup), usesOf b.host 0,
        usesOf (b.after singleSetup) 0)) = [(1, some 0, some 0, some 0)] := by decide +kernel
  obtain ⟨b, rest, hb, hfound, -⟩ := List.map_eq_cons_iff.mp hnested
  simp only [Prod.mk.injEq] at hfound
  obtain ⟨hdepth, hcode, hbefore, hafter⟩ := hfound
  have hmem : b ∈
      ((restingHost singleSetup).root singleSetup (.new (rousing 0))).nested singleSetup := by
    rw [hb]
    exact List.mem_cons_self
  have hfamily : b ∈
      ((restingHost singleSetup).root singleSetup (.new (rousing 0))).family singleSetup := by
    exact Attempt.mem_family.mpr
      (.inr (Attempt.mem_below.mpr ⟨b, hmem, b.self_mem_family singleSetup⟩))
  have hdisciplined : b.Disciplined singleSetup :=
    nesting_disciplined (orderly_restingHost singleSetup) (e := .new (rousing 0)) trivial b hfamily
  exact ⟨b, hmem, hdepth, hdisciplined, hcode, hbefore, hafter⟩

end Host

end ContractHost
