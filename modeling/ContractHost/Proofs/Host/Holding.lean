import ContractHost.Proofs.Host.Lasting
import ContractHost.Proofs.Pool.Held

/-!
# What comes into the pools of a host

A host makes instances for its pools, and gives back to them those that calls have used.  Nothing
else comes into a pool, whatever the host does with it.  So if new instances are not of some kind,
and none is that is given back, then no pool comes to hold one of that kind; and no call is given
one either.

## Main definitions

* `Host.Free` — no pool of the host holds an instance of a kind.
* `Host.Spared` — an instance is not of the kind, for the pool that it comes from.

## Main results

* `Host.Free.giveBack`, `Host.Free.giveUp` — what giving an instance back and giving it up bring in.
* `Host.Free.enter` — **what the beginning of a call brings in, and what the call is given.**
* `Host.Free.carryOut` — **orders bring in new instances only.**
-/

namespace ContractHost

namespace Host

variable {τ : Type} {n : Nat} {kind : Module → Instance → Bool} {x y : Host τ} {id : PoolId}
variable {p q : Pool}

/-- No pool holds an instance of a kind, which may depend on the module of the pool, and the next
instance has at least the number `n`. -/
structure Free (n : Nat) (kind : Module → Instance → Bool) (x : Host τ) : Prop where
  /-- The host is orderly. -/
  orderly : x.Orderly
  /-- No pool holds one. -/
  pools : ∀ {id p}, x.pools.get? id = some p → p.Free (kind p.program)
  /-- The numbers have come so far. -/
  next : n ≤ x.nextInstance

/-- The instance is not of the kind, for the module of which a pool makes its instances. -/
def Spared (kind : Module → Instance → Bool) (id : PoolId) (x : Host τ) (i : Instance) : Prop :=
  ∃ m, kind m i = false ∧ ∀ {p}, x.pools.get? id = some p → p.program = m

/-- The instances of a host are those of the modules that they are made of. -/
theorem faithful_supply [LedgerAccess τ] (setup : HostSetup) :
    (supply setup : Supply (Host τ)).Faithful :=
  script_of_createInstance

namespace Free

theorem move (h : x.Free n kind) (hpools : y.pools = x.pools) (horderly : y.Orderly)
    (hnext : x.nextInstance ≤ y.nextInstance) : y.Free n kind :=
  ⟨horderly, fun hp => h.pools (hpools ▸ hp), h.next.trans hnext⟩

theorem idled (h : x.Free n kind) (hidled : Idled x y) : y.Free n kind :=
  h.move hidled.pools (h.orderly.tended (.of_idled h.orderly hidled)) hidled.nextInstance

theorem insert (h : x.Free n kind) (hp : x.pools.get? id = some p)
    (hstays : Pool.Stays Idled p x q y) (hq : q.Free (kind p.program)) :
    Free n kind { y with pools := y.pools.insert id q } where
  orderly := h.orderly.tended (.insert h.orderly hp hstays)
  pools {k r} hr := by
    change (y.pools.insert id q).get? k = some r at hr
    rw [OrderedMap.get?_insert_ite, hstays.host.pools] at hr
    split at hr
    · cases hr
      rw [Pool.program_eq_of_label hstays.label]
      exact hq
    · exact h.pools hr
  next := h.next.trans hstays.host.nextInstance

/-- **Work on a pool.** -/
theorem withPool (h : x.Free n kind) (id : PoolId) {f : Pool → Host τ → Pool × Host τ}
    (hstays : ∀ p, p.Quiet → Pool.Stays Idled p x (f p x).1 (f p x).2)
    (hfree : ∀ {p}, x.pools.get? id = some p → p.Free (kind p.program) →
      (f p x).1.Free (kind p.program)) : (x.withPool id f).Free n kind := by
  unfold Host.withPool
  split
  · exact h
  · rename_i p hp
    exact h.insert hp (hstays p (h.orderly.quiet hp)) (hfree hp (h.pools hp))

variable [LedgerAccess τ] {setup : HostSetup}

theorem tell (h : x.Free n kind) (hspares : Pool.Spares n kind) (id : PoolId) {told : Pool → Pool}
    (hquiet : ∀ p, p.Quiet → (told p).Quiet) (hlabel : ∀ p, (told p).label = p.label)
    (hfree : ∀ {p} {alien : Instance → Bool}, p.Free alien → (told p).Free alien) :
    Free n kind (x.withPool id fun p y => (told p).settle (supply setup) y) := by
  refine h.withPool id (fun p hp => ?_) fun {p} _ hp => ?_
  · have hstays := Pool.stays_settle (within_supply setup) (hquiet p hp) x
    exact ⟨hstays.label.trans (hlabel p), hstays.quiet, hstays.host⟩
  · have hprogram := Pool.program_eq_of_label (hlabel p)
    have hsettled := Pool.free_settle (numbered setup) (fresh_supply setup) (faithful_supply setup)
      hspares (hprogram ▸ hfree hp) h.next
    exact hprogram ▸ hsettled

theorem settlePool (h : x.Free n kind) (hspares : Pool.Spares n kind) (id : PoolId) :
    (x.settlePool setup id).Free n kind :=
  h.tell hspares id (fun _ hp => hp) (fun _ => rfl) fun hp => hp

/-- **An instance that is given back** may come in, if it has not failed too often. -/
theorem giveBack (h : x.Free n kind) (hspares : Pool.Spares n kind) (id : PoolId) {i : Instance}
    (hi : ∀ {p}, x.pools.get? id = some p → i.errors ≤ p.settings.discardThreshold →
      kind p.program i = false) : (x.giveBack setup id i).Free n kind := by
  unfold Host.giveBack
  split
  · exact h.idled ((within_supply setup).teardown x rfl)
  · have hunbound (m : Module) : kind m i.unbind = kind m i := hspares.told rfl rfl rfl
    have hback : Free n kind (x.withPool id fun p h => p.release (supply setup) i h) :=
      h.withPool id (fun _ hp => Pool.stays_release (within_supply setup) hp i x)
        fun hp hfree =>
          Pool.free_release (supply setup) hfree ((hunbound _).trans ∘ hi hp) x
    exact hback.settlePool hspares id

/-- **An instance that is given up** does not come in. -/
theorem giveUp (h : x.Free n kind) (hspares : Pool.Spares n kind) (id : PoolId) (i : Instance) :
    (x.giveUp setup id i).Free n kind := by
  have hgone := h.withPool id
    (fun _ hp => Pool.stays_discard (within_supply setup) hp i x)
    fun _ hfree => Pool.free_discard (supply setup) hfree i x
  exact hgone.settlePool hspares id

theorem abandonLease (h : x.Free n kind) (hspares : Pool.Spares n kind) (l : Lease) :
    (x.abandonLease setup l).Free n kind := by
  have hremoved : Free n kind { x with registry := x.registry.remove l.handle } :=
    h.move rfl (h.orderly.congr rfl rfl rfl) le_rfl
  exact hremoved.giveUp hspares l.pool l.inst

/-! ### Opening, closing and resetting -/

theorem openPool (h : x.Free n kind) (hspares : Pool.Spares n kind) (c : ContractId) (code : Code) :
    (x.openPool setup c code).2.Free n kind := by
  have horderly := orderly_openPool setup h.orderly c code
  unfold Host.openPool at horderly ⊢
  -- the pool is there, or its code does not compile, or its instances are all new
  split
  · exact h
  · rename_i hnone
    rw [hnone] at horderly
    dsimp only at horderly
    rw [createPool_eq] at horderly ⊢
    split
    · exact h
    · rename_i m hmaking
      rw [hmaking] at horderly
      dsimp only at horderly
      obtain ⟨hidled, -⟩ := Pool.stays_create (within_supply setup) c m (x.terms setup) x
      split
      · rename_i hcreate
        rw [hcreate] at hidled
        exact h.idled hidled
      · rename_i p y hcreate
        rw [hcreate] at hidled horderly
        obtain ⟨hprogram, hp⟩ := Pool.free_create (numbered setup) (fresh_supply setup)
          (faithful_supply setup) hspares h.next hcreate
        refine ⟨horderly, fun {k r} hr => ?_, h.next.trans hidled.nextInstance⟩
        change (y.pools.insert y.nextPool p).get? k = some r at hr
        rw [OrderedMap.get?_insert_ite, hidled.pools] at hr
        split at hr
        · cases hr
          exact hprogram ▸ hp
        · exact h.pools hr

theorem closeKey (h : x.Free n kind) (hspares : Pool.Spares n kind) (key : String) :
    (x.closeKey setup key).Free n kind := by
  unfold Host.closeKey
  split
  · exact h
  · have hunfiled : Free n kind (x.unfiled key) := h.move rfl (h.orderly.unfiled key) le_rfl
    exact hunfiled.tell hspares _ (fun _ hp => hp.requestShutdown) Pool.label_requestShutdown
      fun hp => hp.requestShutdown

theorem resetKey (h : x.Free n kind) (hspares : Pool.Spares n kind) (key : String) :
    (x.resetKey setup key).Free n kind := by
  unfold Host.resetKey
  split
  · exact h
  · exact h.tell hspares _ (fun _ hp => hp.requestReset) Pool.label_requestReset
      fun hp => hp.requestReset

/-- **Orders bring in new instances only.** -/
theorem carryOut (h : x.Free n kind) (hspares : Pool.Spares n kind) (order : Order) :
    (x.carryOut setup order).Free n kind := by
  cases order with
  | «open» c code => exact h.openPool hspares c code
  | close c => exact h.closeKey hspares c.key
  | closeAll =>
    exact Lasting.foldl (P := Free n kind) (fun key hy => hy.closeKey hspares key) x.poolKeys h
  | reset c => exact h.resetKey hspares c.key
  | resetAll =>
    exact Lasting.foldl (P := Free n kind) (fun key hy => hy.resetKey hspares key) x.poolKeys h

/-! ### Taking an instance -/

omit [LedgerAccess τ] in
theorem claim (h : x.Free n kind) (id : PoolId) (ticket : Ticket) :
    (x.claim id ticket).2.Free n kind ∧
      ∀ i, (x.claim id ticket).1 = .instance i → Spared kind id (x.claim id ticket).2 i := by
  cases hp : x.pools.get? id with
  | none =>
    rw [claim_of_none hp]
    exact ⟨h, fun _ hi => by cases hi⟩
  | some p =>
    obtain ⟨hfree, hgiven⟩ := (h.pools hp).claim ticket
    rw [claim_of_some hp]
    refine ⟨h.insert hp ⟨rfl, (h.orderly.quiet hp).claim ticket, Idled.refl x⟩ hfree,
      fun i hi => ⟨p.program, hgiven i ?_, fun {q} hq => ?_⟩⟩
    · dsimp only at hi
      -- only an instance that was in the pool is handed over
      split at hi
      · rename_i j hj
        obtain rfl : j = i := Obtained.instance.inj hi
        exact hj
      · cases hi
      · cases hi
    · change (x.pools.insert id _).get? id = some q at hq
      rw [OrderedMap.get?_insert_self] at hq
      cases hq
      rfl

/-- A ready instance that is taken was held by its pool, or is new. -/
theorem takeReady (h : x.Free n kind) (hspares : Pool.Spares n kind) (id : PoolId) :
    (x.takeReady setup id).2.Free n kind ∧
      ∀ i, (x.takeReady setup id).1 = .instance i → Spared kind id (x.takeReady setup id).2 i := by
  cases hp : x.pools.get? id with
  | none =>
    rw [takeReady_of_none hp]
    exact ⟨h, fun _ hi => by cases hi⟩
  | some p =>
    have hprogram := Pool.program_eq_of_label (Pool.label_acquire p)
    have hfree : (asked setup p x).1.Free (kind p.program) :=
      hprogram ▸ Pool.free_settle (numbered setup) (fresh_supply setup) (faithful_supply setup)
        hspares (hprogram ▸ (h.pools hp).acquire) h.next
    rw [takeReady_of_some hp]
    exact (h.insert hp (stays_asked (h.orderly.quiet hp) x) hfree).claim id p.acquire.1

/-- **Nothing comes in when a call no longer waits.** -/
theorem leave (h : x.Free n kind) (hspares : Pool.Spares n kind) (q : Queued) :
    (x.leave setup q).Free n kind := by
  have hleft : (x.dequeue q).Free n kind := h.move rfl (h.orderly.congr rfl rfl rfl) le_rfl
  have hclaimed := (hleft.claim q.pool q.ticket).1
  obtain ⟨taken, y, hclaim, hleave⟩ := leave_cases setup x q
  rw [hclaim] at hclaimed
  obtain ⟨i, -, heq⟩ | ⟨-, heq⟩ := hleave
  · rw [heq]
    exact hclaimed.giveUp hspares q.pool i
  · have hgone := hclaimed.withPool q.pool (f := fun p z => (p.cancel q.ticket, z))
      (fun p hp => ⟨Pool.label_cancel p _, hp.cancel _, Idled.refl y⟩)
      fun _ hfree => hfree.cancel q.ticket
    rw [heq]
    exact hgone.settlePool hspares q.pool

theorem takeDetached (h : x.Free n kind) (hspares : Pool.Spares n kind) (id : PoolId) :
    (x.takeDetached setup id).2.Free n kind ∧
      ∀ i, (x.takeDetached setup id).1 = .instance i →
        Spared kind id (x.takeDetached setup id).2 i := by
  cases hp : x.pools.get? id with
  | none =>
    rw [takeDetached_of_none hp]
    exact ⟨h, fun _ hi => by cases hi⟩
  | some p =>
    rw [takeDetached_of_some hp]
    have hidled : Idled x (createInstance setup p.program x).2 :=
      (within_supply setup).create p.program x
    cases hcreate : createInstance setup p.program x with
    | mk result y =>
      rw [hcreate] at hidled
      cases result with
      | error e => exact ⟨h.idled hidled, fun _ hi => by cases hi⟩
      | ok i =>
        obtain ⟨⟨hid, -, -, herrors⟩, -⟩ := createInstance_eq_ok hcreate
        refine ⟨h.idled hidled, fun j hj => ⟨p.program, ?_, fun {q} hq => ?_⟩⟩
        · cases hj
          -- a detached instance is made for the call, with the script of the pool
          have hscript := script_of_createInstance hcreate
          exact hspares.new (h.next.trans_eq hid.symm) herrors hscript
        · dsimp only at hq
          rw [hidled.pools, hp] at hq
          cases hq
          rfl

/-- **Taking an instance.** -/
theorem obtain (h : x.Free n kind) (hspares : Pool.Spares n kind) (depth : UInt32) (id : PoolId) :
    (x.obtain setup depth id).2.Free n kind ∧
      ∀ i, (x.obtain setup depth id).1 = .instance i →
        Spared kind id (x.obtain setup depth id).2 i := by
  unfold Host.obtain
  split
  · exact h.takeDetached hspares id
  · exact h.takeReady hspares id

/-! ### Calls begin -/

theorem admits (hspares : Pool.Spares n kind) :
    Admits setup (fun x : Host τ => x.Free n kind) fun id i x => Spared kind id x i where
  openPool hx c code := hx.openPool hspares c code
  obtain hx depth id := hx.obtain hspares depth id
  claim hx id ticket := hx.claim id ticket
  queued hx _ := hx.move rfl (hx.orderly.congr rfl rfl rfl) le_rfl
  giveBack hx := fun ⟨_, hspared, hprogram⟩ =>
    hx.giveBack hspares _ fun hp _ => hprogram hp ▸ hspared

/-- **What the beginning of a call brings in, and what the call is given**, whether it is made now
or has waited. -/
theorem enter (h : x.Free n kind) (hspares : Pool.Spares n kind) (e : Entry) :
    (∀ ended, x.enter setup e = .error ended → ended.2.Free n kind) ∧
      ∀ s, x.enter setup e = .ok s →
        s.host.Free n kind ∧ Spared kind s.pool s.host s.inst := by
  have hadmits : Admits setup (fun x : Host τ => x.Free n kind) fun id i x => Spared kind id x i :=
    admits hspares
  have hadmitted := hadmits.enter e h
  constructor
  · rintro ended henter
    rw [henter] at hadmitted
    exact hadmitted
  · rintro s henter
    rw [henter] at hadmitted
    obtain ⟨i, y, registry, hy, ⟨m, hspared, hprogram⟩, hinst, hhost⟩ := hadmitted
    have hbound : kind m (i.bind s.context.handle) = kind m i := hspares.told rfl rfl rfl
    rw [hinst, hhost]
    exact ⟨hy.move rfl (hy.orderly.congr rfl rfl rfl) le_rfl, m, hbound.trans hspared, hprogram⟩

end Free

end Host

end ContractHost
