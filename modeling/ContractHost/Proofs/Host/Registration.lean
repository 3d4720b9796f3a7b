import ContractHost.Proofs.Host.Lasting

/-!
# Which pools are filed

A pool is filed when it is made, under the key of its contract, and is no longer filed once it is
shut down.  So the pools that are open are exactly those that are filed, and no two of them share a
key, whatever has happened on the host: opening may fail, and a pool may be closed by an order or by
a call that could not set its contract up.

A pool that is shut down is never filed again.  Whoever asks for the pool of its contract later is
given one that was made since.

## Main definitions

* `Host.Opened` — what asking for the pool of a contract comes to.
* `Host.Enrolled` — exactly the open pools are filed.
* `Host.Endures` — what becomes of the pools that were there before.
* `Host.FilesOpenPools` — how a host files its pools, and what opening and closing come to.

## Main results

* `Host.lasting_enrolled`, `Host.lasting_endures` — **both last, whatever happens.**
* `Host.Reached.files_open_pools` — **every host files exactly its open pools.**
-/

namespace ContractHost

namespace Host

variable {τ : Type} [LedgerAccess τ] {setup : HostSetup} {x y z : Host τ} {c : ContractId}

/-! ### Opening and closing -/

/-- What asking for the pool of a contract comes to. -/
inductive Opened (c : ContractId) (x : Host τ) : Except ExecutionError PoolId × Host τ → Prop
  /-- It is filed. -/
  | found {id : PoolId} (hfiled : x.poolId? c = some id) : Opened c x (.ok id, x)
  /-- None is filed, and none can be made. -/
  | failed {e : ExecutionError} {y : Host τ} (hnone : x.poolId? c = none) (hidled : Idled x y) :
      Opened c x (.error e, y)
  /-- None is filed, and one is made. -/
  | added {p : Pool} {y : Host τ} (hnone : x.poolId? c = none) (hidled : Idled x y)
      (hcontract : p.contract = c) (hopen : p.closed = false) (hquiet : p.Quiet) :
      Opened c x (.ok y.nextPool, { y with
        pools := y.pools.insert y.nextPool p
        registered := y.registered.insert c.key y.nextPool
        nextPool := y.nextPool + 1 })

/-- **Asking for a pool comes to one of these.** -/
theorem opened_openPool (setup : HostSetup) (x : Host τ) (c : ContractId) (code : Code) :
    Opened c x (x.openPool setup c code) := by
  unfold openPool
  -- found, or refused with nothing changed, or added under the next number
  split
  · exact .found ‹_›
  · rename_i hnone
    rw [createPool_eq]
    split
    · exact .failed hnone ((within_supply setup).refl x)
    · rename_i m _
      obtain ⟨hidled, hok⟩ := Pool.stays_create (within_supply setup) c m (x.terms setup) x
      split
      · rename_i hcreate
        rw [hcreate] at hidled
        exact .failed hnone hidled
      · rename_i p y hcreate
        rw [hcreate] at hidled hok
        obtain ⟨hlabel, hquiet⟩ := hok p rfl
        exact .added hnone hidled (congrArg (·.1) hlabel)
          (Pool.closed_of_create (supply setup) hcreate) hquiet

theorem closeKey_frame (hx : x.Orderly) (setup : HostSetup) (key : String) :
    (x.closeKey setup key).registered = x.registered.erase key ∧
      ∀ id, ((x.closeKey setup key).pools.get? id).map Pool.label =
        (x.pools.get? id).map Pool.label := by
  unfold closeKey
  split
  · rename_i hnone
    refine ⟨OrderedMap.ext_get? fun k => ?_, fun _ => rfl⟩
    rw [OrderedMap.get?_erase_ite]
    split
    · rename_i hk
      rw [← hk, hnone]
    · rfl
  · rename_i id _
    have htended := tended_withPool (hx.unfiled key) id
      fun _ hp => Pool.stays_shutdown (within_supply setup) hp (x.unfiled key)
    exact ⟨htended.registered, htended.label⟩

/-! ### The pools that are open -/

/-- Exactly the open pools are filed, each under the key of its contract. -/
structure Enrolled (x : Host τ) : Prop where
  /-- The pools are quiet. -/
  orderly : x.Orderly
  /-- What is filed is open. -/
  filed : ∀ {key id}, x.registered.get? key = some id →
    ∃ p, x.pools.get? id = some p ∧ p.closed = false ∧ p.contract.key = key
  /-- What is open is filed. -/
  «open» : ∀ {id p}, x.pools.get? id = some p → p.closed = false →
    x.registered.get? p.contract.key = some id

namespace Enrolled

omit [LedgerAccess τ] in
theorem of_empty (ledger : τ) : ({ ledger } : Host τ).Enrolled :=
  ⟨.of_empty ledger, (nomatch ·), (nomatch ·)⟩

omit [LedgerAccess τ] in
theorem unmoved (h : x.Enrolled) (hmoved : Unmoved x y) : y.Enrolled where
  orderly := hmoved.orderly h.orderly
  filed {key id} hid := by
    obtain ⟨p, hp, hopen, hkey⟩ := h.filed (hmoved.registered ▸ hid)
    obtain ⟨q, hq, hlabel, hclosed⟩ := hmoved.exists_after hp
    exact ⟨q, hq, hclosed.trans hopen, (congrArg (·.1.key) hlabel).trans hkey⟩
  «open» {id q} hq hopen := by
    obtain ⟨p, hp, hlabel, hclosed⟩ := hmoved.exists_before hq
    have hsame : q.contract = p.contract := congrArg (·.1) hlabel
    rw [hmoved.registered, hsame]
    exact h.open hp (hclosed.symm.trans hopen)

/-- **A pool is filed when it is made.** -/
theorem openPool (h : x.Enrolled) (c : ContractId) (code : Code) :
    (x.openPool setup c code).2.Enrolled := by
  have horderly := orderly_openPool setup h.orderly c code
  have hopened := opened_openPool setup x c code
  generalize x.openPool setup c code = result at horderly hopened ⊢
  cases hopened with
  | found => exact h
  | failed hnone hidled => exact h.unmoved (.of_idled h.orderly hidled)
  | @added p y hnone hidled hcontract hopen hquiet =>
    refine ⟨horderly, fun {key id} hid => ?_, fun {id q} hq hq' => ?_⟩
    · change (y.registered.insert c.key y.nextPool).get? key = some id at hid
      show ∃ q, (y.pools.insert y.nextPool p).get? id = some q ∧ _
      rw [OrderedMap.get?_insert_ite] at hid
      split at hid
      · obtain rfl := Option.some.inj hid
        exact ⟨p, OrderedMap.get?_insert_self _ _ _, hopen, by rwa [hcontract]⟩
      · -- the number of the new pool is that of none before
        obtain ⟨q, hq, hq', hkey⟩ := h.filed (hidled.registered ▸ hid)
        have hne : y.nextPool ≠ id := (hidled.nextPool ▸ h.orderly.numbered hq).ne'
        rw [OrderedMap.get?_insert_ite, if_neg hne, hidled.pools]
        exact ⟨q, hq, hq', hkey⟩
    · change (y.pools.insert y.nextPool p).get? id = some q at hq
      show (y.registered.insert c.key y.nextPool).get? q.contract.key = some id
      rw [OrderedMap.get?_insert_ite] at hq
      split at hq
      · rename_i hid
        obtain rfl := Option.some.inj hq
        rw [hcontract, OrderedMap.get?_insert_self, hid]
      · rw [hidled.pools] at hq
        have hfiled := h.open hq hq'
        -- no pool was filed for the contract before
        have hne : c.key ≠ q.contract.key := fun hkey =>
          nomatch hnone.symm.trans ((congrArg x.registered.get? hkey).trans hfiled)
        rw [OrderedMap.get?_insert_ite, if_neg hne, hidled.registered, hfiled]

/-- **A pool is no longer filed when it is shut down.** -/
theorem closeKey (h : x.Enrolled) (key : String) : (x.closeKey setup key).Enrolled := by
  have hclosed := refiled_closeKey setup h.orderly key
  have hleaves := leaves_closeKey h.orderly setup key
  obtain ⟨hregistered, hlabel⟩ := closeKey_frame h.orderly setup key
  refine ⟨hclosed.orderly, fun {k id} hid => ?_, fun {id q} hq hopen => ?_⟩
  · rw [hregistered, OrderedMap.get?_erase_ite] at hid
    split at hid
    · cases hid
    · rename_i hne
      obtain ⟨p, hp, hopen, hkey⟩ := h.filed hid
      refine ⟨p, hleaves.kept hp fun hshut => ?_, hopen, hkey⟩
      -- what is filed under two keys would have both
      obtain ⟨q, hq, -, hkey'⟩ := h.filed hshut
      obtain rfl := Option.some.inj (hp.symm.trans hq)
      exact hne (hkey'.symm.trans hkey)
  · have hbefore := hlabel id
    rw [hq] at hbefore
    obtain ⟨p, hp, hsame⟩ := Option.map_eq_some_iff.mp hbefore.symm
    by_cases hshut : x.registered.get? key = some id
    · obtain ⟨q', hq', hclosed, -⟩ := hleaves.ended hp hshut
      obtain rfl := Option.some.inj (hq.symm.trans hq')
      cases hopen.symm.trans hclosed
    · obtain rfl := Option.some.inj (hq.symm.trans (hleaves.kept hp hshut))
      have hfiled := h.open hp hopen
      have hne : key ≠ q.contract.key := fun hkey => hshut (hkey ▸ hfiled)
      rw [hregistered, OrderedMap.get?_erase_ite, if_neg hne]
      exact hfiled

end Enrolled

/-- **That exactly the open pools are filed lasts, whatever happens.** -/
theorem lasting_enrolled (setup : HostSetup) : Lasting setup (Enrolled (τ := τ)) where
  orderly h := h.orderly
  work h hmoved := h.unmoved hmoved
  openPool h c code := h.openPool c code
  closeKey h key := h.closeKey key

/-! ### The pools that were there before -/

omit [LedgerAccess τ] in
/-- Every pool that was there is there still, with its label, and shut down if it was. -/
structure Endures (x y : Host τ) : Prop where
  /-- The pool under a number is the same. -/
  pool : ∀ {id p}, x.pools.get? id = some p →
    ∃ q, y.pools.get? id = some q ∧ q.label = p.label ∧ (p.closed = true → q.closed = true)

namespace Endures

omit [LedgerAccess τ] in
theorem refl (x : Host τ) : Endures x x :=
  ⟨fun hp => ⟨_, hp, rfl, fun hclosed => hclosed⟩⟩

omit [LedgerAccess τ] in
theorem trans (h : Endures x y) (h' : Endures y z) : Endures x z := by
  refine ⟨fun hp => ?_⟩
  obtain ⟨q, hq, hlabel, hclosed⟩ := h.pool hp
  obtain ⟨r, hr, hlabel', hclosed'⟩ := h'.pool hq
  exact ⟨r, hr, hlabel'.trans hlabel, hclosed' ∘ hclosed⟩

omit [LedgerAccess τ] in
theorem of_unmoved (h : Unmoved x y) : Endures x y := by
  refine ⟨fun hp => ?_⟩
  obtain ⟨q, hq, hlabel, hclosed⟩ := h.exists_after hp
  exact ⟨q, hq, hlabel, hclosed.trans⟩

omit [LedgerAccess τ] in
theorem of_leaves {shut : PoolId → Prop} (h : Leaves shut x y) : Endures x y := by
  refine ⟨fun {id p} hp => ?_⟩
  by_cases hshut : shut id
  · obtain ⟨q, hq, hclosed, hlabel⟩ := h.ended hp hshut
    exact ⟨q, hq, hlabel, fun _ => hclosed⟩
  · exact ⟨p, h.kept hp hshut, rfl, fun hclosed => hclosed⟩

end Endures

/-- **Pools last, whatever happens**, and none is opened again. -/
theorem lasting_endures (setup : HostSetup) (x : Host τ) :
    Lasting setup fun y => y.Orderly ∧ Endures x y where
  orderly h := h.1
  work h hmoved := ⟨hmoved.orderly h.1, h.2.trans (.of_unmoved hmoved)⟩
  openPool h c code := ⟨orderly_openPool setup h.1 c code,
    h.2.trans (.of_leaves (leaves_openPool h.1 setup c code))⟩
  closeKey h key := ⟨(refiled_closeKey setup h.1 key).orderly,
    h.2.trans (.of_leaves (leaves_closeKey h.1 setup key))⟩

/-! ### How pools are filed -/

variable {busy : List Lease}

/-- How a host files its pools, while the leases `busy` are in use on it. -/
structure FilesOpenPools (setup : HostSetup) (busy : List Lease) (x : Host τ) : Prop where
  /-- A pool is open exactly if it is filed under the key of its contract. -/
  exactly : ∀ {id : PoolId} {p : Pool}, x.pools.get? id = some p →
    (p.closed = false ↔ x.registered.get? p.contract.key = some id)
  /-- What is filed under a key is the pool of a contract with that key. -/
  filed : ∀ {key : String} {id : PoolId}, x.registered.get? key = some id →
    ∃ p, x.pools.get? id = some p ∧ p.contract.key = key
  /-- No two open pools share a key. -/
  single : ∀ {id id' : PoolId} {p p' : Pool}, x.pools.get? id = some p →
    x.pools.get? id' = some p' → p.closed = false → p'.closed = false →
    p.contract.key = p'.contract.key → id = id'
  /-- **A pool that cannot be opened** changes neither what is filed nor any pool. -/
  refused : ∀ {c : ContractId} {code : Code} {e : ExecutionError} {y : Host τ},
    x.openPool setup c code = (.error e, y) → y.registered = x.registered ∧ y.pools = x.pools
  /-- **A pool that is opened** is open, and filed for the contract.  The pools that were there are
  as they were. -/
  opened : ∀ {c : ContractId} {code : Code} {id : PoolId} {y : Host τ},
    x.openPool setup c code = (.ok id, y) → y.poolId? c = some id ∧
      (∃ p, y.pools.get? id = some p ∧ p.closed = false ∧ p.contract.key = c.key) ∧
      Leaves (fun _ => False) x y
  /-- **Closing** takes the key away, and shuts down the one pool that was filed under it.  All
  others are as they were, and none is added. -/
  closed : ∀ c : ContractId, (x.closePool setup c).registered = x.registered.erase c.key ∧
    Leaves (fun id => x.poolId? c = some id) x (x.closePool setup c) ∧
    ∀ id, ((x.closePool setup c).pools.get? id).isSome = (x.pools.get? id).isSome
  /-- **Who asks for the pool later** is given one that was made since, and is open. -/
  renewed : ∀ {c d : ContractId}, d.key = c.key → ∀ {rest : List Lease} {y : Host τ},
    Relation.ReflTransGen (Happens setup) ⟨busy, x.closePool setup c⟩ ⟨rest, y⟩ →
      ∀ {code : Code} {id : PoolId} {z : Host τ}, y.openPool setup d code = (.ok id, z) →
        (x.closePool setup c).pools.get? id = none ∧
          ∃ p, z.pools.get? id = some p ∧ p.closed = false ∧ p.contract.key = c.key

theorem Enrolled.opened (h : x.Enrolled) {code : Code} {id : PoolId}
    (hopen : x.openPool setup c code = (.ok id, y)) : y.Enrolled ∧ y.poolId? c = some id ∧
      ∃ p, y.pools.get? id = some p ∧ p.closed = false ∧ p.contract.key = c.key := by
  have hy : (x.openPool setup c code).2.Enrolled := h.openPool c code
  rw [hopen] at hy
  obtain ⟨hid, -⟩ := openPool_eq_ok h.orderly hopen
  exact ⟨hy, hid, hy.filed hid⟩

/-- A pool that is shut down is not the one that is opened later. -/
theorem Enrolled.renewed (h : x.Enrolled) {d : ContractId} (hkey : d.key = c.key)
    (hrest : (x.closePool setup c).Endures y) (hy : y.Enrolled) {code : Code} {id : PoolId}
    (hopen : y.openPool setup d code = (.ok id, z)) :
    (x.closePool setup c).pools.get? id = none ∧
      ∃ p, z.pools.get? id = some p ∧ p.closed = false ∧ p.contract.key = c.key := by
  have hclosed : (x.closePool setup c).Enrolled := h.closeKey c.key
  obtain ⟨-, -, p, hp, hpopen, hpkey⟩ := hy.opened hopen
  refine ⟨Option.eq_none_iff_forall_ne_some.mpr fun q hq => ?_, p, hp, hpopen, hpkey.trans hkey⟩
  -- a pool of before would be open since then, and so filed under the key that was taken away
  have hleaves := leaves_openPool hy.orderly setup d code
  rw [hopen] at hleaves
  obtain ⟨r, hr, hlabel, hstays⟩ := (hrest.trans (.of_leaves hleaves)).pool hq
  obtain rfl := Option.some.inj (hp.symm.trans hr)
  have hqopen : q.closed = false :=
    eq_false_of_ne_true fun hshut => nomatch hpopen.symm.trans (hstays hshut)
  have hqkey : c.key = q.contract.key :=
    (hpkey.trans hkey).symm.trans (congrArg (·.1.key) hlabel)
  have hfiled := hclosed.open hq hqopen
  unfold closePool at hfiled
  rw [(closeKey_frame h.orderly setup c.key).1, OrderedMap.get?_erase_ite, if_pos hqkey] at hfiled
  cases hfiled

/-- **Every host files exactly its open pools**, whatever has happened there, and so it will be. -/
theorem Reached.files_open_pools (h : Reached setup busy x) : FilesOpenPools setup busy x := by
  obtain ⟨ledger, hrun⟩ := h
  -- that the registry files just the open pools lasts through every run
  have hx : x.Enrolled := (lasting_enrolled setup).of_run hrun (.of_empty ledger)
  constructor
  case exactly =>
    intro id p hp
    refine ⟨hx.open hp, fun hid => ?_⟩
    obtain ⟨q, hq, hopen, -⟩ := hx.filed hid
    rwa [← Option.some.inj (hp.symm.trans hq)] at hopen
  case filed =>
    intro key id hid
    obtain ⟨p, hp, -, hkey⟩ := hx.filed hid
    exact ⟨p, hp, hkey⟩
  case single =>
    intro id id' p p' hp hp' hopen hopen' hkey
    have hfiled := hx.open hp hopen
    rw [hkey] at hfiled
    exact Option.some.inj (hfiled.symm.trans (hx.open hp' hopen'))
  case refused =>
    intro c code e y hopen
    have hopened := opened_openPool setup x c code
    rw [hopen] at hopened
    cases hopened with
    | failed hnone hidled => exact ⟨hidled.registered, hidled.pools⟩
  case opened =>
    intro c code id y hopen
    obtain ⟨-, hid, hpool⟩ := hx.opened hopen
    have hleaves := leaves_openPool hx.orderly setup c code
    rw [hopen] at hleaves
    exact ⟨hid, hpool, hleaves⟩
  case closed =>
    intro c
    obtain ⟨hregistered, hlabel⟩ := closeKey_frame hx.orderly setup c.key
    refine ⟨hregistered, leaves_closeKey hx.orderly setup c.key, fun id => ?_⟩
    rw [← Option.isSome_map (f := Pool.label), ← Option.isSome_map (f := Pool.label)]
    exact congrArg Option.isSome (hlabel id)
  case renewed =>
    intro c d hkey rest y hrest code id z hopen
    have hclosed : (x.closePool setup c).Enrolled := hx.closeKey c.key
    have hy : y.Enrolled := (lasting_enrolled setup).of_run hrest hclosed
    have hendures := (lasting_endures setup (x.closePool setup c)).of_run hrest
      ⟨hclosed.orderly, .refl _⟩
    exact hx.renewed hkey hendures.2 hy hopen

/-- The pool of a contract is closed and opened again, under a new number. -/
theorem files_open_pools_resting :
    Reached singleSetup [] (restingHost singleSetup) ∧
      FilesOpenPools singleSetup [] (restingHost singleSetup) ∧
      (restingHost singleSetup).poolId? ⟨"resting", "1"⟩ = some 0 ∧
      (((restingHost singleSetup).closePool singleSetup ⟨"resting", "1"⟩).openPool singleSetup
        ⟨"resting", "1"⟩ restingCode).1.toOption = some 1 := by
  have hreached : Reached singleSetup [] (restingHost singleSetup) :=
    (Reached.new singleSetup _).tail (.order [] _ (.open ⟨"resting", "1"⟩ restingCode))
  exact ⟨hreached, Reached.files_open_pools hreached, by decide +kernel, by decide +kernel⟩

end Host

end ContractHost
