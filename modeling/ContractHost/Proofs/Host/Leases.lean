import ContractHost.Proofs.Host.Parting

/-!
# Leases

A call that is carried out has a lease: an instance of some pool, bound to the handle under which
the call is registered.  Everything that happens on a host adds a lease or takes one away, or leaves
the leases alone.  A call that waits for an instance has no lease yet, but its pool owes it an
answer. An instance that has ended never comes back.

## Main definitions

* `Host.lent` — the instances of a pool among some leases.
* `Host.ticketsOf` — the numbers under which calls wait for a pool.
* `Host.Gone` — an instance that has ended.
* `Host.Leased` — exactly these leases are in use.

## Main results

* `Host.Leased.instances`, `Host.Leased.unused` — **no instance is in use twice**, or in use and
  in a pool.
* `Host.Leased.giveBack`, `Host.Leased.abandonLease` — **a lease ends.**
-/

namespace ContractHost

namespace Instance

variable {i i' : Instance}

/-- What use leaves of an instance. -/
def tag (i : Instance) : Nat × UInt64 × Bool :=
  (i.id, i.epoch, i.detached)

theorem after_iff : i.After i' ↔ i'.tag = i.tag := by
  constructor
  · intro h
    simp only [tag, h.id, h.epoch, h.detached]
  · intro h
    simp only [tag, Prod.mk.injEq] at h
    exact ⟨h.1, h.2.1, h.2.2⟩

theorem After.trans {j : Instance} (h : i.After i') (h' : i'.After j) : i.After j :=
  ⟨h'.id.trans h.id, h'.epoch.trans h.epoch, h'.detached.trans h.detached⟩

theorem Ran.after (h : i.Ran i') : i.After i' := by
  obtain ⟨memory, gas, rfl⟩ := h
  exact ⟨rfl, rfl, rfl⟩

end Instance

namespace Host

/-! ### The instances of leases -/

/-- The instances of a pool among some leases. -/
def lent (busy : List Lease) (id : PoolId) : List Instance :=
  (busy.filter (·.pool == id)).map (·.inst)

/-- The instances `out` are those of the leases, but for what use has changed. -/
def LentTo (out : PoolId → List Instance) (busy : List Lease) : Prop :=
  ∀ id, ((out id).map Instance.tag).Perm ((lent busy id).map Instance.tag)

section

variable {out : PoolId → List Instance} {busy busy' rest : List Lease} {l l' : Lease}
variable {i : Instance}

theorem lent_cons_self (l : Lease) (rest : List Lease) :
    lent (l :: rest) l.pool = l.inst :: lent rest l.pool := by
  unfold lent
  rw [List.filter_cons, if_pos (beq_self_eq_true _), List.map_cons]

theorem lent_cons_of_ne {id : PoolId} (h : id ≠ l.pool) (rest : List Lease) :
    lent (l :: rest) id = lent rest id := by
  unfold lent
  rw [List.filter_cons, if_neg fun heq => h (beq_iff_eq.mp heq).symm]

theorem mem_lent (h : l ∈ busy) : l.inst ∈ lent busy l.pool :=
  List.mem_map_of_mem (List.mem_filter.mpr ⟨h, beq_self_eq_true _⟩)

theorem LentTo.perm (h : LentTo out busy) (hperm : busy.Perm busy') : LentTo out busy' :=
  fun id => (h id).trans (((hperm.filter _).map _).map _)

theorem LentTo.cons (h : LentTo out busy) (hafter : i.After l.inst) :
    LentTo (Function.update out l.pool (out l.pool ++ [i])) (l :: busy) := by
  intro id
  by_cases hid : id = l.pool
  · subst hid
    rw [Function.update_self, lent_cons_self, List.map_append, List.map_cons, List.map_cons,
      Instance.after_iff.mp hafter]
    exact List.perm_append_singleton _ _ |>.trans ((h l.pool).cons _)
  · rw [Function.update_of_ne hid, lent_cons_of_ne hid]
    exact h id

theorem LentTo.tail (h : LentTo out (l :: rest)) : ∃ a i b, out l.pool = a ++ i :: b ∧
    i.After l.inst ∧ LentTo (Function.update out l.pool (a ++ b)) rest := by
  have hself := h l.pool
  rw [lent_cons_self, List.map_cons] at hself
  obtain ⟨i, hi, htag⟩ := List.mem_map.mp (hself.mem_iff.mpr List.mem_cons_self)
  obtain ⟨a, b, hout⟩ := List.append_of_mem hi
  refine ⟨a, i, b, hout, Instance.after_iff.mpr htag.symm, fun id => ?_⟩
  -- only in the pool of the first lease is there one instance less
  by_cases hid : id = l.pool
  · subst hid
    rw [hout, ← htag] at hself
    have hfirst : ((a ++ i :: b).map Instance.tag).Perm (i.tag :: (a ++ b).map Instance.tag) :=
      List.perm_middle.map Instance.tag
    rw [Function.update_self]
    exact List.Perm.cons_inv (hfirst.symm.trans hself)
  · have hother := h id
    rw [lent_cons_of_ne hid] at hother
    rw [Function.update_of_ne hid]
    exact hother

/-- Use changes nothing about what is lent. -/
theorem LentTo.replace (h : LentTo out (l :: rest)) (hpool : l'.pool = l.pool)
    (hafter : l.inst.After l'.inst) : LentTo out (l' :: rest) := by
  intro id
  by_cases hid : id = l.pool
  · subst hid
    have hself := h l.pool
    have hreplaced : lent (l' :: rest) l.pool = l'.inst :: lent rest l.pool :=
      hpool ▸ lent_cons_self l' rest
    rw [lent_cons_self, List.map_cons] at hself
    rw [hreplaced, List.map_cons, Instance.after_iff.mp hafter]
    exact hself
  · have hother := h id
    rw [lent_cons_of_ne hid] at hother
    rw [lent_cons_of_ne (hpool ▸ hid)]
    exact hother

theorem LentTo.exists_lease (h : LentTo out busy) {id : PoolId} (hi : i ∈ out id) :
    ∃ l ∈ busy, i.After l.inst := by
  have hmem : i.tag ∈ (lent busy id).map Instance.tag :=
    (h id).mem_iff.mp (List.mem_map_of_mem hi)
  obtain ⟨j, hj, htag⟩ := List.mem_map.mp hmem
  obtain ⟨l, hl, rfl⟩ := List.mem_map.mp hj
  exact ⟨l, List.mem_of_mem_filter hl, Instance.after_iff.mpr htag⟩

theorem LentTo.exists_mem (h : LentTo out busy) (hl : l ∈ busy) :
    ∃ i ∈ out l.pool, i.After l.inst := by
  have hmem : l.inst.tag ∈ (lent busy l.pool).map Instance.tag := List.mem_map_of_mem (mem_lent hl)
  obtain ⟨i, hi, htag⟩ := List.mem_map.mp ((h l.pool).mem_iff.mpr hmem)
  exact ⟨i, hi, Instance.after_iff.mpr htag.symm⟩

end

/-! ### Numbers of those who wait -/

/-- The numbers under which calls wait for a pool. -/
def ticketsOf (queued : List Queued) (id : PoolId) : List Ticket :=
  (queued.filter (·.pool == id)).map (·.ticket)

theorem ticketsOf_append (queued : List Queued) (q : Queued) :
    ticketsOf (queued ++ [q]) =
      Function.update (ticketsOf queued) q.pool (ticketsOf queued q.pool ++ [q.ticket]) := by
  funext id
  by_cases hid : id = q.pool
  · subst hid
    rw [Function.update_self]
    simp [ticketsOf]
  · rw [Function.update_of_ne hid]
    simp [ticketsOf, Ne.symm hid]

variable {τ : Type}

theorem ticketsOf_dequeue (x : Host τ) (q : Queued) :
    ticketsOf (x.dequeue q).queued =
      Function.update (ticketsOf x.queued) q.pool
        ((ticketsOf x.queued q.pool).filter (· != q.ticket)) := by
  funext id
  unfold ticketsOf dequeue
  dsimp only
  rw [List.filter_filter]
  -- only the line of that pool loses the ticket
  by_cases hid : id = q.pool
  · subst hid
    rw [Function.update_self, List.filter_map, List.filter_filter]
    refine congrArg (List.map _) (List.filter_congr fun other _ => ?_)
    by_cases hpool : other.pool = q.pool
    · simp [hpool]
    · rw [beq_false_of_ne hpool, Bool.false_and, Bool.and_false]
  · rw [Function.update_of_ne hid]
    refine congrArg (List.map _) (List.filter_congr fun other _ => ?_)
    by_cases hpool : other.pool = id
    · subst hpool
      simp [hid]
    · simp [hpool]

variable [LedgerAccess τ] {setup : HostSetup} {gone : Set Nat} {x y : Host τ}

/-! ### Leases in use -/

/-- The instance with a number has ended: no pool holds it, none of the leases `busy` is that of it,
and no new one gets its number. -/
structure Gone (busy : List Lease) (n : Nat) (x : Host τ) : Prop where
  /-- No pool holds it. -/
  absent : x.Absent n
  /-- It is not in use. -/
  unused : ∀ l ∈ busy, l.inst.id ≠ n

/-- The handles under which invocations are under way are those of the leases `busy`, and only calls
at the top wait. -/
structure Registered (busy : List Lease) (x : Host τ) : Prop where
  /-- Their handles are those in use. -/
  handles : ∀ handle, (x.registry.get? handle).isSome ↔ handle ∈ busy.map Lease.handle
  /-- No two have the same. -/
  distinct : (busy.map Lease.handle).Nodup
  /-- Each instance is bound to the handle of its lease. -/
  bound : ∀ l ∈ busy, l.inst.bound = some l.handle
  /-- Each invocation is registered under its own handle. -/
  own : x.registry.Own
  /-- No call that waits is nested in another one. -/
  topmost : ∀ q ∈ x.queued, q.call.depth = 0

namespace Registered

variable {busy busy' rest : List Lease} {l : Lease} {c : Context}

omit [LedgerAccess τ]

theorem congr (h : Registered busy x) (hregistry : y.registry = x.registry)
    (hqueued : y.queued = x.queued) : Registered busy y where
  handles := hregistry ▸ h.handles
  distinct := h.distinct
  bound := h.bound
  own := hregistry ▸ h.own
  topmost := hqueued ▸ h.topmost

/-- Calls at the top may come to wait, and may wait no longer. -/
theorem requeue (h : Registered busy x) {queued : List Queued}
    (htop : ∀ q ∈ queued, q.call.depth = 0) : Registered busy { x with queued } :=
  { h with topmost := htop }

theorem dequeue (h : Registered busy x) (q : Queued) : Registered busy (x.dequeue q) :=
  h.requeue fun other hother => h.topmost other (List.mem_of_mem_filter hother)

theorem perm (h : Registered busy x) (hperm : busy.Perm busy') : Registered busy' x where
  handles handle := (h.handles handle).trans (hperm.map _).mem_iff
  distinct := (hperm.map _).nodup_iff.mp h.distinct
  bound l hl := h.bound l (hperm.mem_iff.mpr hl)
  own := h.own
  topmost := h.topmost

theorem update (h : Registered busy x) (hmem : c.handle ∈ busy.map Lease.handle)
    (hregistry : y.registry = x.registry.update c) (hqueued : y.queued = x.queued) :
    Registered busy y where
  handles handle := by
    rw [hregistry]
    by_cases heq : c.handle = handle
    · obtain rfl := heq
      rw [Registry.get?_update_self]
      exact iff_of_true rfl hmem
    · rw [Registry.get?_update_of_ne _ heq]
      exact h.handles handle
  distinct := h.distinct
  bound := h.bound
  own := hregistry ▸ h.own.update c
  topmost := hqueued ▸ h.topmost

theorem erase (h : Registered (l :: rest) x)
    (hregistry : y.registry.contexts = x.registry.contexts.erase l.handle)
    (hqueued : y.queued = x.queued) : Registered rest y := by
  obtain ⟨hfresh, hdistinct⟩ := List.nodup_cons.mp h.distinct
  constructor
  case handles =>
    intro handle
    have hbefore : (x.registry.get? handle).isSome ↔
        handle = l.handle ∨ handle ∈ rest.map Lease.handle :=
      (h.handles handle).trans List.mem_cons
    unfold Registry.get?
    rw [hregistry, OrderedMap.get?_erase_ite]
    -- the handle of the first lease is gone, and no other lease has it
    by_cases heq : l.handle = handle
    · obtain rfl := heq
      rw [if_pos rfl]
      exact ⟨(nomatch ·), fun hmem => absurd hmem hfresh⟩
    · rw [if_neg heq]
      exact hbefore.trans (or_iff_right (Ne.symm heq))
  case distinct => exact hdistinct
  case bound => exact fun k hk => h.bound k (List.mem_cons_of_mem _ hk)
  case own =>
    intro handle c hget
    unfold Registry.get? at hget
    rw [hregistry, OrderedMap.get?_erase_ite] at hget
    split at hget
    · cases hget
    · exact h.own handle c hget
  case topmost => exact hqueued ▸ h.topmost

theorem insert (h : Registered busy x) (hbound : l.inst.bound = some l.handle)
    (hhandle : c.handle = l.handle) (hfree : x.registry.get? c.handle = none)
    (hregistry : y.registry.contexts = x.registry.contexts.insert c.handle c)
    (hqueued : y.queued = x.queued) : Registered (l :: busy) y := by
  -- a handle that is free belongs to no lease
  have hfresh : l.handle ∉ busy.map Lease.handle := fun hmem => by
    rw [← h.handles, ← hhandle, hfree] at hmem
    exact Bool.false_ne_true hmem
  constructor
  case handles =>
    intro handle
    unfold Registry.get?
    rw [hregistry, hhandle, OrderedMap.get?_insert_ite, List.map_cons, List.mem_cons]
    by_cases heq : l.handle = handle
    · rw [if_pos heq]
      exact iff_of_true rfl (.inl heq.symm)
    · rw [if_neg heq]
      exact (h.handles handle).trans (or_iff_right (Ne.symm heq)).symm
  case distinct => exact List.nodup_cons.mpr ⟨hfresh, h.distinct⟩
  case bound => exact List.forall_mem_cons.mpr ⟨hbound, h.bound⟩
  case own =>
    intro handle found hget
    have hinserted : (x.registry.update c).get? handle = some found := by
      unfold Registry.get? at hget
      rw [hregistry] at hget
      exact hget
    exact h.own.update c handle found hinserted
  case topmost => exact hqueued ▸ h.topmost

end Registered

/-- Exactly the leases `busy` are in use: the pools have lent their instances, and the handles under
which invocations are under way are theirs.  The pools owe an answer to the calls that wait.  The
instances `gone` are neither in a pool nor in use. -/
structure Leased (setup : HostSetup) (gone : Set Nat) (busy : List Lease) (x : Host τ) : Prop
    extends Registered busy x where
  /-- The pools have lent their instances. -/
  lends : ∃ out, Lends setup gone (ticketsOf x.queued) out x ∧ LentTo out busy

/-- Work on one pool leaves the rest of the host as it is. -/
theorem tended_giveUp (h : x.Orderly) (id : PoolId) (i : Instance) :
    Tended x (x.giveUp setup id i) := by
  have hdiscarded := tended_withPool h id fun _ hp =>
    Pool.stays_discard (within_supply setup) hp i x
  exact hdiscarded.trans (tended_settlePool (h.tended hdiscarded))

theorem tended_abandonLease (h : x.Orderly) (l : Lease) :
    Tended { x with registry := x.registry.remove l.handle } (x.abandonLease setup l) := by
  have hremoved : Orderly { x with registry := x.registry.remove l.handle } := h.congr rfl rfl rfl
  exact tended_giveUp hremoved l.pool l.inst

namespace Leased

variable {busy busy' rest : List Lease} {l l' : Lease}

theorem of_empty (setup : HostSetup) (ledger : τ) :
    Leased setup ∅ [] ({ ledger } : Host τ) where
  lends := ⟨fun _ => [], .of_empty setup ledger, fun _ => .refl _⟩
  handles _ := ⟨(nomatch ·), (nomatch ·)⟩
  distinct := .nil
  bound _ h := nomatch h
  own := Registry.own_empty
  topmost _ h := nomatch h

theorem orderly (h : Leased setup gone busy x) : x.Orderly := by
  obtain ⟨out, hlends, -⟩ := h.lends
  exact hlends.orderly

theorem perm (h : Leased setup gone busy x) (hperm : busy.Perm busy') :
    Leased setup gone busy' x where
  toRegistered := h.toRegistered.perm hperm
  lends := by
    obtain ⟨out, hlends, hout⟩ := h.lends
    exact ⟨out, hlends, hout.perm hperm⟩

/-- What lends nothing, and leaves the handles and those who wait, leaves the leases. -/
theorem pass (h : Leased setup gone busy x)
    (hlends : ∀ {queue : PoolId → List Ticket} {out : PoolId → List Instance},
      Lends setup gone queue out x → Lends setup gone queue out y)
    (hregistry : y.registry = x.registry) (hqueued : y.queued = x.queued) :
    Leased setup gone busy y where
  toRegistered := h.toRegistered.congr hregistry hqueued
  lends := by
    obtain ⟨out, hout, hbusy⟩ := h.lends
    exact ⟨out, hqueued ▸ hlends hout, hbusy⟩

theorem move (h : Leased setup gone busy x) (hpools : y.pools = x.pools) (horderly : y.Orderly)
    (hnext : x.nextInstance ≤ y.nextInstance) (hregistry : y.registry = x.registry)
    (hqueued : y.queued = x.queued) : Leased setup gone busy y :=
  h.pass (fun hlends => hlends.move hpools horderly hnext) hregistry hqueued

theorem underway (h : Leased setup gone busy x) {handle : Int32}
    (hmem : handle ∈ busy.map Lease.handle) :
    ∃ c, c.handle = handle ∧ Underway (x.registry.contexts.erase c.handle) c x := by
  obtain ⟨c, hget⟩ := Option.isSome_iff_exists.mp ((h.handles handle).mpr hmem)
  obtain rfl := h.own handle c hget
  exact ⟨c, rfl, .of_get? h.orderly hget⟩

theorem rewritten {handle : Int32} {t : τ} {j : List LogLine} (h : Leased setup gone busy x)
    (hmem : handle ∈ busy.map Lease.handle)
    (hafter : Rewritten handle { x with ledger := t, journal := j } y) :
    Leased setup gone busy y ∧ y.stalled = x.stalled ∧ y.queued = x.queued := by
  obtain ⟨c, rfl, rfl⟩ := hafter
  obtain ⟨out, hlends, hout⟩ := h.lends
  have hregistered : Registered busy
      { x with ledger := t, journal := j, registry := x.registry.update c } :=
    h.toRegistered.update hmem rfl rfl
  exact ⟨{ hregistered with
    lends := ⟨out, hlends.move rfl (h.orderly.congr rfl rfl rfl) le_rfl, hout⟩ }, rfl, rfl⟩

theorem replace (h : Leased setup gone (l :: rest) x) (hpool : l'.pool = l.pool)
    (hhandle : l'.handle = l.handle) (hran : l.inst.Ran l'.inst) :
    Leased setup gone (l' :: rest) x where
  lends := by
    obtain ⟨out, hlends, hout⟩ := h.lends
    exact ⟨out, hlends, hout.replace hpool hran.after⟩
  handles := by
    rw [List.map_cons, hhandle]
    exact h.handles
  distinct := by
    rw [List.map_cons, hhandle]
    exact h.distinct
  bound := by
    refine List.forall_mem_cons.mpr ⟨?_, fun k hk => h.bound k (List.mem_cons_of_mem _ hk)⟩
    -- a run changes memory and gas, never whose instance it is
    obtain ⟨memory, gas, heq⟩ := hran
    rw [heq, hhandle]
    exact h.bound l List.mem_cons_self
  own := h.own
  topmost := h.topmost

/-- A lease ends where its instance goes, and its handle with it. -/
theorem part (h : Leased setup gone (l :: rest) x)
    (hlends : ∀ {queue : PoolId → List Ticket} {out : PoolId → List Instance}
        {a b : List Instance} {i : Instance},
      Lends setup gone queue out x → out l.pool = a ++ i :: b → i.After l.inst →
        Lends setup gone queue (Function.update out l.pool (a ++ b)) y)
    (hregistry : y.registry.contexts = x.registry.contexts.erase l.handle)
    (hqueued : y.queued = x.queued) : Leased setup gone rest y where
  toRegistered := h.toRegistered.erase hregistry hqueued
  lends := by
    obtain ⟨out, hout, hbusy⟩ := h.lends
    obtain ⟨a, i, b, heq, hafter, hrest⟩ := hbusy.tail
    exact ⟨_, hqueued ▸ hlends hout heq hafter, hrest⟩

/-- **A lease ends when its instance is given back**, and its invocation is removed. -/
theorem giveBack (h : Leased setup gone (l :: rest) x) {i : Instance} (hafter : l.inst.After i) :
    Leased setup gone rest
      ({ x with registry := x.registry.remove l.handle }.giveBack setup l.pool i) := by
  have hremoved : Orderly { x with registry := x.registry.remove l.handle } :=
    h.orderly.congr rfl rfl rfl
  have hback : Tended { x with registry := x.registry.remove l.handle }
      ({ x with registry := x.registry.remove l.handle }.giveBack setup l.pool i) :=
    tended_giveBack hremoved i
  refine h.part (fun hlends hout hbefore => ?_) (congrArg Registry.contexts hback.registry)
    hback.queued
  exact (hlends.removed l.handle).giveBack hout (hbefore.trans hafter)

/-- **A lease ends when its instance is given up.** -/
theorem abandonLease (h : Leased setup gone (l :: rest) x) :
    Leased setup gone rest (x.abandonLease setup l) := by
  have hup : Tended _ (x.abandonLease setup l) := tended_abandonLease h.orderly l
  exact h.part (fun hlends hout hafter => (hlends.removed l.handle).giveUp hout hafter)
    (congrArg Registry.contexts hup.registry) hup.queued

/-- **What becomes of an instance that is given back**, when its invocation is removed. -/
theorem parted_giveBack (h : Leased setup gone (l :: rest) x) {i : Instance}
    (hafter : l.inst.After i) :
    Parted setup false l.pool i { x with registry := x.registry.remove l.handle }
      ({ x with registry := x.registry.remove l.handle }.giveBack setup l.pool i) := by
  obtain ⟨out, hlends, hbusy⟩ := h.lends
  obtain ⟨a, j, b, hout, hbefore, -⟩ := hbusy.tail
  exact (hlends.removed l.handle).parted_giveBack hout (hbefore.trans hafter)

/-- What is gone is neither in a pool nor in use. -/
theorem ended (h : Leased setup gone busy x) {n : Nat} (hn : n ∈ gone) : Gone busy n x := by
  obtain ⟨out, hlends, hout⟩ := h.lends
  obtain ⟨habsent, hlent⟩ := hlends.ended n hn
  refine ⟨habsent, fun l hl heq => ?_⟩
  obtain ⟨i, hi, hafter⟩ := hout.exists_mem hl
  exact hlent i hi (hafter.id.symm.trans heq)

/-- What is neither in a pool nor in use may be counted among what is gone. -/
theorem mark (h : Leased setup gone busy x) {n : Nat} (hn : Gone busy n x) :
    Leased setup (insert n gone) busy x :=
  { h with
    lends := by
      obtain ⟨out, hlends, hout⟩ := h.lends
      refine ⟨out, hlends.mark hn.absent fun i hi heq => ?_, hout⟩
      obtain ⟨l, hl, hafter⟩ := hout.exists_lease hi
      exact hn.unused l hl (hafter.id.trans heq) }

/-! ### Different instances -/

/-- **No instance is in use twice.** -/
theorem instances (h : Leased setup gone busy x) : (busy.map (·.inst.id)).Nodup := by
  obtain ⟨out, hlends, hout⟩ := h.lends
  refine List.pairwise_map.mpr (List.pairwise_iff_forall_sublist.mpr fun {l l'} hsub => ?_)
  have hl : l ∈ busy := hsub.subset List.mem_cons_self
  have hl' : l' ∈ busy := hsub.subset (List.mem_cons_of_mem _ List.mem_cons_self)
  obtain ⟨i, hi, hafter⟩ := hout.exists_mem hl
  obtain ⟨p, hp⟩ := hlends.exists_pool hi
  by_cases hpool : l'.pool = l.pool
  · -- both are among the instances that one pool has lent
    have hpair : [l.inst.id, l'.inst.id].Sublist ((lent busy l.pool).map (·.id)) := by
      have hfiltered := ((hsub.filter (·.pool == l.pool)).map (·.inst)).map (·.id)
      rw [List.filter_eq_self.mpr] at hfiltered
      · exact hfiltered
      · intro k hk
        rcases List.mem_pair.mp hk with rfl | rfl
        · exact beq_self_eq_true _
        · exact beq_iff_eq.mpr hpool
    have hids : ((out l.pool).map (·.id)).Perm ((lent busy l.pool).map (·.id)) := by
      have htags := (hout l.pool).map (·.1)
      rw [List.map_map, List.map_map] at htags
      exact htags
    have hnodup := hlends.nodup hp
    rw [List.map_append] at hnodup
    have hdistinct := (hids.nodup_iff.mp (List.nodup_append.mp hnodup).2.1).sublist hpair
    exact (List.pairwise_pair.mp hdistinct)
  · obtain ⟨i', hi', hafter'⟩ := hout.exists_mem hl'
    obtain ⟨p', hp'⟩ := hlends.exists_pool hi'
    rw [hafter.id, hafter'.id]
    exact hlends.apart (Ne.symm hpool) hp hp' i (List.mem_append_right _ hi) i'
      (List.mem_append_right _ hi')

theorem others (h : Leased setup gone (l :: rest) x) : ∀ k ∈ rest, k.inst.id ≠ l.inst.id := by
  intro k hk heq
  have hdistinct := h.instances
  rw [List.map_cons, List.nodup_cons] at hdistinct
  exact hdistinct.1 (heq ▸ List.mem_map_of_mem hk)

/-- **No instance is in use and in a pool.** -/
theorem unused (h : Leased setup gone busy x) {id : PoolId} {p : Pool}
    (hp : x.pools.get? id = some p) {i : Instance} (hi : i ∈ p.held) :
    i.bound = none ∧ ∀ l ∈ busy, l.inst.id ≠ i.id := by
  refine ⟨(h.orderly.quiet hp).bound hi, fun l hl => ?_⟩
  obtain ⟨out, hlends, hout⟩ := h.lends
  obtain ⟨j, hj, hafter⟩ := hout.exists_mem hl
  rw [hafter.id]
  by_cases hpool : l.pool = id
  · obtain rfl := hpool
    have hnodup := hlends.nodup hp
    rw [List.map_append] at hnodup
    exact Ne.symm ((List.nodup_append.mp hnodup).2.2 _ (List.mem_map_of_mem hi) _
      (List.mem_map_of_mem hj))
  · obtain ⟨p', hp'⟩ := hlends.exists_pool hj
    exact hlends.apart hpool hp' hp j (List.mem_append_right _ hj) i (List.mem_append_left _ hi)

end Leased

end Host

end ContractHost
