import ContractHost.Proofs.Guest.Broken
import ContractHost.Proofs.Host.Reach
import ContractHost.Proofs.Pool.Admission
import ContractHost.Proofs.Pool.Callers

/-!
# What the pools of a host have lent

A host uses its pools in a few ways: a call takes an instance, or waits for one and takes it later,
and gives it back, or gives it up; and pools are opened, reset and closed.  Each of these is a run
of the pool concerned, and leaves the other pools alone.  So every pool of a host is one that some
run comes to, with exactly the instances in use that were taken and not given back, and with exactly
the callers that wait; and all instances of all pools are different.

## Main definitions

* `Host.numbered` — the supply of a host, with its numbers.
* `Host.giveUp` — an instance is given up.
* `Host.Absent` — an instance that no pool holds, and whose number is not given again.
* `Host.Lends` — what the pools of a host have lent, and to whom they owe an answer.
* `Obtained.taken`, `Obtained.tickets` — the instance that a call was given, or the number under
  which it waits.

## Main results

* `Host.Lends.work` — **whatever is a run of one pool changes what that pool has lent.**
* `Host.Lends.obtain`, `Host.Lends.giveBack`, `Host.Lends.giveUp` — **taking an instance, giving it
  back, and giving it up.**
* `Host.Lends.claim`, `Host.Lends.leave` — **taking an answer, and no longer waiting for it.**
* `Host.Lends.openPool`, `Host.Lends.closeKey`, `Host.Lends.resetKey` — the rest lends nothing.
-/

namespace ContractHost

/-! ### Runs and numbers -/

namespace Scene

variable {σ : Type} {s : NumberedSupply σ} {sc sc' : Scene σ}

theorem id_of_run (hrun : Relation.ReflTransGen (Step s) sc sc') {i : Instance}
    (hi : i ∈ sc'.pool.held ++ sc'.out) :
    (∃ j ∈ sc.pool.held ++ sc.out, j.id = i.id) ∨ s.next sc.world.host ≤ i.id := by
  by_contra hnew
  obtain ⟨hnone, hlt⟩ := not_or.mp hnew
  have hcount : (sc.pool.held ++ sc.out).countP (·.id == i.id) = 0 := by
    refine List.countP_eq_zero.mpr fun j hj hid => hnone ⟨j, hj, beq_iff_eq.mp hid⟩
  have hcopies : sc.copies s i.id = 0 := by
    have hunborn : s.unborn i.id sc.world.host = 0 := if_neg hlt
    rw [List.countP_append] at hcount
    unfold copies Pool.tally
    omega
  exact not_mem_of_copies hcopies hrun i hi rfl

theorem new_of_create {c : ContractId} {m : Module} {settings : PoolTerms} {p : Pool} {x : σ}
    {world : Census σ}
    (hcreate : Pool.create s.counted c m settings ⟨x, []⟩ = (.ok p, world)) :
    ∀ i ∈ p.held, s.next x ≤ i.id := by
  obtain ⟨trial, z, htrial, rfl, -⟩ := Pool.create_eq_ok hcreate
  intro i hi
  by_contra hlt
  have hbirth : s.next x ≤ s.next z.host := by
    have hnext := s.next_create m ⟨x, []⟩
    rw [htrial] at hnext
    exact hnext
  -- an identifier below the counter is not unborn, so none of the new pool can carry it
  have hunborn : s.unborn i.id (s.counted.teardown trial z).host = 0 :=
    if_neg fun hle => hlt ((hbirth.trans (s.next_teardown trial z.host)).trans hle)
  have hcopies := (Pool.workStable_copies s i.id 0).grow
    (p := { contract := c, program := m, settings }) (x := s.counted.teardown trial z)
    settings.minSize (Nat.le_of_eq (by rw [hunborn]; rfl))
  have hpos : 0 < (Pool.grow s.counted { contract := c, program := m, settings }
      settings.minSize (s.counted.teardown trial z)).1.tally (·.id == i.id) :=
    List.countP_pos_iff.mpr ⟨i, hi, beq_self_eq_true _⟩
  omega

end Scene

/-! ### The supply of a host -/

section

variable {σ : Type} {host : HostCalls σ} {P : σ → Prop}

/-- What every line and every request keeps of the host, a run keeps. -/
theorem Course.keeps {linkage : Linkage} {start m : Machine σ} {visits : List (Visit σ)}
    (h : Course host linkage start visits m)
    (hlog : ∀ ptr len m x, P x → P (host.log linkage ptr len m x))
    (hrequest : ∀ regions caller x, P x → P (host.request linkage regions caller x).2.2)
    (hstart : P start.world) : P m.world := by
  refine h.invariant (P := fun _ x => P x) hstart (fun ptr len hx => hlog ptr len _ _ hx) ?_
  rintro visits m regions answer caller world - hserved - hx
  have hkept := hrequest regions m.toCaller m.world hx
  rw [hserved] at hkept
  exact hkept

/-- It is kept where a run is broken off. -/
theorem Course.Broken.keeps {linkage : Linkage} {start : Machine σ} {x : σ}
    (h : Course.Broken host linkage start x)
    (hlog : ∀ ptr len m x, P x → P (host.log linkage ptr len m x))
    (hrequest : ∀ regions caller x, P x → P (host.request linkage regions caller x).2.2)
    (hstart : P start.world) : P x := by
  cases h with
  | looping hcourse => exact hcourse.keeps hlog hrequest hstart
  | @inside visits m hcourse regions caller world hserved =>
    have hkept := hrequest regions m.toCaller m.world (hcourse.keeps hlog hrequest hstart)
    rw [hserved] at hkept
    exact hkept

/-- So does the end of an instance. -/
theorem Instance.teardown_keeps {guest : Guest} {i : Instance}
    (hlog : ∀ ptr len m x, P x → P (host.log (i.linkage false) ptr len m x))
    (hrequest : ∀ regions caller x, P x →
      P (host.request (i.linkage false) regions caller x).2.2) {x : σ} (hx : P x) :
    P (i.teardown host x guest) := by
  unfold teardown
  split
  · exact hx
  · rename_i f _
    have hfollows : Instance.Follows host (i.linkage false) ((i.setGas teardownGas).machine x)
        ((i.setGas teardownGas).call ((guest.call 0 f).run host (i.linkage false)) x) :=
      Instance.follows_call ((guest.call 0 f).follows host _ _) .rest
    show P ((i.setGas teardownGas).call ((guest.call 0 f).run host (i.linkage false)) x).2.2
    by_cases hends : ((i.setGas teardownGas).call ((guest.call 0 f).run host (i.linkage false)) x).1
        = .error .suspended
    · exact (hfollows.broken hends).keeps hlog hrequest hx
    · obtain ⟨visits, hcourse⟩ := hfollows.course hends
      exact hcourse.keeps hlog hrequest hx

end

namespace Host

variable {τ : Type} [LedgerAccess τ] {setup : HostSetup} {x y : Host τ}

theorem nextInstance_idleRequest (setup : HostSetup) (linkage : Linkage) (regions : Regions)
    (caller : Caller) (x : Host τ) :
    ((idleCalls setup).request linkage regions caller x).2.2.nextInstance = x.nextInstance := by
  show (x.request setup (fun _ h => (.suspended, h)) linkage regions caller).2.2.nextInstance = _
  have hanswer (c : Context) (served : Served) (caller : Caller) (y : Host τ) :
      (y.answer linkage c served caller).2.2.nextInstance = y.nextInstance := by
    unfold answer
    -- nested calls come to nothing here, so no request creates an instance
    split
    · rfl
    · rfl
    · rfl
    · split <;> rfl
  unfold request
  split
  · rfl
  · rename_i c name body _
    rw [hanswer]
    unfold serveRequest
    split
    · unfold serveCall serveOn
      generalize (x.desk c).run (callOf setup caller.gas body) = ran
      obtain ⟨asked, d⟩ := ran
      cases asked <;> rfl
    · rfl

theorem nextInstance_log (linkage : Linkage) (ptr len : Int32) (m : Memory) (x : Host τ) :
    (x.log linkage ptr len m).nextInstance = x.nextInstance := by
  obtain heq | ⟨line, ⟨c, -, heq⟩ | ⟨-, heq⟩⟩ := log_cases linkage ptr len m x
  · rw [heq]
  · rw [heq]
    rfl
  · rw [heq]

/-- The supply of a host, with the numbers that it gives. -/
def numbered (setup : HostSetup) : NumberedSupply (Host τ) where
  toSupply := supply setup
  next := nextInstance
  next_create_ok h := by
    obtain ⟨⟨hid, -, hpooled, -⟩, journal, rfl⟩ := createInstance_eq_ok h
    rw [hid]
    exact ⟨le_rfl, Nat.lt_succ_self _, hpooled⟩
  next_create_error h := by
    obtain ⟨journal, rfl⟩ := createInstance_eq_error h
    exact le_rfl
  next_teardown i x := by
    show x.nextInstance ≤ (i.teardown (idleCalls setup) x setup.guest).nextInstance
    refine Instance.teardown_keeps (P := fun y : Host τ => x.nextInstance ≤ y.nextInstance)
      (fun ptr len m y hy => ?_) (fun regions caller y hy => ?_) le_rfl
    · exact hy.trans_eq (nextInstance_log (i.linkage false) ptr len m y).symm
    · exact hy.trans_eq (nextInstance_idleRequest setup (i.linkage false) regions caller y).symm
  next_drop _ _ := le_rfl

/-! ### What is lent -/

omit [LedgerAccess τ] in
theorem Idled.pools_insert (h : Idled x y) (id : PoolId) (q : Pool) :
    { y with pools := y.pools.insert id q }.pools = x.pools.insert id q :=
  congrArg (·.insert id q) h.pools

/-- No pool holds the instance with a number, and no new one gets that number. -/
structure Absent (n : Nat) (x : Host τ) : Prop where
  /-- The number was given. -/
  lt_next : n < x.nextInstance
  /-- It is that of no instance in a pool. -/
  held : ∀ {id p}, x.pools.get? id = some p → ∀ i ∈ p.held, i.id ≠ n

/-- An instance is given up, and the control task of its pool goes on. -/
def giveUp (setup : HostSetup) (id : PoolId) (i : Instance) (x : Host τ) : Host τ :=
  (x.withPool id fun p y => p.discard (supply setup) i y).settlePool setup id

/-- The pools have lent the instances `out`, and owe an answer to the callers with the tickets
`queue`: every pool is one that a run comes to in which exactly these instances are in use, and
exactly these callers have taken no answer.  All instances are different, and none is among those
that are gone. -/
structure Lends (setup : HostSetup) (gone : Set Nat) (queue : PoolId → List Ticket)
    (out : PoolId → List Instance) (x : Host τ) : Prop where
  /-- The pools are quiet. -/
  orderly : x.Orderly
  /-- Every pool has the settings of the host. -/
  settings : ∀ {id p}, x.pools.get? id = some p → p.settings.toPoolConfig = setup.config.pool
  /-- Every pool has been run. -/
  reachable : ∀ {id p}, x.pools.get? id = some p → ∃ live,
    Scene.Reachable (numbered setup) p.contract p.program p.settings ⟨p, out id, ⟨x, live⟩⟩
  /-- These callers have taken no answer. -/
  owes : ∀ {id p}, x.pools.get? id = some p → p.Owes (queue id)
  /-- Instances of different pools are different. -/
  apart : ∀ {id id' p p'}, id ≠ id' → x.pools.get? id = some p → x.pools.get? id' = some p' →
    ∀ i ∈ p.held ++ out id, ∀ j ∈ p'.held ++ out id', i.id ≠ j.id
  /-- Where there is no pool, nothing is lent. -/
  missing : ∀ {id}, x.pools.get? id = none → out id = []
  /-- And nobody waits. -/
  idle : ∀ {id}, x.pools.get? id = none → queue id = []
  /-- What is gone is neither in a pool nor lent. -/
  ended : ∀ n ∈ gone, x.Absent n ∧ ∀ {id}, ∀ i ∈ out id, i.id ≠ n

namespace Lends

variable {gone : Set Nat} {queue : PoolId → List Ticket} {out : PoolId → List Instance}
variable {id : PoolId}

theorem of_empty (setup : HostSetup) (ledger : τ) :
    Lends setup ∅ (fun _ => []) (fun _ => []) ({ ledger } : Host τ) where
  orderly := .of_empty ledger
  settings h := nomatch h
  reachable h := nomatch h
  owes h := nomatch h
  apart _ h := nomatch h
  missing _ := rfl
  idle _ := rfl
  ended _ h := h.elim

theorem exists_pool (h : Lends setup gone queue out x) {i : Instance} (hi : i ∈ out id) :
    ∃ p, x.pools.get? id = some p := by
  refine Option.ne_none_iff_exists'.mp fun hnone => ?_
  rw [h.missing hnone] at hi
  exact absurd hi List.not_mem_nil

theorem move (h : Lends setup gone queue out x) (hpools : y.pools = x.pools) (horderly : y.Orderly)
    (hnext : x.nextInstance ≤ y.nextInstance) : Lends setup gone queue out y where
  orderly := horderly
  reachable {id p} hp := by
    obtain ⟨live, hreach⟩ := h.reachable (hpools ▸ hp)
    exact ⟨live, hreach.step (Scene.Step.elsewhere hnext)⟩
  settings hp := h.settings (hpools ▸ hp)
  owes hp := h.owes (hpools ▸ hp)
  apart hne hp hp' := h.apart hne (hpools ▸ hp) (hpools ▸ hp')
  missing hp := h.missing (hpools ▸ hp)
  idle hp := h.idle (hpools ▸ hp)
  ended n hn := ⟨⟨(h.ended n hn).1.lt_next.trans_le hnext,
    fun hp => (h.ended n hn).1.held (hpools ▸ hp)⟩, (h.ended n hn).2⟩

theorem idled (h : Lends setup gone queue out x) (hidled : Idled x y) :
    Lends setup gone queue out y :=
  h.move hidled.pools (h.orderly.tended (.of_idled h.orderly hidled)) hidled.nextInstance

/-- One pool may be put in the place of another, or in a free place, if its instances are none of
another pool. -/
theorem put (h : Lends setup gone queue out x) {q : Pool} {l : List Instance}
    {tickets : List Ticket}
    (hpools : y.pools = x.pools.insert id q) (horderly : y.Orderly)
    (hnext : x.nextInstance ≤ y.nextInstance)
    (hsettings : q.settings.toPoolConfig = setup.config.pool)
    (hreach : ∃ live, Scene.Reachable (numbered setup) q.contract q.program q.settings
      ⟨q, l, ⟨y, live⟩⟩)
    (howes : q.Owes tickets)
    (hapart : ∀ {k p}, x.pools.get? k = some p → id ≠ k →
      ∀ i ∈ q.held ++ l, ∀ j ∈ p.held ++ out k, i.id ≠ j.id)
    (hended : ∀ n ∈ gone, ∀ i ∈ q.held ++ l, i.id ≠ n) :
    Lends setup gone (Function.update queue id tickets) (Function.update out id l) y := by
  -- every pool is the one that was put, or stands where it stood
  have hfound {k : PoolId} {p : Pool} (hp : y.pools.get? k = some p) :
      k = id ∧ p = q ∨ k ≠ id ∧ x.pools.get? k = some p := by
    rw [hpools, OrderedMap.get?_insert_ite] at hp
    by_cases hk : id = k
    · rw [if_pos hk] at hp
      exact .inl ⟨hk.symm, (Option.some.inj hp).symm⟩
    · rw [if_neg hk] at hp
      exact .inr ⟨Ne.symm hk, hp⟩
  constructor
  case orderly => exact horderly
  case reachable =>
    intro k p hp
    rcases hfound hp with ⟨rfl, rfl⟩ | ⟨hk, hp⟩
    · rw [Function.update_self]
      exact hreach
    · rw [Function.update_of_ne hk]
      obtain ⟨live, hreach⟩ := h.reachable hp
      exact ⟨live, hreach.step (Scene.Step.elsewhere hnext)⟩
  case settings =>
    intro k p hp
    rcases hfound hp with ⟨rfl, rfl⟩ | ⟨hk, hp⟩
    · exact hsettings
    · exact h.settings hp
  case owes =>
    intro k p hp
    rcases hfound hp with ⟨rfl, rfl⟩ | ⟨hk, hp⟩
    · rw [Function.update_self]
      exact howes
    · rw [Function.update_of_ne hk]
      exact h.owes hp
  case apart =>
    intro k k' p p' hne hp hp'
    rcases hfound hp with ⟨rfl, rfl⟩ | ⟨hk, hp⟩
    · rcases hfound hp' with ⟨rfl, rfl⟩ | ⟨hk', hp'⟩
      · exact absurd rfl hne
      · rw [Function.update_self, Function.update_of_ne hk']
        exact hapart hp' hne
    · rcases hfound hp' with ⟨rfl, rfl⟩ | ⟨hk', hp'⟩
      · rw [Function.update_self, Function.update_of_ne hk]
        exact fun i hi j hj heq => hapart hp hne.symm j hj i hi heq.symm
      · rw [Function.update_of_ne hk, Function.update_of_ne hk']
        exact h.apart hne hp hp'
  case missing =>
    intro k hk
    rw [hpools, OrderedMap.get?_insert_ite] at hk
    split at hk
    · cases hk
    · rename_i hne
      rw [Function.update_of_ne (Ne.symm hne)]
      exact h.missing hk
  case idle =>
    intro k hk
    rw [hpools, OrderedMap.get?_insert_ite] at hk
    split at hk
    · cases hk
    · rename_i hne
      rw [Function.update_of_ne (Ne.symm hne)]
      exact h.idle hk
  case ended =>
    intro n hn
    obtain ⟨habsent, hlent⟩ := h.ended n hn
    refine ⟨⟨habsent.lt_next.trans_le hnext, fun {k p} hp i hi => ?_⟩, fun {k} i hi => ?_⟩
    · rcases hfound hp with ⟨rfl, rfl⟩ | ⟨hk, hp⟩
      · exact hended n hn i (List.mem_append_left _ hi)
      · exact habsent.held hp i hi
    · by_cases hk : k = id
      · subst hk
        rw [Function.update_self] at hi
        exact hended n hn i (List.mem_append_right _ hi)
      · rw [Function.update_of_ne hk] at hi
        exact hlent i hi

/-- **Whatever is a run of one pool changes what that pool has lent.** -/
theorem work (h : Lends setup gone queue out x) {p q : Pool} {l : List Instance}
    {tickets : List Ticket} (hp : x.pools.get? id = some p) (hstays : Pool.Stays Idled p x q y)
    (howes : q.Owes tickets)
    (hrun : ∀ live, ∃ live', Relation.ReflTransGen (Scene.Step (numbered setup))
      ⟨p, out id, ⟨x, live⟩⟩ ⟨q, l, ⟨y, live'⟩⟩) :
    Lends setup gone (Function.update queue id tickets) (Function.update out id l)
      { y with pools := y.pools.insert id q } := by
  obtain ⟨live, hreach⟩ := h.reachable hp
  obtain ⟨live', hrun⟩ := hrun live
  have hlabel : q.label = p.label := hstays.label
  obtain ⟨hcontract, hprogram, hsettings⟩ :
      q.contract = p.contract ∧ q.program = p.program ∧ q.settings = p.settings :=
    ⟨congrArg (·.1) hlabel, congrArg (·.2.1) hlabel, congrArg (·.2.2) hlabel⟩
  refine h.put (hstays.host.pools_insert id q)
    (h.orderly.tended (.insert h.orderly hp hstays)) hstays.host.nextInstance
    (hsettings ▸ h.settings hp) ?_ howes ?_ ?_
  · rw [hcontract, hprogram, hsettings]
    exact ⟨live', (hreach.run hrun).step (Scene.Step.elsewhere le_rfl)⟩
  · -- the instances of the pool are those that it had, and new ones
    intro k p' hp' hk i hi j hj
    rcases Scene.id_of_run hrun hi with ⟨i', hi', hid⟩ | hnew
    · rw [← hid]
      exact h.apart hk hp hp' i' hi' j hj
    · obtain ⟨live, hreach'⟩ := h.reachable hp'
      exact (Nat.lt_of_lt_of_le (hreach'.id_lt_next hj) hnew).ne'
  · intro n hn i hi
    obtain ⟨habsent, hlent⟩ := h.ended n hn
    rcases Scene.id_of_run hrun hi with ⟨i', hi', hid⟩ | hnew
    · rw [← hid]
      rcases List.mem_append.mp hi' with hheld | hout
      · exact habsent.held hp i' hheld
      · exact hlent i' hout
    · exact (Nat.lt_of_lt_of_le habsent.lt_next hnew).ne'

/-! ### Using a pool -/

theorem workOf (h : Lends setup gone queue out x) {p : Pool} {l : List Instance}
    {tickets : List Ticket} {r : Pool × Host τ} (hp : x.pools.get? id = some p)
    (hstays : Pool.Stays Idled p x r.1 r.2) (howes : r.1.Owes tickets)
    (counted : Census (Host τ) → Pool × Census (Host τ))
    (hcounted : ∀ live, r = Census.uncounted (counted ⟨x, live⟩))
    (hrun : ∀ live, Relation.ReflTransGen (Scene.Step (numbered setup)) ⟨p, out id, ⟨x, live⟩⟩
      ⟨(counted ⟨x, live⟩).1, l, (counted ⟨x, live⟩).2⟩) :
    Lends setup gone (Function.update queue id tickets) (Function.update out id l)
      { r.2 with pools := r.2.pools.insert id r.1 } := by
  refine h.work hp hstays howes fun live => ⟨(counted ⟨x, live⟩).2.live, ?_⟩
  have hsame := hrun live
  rw [hcounted live]
  exact hsame

/-- A pool that owes what it did before. -/
theorem useOf (h : Lends setup gone queue out x) {p : Pool} {l : List Instance} {r : Pool × Host τ}
    (hp : x.pools.get? id = some p) (hstays : Pool.Stays Idled p x r.1 r.2)
    (howes : r.1.Owes (queue id)) (counted : Census (Host τ) → Pool × Census (Host τ))
    (hcounted : ∀ live, r = Census.uncounted (counted ⟨x, live⟩))
    (hrun : ∀ live, Relation.ReflTransGen (Scene.Step (numbered setup)) ⟨p, out id, ⟨x, live⟩⟩
      ⟨(counted ⟨x, live⟩).1, l, (counted ⟨x, live⟩).2⟩) :
    Lends setup gone queue (Function.update out id l)
      { r.2 with pools := r.2.pools.insert id r.1 } := by
  have hworked := h.workOf hp hstays howes counted hcounted hrun
  rwa [Function.update_eq_self] at hworked

theorem settlePool (h : Lends setup gone queue out x) (id : PoolId) :
    Lends setup gone queue out (x.settlePool setup id) := by
  unfold Host.settlePool withPool
  split
  · exact h
  · rename_i p hp
    have hsettled := h.useOf hp
      (Pool.stays_settle (within_supply setup) (h.orderly.quiet hp) x)
      ((h.owes hp).settle x) (p.settle (supply setup).counted)
      (fun live => Pool.settle_counted (supply setup) p ⟨x, live⟩)
      (fun live => Scene.run_settle ⟨p, out id, ⟨x, live⟩⟩)
    rw [Function.update_eq_self] at hsettled
    exact hsettled

section

variable {p : Pool} {l r : List Instance} {i i' : Instance}

theorem closed (h : Lends setup gone queue out x) (hp : x.pools.get? id = some p)
    (hout : out id = l ++ i :: r) (hafter : i.After i') (hdetached : i'.detached = true) :
    Lends setup gone queue (Function.update out id (l ++ r))
      (x.teardownInstance setup i'.unbind) := by
  have hidled : Idled x (x.teardownInstance setup i'.unbind) :=
    (within_supply setup).teardown x rfl
  have hunbound : i.After i'.unbind := ⟨hafter.id, hafter.epoch, hafter.detached⟩
  have hclosed := h.work (q := p) (l := l ++ r) hp ⟨rfl, h.orderly.quiet hp, hidled⟩
    (h.owes hp) fun live => ⟨live.erase i'.id, .single (Scene.Step.close hout hunbound
      (hafter.detached.symm.trans hdetached))⟩
  -- the pool itself stays in its place
  have hsame : (x.teardownInstance setup i'.unbind).pools.get? id = some p := by
    rw [hidled.pools]
    exact hp
  rw [OrderedMap.insert_of_get? hsame, Function.update_eq_self] at hclosed
  exact hclosed

/-- A pool takes an instance back, and has not settled yet. -/
theorem released (h : Lends setup gone queue out x) (hp : x.pools.get? id = some p)
    (hout : out id = l ++ i :: r) (hafter : i.After i') :
    Lends setup gone queue (Function.update out id (l ++ r))
      { (p.release (supply setup) i' x).2 with
      pools := (p.release (supply setup) i' x).2.pools.insert id
        (p.release (supply setup) i' x).1 } :=
  h.useOf hp (Pool.stays_release (within_supply setup) (h.orderly.quiet hp) i' x)
    ((h.owes hp).release i' x) (p.release (supply setup).counted i')
    (fun live => Pool.release_counted (supply setup) p i' ⟨x, live⟩)
    (fun _ => .single (Scene.Step.release hout hafter))

/-- A pool hears of an instance that is given up, and has not settled yet. -/
theorem discarded (h : Lends setup gone queue out x) (hp : x.pools.get? id = some p)
    (hout : out id = l ++ i :: r) (hafter : i.After i') :
    Lends setup gone queue (Function.update out id (l ++ r))
      { (p.discard (supply setup) i' x).2 with
      pools := (p.discard (supply setup) i' x).2.pools.insert id
        (p.discard (supply setup) i' x).1 } :=
  h.useOf hp (Pool.stays_discard (within_supply setup) (h.orderly.quiet hp) i' x)
    ((h.owes hp).discard i' x) (p.discard (supply setup).counted i')
    (fun live => Pool.discard_counted (supply setup) p i' ⟨x, live⟩)
    (fun _ => .single (Scene.Step.discard hout hafter))

/-- **Giving an instance back.** -/
theorem giveBack (h : Lends setup gone queue out x) (hout : out id = l ++ i :: r)
    (hafter : i.After i') :
    Lends setup gone queue (Function.update out id (l ++ r)) (x.giveBack setup id i') := by
  obtain ⟨p, hp⟩ := h.exists_pool (hout ▸ List.mem_append_right l List.mem_cons_self)
  unfold Host.giveBack
  split
  · rename_i hdetached
    exact h.closed hp hout hafter hdetached
  · refine settlePool ?_ id
    unfold withPool
    rw [hp]
    exact h.released hp hout hafter

theorem removed (h : Lends setup gone queue out x) (handle : Int32) :
    Lends setup gone queue out { x with registry := x.registry.remove handle } :=
  h.move rfl (h.orderly.congr rfl rfl rfl) le_rfl

/-- **Giving an instance up.** -/
theorem giveUp (h : Lends setup gone queue out x) (hout : out id = l ++ i :: r)
    (hafter : i.After i') :
    Lends setup gone queue (Function.update out id (l ++ r)) (x.giveUp setup id i') := by
  obtain ⟨p, hp⟩ := h.exists_pool (hout ▸ List.mem_append_right l List.mem_cons_self)
  unfold Host.giveUp
  refine settlePool ?_ id
  unfold withPool
  rw [hp]
  exact h.discarded hp hout hafter

end

end Lends

/-- The instance that a call was given, if there is one. -/
def Obtained.taken : Obtained → List Instance
  | .instance i => [i]
  | .refused _ => []
  | .waiting _ => []

/-- The number under which a call waits, if it does. -/
def Obtained.tickets : Obtained → List Ticket
  | .instance _ => []
  | .refused _ => []
  | .waiting ticket => [ticket]

namespace Lends

variable {gone : Set Nat} {queue : PoolId → List Ticket} {out : PoolId → List Instance}
variable {id : PoolId} {p : Pool}

/-- **Taking an answer.**  There may be none, and then nothing happens. -/
theorem claim (h : Lends setup gone queue out x) (hp : x.pools.get? id = some p) (ticket : Ticket) :
    x.claim id ticket = (.waiting ticket, x) ∧
        (p.cancel ticket).Owes ((queue id).filter (· != ticket)) ∨
      (x.claim id ticket).1.tickets = [] ∧
        Lends setup gone (Function.update queue id ((queue id).filter (· != ticket)))
          (Function.update out id (out id ++ (x.claim id ticket).1.taken))
          (x.claim id ticket).2 := by
  rw [claim_of_some hp]
  -- the ticket is still waiting and nothing changes, or it is answered and leaves the line
  obtain ⟨hnone, howes⟩ | ⟨answer, hsome, howes⟩ := (h.owes hp).claim ticket
  · refine .inl ⟨?_, howes⟩
    rw [hnone, OrderedMap.insert_of_get? hp]
  · have hrun (live : List Nat) : Relation.ReflTransGen (Scene.Step (numbered setup))
        ⟨p, out id, ⟨x, live⟩⟩
        ⟨(p.claim ticket).2, out id ++ answer.toOption.toList, ⟨x, live⟩⟩ := by
      have hstep := Scene.Step.claim (s := numbered setup) ⟨p, out id, ⟨x, live⟩⟩ ticket
      dsimp only at hstep
      rw [hsome] at hstep
      exact .single hstep
    have hclaimed := h.work (q := (p.claim ticket).2) hp
      ⟨rfl, (h.orderly.quiet hp).claim ticket, Idled.refl x⟩ howes fun live => ⟨live, hrun live⟩
    rw [hsome]
    cases answer with
    | ok i => exact .inr ⟨rfl, hclaimed⟩
    | error e => exact .inr ⟨rfl, hclaimed⟩

/-- **Asking for a ready instance.** -/
theorem takeReady (h : Lends setup gone queue out x) (hp : x.pools.get? id = some p) :
    Lends setup gone
      (Function.update queue id (queue id ++ (x.takeReady setup id).1.tickets))
      (Function.update out id (out id ++ (x.takeReady setup id).1.taken))
      (x.takeReady setup id).2 := by
  let ticket := p.acquire.1
  let y : Host τ := { (asked setup p x).2 with
    pools := (asked setup p x).2.pools.insert id (asked setup p x).1 }
  have howes : (asked setup p x).1.Owes (queue id ++ [ticket]) :=
    ((h.owes hp).acquire.settle x).perm (List.perm_append_singleton ticket _).symm
  have hnodup := howes.nodup
  have hasked : Lends setup gone (Function.update queue id (queue id ++ [ticket])) out y := by
    have hworked := h.workOf (r := asked setup p x) (l := out id) hp
      (stays_asked (h.orderly.quiet hp) x) howes (p.acquire.2.settle (supply setup).counted)
      (fun live => Pool.settle_counted (supply setup) p.acquire.2 ⟨x, live⟩)
      (fun live => .head (Scene.Step.acquire ⟨p, out id, ⟨x, live⟩⟩)
        (Scene.run_settle ⟨p.acquire.2, out id, ⟨x, live⟩⟩))
    rwa [Function.update_eq_self] at hworked
  have hy : y.pools.get? id = some (asked setup p x).1 := OrderedMap.get?_insert_self _ _ _
  -- the ticket is new, so it is taken away again if there is an answer
  have hfiltered : (queue id ++ [ticket]).filter (· != ticket) = queue id := by
    rw [List.filter_append, List.filter_cons_of_neg (by simp), List.filter_nil, List.append_nil]
    refine List.filter_eq_self.mpr fun t ht => bne_iff_ne.mpr fun heq => ?_
    exact (List.nodup_append.mp hnodup).2.2 t ht ticket (List.mem_singleton_self _) heq
  rw [takeReady_of_some hp]
  change Lends setup gone (Function.update queue id (queue id ++ (y.claim id ticket).1.tickets))
    (Function.update out id (out id ++ (y.claim id ticket).1.taken)) (y.claim id ticket).2
  obtain ⟨hwaiting, -⟩ | ⟨hnone, hclaimed⟩ := hasked.claim hy ticket
  · rw [hwaiting]
    dsimp only [Obtained.taken, Obtained.tickets]
    rw [List.append_nil, Function.update_eq_self]
    exact hasked
  · rw [hnone, List.append_nil]
    rwa [Function.update_self, Function.update_idem, hfiltered] at hclaimed

theorem takeDetached (h : Lends setup gone queue out x) (hp : x.pools.get? id = some p) :
    (x.takeDetached setup id).1.tickets = [] ∧
      Lends setup gone queue (Function.update out id (out id ++ (x.takeDetached setup id).1.taken))
        (x.takeDetached setup id).2 := by
  rw [takeDetached_of_some hp]
  have hidled : Idled x (createInstance setup p.program x).2 :=
    (within_supply setup).create p.program x
  have hsame : (createInstance setup p.program x).2.pools.get? id = some p := by
    rw [hidled.pools]
    exact hp
  cases hcreate : createInstance setup p.program x with
  | mk result y =>
    rw [hcreate] at hidled hsame
    cases result with
    | error e =>
      dsimp only [Obtained.taken]
      rw [List.append_nil, Function.update_eq_self]
      exact ⟨rfl, h.idled hidled⟩
    | ok i =>
      -- the pool creates it in the counted supply as well, so the run of the pool has the same step
      have hmade (live : List Nat) : p.createDetached (numbered setup).counted ⟨x, live⟩ =
          (.ok { i with detached := true }, ⟨y, i.id :: live⟩) := by
        have hcounted : (numbered setup).counted.create p.program ⟨x, live⟩ =
            (.ok i, ⟨y, i.id :: live⟩) := by
          have hsupply : (numbered setup).create p.program x = (.ok i, y) := hcreate
          unfold Supply.counted
          dsimp only
          rw [hsupply]
        unfold Pool.createDetached
        rw [hcounted]
      have hspawned := h.work (q := p) (l := out id ++ [{ i with detached := true }]) hp
        ⟨rfl, h.orderly.quiet hp, hidled⟩ (h.owes hp)
        fun live => ⟨i.id :: live, .single (Scene.Step.spawn (hmade live))⟩
      rw [OrderedMap.insert_of_get? hsame, Function.update_eq_self] at hspawned
      exact ⟨rfl, hspawned⟩

/-- **Taking an instance**, or a place in the line. -/
theorem obtain (h : Lends setup gone queue out x) (depth : UInt32)
    (hp : x.pools.get? id = some p) :
    Lends setup gone
      (Function.update queue id (queue id ++ (x.obtain setup depth id).1.tickets))
      (Function.update out id (out id ++ (x.obtain setup depth id).1.taken))
      (x.obtain setup depth id).2 := by
  unfold Host.obtain
  split
  · obtain ⟨hnone, htaken⟩ := h.takeDetached hp
    rw [hnone, List.append_nil, Function.update_eq_self]
    exact htaken
  · exact h.takeReady hp

/-- Whoever is not in the line may leave it. -/
theorem absentee (h : Lends setup gone queue out x) (id : PoolId) {ticket : Ticket}
    (hmem : ticket ∉ queue id) :
    Lends setup gone queue out (x.withPool id fun p y => (p.cancel ticket, y)) := by
  unfold withPool
  split
  · exact h
  · rename_i p hp
    have hcancelled := h.work (q := p.cancel ticket) (l := out id) hp
      ⟨Pool.label_cancel p _, (h.orderly.quiet hp).cancel _, Idled.refl x⟩
      ((h.owes hp).cancel_of_not_mem hmem)
      fun live => ⟨live, .single (Scene.Step.cancel ⟨p, out id, ⟨x, live⟩⟩ _)⟩
    rwa [Function.update_eq_self, Function.update_eq_self] at hcancelled

/-- **No longer waiting.**  If there is an instance for the call by then, it is given up. -/
theorem leave (h : Lends setup gone queue out x) (q : Queued) :
    Lends setup gone (Function.update queue q.pool ((queue q.pool).filter (· != q.ticket))) out
      (x.leave setup q) := by
  have hleft : Lends setup gone queue out (x.dequeue q) :=
    h.move rfl (h.orderly.congr rfl rfl rfl) le_rfl
  unfold Host.leave
  cases hp : (x.dequeue q).pools.get? q.pool with
  | none =>
    -- there is no such pool, and nobody waits for it
    have hclaim := claim_of_none hp q.ticket
    have hsame : (x.dequeue q).settlePool setup q.pool = x.dequeue q := by
      unfold Host.settlePool withPool
      rw [hp]
    rw [hclaim]
    unfold withPool
    dsimp only
    rw [hp]
    dsimp only
    rw [hsame, hleft.idle hp, List.filter_nil, ← hleft.idle hp, Function.update_eq_self]
    exact hleft
  | some p =>
    refine settlePool ?_ q.pool
    obtain ⟨hwaiting, howes⟩ | ⟨hnone, hclaimed⟩ := hleft.claim hp q.ticket
    · have hcancelled := hleft.work (q := p.cancel q.ticket) (l := out q.pool) hp
        ⟨Pool.label_cancel p _, (hleft.orderly.quiet hp).cancel _, Idled.refl _⟩ howes
        fun live => ⟨live, .single (Scene.Step.cancel ⟨p, out q.pool, ⟨x.dequeue q, live⟩⟩ _)⟩
      rw [hwaiting]
      unfold withPool
      dsimp only
      rw [hp]
      rwa [Function.update_eq_self] at hcancelled
    · generalize (x.dequeue q).claim q.pool q.ticket = claimed at hnone hclaimed ⊢
      obtain ⟨answer, y⟩ := claimed
      cases answer with
      | waiting ticket => cases hnone
      | refused e =>
        dsimp only [Obtained.taken] at hclaimed
        rw [List.append_nil, Function.update_eq_self] at hclaimed
        exact hclaimed.absentee q.pool fun hmem => by
          rw [Function.update_self] at hmem
          exact absurd rfl (bne_iff_ne.mp (List.mem_filter.mp hmem).2)
      | «instance» i =>
        dsimp only [Obtained.taken] at hclaimed
        have hout : Function.update out q.pool (out q.pool ++ [i]) q.pool = out q.pool ++ [i] :=
          Function.update_self _ _ _
        obtain ⟨p', hp'⟩ := hclaimed.exists_pool (hout ▸ List.mem_append_right _ List.mem_cons_self)
        have hsame : i.After i := ⟨rfl, rfl, rfl⟩
        have hdiscarded := hclaimed.discarded hp' hout hsame
        unfold withPool
        dsimp only
        rw [hp']
        rwa [List.append_nil, Function.update_idem, Function.update_eq_self] at hdiscarded

/-! ### Opening, resetting and closing -/

theorem tell (h : Lends setup gone queue out x) (id : PoolId) {told : Pool → Pool}
    (hquiet : ∀ p, p.Quiet → (told p).Quiet) (hlabel : ∀ p, (told p).label = p.label)
    (howes : ∀ {p tickets}, p.Owes tickets → (told p).Owes tickets)
    (hstep : ∀ sc : Scene (Host τ),
      Scene.Step (numbered setup) sc { sc with pool := told sc.pool }) :
    Lends setup gone queue out (x.withPool id fun p y => (told p).settle (supply setup) y) := by
  unfold withPool
  split
  · exact h
  · rename_i p hp
    have hstays := Pool.stays_settle (within_supply setup) (hquiet p (h.orderly.quiet hp)) x
    have htold := h.useOf (r := (told p).settle (supply setup) x) (l := out id) hp
      ⟨hstays.label.trans (hlabel p), hstays.quiet, hstays.host⟩ ((howes (h.owes hp)).settle x)
      ((told p).settle (supply setup).counted)
      (fun live => Pool.settle_counted (supply setup) (told p) ⟨x, live⟩)
      (fun live => .head (hstep ⟨p, out id, ⟨x, live⟩⟩)
        (Scene.run_settle ⟨told p, out id, ⟨x, live⟩⟩))
    rw [Function.update_eq_self] at htold
    exact htold

theorem closeKey (h : Lends setup gone queue out x) (key : String) :
    Lends setup gone queue out (x.closeKey setup key) := by
  unfold Host.closeKey
  split
  · exact h
  · have hunfiled : Lends setup gone queue out (x.unfiled key) :=
      h.move rfl (h.orderly.unfiled key) le_rfl
    exact hunfiled.tell _ (fun _ hp => hp.requestShutdown) Pool.label_requestShutdown
      Pool.Owes.requestShutdown Scene.Step.requestShutdown

theorem resetKey (h : Lends setup gone queue out x) (key : String) :
    Lends setup gone queue out (x.resetKey setup key) := by
  unfold Host.resetKey
  split
  · exact h
  · exact h.tell _ (fun _ hp => hp.requestReset) Pool.label_requestReset
      Pool.Owes.requestReset Scene.Step.requestReset

theorem add (h : Lends setup gone queue out x) (key : String) {c : ContractId} {m : Module}
    {p : Pool}
    {world : Census (Host τ)}
    (hcreate : Pool.create (numbered setup).counted c m (x.terms setup) ⟨x, []⟩ = (.ok p, world))
    (hlabel : p.label = (c, m, x.terms setup)) (hquiet : p.Quiet)
    (hidled : Idled x world.host) :
    Lends setup gone queue out { world.host with
      pools := world.host.pools.insert world.host.nextPool p
      registered := world.host.registered.insert key world.host.nextPool
      nextPool := world.host.nextPool + 1 } := by
  have hnew := Scene.new_of_create hcreate
  have hnone : x.pools.get? world.host.nextPool = none := by
    refine Option.eq_none_iff_forall_ne_some.mpr fun q hq => ?_
    have hlt := h.orderly.numbered hq
    rw [hidled.nextPool] at hlt
    exact Nat.lt_irrefl _ hlt
  obtain ⟨rfl, rfl, hsettings⟩ : p.contract = c ∧ p.program = m ∧ p.settings = x.terms setup := by
    simpa only [Pool.label, Prod.mk.injEq] using hlabel
  -- its instances are younger than all others
  have hyoung {k : PoolId} {p' : Pool} (hp' : x.pools.get? k = some p') :
      ∀ i ∈ p.held ++ [], ∀ j ∈ p'.held ++ out k, i.id ≠ j.id := by
    intro i hi j hj
    rw [List.append_nil] at hi
    obtain ⟨live, hreach⟩ := h.reachable hp'
    exact (Nat.lt_of_lt_of_le (hreach.id_lt_next hj) (hnew i hi)).ne'
  have hreach : Scene.Reachable (numbered setup) p.contract p.program p.settings ⟨p, [], world⟩ :=
    hsettings ▸ .create hcreate
  have hadded : Lends setup gone (Function.update queue world.host.nextPool [])
      (Function.update out world.host.nextPool []) { world.host with
      pools := world.host.pools.insert world.host.nextPool p
      registered := world.host.registered.insert key world.host.nextPool
      nextPool := world.host.nextPool + 1 } :=
    h.put (hidled.pools_insert world.host.nextPool p)
      (Refiled.insert h.orderly hidled hquiet key).orderly hidled.nextInstance
      (congrArg PoolTerms.toPoolConfig hsettings)
      ⟨world.live, hreach.step (Scene.Step.elsewhere le_rfl)⟩ (Pool.Owes.create hcreate)
      (fun hp' _ => hyoung hp') fun n hn i hi => by
        rw [List.append_nil] at hi
        exact (Nat.lt_of_lt_of_le (h.ended n hn).1.lt_next (hnew i hi)).ne'
  have hout := Function.update_eq_self world.host.nextPool out
  have hqueue := Function.update_eq_self world.host.nextPool queue
  rw [h.missing hnone] at hout
  rw [h.idle hnone] at hqueue
  rwa [hout, hqueue] at hadded

/-- **Opening a pool.** -/
theorem openPool (h : Lends setup gone queue out x) (c : ContractId) (code : Code) :
    Lends setup gone queue out (x.openPool setup c code).2 := by
  unfold Host.openPool
  split
  · exact h
  · -- a new pool begins empty of obligations, under a number nobody has used
    rw [createPool_eq]
    split
    · exact h
    · rename_i m _
      obtain ⟨hidled, hok⟩ := Pool.stays_create (within_supply setup) c m (x.terms setup) x
      have hcounted := Pool.create_counted (supply setup) c m (x.terms setup) ⟨x, []⟩
      dsimp only at hcounted
      rw [hcounted] at hidled hok ⊢
      cases hcreate : Pool.create (supply setup).counted c m (x.terms setup) ⟨x, []⟩ with
      | mk result world =>
        rw [hcreate] at hidled hok
        cases result with
        | error e => exact h.idled hidled
        | ok p =>
          obtain ⟨hlabel, hquiet⟩ := hok p rfl
          exact h.add c.key hcreate hlabel hquiet hidled

end Lends

end Host

end ContractHost
