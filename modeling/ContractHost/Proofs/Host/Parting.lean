import ContractHost.Proofs.Host.Lending
import ContractHost.Proofs.Pool.Endurance

/-!
# What becomes of an instance in use

When a call ends, its instance is given back; when a call is broken off, it is given up.  One that
belongs to its pool and is still fit for use becomes ready again.  Any other one ends, and the
control task is told to replace it, unless the pool is shut down.

A control task that has ended hears of nothing, and the instance is lost.  While the pool is open
that happens only under settings under which the control task cannot tell when it is to look at the
pool, or cannot find out whether the pool should grow.  Such settings are accepted.

## Main definitions

* `Pool.Lasts` — the control task is there if the settings last.
* `Pool.Fate` — what becomes of an instance that has left its call, and of its pool.
* `Host.Parted` — a host after an instance has left its call.

## Main results

* `Host.Lends.lasts` — **under lasting settings the control task of an open pool is there.**
* `Host.Lends.parted_giveBack`, `Host.Lends.parted_giveUp` — **what giving an instance back
  and giving it up come to.**
-/

namespace ContractHost

namespace Pool

/-- An instance in use is fit to become ready again: it is given back, it belongs to the pool, which
is open, it is of the current generation, and it has not failed too often. -/
structure Retains (givenUp : Bool) (p : Pool) (i : Instance) : Prop where
  /-- It is given back. -/
  givenBack : givenUp = false
  /-- It belongs to the pool. -/
  pooled : i.detached = false
  /-- The pool is open. -/
  «open» : p.closed = false
  /-- It is of the current generation. -/
  current : i.epoch = p.epoch
  /-- It has not failed too often. -/
  sound : i.errors ≤ p.settings.discardThreshold

/-- What becomes of an instance in use that is given back or given up while its pool is `p`, and of
the pool, before its control task goes on. -/
inductive Fate (givenUp : Bool) (p : Pool) (i : Instance) : Pool → Prop
  /-- One outside its pool ends. -/
  | outside (hdetached : i.detached = true) : Fate givenUp p i p
  /-- So does one whose pool is shut down.  It no longer counts. -/
  | closed (hpooled : i.detached = false) (hclosed : p.closed = true) :
      Fate givenUp p i { p with size := p.size - 1 }
  /-- One that is fit for use is bound to nothing any more, and ready again. -/
  | kept (hretains : p.Retains givenUp i) : Fate givenUp p i (p.push i.unbind)
  /-- Any other one ends, and is to be replaced. -/
  | replaced (hpooled : i.detached = false) (hopen : p.closed = false)
      (hunfit : givenUp = true ∨ i.epoch ≠ p.epoch ∨ p.settings.discardThreshold < i.errors)
      (hawake : p.control ≠ .ended) :
      Fate givenUp p i { p with signals := p.signals ++ [.remove, .add] }
  /-- It is lost if the control task has ended, which it has only under settings that do not last.
  -/
  | lost (hpooled : i.detached = false) (hopen : p.closed = false)
      (hunfit : givenUp = true ∨ i.epoch ≠ p.epoch ∨ p.settings.discardThreshold < i.errors)
      (hended : p.control = .ended)
      (hfrail : p.settings.validate = .ok () → ¬ p.settings.Enduring) : Fate givenUp p i p

variable {σ : Type} {givenUp : Bool} {p q : Pool} {i : Instance}

/-- One that is not fit is not taken into the pool. -/
theorem Fate.held (h : Fate givenUp p i q) (hunfit : ¬ p.Retains givenUp i) : q.held = p.held := by
  cases h with
  | outside => rfl
  | closed => rfl
  | kept hretains => exact absurd hretains hunfit
  | replaced => rfl
  | lost => rfl

/-- Under lasting settings the control task of an open pool is there. -/
def Lasts (p : Pool) : Prop :=
  p.settings.validate = .ok () → p.settings.Enduring → p.closed = false → p.control ≠ .ended

/-- An instance is replaced or lost when the control task is told to replace it. -/
theorem fate_signal (hlasts : p.Lasts) (hpooled : i.detached = false) (hopen : p.closed = false)
    (hunfit : givenUp = true ∨ i.epoch ≠ p.epoch ∨ p.settings.discardThreshold < i.errors) :
    Fate givenUp p i (p.signal [.remove, .add]) := by
  by_cases hended : p.control = .ended
  · have hsame : p.signal [.remove, .add] = p := if_pos hended
    rw [hsame]
    exact .lost hpooled hopen hunfit hended fun hvalid henduring =>
      hlasts hvalid henduring hopen hended
  · rw [signal_of_awake hended]
    exact .replaced hpooled hopen hunfit hended

/-- **What becomes of an instance that is given back.** -/
theorem fate_release (s : Supply σ) (hlasts : p.Lasts) (i : Instance) (x : σ) :
    Fate false p i (p.release s i x).1 := by
  rcases release_cases s p i x with ⟨hdetached, heq⟩ | ⟨hpooled, hclosed, heq⟩ |
    ⟨hpooled, hopen, -⟩ | ⟨hpooled, hopen, -⟩
  · rw [heq]
    exact .outside hdetached
  · rw [heq]
    exact .closed hpooled hclosed
  all_goals
    rw [release_pooled s hpooled hopen]
    split
    · -- it goes back to the queue if it is young enough and has failed seldom
      rename_i hfit
      exact .kept ⟨rfl, hpooled, hopen, hfit.1, hfit.2⟩
    · rename_i hfit
      refine fate_signal hlasts hpooled hopen (.inr ?_)
      rcases not_and_or.mp hfit with hold | hmany
      · exact .inl hold
      · exact .inr (UInt32.not_le.mp hmany)

/-- **What becomes of an instance that is given up.** -/
theorem fate_discard (s : Supply σ) (hlasts : p.Lasts) (i : Instance) (x : σ) :
    Fate true p i (p.discard s i x).1 := by
  rcases discard_cases s p i x with ⟨hdetached, heq⟩ | ⟨hpooled, hclosed, heq⟩ |
    ⟨hpooled, hopen, heq⟩
  · rw [heq]
    exact .outside hdetached
  · rw [heq]
    exact .closed hpooled hclosed
  · rw [heq]
    exact fate_signal hlasts hpooled hopen (.inl rfl)

end Pool

namespace Host

variable {τ : Type} [LedgerAccess τ] {setup : HostSetup} {x y : Host τ}

/-- The host `y` is what comes of `x` when an instance of a pool is given back or given up: it ends
or goes back to the pool, and the control task of the pool goes on.  One that is not fit for use any
more is in no pool then. -/
inductive Parted (setup : HostSetup) (givenUp : Bool) (id : PoolId) (i : Instance) (x : Host τ) :
    Host τ → Prop
  /-- The pool is as it was. -/
  | apart {p : Pool} {y : Host τ} (hp : x.pools.get? id = some p) (hdetached : i.detached = true)
      (hidled : Idled x y) (habsent : y.Absent i.id) : Parted setup givenUp id i x y
  /-- The pool has changed, and goes on from there. -/
  | back {p q : Pool} {y : Host τ} (hp : x.pools.get? id = some p) (hfate : p.Fate givenUp i q)
      (hidled : Idled x y)
      (habsent : ¬ p.Retains givenUp i →
        ({ y with pools := y.pools.insert id q }.settlePool setup id).Absent i.id) :
      Parted setup givenUp id i x ({ y with pools := y.pools.insert id q }.settlePool setup id)

namespace Lends

variable {gone : Set Nat} {queue : PoolId → List Ticket} {out : PoolId → List Instance}
variable {id : PoolId} {p q : Pool} {l r : List Instance} {i i' : Instance}

theorem nodup (h : Lends setup gone queue out x) (hp : x.pools.get? id = some p) :
    ((p.held ++ out id).map (·.id)).Nodup := by
  obtain ⟨live, hreach⟩ := h.reachable hp
  refine List.nodup_iff_count_le_one.mpr fun n => ?_
  have hcopies := hreach.copies_le n
  rw [List.count, List.countP_map, List.countP_append]
  exact (Nat.le_add_right _ _).trans hcopies

/-- What is neither in a pool nor lent may be counted among what is gone. -/
theorem mark {n : Nat} (h : Lends setup gone queue out x) (hn : x.Absent n)
    (hlent : ∀ {id}, ∀ i ∈ out id, i.id ≠ n) : Lends setup (insert n gone) queue out x :=
  { h with
    ended := by
      rintro k (rfl | hk)
      · exact ⟨hn, hlent⟩
      · exact h.ended k hk }

theorem alone (h : Lends setup gone queue out x) (hp : x.pools.get? id = some p)
    (hout : out id = l ++ i :: r) : (∀ j ∈ p.held, j.id ≠ i.id) ∧
      ∀ {k}, ∀ j ∈ Function.update out id (l ++ r) k, j.id ≠ i.id := by
  have hi : i ∈ p.held ++ out id := by
    rw [hout]
    exact List.mem_append_right _ (List.mem_append_right _ List.mem_cons_self)
  have hself : ∀ j ∈ p.held ++ (l ++ r), j.id ≠ i.id := by
    have hnodup := h.nodup hp
    have hfirst : (p.held ++ (l ++ i :: r)).Perm (i :: (p.held ++ (l ++ r))) :=
      (List.perm_middle.append_left _).trans List.perm_middle
    rw [hout, (hfirst.map (·.id)).nodup_iff, List.map_cons, List.nodup_cons] at hnodup
    intro j hj heq
    exact hnodup.1 (heq ▸ List.mem_map_of_mem hj)
  refine ⟨fun j hj => hself j (List.mem_append_left _ hj), fun {k} j hj => ?_⟩
  -- in the same pool the numbers differ, and other pools are apart
  by_cases hk : k = id
  · subst hk
    rw [Function.update_self] at hj
    exact hself j (List.mem_append_right _ hj)
  · rw [Function.update_of_ne hk] at hj
    obtain ⟨p', hp'⟩ := h.exists_pool hj
    exact h.apart hk hp' hp j (List.mem_append_right _ hj) i hi

/-- An instance in use that is taken away, while what its pool holds stays the same, may be counted
among what is gone. -/
theorem part (h : Lends setup gone queue out x) (hp : x.pools.get? id = some p)
    (hout : out id = l ++ i :: r) (hy : Lends setup gone queue (Function.update out id (l ++ r)) y)
    (hpools : y.pools = x.pools.insert id q) (hheld : q.held = p.held)
    (hnext : x.nextInstance ≤ y.nextInstance) :
    Lends setup (insert i.id gone) queue (Function.update out id (l ++ r)) y := by
  obtain ⟨live, hreach⟩ := h.reachable hp
  obtain ⟨hself, hlent⟩ := h.alone hp hout
  have hi : i ∈ p.held ++ out id := by
    rw [hout]
    exact List.mem_append_right _ (List.mem_append_right _ List.mem_cons_self)
  refine hy.mark ⟨(hreach.id_lt_next hi).trans_le hnext, fun {k p'} hp' j hj => ?_⟩ hlent
  rw [hpools, OrderedMap.get?_insert_ite] at hp'
  by_cases hk : id = k
  · rw [if_pos hk] at hp'
    cases hp'
    exact hself j (hheld ▸ hj)
  · rw [if_neg hk] at hp'
    exact h.apart (Ne.symm hk) hp' hp j (List.mem_append_left _ hj) i hi

/-- **Under lasting settings the control task of an open pool is there** to hear of the instances
that are to be replaced. -/
theorem lasts (h : Lends setup gone queue out x) (hp : x.pools.get? id = some p) : p.Lasts := by
  intro hvalid henduring hopen hended
  obtain ⟨live, hreach⟩ := h.reachable hp
  exact Bool.false_ne_true (hopen.symm.trans (hreach.closed_of_enduring hvalid henduring hended))

/-- **What giving an instance back comes to.** -/
theorem parted_giveBack (h : Lends setup gone queue out x) (hout : out id = l ++ i :: r)
    (hafter : i.After i') : Parted setup false id i' x (x.giveBack setup id i') := by
  obtain ⟨p, hp⟩ := h.exists_pool (hout ▸ List.mem_append_right l List.mem_cons_self)
  unfold Host.giveBack
  -- an instance that is detached is torn down, any other is judged by its pool
  split
  · rename_i hdetached
    have hidled : Idled x (x.teardownInstance setup i'.unbind) :=
      (within_supply setup).teardown x rfl
    have hpools : (x.teardownInstance setup i'.unbind).pools = x.pools.insert id p := by
      rw [hidled.pools, OrderedMap.insert_of_get? hp]
    have hparted := h.part hp hout (h.closed hp hout hafter hdetached) hpools rfl
      hidled.nextInstance
    exact .apart hp hdetached hidled (hafter.id ▸ (hparted.ended i.id (Set.mem_insert _ _)).1)
  · have hstays := Pool.stays_release (within_supply setup) (h.orderly.quiet hp) i' x
    have hfate := Pool.fate_release (supply setup) (h.lasts hp) i' x
    unfold withPool
    rw [hp]
    refine .back hp hfate hstays.host fun hunfit => ?_
    have hparted := h.part hp hout (h.released hp hout hafter) (hstays.host.pools_insert _ _)
      (hfate.held hunfit) hstays.host.nextInstance
    exact hafter.id ▸ ((hparted.settlePool id).ended i.id (Set.mem_insert _ _)).1

/-- **What giving an instance up comes to.** -/
theorem parted_giveUp (h : Lends setup gone queue out x) (hout : out id = l ++ i :: r)
    (hafter : i.After i') : Parted setup true id i' x (x.giveUp setup id i') := by
  obtain ⟨p, hp⟩ := h.exists_pool (hout ▸ List.mem_append_right l List.mem_cons_self)
  have hstays := Pool.stays_discard (within_supply setup) (h.orderly.quiet hp) i' x
  have hfate := Pool.fate_discard (supply setup) (h.lasts hp) i' x
  unfold Host.giveUp withPool
  rw [hp]
  refine .back hp hfate hstays.host fun hunfit => ?_
  have hparted := h.part hp hout (h.discarded hp hout hafter) (hstays.host.pools_insert _ _)
    (hfate.held hunfit) hstays.host.nextInstance
  exact hafter.id ▸ ((hparted.settlePool id).ended i.id (Set.mem_insert _ _)).1

end Lends

end Host

end ContractHost
