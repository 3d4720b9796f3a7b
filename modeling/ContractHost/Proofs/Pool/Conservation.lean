import ContractHost.Proofs.Pool.Books
import ContractHost.Proofs.Pool.Work
import Mathlib.Data.UInt

/-!
# No instance is lost

Every instance that was made for a pool and has not ended is in one place: it is ready, or somebody
has it.  That holds in every run.

The size that a pool counts is the number of these places, and of the removals that the control task
has still to hear of: an instance that ended because it failed is taken off the count only then.  A
control task that has ended hears of no removal, so the size is right only as long as it lasts, or
until the pool is shut down.

## Main definitions

* `Scene.checkedOut`, `Scene.apart`, `Scene.total` — what users have, in and outside the pool.
* `Scene.Conserved` — no instance is lost, or in two places, and the size counts them.
* `Scene.Invariant` — what every action keeps.

## Main results

* `Scene.Step.invariant` — a single action keeps the invariant.
* `Scene.Reachable.invariant` — **it holds in every run**, and nothing is lost while the control
  task lasts.
* `Scene.Reachable.exists_size_ne` — **once the control task of an open pool has ended, the size
  goes wrong.**
-/

namespace ContractHost

namespace Scene

variable {σ : Type}

/-- The instances of the pool that somebody has: a caller that was answered, or a user. -/
def checkedOut (sc : Scene σ) : List Instance :=
  sc.pool.taken ++ sc.out.filter (!·.detached)

/-- The instances outside the pool. -/
def apart (sc : Scene σ) : List Instance :=
  sc.out.filter (·.detached)

/-- How many removals the control task has still to hear of. -/
def removals (sc : Scene σ) : Nat :=
  sc.pool.signals.count .remove

/-- What the size should be. -/
def total (sc : Scene σ) : Nat :=
  sc.pool.ready.length + sc.checkedOut.length + sc.removals

/-- No instance is lost. -/
structure Conserved (sc : Scene σ) : Prop where
  /-- Every living instance is ready, or with somebody, or outside the pool. -/
  places : sc.world.live.Perm ((sc.pool.ready ++ (sc.checkedOut ++ sc.apart)).map (·.id))
  /-- None of them is in two places, or twice in one. -/
  nodup : ((sc.pool.ready ++ (sc.checkedOut ++ sc.apart)).map (·.id)).Nodup
  /-- The size counts those of the pool, and the removals to come. -/
  size : sc.pool.size = UInt32.ofNat sc.total

/-- A property that an instance keeps in use. -/
def Lasting (q : Instance → Bool) : Prop :=
  ∀ {i i' : Instance}, i.After i' → q i' = q i

/-- How many instances of the pool are with users. -/
def outside (sc : Scene σ) : Nat :=
  sc.out.countP (!·.detached)

/-- What every action keeps, where the removals of so many instances were not heard of. -/
structure Invariant (s : NumberedSupply σ) (lost : Nat) (sc : Scene σ) : Prop where
  /-- The control task is where it should be. -/
  steady : sc.pool.Steady
  /-- The books are in order. -/
  sound : sc.pool.Sound s sc.out (sc.outside + sc.removals + lost) sc.world

namespace Invariant

variable {s : NumberedSupply σ} {lost : Nat} {sc : Scene σ}

theorem countP_out {l r : List Instance} {i : Instance} (hout : sc.out = l ++ i :: r)
    (q : Instance → Bool) : sc.out.countP q = (l ++ r).countP q + if q i then 1 else 0 := by
  rw [hout, List.countP_append, List.countP_append, List.countP_cons]
  omega

/-- A user who parts with an instance of the pool has one less of them. -/
theorem outside_of_pooled {l r : List Instance} {i : Instance} (hout : sc.out = l ++ i :: r)
    (hpooled : i.detached = false) : sc.outside = (l ++ r).countP (!·.detached) + 1 := by
  unfold outside
  rw [countP_out hout, hpooled]
  rfl

/-- The pool and its users together have what is ready, checked out, and outside the pool. -/
theorem held_append_out (sc : Scene σ) :
    (sc.pool.held ++ sc.out).Perm (sc.pool.ready ++ (sc.checkedOut ++ sc.apart)) := by
  -- users hold instances of the pool and instances outside it
  have hout : sc.out.Perm (sc.out.filter (!·.detached) ++ sc.out.filter (·.detached)) := by
    have hfilter := List.filter_append_perm (fun i : Instance => !i.detached) sc.out
    simp only [Bool.not_not] at hfilter
    exact hfilter.symm
  unfold Pool.held checkedOut apart
  simp only [List.append_assoc]
  exact (hout.append_left _).append_left _

theorem held_length (sc : Scene σ) :
    sc.pool.held.length + (sc.outside + sc.removals) = sc.total := by
  unfold Pool.held total checkedOut outside
  simp only [List.length_append, List.countP_eq_length_filter]
  omega

/-- The size counts the places, the removals to come, and those that were not heard of. -/
theorem size_eq (h : sc.Invariant s lost) : sc.pool.size = UInt32.ofNat (sc.total + lost) := by
  rw [h.sound.size, Pool.tally_true, ← held_length]
  exact congrArg UInt32.ofNat (Nat.add_assoc _ _ _).symm

/-- Every living instance is in one place. -/
theorem places (h : sc.Invariant s lost) :
    sc.world.live.Perm ((sc.pool.ready ++ (sc.checkedOut ++ sc.apart)).map (·.id)) := by
  have hcount : sc.world.live.Perm ((sc.pool.held ++ sc.out).map (·.id)) := by
    refine List.perm_iff_count.mpr fun n => ?_
    rw [h.sound.count, List.count_eq_countP, List.countP_map, List.countP_append]
    rfl
  exact hcount.trans ((held_append_out sc).map (·.id))

/-- No instance is lost if the size counts the places. -/
theorem conserved (h : sc.Invariant s lost) (hsize : sc.pool.size = UInt32.ofNat sc.total) :
    sc.Conserved :=
  ⟨h.places, h.places.nodup_iff.mp h.sound.proper.nodup, hsize⟩

/-! ### Users -/

/-- Moving instances between the pool and its users, and telling the control task nothing of
removals, keeps the invariant. -/
theorem move (h : sc.Invariant s lost) {pool : Pool} {out : List Instance} (hsteady : pool.Steady)
    (hplace : ∀ q, Lasting q →
      sc.pool.tally q + sc.out.countP q = pool.tally q + out.countP q)
    (hpooled : pool.tally (·.detached) = 0)
    (hremovals : pool.signals.count .remove = sc.pool.signals.count .remove)
    (hsize : pool.size = sc.pool.size) : Invariant s lost { sc with pool, out } := by
  -- what goes from the pool to its users, or back, belongs to the pool
  have hplaces : sc.pool.tally (fun _ => true) + sc.outside =
      pool.tally (fun _ => true) + out.countP (!·.detached) := by
    rw [Pool.tally_true_of_pooled h.sound.pooled, Pool.tally_true_of_pooled hpooled]
    exact hplace _ fun hafter => by rw [hafter.detached]
  refine ⟨hsteady, h.sound.move (fun n => hplace _ fun hafter => by rw [hafter.id]) hpooled ?_
    hsize⟩
  show _ = _ + (out.countP (!·.detached) + pool.signals.count .remove + lost)
  rw [hremovals]
  dsimp only [removals]
  omega

/-- A pool that holds what it held before, and tells the control task nothing of removals, has the
invariant that it had. -/
theorem stay (h : sc.Invariant s lost) {pool : Pool} (hsteady : pool.Steady)
    (htally : ∀ q, pool.tally q = sc.pool.tally q)
    (hremovals : pool.signals.count .remove = sc.pool.signals.count .remove)
    (hsize : pool.size = sc.pool.size) : Invariant s lost { sc with pool } :=
  h.move hsteady (fun q _ => by rw [htally]) (by rw [htally]; exact h.sound.pooled) hremovals hsize

theorem acquire (h : sc.Invariant s lost) :
    Invariant s lost { sc with pool := sc.pool.acquire.2 } := by
  have hsteady := h.steady.acquire
  have htally := fun q => Pool.tally_acquire q sc.pool
  cases hclosed : sc.pool.closed with
  | true =>
    rw [Pool.acquire_closed hclosed] at hsteady htally ⊢
    exact h.stay hsteady htally rfl rfl
  | false =>
    obtain hnone | ⟨permits, i, rest, hpermits, hready⟩ := sc.pool.takes_or_not
    · rw [Pool.acquire_empty hclosed hnone] at hsteady htally ⊢
      have hgrow : Signal.remove ∉ [Signal.grow] := by decide
      exact h.stay hsteady htally (Pool.count_signal _ hgrow) (Pool.size_signal _ _)
    · rw [Pool.acquire_ready hclosed hpermits hready] at hsteady htally ⊢
      exact h.stay hsteady htally rfl rfl

theorem cancel (h : sc.Invariant s lost) (ticket : Ticket) :
    Invariant s lost { sc with pool := sc.pool.cancel ticket } := by
  have horders := Pool.orders_cancel sc.pool ticket
  refine h.stay (h.steady.cancel ticket) (fun q => Pool.tally_cancel q sc.pool ticket)
    (congrArg (List.count _ ·.1) horders) ?_
  obtain heq | ⟨l, since, r, -, heq⟩ := sc.pool.cancel_cases ticket
  · rw [heq]
  · rw [heq]
    exact Pool.size_grant _

theorem requestReset (h : sc.Invariant s lost) :
    Invariant s lost { sc with pool := sc.pool.requestReset.2 } := by
  have hremove : Signal.remove ∉ [Signal.reset sc.pool.nextRequest] := by simp
  exact h.stay h.steady.requestReset (fun q => Pool.tally_signal q sc.pool _)
    (Pool.count_signal _ hremove) (Pool.size_signal _ _)

theorem requestShutdown (h : sc.Invariant s lost) :
    Invariant s lost { sc with pool := sc.pool.requestShutdown } := by
  have hsteady := h.steady.requestShutdown
  have htally := fun q => Pool.tally_requestShutdown q sc.pool
  cases hclosed : sc.pool.closed with
  | true =>
    rw [Pool.requestShutdown_closed hclosed]
    exact h
  | false =>
    rw [Pool.requestShutdown_open hclosed] at hsteady htally ⊢
    exact h.stay hsteady htally (Pool.count_signal _ (by decide)) (Pool.size_signal _ _)

/-- An instance outside the pool ends. -/
theorem endApart (h : sc.Invariant s lost) {l r : List Instance} {i : Instance} {y : Census σ}
    (hout : sc.out = l ++ i :: r) (hdetached : i.detached = true) (hproper : y.Proper s)
    (hlive : y.live = sc.world.live.erase i.id) :
    Invariant s lost { sc with out := l ++ r, world := y } := by
  have houtside : (l ++ r).countP (!·.detached) = sc.outside := by
    unfold outside
    rw [countP_out hout, hdetached]
    rfl
  refine ⟨h.steady, h.sound.leave [i] hproper (fun n => ?_) (fun n => ?_) h.sound.pooled ?_⟩
  · rw [hlive, List.count_erase, List.countP_singleton]
  · rw [countP_out hout, List.countP_singleton]
    exact (Nat.add_assoc _ _ _).symm
  · rw [h.sound.size, ← houtside]
    rfl

/-- An instance of a pool that is shut down ends, and is taken off the size at once. -/
theorem endClosed (h : sc.Invariant s lost) {l r : List Instance} {i : Instance} {y : Census σ}
    (hout : sc.out = l ++ i :: r) (hpooled : i.detached = false) (hproper : y.Proper s)
    (hlive : y.live = sc.world.live.erase i.id) :
    Invariant s lost ⟨{ sc.pool with size := sc.pool.size - 1 }, l ++ r, y⟩ := by
  have houtside := outside_of_pooled hout hpooled
  refine ⟨h.steady.congr rfl le_rfl fun _ => id,
    h.sound.leave [i] hproper (fun n => ?_) (fun n => ?_) h.sound.pooled ?_⟩
  · rw [hlive, List.count_erase, List.countP_singleton]
  · rw [countP_out hout, List.countP_singleton]
    exact (Nat.add_assoc _ _ _).symm
  · show sc.pool.size - 1 =
      UInt32.ofNat (sc.pool.tally _ + ((l ++ r).countP _ + sc.removals + lost))
    rw [h.sound.size, houtside, Nat.add_right_comm _ 1, Nat.add_right_comm _ 1,
      ← Nat.add_assoc (Pool.tally _ _), UInt32.ofNat_add _ 1]
    exact UInt32.add_sub_cancel _ _

/-- An instance of an open pool ends.  It stays in the count until the control task hears of its
removal, and for ever if the control task has ended. -/
theorem endReplaced (h : sc.Invariant s lost) {l r : List Instance} {i : Instance} {y : Census σ}
    (hout : sc.out = l ++ i :: r) (hpooled : i.detached = false) (hopen : sc.pool.closed = false)
    (hproper : y.Proper s) (hlive : y.live = sc.world.live.erase i.id) :
    ∃ lost', Invariant s lost' ⟨sc.pool.signal [.remove, .add], l ++ r, y⟩ ∧
      (lost' = lost ∨ sc.pool.control = .ended) := by
  have houtside := outside_of_pooled hout hpooled
  have hsteady := h.steady.signal (l := [.remove, .add]) (by decide) fun _ => hopen
  -- one removal more is to be heard of, or will not be
  have hleave {lost' : Nat} (hsum : (sc.pool.signal [.remove, .add]).signals.count .remove + lost'
      = sc.removals + lost + 1) :
      Invariant s lost' ⟨sc.pool.signal [.remove, .add], l ++ r, y⟩ := by
    refine ⟨hsteady, h.sound.leave [i] hproper (fun n => ?_) (fun n => ?_) ?_ ?_⟩
    · rw [hlive, List.count_erase, List.countP_singleton]
    · rw [countP_out hout, List.countP_singleton, Pool.tally_signal]
      exact (Nat.add_assoc _ _ _).symm
    · rw [Pool.tally_signal]
      exact h.sound.pooled
    · show (sc.pool.signal _).size = UInt32.ofNat ((sc.pool.signal _).tally _ +
        ((l ++ r).countP _ + List.count _ (sc.pool.signal _).signals + lost'))
      rw [Pool.size_signal, Pool.tally_signal, h.sound.size, houtside, Nat.add_assoc _ _ lost',
        hsum]
      exact congrArg UInt32.ofNat (by omega)
  by_cases hended : sc.pool.control = .ended
  · refine ⟨lost + 1, hleave ?_, .inr hended⟩
    have hsame : sc.pool.signal [.remove, .add] = sc.pool := if_pos hended
    rw [hsame]
    rfl
  · refine ⟨lost, hleave ?_, .inl rfl⟩
    rw [Pool.signal_of_awake hended, List.count_append]
    exact Nat.add_right_comm _ _ _

/-- An instance that ends without the pool, or in a pool that is shut down, is not lost. -/
theorem kept {sc' : Scene σ} (h : sc'.Invariant s lost) (p : Pool) :
    ∃ lost', sc'.Invariant s lost' ∧
      (lost' = lost ∨ p.control = .ended ∧ p.closed = false) :=
  ⟨lost, h, .inl rfl⟩

theorem release (h : sc.Invariant s lost) {l r : List Instance} {i i' : Instance}
    (hout : sc.out = l ++ i :: r) (hafter : i.After i') :
    ∃ lost', Invariant s lost'
        ({ sc with out := l ++ r }.act (sc.pool.release s.counted i' sc.world)) ∧
      (lost' = lost ∨ sc.pool.control = .ended ∧ sc.pool.closed = false) := by
  have hproper := h.sound.proper.erase (s.next_teardown i'.unbind sc.world.host) i'.unbind.id
  have hid : i'.unbind.id = i.id := hafter.id
  have hlive : (s.counted.teardown i'.unbind sc.world).live = sc.world.live.erase i.id :=
    congrArg sc.world.live.erase hid
  have hbefore := hafter.detached.symm
  -- it belongs to no pool, the pool is closed, it is replaced, or it comes back
  rcases Pool.release_cases s.counted sc.pool i' sc.world with
    ⟨hdetached, heq⟩ | ⟨hpooled, hclosed, heq⟩ | ⟨hpooled, hopen, heq⟩ | ⟨hpooled, hopen, heq⟩
  · rw [heq]
    exact (h.endApart hout (hbefore.trans hdetached) hproper hlive).kept _
  · rw [heq]
    exact (h.endClosed hout (hbefore.trans hpooled) hproper hlive).kept _
  · rw [heq]
    obtain ⟨lost', hlost, hsame | hended⟩ :=
      h.endReplaced hout (hbefore.trans hpooled) hopen hproper hlive
    · exact ⟨lost', hlost, .inl hsame⟩
    · exact ⟨lost', hlost, .inr ⟨hended, hopen⟩⟩
  · rw [heq]
    -- it comes back as what it was, but for what it was used for
    have htally : ∀ q, Lasting q →
        (sc.pool.push i'.unbind).tally q = sc.pool.tally q + if q i then 1 else 0 := by
      intro q hq
      have hsame : q i'.unbind = q i := hq ⟨hafter.id, hafter.epoch, hafter.detached⟩
      rw [Pool.tally_push, hsame]
    refine (h.move (h.steady.push _) (fun q hq => ?_) ?_ ?_ (Pool.size_push _ _)).kept _
    · rw [htally q hq, countP_out hout]
      dsimp only
      omega
    · rw [htally _ fun hafter => hafter.detached, h.sound.pooled, hbefore.trans hpooled]
      rfl
    · exact congrArg (List.count _ ·.1) (Pool.orders_push sc.pool i'.unbind)

theorem discard (h : sc.Invariant s lost) {l r : List Instance} {i i' : Instance}
    (hout : sc.out = l ++ i :: r) (hafter : i.After i') :
    ∃ lost', Invariant s lost'
        ({ sc with out := l ++ r }.act (sc.pool.discard s.counted i' sc.world)) ∧
      (lost' = lost ∨ sc.pool.control = .ended ∧ sc.pool.closed = false) := by
  have hproper := h.sound.proper.erase (s.next_drop i' sc.world.host) i'.id
  have hlive : (s.counted.drop i' sc.world).live = sc.world.live.erase i.id :=
    congrArg sc.world.live.erase hafter.id
  have hbefore := hafter.detached.symm
  -- only where it is to be replaced may a signal be lost
  rcases Pool.discard_cases s.counted sc.pool i' sc.world with
    ⟨hdetached, heq⟩ | ⟨hpooled, hclosed, heq⟩ | ⟨hpooled, hopen, heq⟩
  · rw [heq]
    exact (h.endApart hout (hbefore.trans hdetached) hproper hlive).kept _
  · rw [heq]
    exact (h.endClosed hout (hbefore.trans hpooled) hproper hlive).kept _
  · rw [heq]
    obtain ⟨lost', hlost, hsame | hended⟩ :=
      h.endReplaced hout (hbefore.trans hpooled) hopen hproper hlive
    · exact ⟨lost', hlost, .inl hsame⟩
    · exact ⟨lost', hlost, .inr ⟨hended, hopen⟩⟩

theorem claim (h : sc.Invariant s lost) (ticket : Ticket) :
    Invariant s lost { sc with
      pool := (sc.pool.claim ticket).2
      out := sc.out ++ (sc.pool.claim ticket).1.elim [] (·.toOption.toList) } := by
  have htally := fun q => Pool.tally_claim q sc.pool ticket
  refine h.move (h.steady.claim ticket) (fun q _ => ?_) ?_ rfl rfl
  · rw [htally, List.countP_append]
    omega
  · have hpooled := htally (·.detached)
    rw [h.sound.pooled] at hpooled
    omega

theorem spawn (h : sc.Invariant s lost) {i : Instance} {world : Census σ}
    (hcreate : sc.pool.createDetached s.counted sc.world = (.ok i, world)) :
    Invariant s lost { sc with out := sc.out ++ [i], world } := by
  unfold Pool.createDetached at hcreate
  split at hcreate
  · rename_i i₀ world hmade
    cases hcreate
    obtain ⟨hproper, hlive, _⟩ := h.sound.proper.create_ok hmade
    -- it is checked out, but it is none of those that the pool counts
    have houtside : (sc.out ++ [{ i₀ with detached := true }]).countP
        (fun i : Instance => !i.detached) = sc.outside := by
      rw [List.countP_append]
      rfl
    refine ⟨h.steady, hproper, fun n => ?_, h.sound.pooled, ?_⟩
    · rw [hlive, List.count_cons, h.sound.count, List.countP_append, List.countP_singleton]
      exact Nat.add_assoc _ _ _
    · rw [h.sound.size, ← houtside]
      rfl
  · cases hcreate

theorem spawnFailed (h : sc.Invariant s lost) {e : ExecutionError} {world : Census σ}
    (hcreate : sc.pool.createDetached s.counted sc.world = (.error e, world)) :
    Invariant s lost { sc with world } := by
  unfold Pool.createDetached at hcreate
  split at hcreate
  · cases hcreate
  · rename_i e' world hmade
    cases hcreate
    obtain ⟨hproper, hlive⟩ := h.sound.proper.create_error hmade
    exact ⟨h.steady, { h.sound with proper := hproper, count := fun n => hlive ▸ h.sound.count n }⟩

/-! ### The control task -/

/-- Work in the books.  A control task that ends does not hear of the removals that it has still to
be told of. -/
theorem work {r : Pool × Census σ} {lost' : Nat} (hsteady : r.1.Steady)
    (hsound : r.1.Sound s sc.out (sc.outside + sc.removals + lost) r.2)
    (hremovals : r.1.signals.count .remove + lost' = sc.removals + lost) :
    (sc.act r).Invariant s lost' := by
  refine ⟨hsteady, ?_⟩
  show Pool.Sound _ _ (sc.outside + r.1.signals.count .remove + lost') _ _
  rw [Nat.add_assoc, hremovals, ← Nat.add_assoc]
  exact hsound

theorem obey (h : sc.Invariant s lost) {signal : Signal} {rest : List Signal}
    (hidle : sc.pool.control = .idle) (hsignals : sc.pool.signals = signal :: rest) :
    ∃ lost', Invariant s lost'
        (sc.act ({ sc.pool with signals := rest }.obey s.counted sc.world signal)) ∧
      (lost' = lost ∨ signal = .grow ∧
        ({ sc.pool with signals := rest }.obey s.counted sc.world signal).1.control = .ended ∧
          sc.pool.shouldGrow = none) := by
  have hsteady := (h.steady.next hsignals).obey (s := s.counted) hidle sc.world signal
  have hsound : { sc.pool with signals := rest }.Sound s sc.out
      (sc.outside + sc.removals + lost) sc.world := h.sound.congr (fun _ => rfl) rfl
  have hremovals : sc.removals = rest.count .remove + if signal = .remove then 1 else 0 := by
    unfold removals
    rw [hsignals, List.count_cons]
    simp only [beq_iff_eq]
  -- a removal takes from the size the place of an instance that has gone before
  by_cases hremove : signal = .remove
  · subst hremove
    refine ⟨lost, ⟨hsteady, hsound.proper, hsound.count, hsound.pooled, ?_⟩, .inl rfl⟩
    show sc.pool.size - 1 =
      UInt32.ofNat (sc.pool.tally _ + (sc.outside + rest.count .remove + lost))
    rw [h.sound.size, hremovals, if_pos rfl, ← Nat.add_assoc sc.outside, Nat.add_right_comm _ 1,
      ← Nat.add_assoc (Pool.tally _ _), UInt32.ofNat_add _ 1]
    exact UInt32.add_sub_cancel _ _
  · rw [if_neg hremove, Nat.add_zero] at hremovals
    have hobeyed := hsound.obey hremove
    by_cases hended :
        ({ sc.pool with signals := rest }.obey s.counted sc.world signal).1.control = .ended
    · -- nothing is told any more, and no removal was to be told if the end was asked for
      have hnone := hsteady.deaf hended
      obtain hsame | ⟨-, -, rfl | ⟨hgrows, hgrow⟩⟩ :=
        Pool.control_obey (s := s.counted) { sc.pool with signals := rest } sc.world signal
      · rw [hended, hidle] at hsame
        exact Control.noConfusion hsame
      · have horder := (List.pairwise_cons.mp (hsignals ▸ h.steady.order)).1
        have hquiet : sc.removals = 0 := by
          rw [hremovals]
          exact List.count_eq_zero.mpr fun hm => horder _ hm rfl rfl
        refine ⟨lost, work hsteady hobeyed ?_, .inl rfl⟩
        rw [hnone, hquiet]
        rfl
      · refine ⟨sc.removals + lost, work hsteady hobeyed ?_, .inr ⟨hgrows, hended, hgrow⟩⟩
        rw [hnone]
        exact Nat.zero_add _
    · refine ⟨lost, work hsteady hobeyed ?_, .inl rfl⟩
      rw [Pool.signals_obey _ _ _ hended, hremovals]

theorem tick (h : sc.Invariant s lost) (hidle : sc.pool.control = .idle) :
    ∃ lost', Invariant s lost' (sc.act (sc.pool.tick s.counted sc.world)) ∧
      (lost' = lost ∨ (sc.pool.tick s.counted sc.world).1.control = .ended ∧
        sc.pool.shouldGrow = none) := by
  have hawake : sc.pool.control ≠ .ended := by
    rw [hidle]
    exact nofun
  have hsteady := h.steady.tick (s := s.counted) hidle sc.world
  obtain ⟨-, hsignals⟩ | ⟨hended, hnone, hgrow⟩ :=
    Pool.control_tick (s := s.counted) hawake sc.world
  · refine ⟨lost, work hsteady h.sound.tick ?_, .inl rfl⟩
    rw [hsignals]
    rfl
  · refine ⟨sc.removals + lost, work hsteady h.sound.tick ?_, .inr ⟨hended, hgrow⟩⟩
    rw [hnone]
    exact Nat.zero_add _

theorem goOn (h : sc.Invariant s lost) :
    Invariant s lost (sc.act (sc.pool.goOn s.counted sc.world)) := by
  refine work (h.steady.goOn _) h.sound.goOn ?_
  rw [Pool.signals_goOn]
  rfl

end Invariant

/-- **A single action keeps the invariant.**  The removal of an instance is not heard of only where
the control task has ended, or ends because it cannot find out whether the pool should grow. -/
theorem Step.invariant {s : NumberedSupply σ} {lost : Nat} {sc sc' : Scene σ}
    (hstep : Step s sc sc') (h : sc.Invariant s lost) :
    ∃ lost', sc'.Invariant s lost' ∧ (lost' = lost ∨ sc'.pool.control = .ended ∧
      (sc.pool.control = .ended ∧ sc.pool.closed = false ∨
        sc.pool.control = .idle ∧ sc.pool.shouldGrow = none)) := by
  have hsteady := hstep.steady h.steady
  have hstill := hstep.ended
  -- most actions lose nothing
  have hkept (hsame : sc'.Invariant s lost) : ∃ lost', sc'.Invariant s lost' ∧ (lost' = lost ∨
      sc'.pool.control = .ended ∧ (sc.pool.control = .ended ∧ sc.pool.closed = false ∨
        sc.pool.control = .idle ∧ sc.pool.shouldGrow = none)) :=
    ⟨lost, hsame, .inl rfl⟩
  cases hstep with
  | acquire => exact hkept h.acquire
  | cancel ticket => exact hkept (h.cancel ticket)
  | resume hp =>
    rename_i l r ticket since
    refine hkept (h.stay hsteady (fun q => Pool.tally_resume q { sc.pool with woken := l ++ r } _ _)
      ?_ (Pool.size_resume _ _ _))
    exact congrArg (List.count _ ·.1)
      (Pool.orders_resume { sc.pool with woken := l ++ r } ticket since)
  | claim ticket => exact hkept (h.claim ticket)
  | release hout hafter =>
    obtain ⟨lost', hlost, hsame | hended⟩ := h.release hout hafter
    · exact ⟨lost', hlost, .inl hsame⟩
    · exact ⟨lost', hlost, .inr ⟨hstill hended.1, .inl hended⟩⟩
  | discard hout hafter =>
    obtain ⟨lost', hlost, hsame | hended⟩ := h.discard hout hafter
    · exact ⟨lost', hlost, .inl hsame⟩
    · exact ⟨lost', hlost, .inr ⟨hstill hended.1, .inl hended⟩⟩
  | spawn hcreate => exact hkept (h.spawn hcreate)
  | spawnFailed hcreate => exact hkept (h.spawnFailed hcreate)
  | close hout hafter hdetached =>
    rename_i l r i i'
    have hproper := h.sound.proper.erase (s.next_teardown i' sc.world.host) i'.id
    exact hkept
      (h.endApart hout hdetached hproper (congrArg sc.world.live.erase hafter.id))
  | requestReset => exact hkept h.requestReset
  | requestShutdown => exact hkept h.requestShutdown
  | obey hidle hsignals =>
    obtain ⟨lost', hlost, hsame | ⟨-, hended, hgrow⟩⟩ := h.obey hidle hsignals
    · exact ⟨lost', hlost, .inl hsame⟩
    · exact ⟨lost', hlost, .inr ⟨hended, .inr ⟨hidle, hgrow⟩⟩⟩
  | tick hidle =>
    obtain ⟨lost', hlost, hsame | ⟨hended, hgrow⟩⟩ := h.tick hidle
    · exact ⟨lost', hlost, .inl hsame⟩
    · exact ⟨lost', hlost, .inr ⟨hended, .inr ⟨hidle, hgrow⟩⟩⟩
  | goOn => exact hkept h.goOn
  | wait milliseconds => exact hkept (h.stay hsteady (fun _ => rfl) rfl rfl)
  | advance seconds => exact hkept (h.stay hsteady (fun _ => rfl) rfl rfl)
  | elsewhere hnext => exact hkept ⟨h.steady, h.sound.later hnext⟩

theorem Invariant.create {s : NumberedSupply σ} {contract : ContractId} {program : Module}
    {settings : PoolTerms} {host : σ} {p : Pool} {world : Census σ}
    (hcreate : Pool.create s.counted contract program settings ⟨host, []⟩ = (.ok p, world)) :
    Invariant s 0 ⟨p, [], world⟩ := by
  have hsteady := Pool.Steady.create hcreate
  obtain ⟨trial, y, htrial, rfl, rfl⟩ := Pool.create_eq_ok hcreate
  obtain ⟨hproper, hlive, _⟩ := (Census.Proper.empty s host).create_ok htrial
  have hempty : ({ contract, program, settings } : Pool).Sound s [] 0
      (s.counted.teardown trial y) := by
    refine ⟨hproper.erase (s.next_teardown trial y.host) trial.id, fun n => ?_, rfl, rfl⟩
    show List.count n (y.live.erase trial.id) = 0
    rw [hlive, List.erase_cons_head]
    rfl
  -- the pool is empty after the trial, and grows from there
  have hgrow := hempty.grow settings.minSize
  have horders := Pool.orders_grow (s := s.counted) { contract, program, settings }
    settings.minSize (s.counted.teardown trial y)
  generalize Pool.grow s.counted { contract, program, settings } settings.minSize
    (s.counted.teardown trial y) = g at hsteady hgrow horders ⊢
  have hsignals : g.1.signals = [] := congrArg (·.1) horders
  refine ⟨hsteady, ?_⟩
  show Pool.Sound s [] (0 + g.1.signals.count .remove + 0) _ g.2
  rw [hsignals]
  exact hgrow.congr (fun _ => rfl) rfl

section

variable {s : NumberedSupply σ} {contract : ContractId} {program : Module} {settings : PoolTerms}
variable {sc : Scene σ}

/-- **The invariant holds in every run.** -/
theorem Reachable.invariant (h : Reachable s contract program settings sc) :
    ∃ lost, sc.Invariant s lost := by
  induction h with
  | create hcreate => exact ⟨0, Invariant.create hcreate⟩
  | step _ hstep ih =>
    obtain ⟨lost, hlost⟩ := ih
    obtain ⟨lost', hlost', -⟩ := hstep.invariant hlost
    exact ⟨lost', hlost'⟩

/-- **Every removal is heard of** as long as the control task lasts. -/
theorem Reachable.invariant_of_lasting (h : Reachable s contract program settings sc)
    (hmeasurable : settings.isMeasurable = true)
    (hfits : ∀ {sc : Scene σ}, Reachable s contract program settings sc →
      sc.pool.shouldGrow ≠ none) : sc.Invariant s 0 := by
  induction h with
  | create hcreate => exact Invariant.create hcreate
  | step hreach hstep ih =>
    obtain ⟨lost, hlost, rfl | ⟨-, ⟨hended, hopen⟩ | ⟨-, hgrow⟩⟩⟩ := hstep.invariant ih
    · exact hlost
    · have hclosed := hreach.closed_of_ended hmeasurable hfits hended
      exact absurd (hopen.symm.trans hclosed) Bool.false_ne_true
    · exact absurd hgrow (hfits hreach)

/-- Every removal has been heard of, or will be, as long as the control task has not ended. -/
theorem Reachable.invariant_of_awake (h : Reachable s contract program settings sc)
    (hawake : sc.pool.control ≠ .ended) : sc.Invariant s 0 := by
  induction h with
  | create hcreate => exact Invariant.create hcreate
  | step _ hstep ih =>
    obtain ⟨lost, hlost, rfl | ⟨hended, -⟩⟩ := hstep.invariant (ih (mt hstep.ended hawake))
    · exact hlost
    · exact absurd hended hawake

/-! ### A control task that has ended -/

/-- All who were answered take their answers. -/
theorem Reachable.claimAll (h : Reachable s contract program settings sc) :
    Reachable s contract program settings
      ⟨{ sc.pool with served := [] }, sc.out ++ sc.pool.taken, sc.world⟩ := by
  obtain ⟨p, out, world⟩ := sc
  obtain ⟨served, hserved⟩ : ∃ served, p.served = served := ⟨_, rfl⟩
  induction served generalizing p out with
  | nil =>
    have hsame : { p with served := [] } = p := by rw [← hserved]
    unfold Pool.taken
    rw [hsame, hserved, List.filterMap_nil, List.append_nil]
    exact h
  | cons a rest ih =>
    -- the first of them takes its answer
    have hnext := h.step (Step.claim _ a.1)
    rw [Pool.claim_cons hserved] at hnext
    have hall := ih { p with served := rest } _ hnext rfl
    have htaken : p.taken = a.2.toOption.toList ++ rest.filterMap (·.2.toOption) := by
      unfold Pool.taken
      rw [hserved, List.filterMap_cons]
      cases a.2 <;> rfl
    rw [htaken, ← List.append_assoc]
    exact hall

/-- Whoever asks an open pool, or is next to be answered, can have an instance that is ready. -/
theorem Reachable.exists_answered (h : Reachable s contract program settings sc)
    (hopen : sc.pool.closed = false) (hended : sc.pool.control = .ended)
    (hready : sc.pool.ready ≠ []) :
    ∃ p, Reachable s contract program settings ⟨p, sc.out, sc.world⟩ ∧ p.taken ≠ [] ∧
      p.closed = false ∧ p.control = .ended ∧ p.ready.length + 1 = sc.pool.ready.length := by
  obtain ⟨i, rest, hready⟩ := List.exists_cons_of_ne_nil hready
  have hanswered {p : Pool} {ticket : Ticket}
      (hserved : p.served = sc.pool.served ++ [(ticket, .ok i)]) : p.taken ≠ [] := by
    rw [Pool.taken_of_served hserved]
    exact List.append_ne_nil_of_right_ne_nil _ (List.cons_ne_nil _ _)
  cases hpermits : sc.pool.permits with
  | succ permits =>
    have hasked := h.step (Step.acquire _)
    rw [Pool.acquire_ready hopen hpermits hready] at hasked
    exact ⟨_, hasked, hanswered rfl, hopen, hended, hready ▸ rfl⟩
  | zero =>
    -- somebody has a claim to what is ready, and it is not the control task
    have hlength := h.matched.ready hopen
    rw [hready, hpermits, List.length_cons] at hlength
    have hnone := (h.steady.of_claims (by rw [hended]; rfl)).2
    obtain ⟨w, woken, hwoken⟩ : ∃ w woken, sc.pool.woken = w :: woken :=
      List.exists_cons_of_length_pos (by omega)
    cases w with
    | control =>
      rw [hwoken, List.count_cons_self] at hnone
      exact absurd hnone (Nat.succ_ne_zero _)
    | caller ticket since =>
      have hresumed := h.step (Step.resume (l := []) hwoken)
      rw [Pool.resume_ready (p := { sc.pool with woken := [] ++ woken }) hopen hready] at hresumed
      exact ⟨_, hresumed, hanswered rfl, hopen, hended, hready ▸ rfl⟩

/-- **Once the control task of an open pool has ended, the size goes wrong**, unless it is zero: an
instance that somebody gives up stays in the count. -/
theorem Reachable.exists_size_ne (h : Reachable s contract program settings sc)
    (hopen : sc.pool.closed = false) (hended : sc.pool.control = .ended)
    (hsome : sc.pool.size ≠ 0) :
    ∃ sc' : Scene σ, Reachable s contract program settings sc' ∧
      sc'.pool.size ≠ UInt32.ofNat sc'.total := by
  by_contra hall
  have hsizes {sc' : Scene σ} (hsc' : Reachable s contract program settings sc') :
      sc'.pool.size = UInt32.ofNat sc'.total := by_contra fun hne => hall ⟨sc', hsc', hne⟩
  -- a user who has an instance of such a pool gives it up
  have hnone {sc' : Scene σ} (hsc' : Reachable s contract program settings sc')
      (hopen' : sc'.pool.closed = false) (hended' : sc'.pool.control = .ended) :
      sc'.outside = 0 := by
    by_contra hne
    obtain ⟨i, hi, hpooled⟩ := List.countP_pos_iff.mp (Nat.pos_of_ne_zero hne)
    obtain ⟨l, r, hout⟩ := List.append_of_mem hi
    have hgone := hsc'.step (Step.discard hout ⟨rfl, rfl, rfl⟩)
    have hbefore := hsizes hsc'
    have hafter := hsizes hgone
    have houtside := Invariant.outside_of_pooled hout (Bool.not_eq_true' _ ▸ hpooled)
    unfold act at hafter
    rw [Pool.discard_ended hopen' hended'] at hafter
    dsimp only at hafter
    -- the size is the same before and after, and cannot be both numbers
    have hmod := congrArg UInt32.toNat (hbefore.symm.trans hafter)
    rw [UInt32.toNat_ofNat', UInt32.toNat_ofNat', ← Invariant.held_length,
      ← Invariant.held_length, houtside] at hmod
    dsimp only [outside, removals] at hmod
    omega
  -- nobody is answered either, for it would be a user then
  have hunanswered {sc' : Scene σ} (hsc' : Reachable s contract program settings sc')
      (hopen' : sc'.pool.closed = false) (hended' : sc'.pool.control = .ended) :
      sc'.pool.taken = [] := by
    have hempty := hnone hsc'.claimAll hopen' hended'
    obtain ⟨lost, hlost⟩ := hsc'.invariant
    refine List.eq_nil_iff_forall_not_mem.mpr fun i hi => ?_
    have hpooled := List.countP_eq_zero.mp hlost.sound.pooled i (List.mem_append_right _ hi)
    exact List.countP_eq_zero.mp hempty i (List.mem_append_right _ hi)
      (Bool.not_eq_true' _ ▸ eq_false_of_ne_true hpooled)
  have hready : sc.pool.ready = [] := by
    by_contra hne
    obtain ⟨p, hp, htaken, hopen', hended', -⟩ := h.exists_answered hopen hended hne
    exact htaken (hunanswered hp hopen' hended')
  refine hsome ?_
  have htotal : sc.total = 0 := by
    rw [← Invariant.held_length, hnone h hopen hended]
    unfold removals Pool.held
    rw [hready, hunanswered h hopen hended, h.steady.deaf hended]
    rfl
  rw [hsizes h, htotal]
  rfl

end

end Scene

/-! ### Settings -/

/-- The settings that are accepted. -/
theorem PoolConfig.validate_eq_ok_iff (c : PoolConfig) :
    c.validate = .ok () ↔
      c.maxSize ≠ 0 ∧ c.minSize ≤ c.maxSize ∧ c.growStep ≠ 0 ∧ c.refreshIntervalSecs ≠ 0 := by
  unfold validate
  split_ifs with hmax hmin hstep hrefresh
  · simp [hmax]
  · simp [UInt32.not_le.mpr hmin]
  · simp [hstep]
  · simp [hrefresh]
  · simp [hmax, hstep, hrefresh, UInt32.not_lt.mp hmin]

end ContractHost
