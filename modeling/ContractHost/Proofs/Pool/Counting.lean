import ContractHost.Proofs.Pool.Run

/-!
# Counting changes nothing

In the runs of a pool births and deaths are counted beside the host.  The counts are there for
proofs only: whatever a pool does on a host it does in the same way on a host with a count, and
leaves the same pool and the same host.  So what is known of runs is known of the pools that hosts
really have.

## Main definitions

* `Census.uncounted` — a result without the count.

## Main results

* `Pool.settle_counted`, `Pool.release_counted`, `Pool.create_counted` and the like — **work on a
  pool is the same with a count and without.**
-/

namespace ContractHost

variable {σ α : Type}

/-- A result without the count. -/
def Census.uncounted (r : α × Census σ) : α × σ :=
  (r.1, r.2.host)

namespace Supply

theorem create_counted (s : Supply σ) (m : Module) (x : Census σ) :
    s.create m x.host = Census.uncounted (s.counted.create m x) := by
  unfold counted Census.uncounted
  dsimp only
  cases s.create m x.host with
  | mk result y => cases result <;> rfl

theorem teardownAll_counted (s : Supply σ) (l : List Instance) (x : Census σ) :
    s.teardownAll l x.host = (s.counted.teardownAll l x).host :=
  List.foldl_hom Census.host fun _ _ => rfl

end Supply

namespace Pool

variable (s : Supply σ)

theorem growOne_counted (p : Pool) (x : Census σ) :
    p.growOne s x.host =
      ((p.growOne s.counted x).1, Census.uncounted (p.growOne s.counted x).2) := by
  unfold growOne
  rw [s.create_counted]
  cases s.counted.create p.program x with
  | mk result y => cases result <;> rfl

theorem growSome_counted (n : Nat) (p : Pool) (x : Census σ) :
    growSome s n p x.host = Census.uncounted (growSome s.counted n p x) := by
  induction n generalizing p x with
  | zero => rfl
  | succ n ih =>
    rw [growSome, growSome, growOne_counted]
    exact ih _ _

theorem growBatch_counted (state : Pool × Census σ) (n : Nat) :
    growBatch s (Census.uncounted state) n = Census.uncounted (growBatch s.counted state n) := by
  obtain ⟨p, x⟩ := state
  unfold growBatch Census.uncounted
  dsimp only
  rw [growOne_counted]
  dsimp only [Census.uncounted]
  rw [growSome_counted]
  rfl

theorem grow_counted (p : Pool) (n : UInt32) (x : Census σ) :
    p.grow s n x.host = Census.uncounted (p.grow s.counted n x) := by
  show List.foldl (growBatch s) (Census.uncounted (p, x)) _ = _
  exact List.foldl_hom Census.uncounted (growBatch_counted s)

theorem shrink_counted (n : Nat) (p : Pool) (x : Census σ) :
    shrink s n p x.host = Census.uncounted (shrink s.counted n p x) := by
  refine shrink_induction
    (P := fun n p x r => shrink s n p x.host = Census.uncounted r) (fun p x => ?_)
    (fun {n p x permits i rest r} hopen hpermits hready hrest => ?_)
    (fun {n p x r} hopen hsome hready hrest => ?_) (fun {n p x} hclosed => ?_)
    (fun {n p x} hopen hnone => ?_) n p x
  · rfl
  · rw [shrink_ready hopen hpermits hready]
    exact hrest
  · rw [shrink_vain hopen hsome hready]
    exact hrest
  · rw [shrink_closed hclosed]
    rfl
  · rw [shrink_blocked hopen hnone]
    rfl

theorem obey_counted (p : Pool) (x : Census σ) (signal : Signal) :
    p.obey s x.host signal = Census.uncounted (p.obey s.counted x signal) := by
  -- counting changes no decision, so both take the same branch
  cases signal with
  | grow =>
    cases hgrow : p.countGrowth.shouldGrow with
    | none =>
      rw [obey_grow_none hgrow, obey_grow_none hgrow]
      rfl
    | some grows =>
      cases grows with
      | false =>
        rw [obey_grow_false hgrow, obey_grow_false hgrow]
        rfl
      | true =>
        rw [obey_grow_true hgrow, obey_grow_true hgrow, grow_counted]
        rfl
  | add => exact grow_counted s p 1 x
  | remove => rfl
  | reset request =>
    rw [obey_reset, obey_reset, s.teardownAll_counted, grow_counted]
    rfl
  | shutdown =>
    rw [obey_shutdown, obey_shutdown, s.teardownAll_counted]
    rfl

theorem tick_counted (p : Pool) (x : Census σ) :
    p.tick s x.host = Census.uncounted (p.tick s.counted x) := by
  cases hgrow : p.shouldGrow with
  | none =>
    rw [tick_none hgrow, tick_none hgrow]
    rfl
  | some grows =>
    cases grows with
    | true =>
      rw [tick_true hgrow, tick_true hgrow, grow_counted]
      rfl
    | false =>
      rw [tick_false hgrow, tick_false hgrow, shrink_counted]
      split <;> rfl

theorem goOn_counted (p : Pool) (x : Census σ) :
    p.goOn s x.host = Census.uncounted (p.goOn s.counted x) := by
  unfold goOn shrinkOn
  cases p.control with
  | idle => rfl
  | ended => rfl
  | shrinking left =>
    dsimp only
    split
    · exact shrink_counted s _ _ x
    · split
      · split
        · exact shrink_counted s _ _ x
        · exact shrink_counted s _ _ (s.counted.teardown _ x)
      · rfl

theorem obeyAll_counted (l : List Signal) (p : Pool) (x : Census σ) :
    obeyAll s l p x.host = Census.uncounted (obeyAll s.counted l p x) := by
  induction l generalizing p x with
  | nil => rfl
  | cons signal rest ih =>
    unfold obeyAll
    split
    · rw [obey_counted]
      exact ih _ _
    · rfl

theorem tickAll_counted (n : Nat) (p : Pool) (x : Census σ) :
    tickAll s n p x.host = Census.uncounted (tickAll s.counted n p x) := by
  induction n generalizing p x with
  | zero => rfl
  | succ n ih =>
    unfold tickAll
    split
    · rw [tick_counted]
      exact ih _ _
    · rfl

theorem settle_counted (p : Pool) (x : Census σ) :
    p.settle s x.host = Census.uncounted (p.settle s.counted x) := by
  unfold settle
  rw [goOn_counted]
  dsimp only [Census.uncounted]
  rw [obeyAll_counted]
  dsimp only [Census.uncounted]
  rw [tickAll_counted]
  rfl

theorem release_counted (p : Pool) (i : Instance) (x : Census σ) :
    p.release s i x.host = Census.uncounted (p.release s.counted i x) := by
  unfold release
  dsimp only
  split
  · rfl
  · split
    · rfl
    · split <;> rfl

theorem discard_counted (p : Pool) (i : Instance) (x : Census σ) :
    p.discard s i x.host = Census.uncounted (p.discard s.counted i x) :=
  rfl

theorem create_counted (c : ContractId) (program : Module) (settings : PoolTerms)
    (x : Census σ) :
    create s c program settings x.host =
      Census.uncounted (create s.counted c program settings x) := by
  unfold create
  rw [s.create_counted]
  cases s.counted.create program x with
  | mk result y =>
    cases result with
    | error e => rfl
    | ok trial =>
      have hgrow := grow_counted s { contract := c, program, settings } settings.minSize
        (s.counted.teardown trial y)
      have hhost : (s.counted.teardown trial y).host = s.teardown trial y.host := rfl
      rw [hhost] at hgrow
      dsimp only [Census.uncounted] at hgrow ⊢
      rw [hgrow]

end Pool

end ContractHost
