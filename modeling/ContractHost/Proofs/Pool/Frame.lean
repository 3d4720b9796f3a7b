import ContractHost.Proofs.Pool.Work
import Mathlib.Order.Nat

/-!
# What work on a pool leaves alone

A pool keeps the contract, the module and the settings that it was created with, whatever is done
with it.  The instances that it holds serve no invocation.  And it reaches its host through the
supply of instances only; so whatever every creation and every end of such an instance keeps of the
host, all work on the pool keeps.

## Main definitions

* `Supply.Within` — every creation and every end of an instance stays within a relation.
* `Supply.Fresh` — new instances are fit for use.
* `Pool.Quiet` — no instance that the pool holds serves an invocation.
* `Pool.Stays` — the label is as before, the pool is quiet, and the host stays within a relation.

## Main results

* `Pool.stays_settle`, `Pool.stays_release`, `Pool.stays_discard`, `Pool.stays_create` — **the frame
  of all work on a pool.**
-/

namespace ContractHost

variable {σ : Type}

/-- Every creation, and every end of an instance that serves no invocation, takes the host from a
state to one that stands in the relation `T` to it. -/
structure Supply.Within (s : Supply σ) (T : σ → σ → Prop) : Prop where
  /-- Doing nothing stays within the relation. -/
  refl : ∀ x, T x x
  /-- Doing one thing after another stays within it. -/
  trans : ∀ {x y z}, T x y → T y z → T x z
  /-- Creation does, whether it succeeds or not. -/
  create : ∀ m x, T x (s.create m x).2
  /-- A new instance serves no invocation. -/
  unbound : ∀ {m x i y}, s.create m x = (.ok i, y) → i.bound = none
  /-- The end after last actions does. -/
  teardown : ∀ {i} x, i.bound = none → T x (s.teardown i x)
  /-- The end at once does. -/
  drop : ∀ i x, T x (s.drop i x)

/-- A new instance serves no invocation, and has not failed. -/
def Supply.Fresh (s : Supply σ) : Prop :=
  ∀ {m x i y}, s.create m x = (.ok i, y) → i.bound = none ∧ i.errors = 0

theorem Supply.Within.teardownAll {s : Supply σ} {T : σ → σ → Prop} (h : s.Within T) :
    ∀ (l : List Instance) (x : σ), (∀ i ∈ l, i.bound = none) → T x (s.teardownAll l x) := by
  intro l
  induction l with
  | nil => intro x _; exact h.refl x
  | cons i l ih =>
    intro x hl
    obtain ⟨hi, hrest⟩ := List.forall_mem_cons.mp hl
    exact h.trans (h.teardown x hi) (ih _ hrest)

namespace Pool

/-- No instance that the pool holds serves an invocation. -/
def Quiet (p : Pool) : Prop :=
  p.tally (·.bound.isSome) = 0

namespace Quiet

variable {p p' : Pool}

/-- Holding less is no louder. -/
theorem mono (h : p.Quiet) (hless : p'.tally (·.bound.isSome) ≤ p.tally (·.bound.isSome)) :
    p'.Quiet :=
  Nat.le_zero.mp (hless.trans_eq h)

theorem bound (h : p.Quiet) {i : Instance} (hi : i ∈ p.held) : i.bound = none := by
  have hnone := List.countP_eq_zero.mp h i hi
  exact Option.not_isSome_iff_eq_none.mp hnone

theorem ready (h : p.Quiet) : ∀ i ∈ p.ready, i.bound = none :=
  fun _ hi => h.bound (List.mem_append_left _ hi)

theorem push (h : p.Quiet) {i : Instance} (hi : i.bound = none) : (p.push i).Quiet := by
  have hpush := tally_push (·.bound.isSome) p i
  rw [hi] at hpush
  exact h.mono hpush.le

theorem resume (h : p.Quiet) (woken : List Waiter) (ticket : Ticket) (since : Nat) :
    ({ p with woken }.resume ticket since).Quiet :=
  h.mono (tally_resume _ { p with woken } ticket since).le

theorem takeReady (h : p.Quiet) {i : Instance} {rest : List Instance} (hp : p.ready = i :: rest) :
    { p with ready := rest }.Quiet := by
  refine h.mono ?_
  rw [tally_ready _ hp]
  exact Nat.le_add_right _ _

theorem signal (h : p.Quiet) (l : List Signal) : (p.signal l).Quiet :=
  h.mono (tally_signal _ p l).le

theorem acquire (h : p.Quiet) : p.acquire.2.Quiet :=
  h.mono (tally_acquire _ p).le

theorem cancel (h : p.Quiet) (ticket : Ticket) : (p.cancel ticket).Quiet :=
  h.mono (tally_cancel _ p ticket).le

theorem requestShutdown (h : p.Quiet) : p.requestShutdown.Quiet :=
  h.mono (tally_requestShutdown _ p).le

theorem requestReset (h : p.Quiet) : p.requestReset.2.Quiet :=
  h.signal _

theorem claim (h : p.Quiet) (ticket : Ticket) : (p.claim ticket).2.Quiet := by
  refine h.mono ?_
  rw [tally_claim _ p ticket]
  exact Nat.le_add_right _ _

end Quiet

end Pool

/-- What a piece of work on the pool `p` over the host `x` leaves: the label of the pool, and a host
that stands in the relation `T` to `x`. -/
structure Pool.Stays (T : σ → σ → Prop) (p : Pool) (x : σ) (p' : Pool) (x' : σ) : Prop where
  /-- The pool keeps its label. -/
  label : p'.label = p.label
  /-- No instance of it serves an invocation. -/
  quiet : p'.Quiet
  /-- The host stays within the relation. -/
  host : T x x'

namespace Pool

variable {s : Supply σ} {T : σ → σ → Prop}

theorem Stays.refl (h : s.Within T) {p : Pool} (hp : p.Quiet) (x : σ) : Stays T p x p x :=
  ⟨rfl, hp, h.refl x⟩

/-- All work of the control task stays within the frame. -/
theorem workStable_stays (h : s.Within T) (p : Pool) (x : σ) : WorkStable s (Stays T p x) :=
  { resume := fun _ hs =>
      ⟨(label_resume _ _ _).trans hs.label, hs.quiet.resume _ _ _, hs.host⟩
    growOne := fun {q y} hs => by
      have hcreate := h.create q.program y
      unfold Pool.growOne
      split
      · -- a new instance serves no invocation, so it may be pushed
        rename_i i y' hy
        rw [hy] at hcreate
        have hunbound : i.bound = none := h.unbound hy
        have hsize : { q with size := q.size + 1 }.Quiet := hs.quiet
        exact ⟨(label_push _ _).trans hs.label,
          hsize.push (i := { i with epoch := q.epoch }) hunbound, h.trans hs.host hcreate⟩
      · rename_i e y' hy
        rw [hy] at hcreate
        exact ⟨hs.label, hs.quiet, h.trans hs.host hcreate⟩
    keep := fun {q q' y} hs hstock => by
      have hlabel : q'.stock.label = q.stock.label := congrArg label hstock
      have htally : q'.stock.tally (·.bound.isSome) = q.stock.tally (·.bound.isSome) :=
        congrArg _ hstock
      exact ⟨hlabel.trans hs.label, hs.quiet.mono htally.le, hs.host⟩
    join := fun hs => ⟨hs.label, hs.quiet, hs.host⟩
    leave := fun hs => ⟨hs.label, hs.quiet, hs.host⟩
    takeReady := fun {q i rest y} hready hs => by
      have hfirst : i.bound = none := hs.quiet.ready i (hready ▸ List.mem_cons_self)
      exact ⟨hs.label, hs.quiet.takeReady hready, h.trans hs.host (h.teardown y hfirst)⟩ }

/-- **The frame of settling.** -/
theorem stays_settle (h : s.Within T) {p : Pool} (hp : p.Quiet) (x : σ) :
    Stays T p x (p.settle s x).1 (p.settle s x).2 :=
  (workStable_stays h p x).settle (fun hs => ⟨hs.label, hs.quiet, hs.host⟩) (Stays.refl h hp x)

/-- **The frame of giving an instance back.** -/
theorem stays_release (h : s.Within T) {p : Pool} (hp : p.Quiet) (i : Instance) (x : σ) :
    Stays T p x (p.release s i x).1 (p.release s i x).2 := by
  have hunbound : i.unbind.bound = none := rfl
  rcases release_cases s p i x with ⟨-, heq⟩ | ⟨-, -, heq⟩ | ⟨-, -, heq⟩ | ⟨-, -, heq⟩
  · rw [heq]
    exact ⟨rfl, hp, h.teardown x hunbound⟩
  · rw [heq]
    exact ⟨rfl, hp, h.teardown x hunbound⟩
  · rw [heq]
    exact ⟨label_signal p _, hp.signal _, h.teardown x hunbound⟩
  · rw [heq]
    exact ⟨label_push p _, hp.push hunbound, h.refl x⟩

/-- **The frame of giving an instance up.** -/
theorem stays_discard (h : s.Within T) {p : Pool} (hp : p.Quiet) (i : Instance) (x : σ) :
    Stays T p x (p.discard s i x).1 (p.discard s i x).2 := by
  rcases discard_cases s p i x with ⟨-, heq⟩ | ⟨-, -, heq⟩ | ⟨-, -, heq⟩
  · rw [heq]
    exact ⟨rfl, hp, h.drop i x⟩
  · rw [heq]
    exact ⟨rfl, hp, h.drop i x⟩
  · rw [heq]
    exact ⟨label_signal p _, hp.signal _, h.drop i x⟩

theorem stays_shutdown (h : s.Within T) {p : Pool} (hp : p.Quiet) (x : σ) :
    Stays T p x (p.requestShutdown.settle s x).1 (p.requestShutdown.settle s x).2 := by
  have hsettle := stays_settle h hp.requestShutdown x
  exact ⟨hsettle.label.trans (label_requestShutdown p), hsettle.quiet, hsettle.host⟩

theorem stays_reset (h : s.Within T) {p : Pool} (hp : p.Quiet) (x : σ) :
    Stays T p x (p.requestReset.2.settle s x).1 (p.requestReset.2.settle s x).2 := by
  have hsettle := stays_settle h hp.requestReset x
  exact ⟨hsettle.label.trans (label_requestReset p), hsettle.quiet, hsettle.host⟩

/-- **The frame of creating a pool.** -/
theorem stays_create (h : s.Within T) (contract : ContractId) (program : Module)
    (settings : PoolTerms) (x : σ) :
    T x (create s contract program settings x).2 ∧
      ∀ p, (create s contract program settings x).1 = .ok p →
        p.label = (contract, program, settings) ∧ p.Quiet := by
  have hcreate := h.create program x
  unfold create
  split
  · rename_i e y hy
    rw [hy] at hcreate
    exact ⟨hcreate, fun p hp => nomatch hp⟩
  · rename_i trial y hy
    rw [hy] at hcreate
    have hempty : ({ contract, program, settings } : Pool).Quiet := rfl
    have hgrow := (workStable_stays h _ _).grow settings.minSize
      (Stays.refl h hempty (s.teardown trial y))
    have htrial := h.trans hcreate (h.teardown y (h.unbound hy))
    refine ⟨h.trans htrial hgrow.host, fun p hp => ?_⟩
    cases hp
    exact ⟨hgrow.label, hgrow.quiet⟩

end Pool

end ContractHost
