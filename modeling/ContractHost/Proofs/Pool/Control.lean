import ContractHost.Pool.Lease
import Mathlib.Algebra.GroupWithZero.Nat

/-!
# The work on a pool, case by case

What the control task does with one signal, with one regular look, and with one instance less is
written out here case by case, and so is what a user brings about.  Nothing else has to look into
the definitions.

Growing goes in batches between which callers go on.  What has to be shown of it is stated once,
as an induction over the two things that it consists of.

## Main definitions

* `Pool.label`, `Pool.orders` — what a pool was created with, and what its control task was told.
* `Pool.held` — the instances that a pool holds.
* `Pool.GrowthStable`, `Pool.GrowthCounted` — properties that growing cannot end.

## Main results

* `Pool.obey_grow_cases`, `Pool.tick_cases`, `Pool.shrink_ready`, `Pool.release_cases` and the
  like — the cases.
* `Pool.resumeAll_induction`, `Pool.shrink_induction`, `Pool.GrowthStable.grow` — **the inductions
  over callers that go on, over shrinking, and over growing.**
-/

namespace ContractHost

namespace Pool

variable {σ : Type} {s : Supply σ}

/-- What a pool was created with: its contract, its module and its terms. -/
def label (p : Pool) : ContractId × Module × PoolTerms :=
  (p.contract, p.program, p.settings)

/-- What the control task has been told, what it is doing, and whether the pool is shut down. -/
def orders (p : Pool) : List Signal × Control × Bool :=
  (p.signals, p.control, p.closed)

/-- The instances in the answers to callers. -/
def taken (p : Pool) : List Instance :=
  p.served.filterMap fun a => a.2.toOption

/-- The instances that a pool holds: ready ones, and those in answers. -/
def held (p : Pool) : List Instance :=
  p.ready ++ p.taken

/-! ### Claims -/

theorem grant_nil {p : Pool} (h : p.waiters = []) :
    p.grant = { p with permits := p.permits + 1 } := by
  unfold grant
  rw [h]

theorem grant_cons {p : Pool} {w : Waiter} {rest : List Waiter} (h : p.waiters = w :: rest) :
    p.grant = { p with waiters := rest, woken := p.woken ++ [w] } := by
  unfold grant
  rw [h]

@[simp] theorem label_grant (p : Pool) : p.grant.label = p.label := by
  unfold grant
  split <;> rfl

@[simp] theorem orders_grant (p : Pool) : p.grant.orders = p.orders := by
  unfold grant
  split <;> rfl

@[simp] theorem ready_grant (p : Pool) : p.grant.ready = p.ready := by
  unfold grant
  split <;> rfl

@[simp] theorem served_grant (p : Pool) : p.grant.served = p.served := by
  unfold grant
  split <;> rfl

@[simp] theorem size_grant (p : Pool) : p.grant.size = p.size := by
  unfold grant
  split <;> rfl

@[simp] theorem uses_grant (p : Pool) : p.grant.uses = p.uses := by
  unfold grant
  split <;> rfl

/-- A claim that becomes free is free, or somebody's. -/
theorem claims_grant (p : Pool) :
    p.grant.permits + p.grant.woken.length = p.permits + p.woken.length + 1 := by
  unfold grant
  split
  · exact Nat.add_right_comm _ _ _
  · rw [List.length_append, List.length_singleton, Nat.add_assoc]

@[simp] theorem label_push (p : Pool) (i : Instance) : (p.push i).label = p.label :=
  label_grant _

@[simp] theorem orders_push (p : Pool) (i : Instance) : (p.push i).orders = p.orders :=
  orders_grant _

@[simp] theorem ready_push (p : Pool) (i : Instance) : (p.push i).ready = p.ready ++ [i] :=
  ready_grant _

@[simp] theorem served_push (p : Pool) (i : Instance) : (p.push i).served = p.served :=
  served_grant _

@[simp] theorem size_push (p : Pool) (i : Instance) : (p.push i).size = p.size :=
  size_grant _

@[simp] theorem uses_push (p : Pool) (i : Instance) : (p.push i).uses = p.uses :=
  uses_grant _

/-- Where nobody waits, the claim to an instance that becomes ready is free. -/
theorem push_nil {p : Pool} (h : p.waiters = []) (i : Instance) :
    p.push i = { p with ready := p.ready ++ [i], permits := p.permits + 1 } :=
  grant_nil (p := { p with ready := p.ready ++ [i] }) h

/-- Otherwise it goes to whoever has waited longest. -/
theorem push_cons {p : Pool} {w : Waiter} {rest : List Waiter} (h : p.waiters = w :: rest)
    (i : Instance) : p.push i =
      { p with ready := p.ready ++ [i], waiters := rest, woken := p.woken ++ [w] } :=
  grant_cons (p := { p with ready := p.ready ++ [i] }) h

/-- Without a free claim, or without a ready instance, nothing is taken. -/
theorem take_none {p : Pool} (h : p.permits = 0 ∨ p.ready = []) :
    p.take = (none, { p with permits := p.permits - 1 }) := by
  unfold take
  obtain ⟨_ | n, hn⟩ : ∃ n, p.permits = n := ⟨_, rfl⟩
  · cases p
    cases hn
    rfl
  · rw [hn, h.resolve_left (hn ▸ Nat.succ_ne_zero n)]
    rfl

theorem take_some {p : Pool} {n : Nat} {i : Instance} {rest : List Instance}
    (hn : p.permits = n + 1) (hready : p.ready = i :: rest) :
    p.take = (some i, { p with permits := n, ready := rest }) := by
  unfold take
  rw [hn, hready]

/-- An instance can be taken, or not. -/
theorem takes_or_not (p : Pool) :
    (p.permits = 0 ∨ p.ready = []) ∨ ∃ n i rest, p.permits = n + 1 ∧ p.ready = i :: rest := by
  cases hn : p.permits with
  | zero => exact .inl (.inl rfl)
  | succ n =>
    cases hready : p.ready with
    | nil => exact .inl (.inr rfl)
    | cons i rest => exact .inr ⟨n, i, rest, rfl, rfl⟩

/-! ### The control task, case by case -/

/-- How many instances are missing from the smallest size. -/
def missing (p : Pool) : UInt32 :=
  if p.size < p.settings.minSize then p.settings.minSize - p.size else 0

/-- **The sum that the pool needs, to find out whether it should grow, does not fit 32 bits.** -/
theorem shouldGrow_eq_none_iff {p : Pool} : p.shouldGrow = none ↔
    p.settings.minSize ≤ p.size ∧ 2 ^ 32 ≤ p.size.toNat + p.settings.growStep.toNat := by
  unfold shouldGrow
  by_cases hsmall : p.size < p.settings.minSize
  · rw [if_pos hsmall]
    exact iff_of_false nofun fun h => absurd hsmall (UInt32.not_lt.mpr h.1)
  · rw [if_neg hsmall]
    by_cases hsum : UInt32.size ≤ p.size.toNat + p.settings.growStep.toNat
    · rw [if_pos hsum]
      exact iff_of_true rfl ⟨UInt32.not_lt.mp hsmall, hsum⟩
    · rw [if_neg hsum]
      exact iff_of_false nofun fun h => hsum h.2

theorem obey_grow_none {p : Pool} (h : p.countGrowth.shouldGrow = none) (x : σ) :
    p.obey s x .grow = (p.countGrowth.endControl, x) := by
  unfold obey
  dsimp only
  rw [h]

theorem obey_grow_false {p : Pool} (h : p.countGrowth.shouldGrow = some false) (x : σ) :
    p.obey s x .grow = (p.countGrowth, x) := by
  unfold obey
  dsimp only
  rw [h]

theorem obey_grow_true {p : Pool} (h : p.countGrowth.shouldGrow = some true) (x : σ) :
    p.obey s x .grow =
      ({ (p.countGrowth.grow s p.settings.growStep x).1 with growCount := 0 },
        (p.countGrowth.grow s p.settings.growStep x).2) := by
  unfold obey
  dsimp only
  rw [h]
  rfl

/-- **What comes of a request to grow**: the sum that it takes does not fit and the control task
ends, or the request is counted, or the pool grows by a step. -/
theorem obey_grow_cases (s : Supply σ) (p : Pool) (x : σ) :
    (p.countGrowth.shouldGrow = none ∧ p.obey s x .grow = (p.countGrowth.endControl, x)) ∨
      (p.countGrowth.shouldGrow = some false ∧ p.obey s x .grow = (p.countGrowth, x)) ∨
      (p.countGrowth.shouldGrow = some true ∧ p.obey s x .grow =
        ({ (p.countGrowth.grow s p.settings.growStep x).1 with growCount := 0 },
          (p.countGrowth.grow s p.settings.growStep x).2)) := by
  cases hgrow : p.countGrowth.shouldGrow with
  | none => exact .inl ⟨rfl, obey_grow_none hgrow x⟩
  | some grows =>
    cases grows with
    | false => exact .inr (.inl ⟨rfl, obey_grow_false hgrow x⟩)
    | true => exact .inr (.inr ⟨rfl, obey_grow_true hgrow x⟩)

/-- The pool of the next generation, without the ready instances that nobody has a claim to. -/
def renewed (p : Pool) : Pool :=
  { p with epoch := p.epoch + 1 }.cleared

/-- Where the claims to all ready instances are free, nobody has a claim to any of them. -/
theorem unclaimed_of_free {p : Pool} (h : p.permits = p.ready.length) :
    p.unclaimed = p.ready.length := by
  unfold unclaimed
  rw [h, Nat.min_self, ite_self]

theorem renewed_of_free {p : Pool} (h : p.permits = p.ready.length) :
    p.renewed = { p with
      epoch := p.epoch + 1
      ready := []
      permits := 0
      size := p.size - UInt32.ofNat p.ready.length } := by
  have hall : ({ p with epoch := p.epoch + 1 } : Pool).unclaimed = p.ready.length :=
    unclaimed_of_free h
  unfold renewed cleared
  rw [hall]
  dsimp only
  rw [List.drop_length, h, Nat.sub_self]

theorem obey_reset (p : Pool) (x : σ) (request : Nat) :
    p.obey s x (.reset request) =
      ((p.renewed.grow s p.renewed.missing
          (s.teardownAll (p.ready.take p.unclaimed) x)).1.resetCounters,
        (p.renewed.grow s p.renewed.missing
          (s.teardownAll (p.ready.take p.unclaimed) x)).2) := rfl

theorem obey_shutdown (p : Pool) (x : σ) :
    p.obey s x .shutdown =
      (p.cleared.endControl, s.teardownAll (p.ready.take p.unclaimed) x) := rfl

theorem tick_none {p : Pool} (h : p.shouldGrow = none) (x : σ) :
    p.tick s x = ({ p with ticked := p.ticked + 1 }.endControl, x) := by
  have hlook : { p with ticked := p.ticked + 1 }.shouldGrow = none := h
  unfold tick
  dsimp only
  rw [hlook]

theorem tick_true {p : Pool} (h : p.shouldGrow = some true) (x : σ) :
    p.tick s x =
      (({ p with ticked := p.ticked + 1 }.grow s p.settings.growStep x).1.resetCounters,
        ({ p with ticked := p.ticked + 1 }.grow s p.settings.growStep x).2) := by
  have hlook : { p with ticked := p.ticked + 1 }.shouldGrow = some true := h
  unfold tick
  dsimp only
  rw [hlook]

theorem tick_false {p : Pool} (h : p.shouldGrow = some false) (x : σ) :
    p.tick s x =
      if p.shouldShrink then
        shrink s p.settings.growStep.toNat { p with ticked := p.ticked + 1 } x
      else ({ p with ticked := p.ticked + 1 }.resetCounters, x) := by
  have hlook : { p with ticked := p.ticked + 1 }.shouldGrow = some false := h
  unfold tick
  dsimp only
  rw [hlook]
  rfl

/-- **What comes of a regular look**: the sum that it takes does not fit and the control task ends,
or the pool grows by a step, or it shrinks by a step, or the counts begin again. -/
theorem tick_cases (s : Supply σ) (p : Pool) (x : σ) :
    (p.shouldGrow = none ∧ p.tick s x = ({ p with ticked := p.ticked + 1 }.endControl, x)) ∨
      (p.shouldGrow = some true ∧ p.tick s x =
        (({ p with ticked := p.ticked + 1 }.grow s p.settings.growStep x).1.resetCounters,
          ({ p with ticked := p.ticked + 1 }.grow s p.settings.growStep x).2)) ∨
      (p.shouldGrow = some false ∧ p.shouldShrink = true ∧
        p.tick s x = shrink s p.settings.growStep.toNat { p with ticked := p.ticked + 1 } x) ∨
      (p.shouldGrow = some false ∧ p.shouldShrink = false ∧
        p.tick s x = ({ p with ticked := p.ticked + 1 }.resetCounters, x)) := by
  cases hgrow : p.shouldGrow with
  | none => exact .inl ⟨rfl, tick_none hgrow x⟩
  | some grows =>
    cases grows with
    | true => exact .inr (.inl ⟨rfl, tick_true hgrow x⟩)
    | false =>
      have htick := tick_false (s := s) hgrow x
      cases hshrink : p.shouldShrink with
      | true => exact .inr (.inr (.inl ⟨rfl, rfl, htick.trans (if_pos hshrink)⟩))
      | false => exact .inr (.inr (.inr ⟨rfl, rfl, htick.trans (if_neg (hshrink ▸ nofun))⟩))

theorem shrink_closed {p : Pool} (hclosed : p.closed = true) (n : Nat) (x : σ) :
    shrink s (n + 1) p x = ({ p.resetCounters with control := .idle }, x) := by
  rw [shrink, if_pos hclosed]

theorem shrink_blocked {p : Pool} (hopen : p.closed = false) (hnone : p.permits = 0) (n : Nat)
    (x : σ) :
    shrink s (n + 1) p x =
      ({ p with control := .shrinking (n + 1), waiters := p.waiters ++ [.control] }, x) := by
  rw [shrink, if_neg (Bool.not_eq_true _ ▸ hopen), if_pos hnone]

theorem shrink_vain {p : Pool} (hopen : p.closed = false) (hsome : p.permits ≠ 0)
    (hready : p.ready = []) (n : Nat) (x : σ) :
    shrink s (n + 1) p x = shrink s n { p with permits := p.permits - 1 } x := by
  rw [shrink, if_neg (Bool.not_eq_true _ ▸ hopen), if_neg hsome, take_none (.inr hready)]

theorem shrink_ready {p : Pool} {permits : Nat} {i : Instance} {rest : List Instance}
    (hopen : p.closed = false) (hsome : p.permits = permits + 1) (hready : p.ready = i :: rest)
    (n : Nat) (x : σ) :
    shrink s (n + 1) p x =
      shrink s n { p with permits, ready := rest, size := p.size - 1 } (s.teardown i x) := by
  rw [shrink, if_neg (Bool.not_eq_true _ ▸ hopen), if_neg (hsome ▸ Nat.succ_ne_zero permits),
    take_some hsome hready]
  rfl

/-- **The induction over shrinking.**  The control task takes what is ready, as long as claims are
free; it stops when it has enough or the pool is shut down, and waits in line where no claim is
free. -/
theorem shrink_induction {P : Nat → Pool → σ → Pool × σ → Prop}
    (done : ∀ p x, P 0 p x ({ p.resetCounters with control := .idle }, x))
    (ready : ∀ {n p x permits i rest r}, p.closed = false → p.permits = permits + 1 →
      p.ready = i :: rest →
      P n { p with permits, ready := rest, size := p.size - 1 } (s.teardown i x) r →
        P (n + 1) p x r)
    (vain : ∀ {n p x r}, p.closed = false → p.permits ≠ 0 → p.ready = [] →
      P n { p with permits := p.permits - 1 } x r → P (n + 1) p x r)
    (closed : ∀ {n p x}, p.closed = true →
      P (n + 1) p x ({ p.resetCounters with control := .idle }, x))
    (blocked : ∀ {n p x}, p.closed = false → p.permits = 0 →
      P (n + 1) p x
        ({ p with control := .shrinking (n + 1), waiters := p.waiters ++ [.control] }, x)) :
    ∀ n p x, P n p x (shrink s n p x) := by
  intro n
  -- the run of the task, by how many are still to go
  induction n with
  | zero =>
    intro p x
    exact done p x
  | succ n ih =>
    intro p x
    cases hclosed : p.closed with
    | true =>
      rw [shrink_closed hclosed]
      exact closed hclosed
    | false =>
      cases hpermits : p.permits with
      | zero =>
        rw [shrink_blocked hclosed hpermits]
        exact blocked hclosed hpermits
      | succ permits =>
        cases hready : p.ready with
        | nil =>
          have hsome : p.permits ≠ 0 := hpermits ▸ Nat.succ_ne_zero permits
          rw [shrink_vain hclosed hsome hready]
          exact vain hclosed hsome hready (ih _ _)
        | cons i rest =>
          rw [shrink_ready hclosed hpermits hready]
          exact ready hclosed hpermits hready (ih _ _)

/-- **How the control task goes on**: not at all, or by stopping because the pool is shut down, or
by using the claim that it was given. -/
theorem goOn_cases (s : Supply σ) (p : Pool) (x : σ) :
    p.goOn s x = (p, x) ∨ ∃ left, p.control = .shrinking left ∧
      (p.closed = true ∧
          p.goOn s x = { p with woken := p.woken.erase .control }.shrink s left x ∨
        p.closed = false ∧ .control ∈ p.woken ∧ p.ready = [] ∧
          p.goOn s x = { p with woken := p.woken.erase .control }.shrink s (left - 1) x ∨
        p.closed = false ∧ .control ∈ p.woken ∧ ∃ i rest, p.ready = i :: rest ∧
          p.goOn s x = { p with
            woken := p.woken.erase .control
            ready := rest
            size := p.size - 1 }.shrink s (left - 1) (s.teardown i x)) := by
  unfold goOn shrinkOn
  cases hcontrol : p.control with
  | idle => exact .inl rfl
  | ended => exact .inl rfl
  | shrinking left =>
    dsimp only
    -- a closed pool wakes everyone; otherwise the task goes on only if it was woken
    by_cases hclosed : p.closed = true
    · rw [if_pos hclosed]
      exact .inr ⟨left, rfl, .inl ⟨hclosed, rfl⟩⟩
    · have hopen := eq_false_of_ne_true hclosed
      rw [if_neg hclosed]
      by_cases hwoken : .control ∈ p.woken
      · rw [if_pos (List.contains_iff_mem.mpr hwoken)]
        refine .inr ⟨left, rfl, .inr ?_⟩
        split
        · rename_i hready
          exact .inl ⟨hopen, hwoken, hready, rfl⟩
        · rename_i i rest hready
          exact .inr ⟨hopen, hwoken, i, rest, hready, rfl⟩
      · rw [if_neg fun h => hwoken (List.contains_iff_mem.mp h)]
        exact .inl rfl

/-! ### Callers -/

/-- The pool with everybody who waits told that it is shut down. -/
def dismissed (p : Pool) : Pool :=
  { p with
    closed := true
    waiters := []
    served := p.served ++ p.waiting.map fun ticket => (ticket, Except.error p.closedError) }

theorem requestShutdown_closed {p : Pool} (h : p.closed = true) : p.requestShutdown = p :=
  if_pos h

theorem requestShutdown_open {p : Pool} (h : p.closed = false) :
    p.requestShutdown = p.dismissed.signal [.shutdown] := by
  unfold requestShutdown
  rw [h]
  rfl

theorem acquire_closed {p : Pool} (h : p.closed = true) :
    p.acquire.2 = { p with
      nextTicket := p.nextTicket + 1
      served := p.served ++ [(p.nextTicket, .error p.closedError)] } := by
  unfold acquire
  dsimp only
  rw [if_pos h]
  rfl

theorem acquire_ready {p : Pool} {permits : Nat} {i : Instance} {rest : List Instance}
    (h : p.closed = false) (hpermits : p.permits = permits + 1) (hready : p.ready = i :: rest) :
    p.acquire.2 = { p with
      nextTicket := p.nextTicket + 1
      permits
      ready := rest
      uses := p.uses + 1
      served := p.served ++ [(p.nextTicket, .ok i)] } := by
  have htake : ({ p with nextTicket := p.nextTicket + 1 } : Pool).take = _ :=
    take_some hpermits hready
  unfold acquire
  dsimp only
  rw [if_neg (Bool.not_eq_true _ ▸ h), htake]

theorem acquire_empty {p : Pool} (h : p.closed = false) (hnone : p.permits = 0 ∨ p.ready = []) :
    p.acquire.2 = { ({ p with
        nextTicket := p.nextTicket + 1
        permits := p.permits - 1 } : Pool).signal [.grow] with
      waiters := p.waiters ++ [.caller p.nextTicket p.now] } := by
  have htake : ({ p with nextTicket := p.nextTicket + 1 } : Pool).take = _ := take_none hnone
  unfold acquire
  dsimp only
  rw [if_neg (Bool.not_eq_true _ ▸ h), htake]

theorem resume_closed {p : Pool} (h : p.closed = true) (ticket : Ticket) (since : Nat) :
    p.resume ticket since = { p with
      served := p.served ++ [(ticket, .error p.closedError)] } :=
  if_pos h

theorem resume_nil {p : Pool} (h : p.closed = false) (hready : p.ready = []) (ticket : Ticket)
    (since : Nat) :
    p.resume ticket since = { p with waiters := p.waiters ++ [.caller ticket since] } := by
  unfold resume
  rw [if_neg (Bool.not_eq_true _ ▸ h)]
  split <;> simp_all

theorem resume_ready {p : Pool} {i : Instance} {rest : List Instance} (h : p.closed = false)
    (hready : p.ready = i :: rest) (ticket : Ticket) (since : Nat) :
    p.resume ticket since = { p with
      ready := rest
      uses := p.uses + 1
      totalDelay := p.totalDelay + UInt64.ofNat (p.now - since)
      served := p.served ++ [(ticket, .ok i)] } := by
  unfold resume
  rw [if_neg (Bool.not_eq_true _ ▸ h)]
  split <;> simp_all

/-- A caller with a claim is refused, or waits again, or has its instance. -/
theorem resume_cases (p : Pool) (ticket : Ticket) (since : Nat) :
    p.closed = true ∧ p.resume ticket since = { p with
        served := p.served ++ [(ticket, .error p.closedError)] } ∨
      p.closed = false ∧ p.ready = [] ∧ p.resume ticket since = { p with
        waiters := p.waiters ++ [.caller ticket since] } ∨
      p.closed = false ∧ ∃ i rest, p.ready = i :: rest ∧ p.resume ticket since = { p with
        ready := rest
        uses := p.uses + 1
        totalDelay := p.totalDelay + UInt64.ofNat (p.now - since)
        served := p.served ++ [(ticket, .ok i)] } := by
  by_cases hclosed : p.closed = true
  · exact .inl ⟨hclosed, resume_closed hclosed ticket since⟩
  · have hopen := eq_false_of_ne_true hclosed
    obtain ⟨_ | ⟨i, rest⟩, hready⟩ : ∃ l, p.ready = l := ⟨_, rfl⟩
    · exact .inr (.inl ⟨hopen, hready, resume_nil hopen hready ticket since⟩)
    · exact .inr (.inr ⟨hopen, i, rest, hready, resume_ready hopen hready ticket since⟩)

@[simp] theorem label_resume (p : Pool) (ticket : Ticket) (since : Nat) :
    (p.resume ticket since).label = p.label := by
  obtain ⟨-, h⟩ | ⟨-, -, h⟩ | ⟨-, _, _, -, h⟩ := p.resume_cases ticket since <;> rw [h] <;> rfl

@[simp] theorem orders_resume (p : Pool) (ticket : Ticket) (since : Nat) :
    (p.resume ticket since).orders = p.orders := by
  obtain ⟨-, h⟩ | ⟨-, -, h⟩ | ⟨-, _, _, -, h⟩ := p.resume_cases ticket since <;> rw [h] <;> rfl

@[simp] theorem closed_resume (p : Pool) (ticket : Ticket) (since : Nat) :
    (p.resume ticket since).closed = p.closed :=
  congrArg (·.2.2) (orders_resume p ticket since)

@[simp] theorem control_resume (p : Pool) (ticket : Ticket) (since : Nat) :
    (p.resume ticket since).control = p.control :=
  congrArg (·.2.1) (orders_resume p ticket since)

@[simp] theorem size_resume (p : Pool) (ticket : Ticket) (since : Nat) :
    (p.resume ticket since).size = p.size := by
  obtain ⟨-, h⟩ | ⟨-, -, h⟩ | ⟨-, _, _, -, h⟩ := p.resume_cases ticket since <;> rw [h]

/-- Who else has a claim makes no difference to a caller that goes on. -/
theorem resume_with_woken (p : Pool) (woken : List Waiter) (ticket : Ticket) (since : Nat) :
    { p with woken }.resume ticket since = { p.resume ticket since with woken } := by
  unfold resume
  dsimp only
  split
  · rfl
  · cases p.ready <;> rfl

theorem woken_resume (p : Pool) (ticket : Ticket) (since : Nat) :
    (p.resume ticket since).woken = p.woken := by
  obtain ⟨-, h⟩ | ⟨-, -, h⟩ | ⟨-, _, _, -, h⟩ := p.resume_cases ticket since <;> rw [h]

theorem signal_of_awake {p : Pool} (h : p.control ≠ .ended) (l : List Signal) :
    p.signal l = { p with signals := p.signals ++ l } :=
  if_neg h

/-- Telling the control task something else leaves the removals that it has to hear of. -/
theorem count_signal (p : Pool) {l : List Signal} {signal : Signal} (h : signal ∉ l) :
    (p.signal l).signals.count signal = p.signals.count signal := by
  unfold Pool.signal
  split
  · rfl
  · rw [List.count_append, List.count_eq_zero.mpr h]
    rfl

@[simp] theorem size_signal (p : Pool) (l : List Signal) : (p.signal l).size = p.size := by
  unfold signal
  split <;> rfl

@[simp] theorem control_signal (p : Pool) (l : List Signal) :
    (p.signal l).control = p.control := by
  unfold signal
  split <;> rfl

@[simp] theorem closed_signal (p : Pool) (l : List Signal) : (p.signal l).closed = p.closed := by
  unfold signal
  split <;> rfl

@[simp] theorem waiters_signal (p : Pool) (l : List Signal) :
    (p.signal l).waiters = p.waiters := by
  unfold signal
  split <;> rfl

@[simp] theorem label_signal (p : Pool) (l : List Signal) : (p.signal l).label = p.label := by
  unfold signal
  split <;> rfl

/-- An instance that is given back ends if it does not belong to the pool, or the pool is shut down,
or it is to be replaced; otherwise it becomes ready again. -/
theorem release_cases (s : Supply σ) (p : Pool) (i : Instance) (x : σ) :
    i.detached = true ∧ p.release s i x = (p, s.teardown i.unbind x) ∨
      i.detached = false ∧ p.closed = true ∧
        p.release s i x = ({ p with size := p.size - 1 }, s.teardown i.unbind x) ∨
      i.detached = false ∧ p.closed = false ∧
        p.release s i x = (p.signal [.remove, .add], s.teardown i.unbind x) ∨
      i.detached = false ∧ p.closed = false ∧ p.release s i x = (p.push i.unbind, x) := by
  unfold release
  dsimp only
  split
  · rename_i hdetached
    exact .inl ⟨hdetached, rfl⟩
  · rename_i hpooled
    have hpooled : i.detached = false := eq_false_of_ne_true hpooled
    split
    · rename_i hclosed
      exact .inr (.inl ⟨hpooled, hclosed, rfl⟩)
    · rename_i hopen
      have hopen := eq_false_of_ne_true hopen
      split
      · exact .inr (.inr (.inl ⟨hpooled, hopen, rfl⟩))
      · exact .inr (.inr (.inr ⟨hpooled, hopen, rfl⟩))

/-- An instance that is given up is taken off the size of a pool that is shut down, and is replaced
in one that is open. -/
theorem discard_cases (s : Supply σ) (p : Pool) (i : Instance) (x : σ) :
    i.detached = true ∧ p.discard s i x = (p, s.drop i x) ∨
      i.detached = false ∧ p.closed = true ∧
        p.discard s i x = ({ p with size := p.size - 1 }, s.drop i x) ∨
      i.detached = false ∧ p.closed = false ∧
        p.discard s i x = (p.signal [.remove, .add], s.drop i x) := by
  unfold discard
  dsimp only
  split
  · rename_i hdetached
    exact .inl ⟨hdetached, rfl⟩
  · rename_i hpooled
    have hpooled : i.detached = false := eq_false_of_ne_true hpooled
    split
    · rename_i hclosed
      exact .inr (.inl ⟨hpooled, hclosed, rfl⟩)
    · rename_i hopen
      exact .inr (.inr ⟨hpooled, eq_false_of_ne_true hopen, rfl⟩)

/-- A control task that has ended hears of nothing, and so of no removal. -/
theorem discard_ended {p : Pool} (hopen : p.closed = false) (hended : p.control = .ended)
    (i : Instance) (x : σ) : (p.discard s i x).1 = p := by
  unfold discard
  dsimp only
  split
  · rfl
  · rw [hopen]
    exact if_pos hended

/-- A caller no longer waits; if it had a claim, that is free again or goes to the next one. -/
theorem cancel_cases (p : Pool) (ticket : Ticket) :
    p.cancel ticket = { p with waiters := p.waiters.filter fun w => !isWaiting ticket w } ∨
      ∃ l since r, p.woken = l ++ .caller ticket since :: r ∧
        p.cancel ticket = { p with
          waiters := p.waiters.filter fun w => !isWaiting ticket w
          woken := l ++ r }.grant := by
  unfold cancel
  by_cases hany : p.woken.any (isWaiting ticket)
  · right
    obtain ⟨w, hw, hticket⟩ := List.any_eq_true.mp hany
    obtain ⟨found, l, r, -, hfound, hwoken, herase⟩ := List.exists_of_eraseP hw hticket
    cases found with
    | control => exact absurd hfound Bool.false_ne_true
    | caller t since =>
      obtain rfl : t = ticket := beq_iff_eq.mp hfound
      refine ⟨l, since, r, hwoken, ?_⟩
      rw [if_pos hany, herase]
  · exact .inl (if_neg hany)

/-- What every caller leaves as it is when it goes on, all of them together leave as it is. -/
theorem resumeAll_induction {P : Pool → Prop}
    (step : ∀ {p l ticket since r}, p.woken = l ++ .caller ticket since :: r → P p →
      P ({ p with woken := l ++ r }.resume ticket since)) :
    ∀ p : Pool, P p → P p.resumeAll := by
  -- the induction is on those who have still to be looked at; whoever keeps a claim is in front
  have hfold (l : List Waiter) : ∀ q : Pool, P { q with woken := q.woken ++ l } →
      P (l.foldl resumeCaller q) := by
    induction l with
    | nil =>
      intro q hq
      rw [List.append_nil] at hq
      exact hq
    | cons w rest ih =>
      intro q hq
      refine ih _ ?_
      cases w with
      | control =>
        have hkept : q.woken ++ [Waiter.control] ++ rest = q.woken ++ .control :: rest :=
          List.append_assoc _ _ _
        show P { q with woken := q.woken ++ [.control] ++ rest }
        rw [hkept]
        exact hq
      | caller ticket since =>
        have hstep := step rfl hq
        rw [resume_with_woken] at hstep
        show P { q.resume ticket since with woken := (q.resume ticket since).woken ++ rest }
        rw [woken_resume]
        rw [resume_with_woken] at hstep
        exact hstep
  intro p hp
  exact hfold p.woken { p with woken := [] } hp

theorem resumeAll_of_nil {p : Pool} (h : p.woken = []) : p.resumeAll = p := by
  unfold resumeAll
  cases p
  cases h
  rfl

theorem resumeFirst_induction {P : Pool → Prop}
    (step : ∀ {p l ticket since r}, p.woken = l ++ .caller ticket since :: r → P p →
      P ({ p with woken := l ++ r }.resume ticket since))
    (p : Pool) (hp : P p) : P p.resumeFirst := by
  unfold resumeFirst
  split
  · rename_i hwoken
    exact step (l := []) hwoken hp
  · exact hp

/-! ### Growing -/

/-- The batches make as many instances as were asked for. -/
theorem sum_batches (step count : Nat) : (batches step count).sum = count := by
  have hrest : (if count % step = 0 then [] else [count % step]).sum = count % step := by
    split
    · rename_i h
      exact h.symm
    · exact List.sum_singleton
  unfold batches
  rw [List.sum_append_nat, hrest, List.sum_replicate_nat, Nat.div_add_mod']

theorem ne_zero_of_mem_batches {step count n : Nat} (hstep : step ≠ 0)
    (hn : n ∈ batches step count) : n ≠ 0 := by
  rcases List.mem_append.mp hn with hfull | hrest
  · rw [List.eq_of_mem_replicate hfull]
    exact hstep
  · split at hrest
    · exact absurd hrest List.not_mem_nil
    · rename_i hmod
      rw [List.mem_singleton.mp hrest]
      exact hmod

/-- Growing consists of making single instances and of callers going on; `P` survives both. -/
structure GrowthStable (s : Supply σ) (P : Pool → σ → Prop) : Prop where
  /-- A caller with a claim goes on. -/
  resume : ∀ {p l ticket since r x}, p.woken = l ++ .caller ticket since :: r → P p x →
    P ({ p with woken := l ++ r }.resume ticket since) x
  /-- An instance is made, or fails to be made. -/
  growOne : ∀ {p x}, P p x → P (p.growOne s x).2.1 (p.growOne s x).2.2

namespace GrowthStable

variable {P : Pool → σ → Prop}

theorem growSome (h : GrowthStable s P) : ∀ (n : Nat) (p : Pool) (x : σ), P p x →
    P (Pool.growSome s n p x).1 (Pool.growSome s n p x).2 := by
  intro n
  induction n with
  | zero => intro p x hp; exact hp
  | succ n ih =>
    intro p x hp
    rw [Pool.growSome]
    exact ih _ _ (h.growOne hp)

/-- A batch begins with one instance, and what holds then holds when it is done. -/
theorem growBatch_of_growOne (h : GrowthStable s P) (n : Nat) {p : Pool} {x : σ}
    (hone : P (p.resumeAll.growOne s x).2.1 (p.resumeAll.growOne s x).2.2) :
    P (Pool.growBatch s (p, x) n).1 (Pool.growBatch s (p, x) n).2 := by
  -- the first instance is made already, so one fewer is to be made
  have hsome := h.growSome (n - 1) _ _ hone
  rw [Pool.growBatch]
  dsimp only
  split
  · exact resumeFirst_induction (P := fun p => P p _) h.resume _ hsome
  · exact hsome

theorem growBatches (h : GrowthStable s P) : ∀ (l : List Nat) (p : Pool) (x : σ), P p x →
    P (l.foldl (Pool.growBatch s) (p, x)).1 (l.foldl (Pool.growBatch s) (p, x)).2 := by
  intro l
  induction l with
  | nil => intro p x hp; exact hp
  | cons n l ih =>
    intro p x hp
    have hall : P p.resumeAll x := resumeAll_induction (P := fun p => P p x) h.resume p hp
    exact ih _ _ (h.growBatch_of_growOne n (h.growOne hall))

/-- **The induction over growing.**  The batches are worked off one after another, so a property
that survives the making of one instance and the going on of one caller survives them all. -/
theorem grow (h : GrowthStable s P) {p : Pool} {x : σ} (n : UInt32) (hp : P p x) :
    P (p.grow s n x).1 (p.grow s n x).2 :=
  h.growBatches _ p x hp

end GrowthStable

/-- Growing consists of making single instances and of callers going on.  `P n` is what holds while
`n` instances are still to be made; each of them may fail. -/
structure GrowthCounted (s : Supply σ) (P : Nat → Pool → σ → Prop) : Prop where
  /-- A caller with a claim goes on. -/
  resume : ∀ {n p l ticket since r x}, p.woken = l ++ .caller ticket since :: r → P n p x →
    P n ({ p with woken := l ++ r }.resume ticket since) x
  /-- One of the instances is made, or fails to be made. -/
  growOne : ∀ {n p x}, P (n + 1) p x → P n (p.growOne s x).2.1 (p.growOne s x).2.2

namespace GrowthCounted

variable {P : Nat → Pool → σ → Prop}

theorem growSome (h : GrowthCounted s P) {k : Nat} : ∀ (n : Nat) (p : Pool) (x : σ),
    P (n + k) p x → P k (Pool.growSome s n p x).1 (Pool.growSome s n p x).2 := by
  intro n
  induction n with
  | zero =>
    intro p x hp
    rw [Nat.zero_add] at hp
    exact hp
  | succ n ih =>
    intro p x hp
    rw [Nat.add_right_comm] at hp
    rw [Pool.growSome]
    exact ih _ _ (h.growOne hp)

theorem growBatch (h : GrowthCounted s P) {n k : Nat} (hn : n ≠ 0) {p : Pool} {x : σ}
    (hp : P (n + k) p x) :
    P k (Pool.growBatch s (p, x) n).1 (Pool.growBatch s (p, x) n).2 := by
  obtain ⟨m, rfl⟩ := Nat.exists_eq_succ_of_ne_zero hn
  rw [Nat.succ_add] at hp
  have hall := resumeAll_induction (P := fun p => P (m + k + 1) p x) h.resume p hp
  have hsome := h.growSome m _ _ (h.growOne hall)
  rw [Pool.growBatch]
  dsimp only
  split
  · exact resumeFirst_induction (P := fun p => P k p _) h.resume _ hsome
  · exact hsome

theorem growBatches (h : GrowthCounted s P) {k : Nat} : ∀ (l : List Nat) (p : Pool) (x : σ),
    (∀ n ∈ l, n ≠ 0) → P (l.sum + k) p x →
      P k (l.foldl (Pool.growBatch s) (p, x)).1 (l.foldl (Pool.growBatch s) (p, x)).2 := by
  intro l
  induction l with
  | nil =>
    intro p x _ hp
    rw [List.sum_nil, Nat.zero_add] at hp
    exact hp
  | cons n l ih =>
    intro p x hl hp
    obtain ⟨hn, hrest⟩ := List.forall_mem_cons.mp hl
    rw [List.sum_cons, Nat.add_assoc] at hp
    exact ih _ _ hrest (h.growBatch hn hp)

/-- **The induction over growing, with a count** of the instances that are still to be made. -/
theorem grow (h : GrowthCounted s P) {p : Pool} {x : σ} {n : UInt32} {k : Nat}
    (hp : P (n.toNat + k) p x) : P k (p.grow s n x).1 (p.grow s n x).2 := by
  have hstep : max p.settings.growStep.toNat 1 ≠ 0 := by omega
  refine h.growBatches _ p x (fun m hm => ne_zero_of_mem_batches hstep hm) ?_
  rw [sum_batches]
  exact hp

end GrowthCounted

theorem grow_zero (p : Pool) (x : σ) : p.grow s 0 x = (p, x) := by
  have hnone : batches (max p.settings.growStep.toNat 1) (0 : UInt32).toNat = [] := by
    simp [batches]
  unfold grow
  rw [hnone]
  rfl

/-- Growing touches neither the queue of signals nor what the control task is doing. -/
theorem orders_grow (p : Pool) (n : UInt32) (x : σ) : (p.grow s n x).1.orders = p.orders := by
  have h : GrowthStable s fun q _ => q.orders = p.orders :=
    { resume := fun _ hq => (orders_resume _ _ _).trans hq
      growOne := fun {q y} hq => by
        unfold Pool.growOne
        split
        · rw [← hq]
          exact orders_push _ _
        · exact hq }
  exact h.grow n rfl

/-- A pool that is created has grown from nothing, after an instance was made on trial. -/
theorem create_eq_ok {contract : ContractId} {program : Module} {settings : PoolTerms} {x y : σ}
    {p : Pool} (h : create s contract program settings x = (.ok p, y)) :
    ∃ trial x', s.create program x = (.ok trial, x') ∧
      p = { (grow s { contract, program, settings } settings.minSize (s.teardown trial x')).1 with
        control := if settings.isMeasurable then .idle else .ended } ∧
      y = (grow s { contract, program, settings } settings.minSize (s.teardown trial x')).2 := by
  unfold create at h
  split at h
  · cases h
  · rename_i trial x' hcreate
    cases h
    exact ⟨trial, x', hcreate, rfl, rfl⟩

/-- No pool is created if the instance on trial cannot be made. -/
theorem create_eq_error {contract : ContractId} {program : Module} {settings : PoolTerms}
    {x y : σ} {e : ExecutionError} (h : create s contract program settings x = (.error e, y)) :
    s.create program x = (.error e, y) := by
  unfold create at h
  split at h
  · rename_i hcreate
    cases h
    exact hcreate
  · cases h

/-- Shrinking tells the control task nothing. -/
theorem signals_shrink (n : Nat) (p : Pool) (x : σ) : (shrink s n p x).1.signals = p.signals := by
  refine shrink_induction (P := fun _ p _ r => r.1.signals = p.signals) ?_ ?_ ?_ ?_ ?_ n p x
  · exact fun _ _ => rfl
  · exact fun _ _ _ hrest => hrest
  · exact fun _ _ _ hrest => hrest
  · exact fun _ => rfl
  · exact fun _ _ => rfl

/-- Shrinking does not end the control task. -/
theorem control_shrink (n : Nat) (p : Pool) (x : σ) : (shrink s n p x).1.control ≠ .ended := by
  refine shrink_induction (P := fun _ _ _ r => r.1.control ≠ .ended) ?_ ?_ ?_ ?_ ?_ n p x
  · exact fun _ _ => Control.noConfusion
  · exact fun _ _ _ hrest => hrest
  · exact fun _ _ _ hrest => hrest
  · exact fun _ => Control.noConfusion
  · exact fun _ _ => Control.noConfusion

/-- **A signal ends the control task** if it asks for the end, or if it asks for growth and the sum
does not fit.  Otherwise what the control task is doing stays as it is. -/
theorem control_obey (p : Pool) (x : σ) (signal : Signal) :
    (p.obey s x signal).1.control = p.control ∨
      (p.obey s x signal).1.control = .ended ∧ (p.obey s x signal).1.signals = [] ∧
        (signal = .shutdown ∨ signal = .grow ∧ p.shouldGrow = none) := by
  -- only growth may overflow, and only a shutdown asks for the end
  cases signal with
  | grow =>
    obtain ⟨hgrow, heq⟩ | ⟨-, heq⟩ | ⟨-, heq⟩ := obey_grow_cases s p x
    · rw [heq]
      refine .inr ⟨rfl, rfl, .inr ⟨rfl, ?_⟩⟩
      rw [shouldGrow_eq_none_iff] at hgrow ⊢
      exact hgrow
    · rw [heq]
      exact .inl rfl
    · rw [heq]
      exact .inl (congrArg (·.2.1) (orders_grow p.countGrowth p.settings.growStep x))
  | add => exact .inl (congrArg (·.2.1) (orders_grow p 1 x))
  | remove => exact .inl rfl
  | reset request => exact .inl (congrArg (·.2.1) (orders_grow p.renewed p.renewed.missing _))
  | shutdown => exact .inr ⟨rfl, rfl, .inl rfl⟩

/-- A control task that has obeyed a signal and goes on has the same signals before it as it had
then. -/
theorem signals_obey (p : Pool) (x : σ) (signal : Signal)
    (hcontrol : (p.obey s x signal).1.control ≠ .ended) :
    (p.obey s x signal).1.signals = p.signals := by
  -- the task throws its signals away only when it ends
  cases signal with
  | grow =>
    obtain ⟨-, heq⟩ | ⟨-, heq⟩ | ⟨-, heq⟩ := obey_grow_cases s p x
    · rw [heq] at hcontrol
      exact absurd rfl hcontrol
    · rw [heq]
      rfl
    · rw [heq]
      exact congrArg (·.1) (orders_grow p.countGrowth p.settings.growStep x)
  | add => exact congrArg (·.1) (orders_grow p 1 x)
  | remove => rfl
  | reset request => exact congrArg (·.1) (orders_grow p.renewed p.renewed.missing _)
  | shutdown => exact absurd rfl hcontrol

/-- **A regular look ends the control task** if the sum does not fit.  Otherwise it tells it
nothing. -/
theorem control_tick {p : Pool} (h : p.control ≠ .ended) (x : σ) :
    (p.tick s x).1.control ≠ .ended ∧ (p.tick s x).1.signals = p.signals ∨
      (p.tick s x).1.control = .ended ∧ (p.tick s x).1.signals = [] ∧ p.shouldGrow = none := by
  -- the sum of sizes is the only thing that ends a task that looks at its pool
  obtain ⟨hgrow, heq⟩ | ⟨-, heq⟩ | ⟨-, -, heq⟩ | ⟨-, -, heq⟩ := tick_cases s p x
  · rw [heq]
    exact .inr ⟨rfl, rfl, hgrow⟩
  · have horders := orders_grow (s := s) { p with ticked := p.ticked + 1 } p.settings.growStep x
    have hcontrol := congrArg (·.2.1) horders
    rw [heq]
    exact .inl ⟨fun hended => h (hcontrol.symm.trans hended), congrArg (·.1) horders⟩
  · rw [heq]
    exact .inl ⟨control_shrink _ _ x, signals_shrink _ _ x⟩
  · rw [heq]
    exact .inl ⟨h, rfl⟩

/-- Going on tells the control task nothing. -/
theorem signals_goOn (p : Pool) (x : σ) : (p.goOn s x).1.signals = p.signals := by
  obtain h | ⟨left, -, ⟨-, h⟩ | ⟨-, -, -, h⟩ | ⟨-, -, i, rest, -, h⟩⟩ := goOn_cases s p x
  · rw [h]
  · rw [h, signals_shrink]
  · rw [h, signals_shrink]
  · rw [h, signals_shrink]

end Pool

end ContractHost
