import ContractHost.Proofs.Pool.Places
import ContractHost.Proofs.Pool.Run
import Mathlib.Order.Nat

/-!
# The control task in line

When the control task shrinks a pool it waits in line as callers do.  It must never stand there
twice, nor leave a claim behind when it has turned to other work: the claim would be lost, and an
instance with it.  Likewise a pool that is shut down must keep nobody waiting, and must have obeyed
all removals when it obeys the end, since what is told later is not heard any more.

As long as the pool is open there are as many ready instances as claims, free ones and those of
callers that have not gone on yet.  So whoever has a claim finds an instance, whichever it is.

These facts hold in every run, whatever instances do meanwhile.

## Main definitions

* `Pool.line` — how often the control task waits in line, or has a claim.
* `Pool.Steady` — the control task, the line and the queue of signals fit together.
* `Pool.Matched` — the claims and the ready instances fit together.

## Main results

* `Pool.Steady.obey`, `Pool.Steady.tick`, `Pool.Steady.goOn` — the control task keeps them.
* `Pool.Matched.next` — **whoever has a claim finds an instance.**
* `Scene.Reachable.steady`, `Scene.Reachable.matched` — **both hold in every run.**
-/

namespace ContractHost

/-- How often the control task may wait in line for what it is doing. -/
def Control.claims : Control → Nat
  | .shrinking (_ + 1) => 1
  | _ => 0

theorem Control.claims_le (c : Control) : c.claims ≤ 1 := by
  unfold claims
  split
  · exact le_rfl
  · exact Nat.zero_le 1

namespace Pool

variable {σ : Type} {s : Supply σ}

/-- How often the control task waits in line, or has a claim and has not gone on. -/
def line (p : Pool) : Nat :=
  p.waiters.count .control + p.woken.count .control

/-- The control task, the line and the queue of signals fit together. -/
structure Steady (p : Pool) : Prop where
  /-- The control task waits in line only while it shrinks the pool, and only once. -/
  line : p.line ≤ p.control.claims
  /-- Nobody waits for a pool that is shut down. -/
  shut : p.closed = true → p.waiters = []
  /-- No removal is told after the end. -/
  order : p.signals.Pairwise fun a b => a = .shutdown → b ≠ .remove
  /-- The end is told only once the pool is shut down. -/
  last : .shutdown ∈ p.signals → p.closed = true
  /-- Nothing is told once the control task has ended. -/
  deaf : p.control = .ended → p.signals = []

theorem line_grant (p : Pool) : p.grant.line = p.line := by
  unfold grant
  split
  · rfl
  · rename_i w rest hw
    unfold line
    rw [hw, List.count_append, List.count_singleton, List.count_cons]
    dsimp only
    omega

theorem waiters_grant {p : Pool} (h : p.waiters = []) : p.grant.waiters = [] := by
  rw [grant_nil h]
  exact h

/-- The control task is not a caller. -/
theorem count_control_caller (l r : List Waiter) (ticket : Ticket) (since : Nat) :
    (l ++ Waiter.caller ticket since :: r).count .control = (l ++ r).count .control := by
  rw [List.count_append, List.count_append, List.count_cons_of_ne (Waiter.noConfusion ·)]

theorem line_resume {p : Pool} {l r : List Waiter} {ticket : Ticket} {since : Nat}
    (hp : p.woken = l ++ .caller ticket since :: r) :
    ({ p with woken := l ++ r }.resume ticket since).line = p.line := by
  have hwoken : p.woken.count .control = (l ++ r).count .control := by
    rw [hp, count_control_caller]
  unfold line
  obtain ⟨-, h⟩ | ⟨-, -, h⟩ | ⟨-, _, _, -, h⟩ :=
    ({ p with woken := l ++ r } : Pool).resume_cases ticket since
  · rw [h, hwoken]
  · rw [h, hwoken]
    dsimp only
    rw [List.count_append, List.count_singleton]
    rfl
  · rw [h, hwoken]

namespace Steady

variable {p p' : Pool}

theorem line_le (h : p.Steady) : p.line ≤ 1 :=
  h.line.trans p.control.claims_le

/-- A control task that may not wait in line neither does, nor has a claim. -/
theorem of_claims (h : p.Steady) (hclaims : p.control.claims = 0) :
    p.waiters.count .control = 0 ∧ p.woken.count .control = 0 :=
  Nat.add_eq_zero_iff.mp (Nat.le_zero.mp (hclaims ▸ h.line))

theorem of_idle (h : p.Steady) (hidle : p.control = .idle) :
    p.waiters.count .control = 0 ∧ p.woken.count .control = 0 :=
  h.of_claims (by rw [hidle]; rfl)

/-- Work that tells the control task nothing, and lengthens no line, keeps everything steady. -/
theorem congr (h : p.Steady) (horders : p'.orders = p.orders) (hline : p'.line ≤ p.line)
    (hwaiters : p.closed = true → p.waiters = [] → p'.waiters = []) : p'.Steady := by
  have hsignals : p'.signals = p.signals := congrArg (·.1) horders
  have hcontrol : p'.control = p.control := congrArg (·.2.1) horders
  have hclosed : p'.closed = p.closed := congrArg (·.2.2) horders
  exact
    { line := hcontrol ▸ hline.trans h.line
      shut := fun hc => hwaiters (hclosed ▸ hc) (h.shut (hclosed ▸ hc))
      order := hsignals ▸ h.order
      last := fun hm => hclosed ▸ h.last (hsignals ▸ hm)
      deaf := fun he => hsignals ▸ h.deaf (hcontrol ▸ he) }

theorem grant (h : p.Steady) : p.grant.Steady :=
  h.congr (orders_grant p) (line_grant p).le fun _ => waiters_grant

theorem push (h : p.Steady) (i : Instance) : (p.push i).Steady :=
  grant (h.congr rfl le_rfl fun _ => id)

/-- A caller with a claim goes on. -/
theorem resume (h : p.Steady) {l r : List Waiter} {ticket : Ticket} {since : Nat}
    (hp : p.woken = l ++ .caller ticket since :: r) :
    ({ p with woken := l ++ r }.resume ticket since).Steady := by
  refine h.congr (orders_resume _ _ _) (line_resume hp).le fun hclosed hwaiters => ?_
  rw [resume_with_woken, resume_closed hclosed]
  exact hwaiters

theorem grow (h : p.Steady) (n : UInt32) (x : σ) : (p.grow s n x).1.Steady := by
  have hstable : GrowthStable s fun q _ => q.Steady :=
    { resume := fun hp hq => hq.resume hp
      growOne := fun {q y} hq => by
        unfold growOne
        split
        · have hsize : { q with size := q.size + 1 }.Steady := hq.congr rfl le_rfl fun _ => id
          exact hsize.push _
        · exact hq }
  exact hstable.grow n h

/-! ### What users do -/

/-- A signal to the control task of an open pool that is not to end. -/
theorem signal (h : p.Steady) {l : List Signal} (hl : .shutdown ∉ l)
    (hopen : .remove ∈ l → p.closed = false) : (p.signal l).Steady := by
  unfold Pool.signal
  split
  · exact h
  · rename_i hawake
    refine
      { line := h.line
        shut := h.shut
        order := List.pairwise_append.mpr ⟨h.order, ?_, ?_⟩
        last := fun hm => ?_
        deaf := fun hended => absurd hended hawake }
    -- the new signals do not contain the end, and if the end was told before, no removal is new
    · exact List.pairwise_of_forall_mem_list fun a ha b _ he => absurd (he ▸ ha) hl
    · intro a ha b hb he hremove
      have hclosed := h.last (he ▸ ha)
      rw [hopen (hremove ▸ hb)] at hclosed
      exact Bool.noConfusion hclosed
    · rcases List.mem_append.mp hm with hold | hnew
      · exact h.last hold
      · exact absurd hnew hl

/-- A caller may join the line of an open pool. -/
theorem join (h : p.Steady) (hopen : p.closed = false) (ticket : Ticket) (since : Nat) :
    { p with waiters := p.waiters ++ [Waiter.caller ticket since] }.Steady :=
  { line := by
      have hcount : (p.waiters ++ [Waiter.caller ticket since]).count .control
          = p.waiters.count .control := by
        rw [List.count_append, List.count_singleton]
        rfl
      unfold Pool.line
      rw [hcount]
      exact h.line
    shut := fun hc => absurd (hopen.symm.trans hc) Bool.false_ne_true
    order := h.order
    last := h.last
    deaf := h.deaf }

theorem acquire (h : p.Steady) : p.acquire.2.Steady := by
  by_cases hclosed : p.closed = true
  · rw [acquire_closed hclosed]
    exact h.congr rfl le_rfl fun _ => id
  · have hopen := eq_false_of_ne_true hclosed
    obtain hnone | ⟨permits, i, rest, hpermits, hready⟩ := p.takes_or_not
    · have hp : { p with nextTicket := p.nextTicket + 1, permits := p.permits - 1 }.Steady :=
        h.congr rfl le_rfl fun _ => id
      have hsignal := hp.signal (l := [.grow]) (by decide) fun hm => absurd hm (by decide)
      have hjoin := hsignal.join (by rw [closed_signal]; exact hopen) p.nextTicket p.now
      rw [waiters_signal] at hjoin
      rw [acquire_empty hopen hnone]
      exact hjoin
    · rw [acquire_ready hopen hpermits hready]
      exact h.congr rfl le_rfl fun _ => id

theorem cancel (h : p.Steady) (ticket : Ticket) : (p.cancel ticket).Steady := by
  have hless : { p with waiters := p.waiters.filter fun w => !isWaiting ticket w }.Steady := by
    refine h.congr rfl (Nat.add_le_add_right ?_ _) fun _ hw => ?_
    · exact List.Sublist.count_le _ List.filter_sublist
    · show p.waiters.filter _ = []
      rw [hw]
      rfl
  obtain heq | ⟨l, since, r, hwoken, heq⟩ := p.cancel_cases ticket
  · rw [heq]
    exact hless
  · rw [heq]
    refine grant (hless.congr rfl (Nat.add_le_add_left ?_ _) fun _ => id)
    show (l ++ r).count .control ≤ p.woken.count .control
    rw [hwoken, count_control_caller]

theorem release (h : p.Steady) (i : Instance) (x : σ) : (p.release s i x).1.Steady := by
  rcases release_cases s p i x with
    ⟨-, heq⟩ | ⟨-, -, heq⟩ | ⟨-, hopen, heq⟩ | ⟨-, -, heq⟩
  · rw [heq]
    exact h
  · rw [heq]
    exact h.congr rfl le_rfl fun _ => id
  · rw [heq]
    exact h.signal (by decide) fun _ => hopen
  · rw [heq]
    exact h.push _

theorem discard (h : p.Steady) (i : Instance) (x : σ) : (p.discard s i x).1.Steady := by
  rcases discard_cases s p i x with ⟨-, heq⟩ | ⟨-, -, heq⟩ | ⟨-, hopen, heq⟩
  · rw [heq]
    exact h
  · rw [heq]
    exact h.congr rfl le_rfl fun _ => id
  · rw [heq]
    exact h.signal (by decide) fun _ => hopen

theorem requestReset (h : p.Steady) : p.requestReset.2.Steady := by
  have hsignal := h.signal (l := [.reset p.nextRequest]) (by simp) fun hm => absurd hm (by simp)
  exact hsignal.congr rfl le_rfl fun _ => id

theorem requestShutdown (h : p.Steady) : p.requestShutdown.Steady := by
  unfold Pool.requestShutdown
  split
  · exact h
  · unfold Pool.signal
    dsimp only
    -- all who waited are sent away, so the line only gets shorter
    have hline : 0 + p.woken.count .control ≤ p.control.claims :=
      (Nat.add_le_add_right (Nat.zero_le _) _).trans h.line
    split
    · exact ⟨hline, fun _ => rfl, h.order, fun _ => rfl, h.deaf⟩
    · rename_i hawake
      refine ⟨hline, fun _ => rfl, List.pairwise_append.mpr ⟨h.order, ?_, ?_⟩, fun _ => rfl,
        fun hended => absurd hended hawake⟩
      · exact List.pairwise_singleton _ _
      · intro a _ b hb _ hremove
        exact Signal.noConfusion (hremove.symm.trans (List.mem_singleton.mp hb))

theorem claim (h : p.Steady) (ticket : Ticket) : (p.claim ticket).2.Steady :=
  h.congr rfl le_rfl fun _ => id

/-! ### What the control task does -/

/-- The control task takes the next signal from the queue. -/
theorem next (h : p.Steady) {signal : Signal} {rest : List Signal}
    (hsignals : p.signals = signal :: rest) : { p with signals := rest }.Steady :=
  { line := h.line
    shut := h.shut
    order := (List.pairwise_cons.mp (hsignals ▸ h.order)).2
    last := fun hm => h.last (hsignals ▸ List.mem_cons_of_mem _ hm)
    deaf := fun hended => absurd (hsignals ▸ h.deaf hended) (List.cons_ne_nil _ _) }

/-- A control task that breaks off its work, or has done it, need not be told anything. -/
theorem endControl (h : p.Steady) (hclaims : p.control.claims = 0) : p.endControl.Steady :=
  ⟨h.line.trans_eq hclaims, h.shut, .nil, fun hm => absurd hm List.not_mem_nil, fun _ => rfl⟩

/-- Shrinking begins with the control task neither in line nor with a claim.  It ends so, or with
the control task in line once. -/
theorem shrink (n : Nat) {p : Pool} (x : σ) (h : p.Steady) (hline : p.line = 0) :
    (shrink s n p x).1.Steady := by
  -- the task is not in the line when it begins, and joins it at most once
  refine shrink_induction
    (P := fun _ p _ r => p.Steady → p.line = 0 → r.1.Steady)
    (fun p x h hline => ?_) (fun {n p x permits i rest r} _ _ _ hrest h hline => ?_)
    (fun {n p x r} _ _ _ hrest h hline => ?_) (fun {n p x} _ h hline => ?_)
    (fun {n p x} hopen _ h hline => ?_) n p x h hline
  · exact ⟨hline.le, h.shut, h.order, h.last, nofun⟩
  · exact hrest (h.congr rfl le_rfl fun _ => id) hline
  · exact hrest (h.congr rfl le_rfl fun _ => id) hline
  · exact ⟨hline.le, h.shut, h.order, h.last, nofun⟩
  · -- Here the control task joins the line, and it was not there before.
    refine ⟨?_, fun hc => ?_, h.order, h.last, nofun⟩
    · obtain ⟨hwaiters, hwoken⟩ := Nat.add_eq_zero_iff.mp hline
      show (p.waiters ++ [Waiter.control]).count .control + p.woken.count .control ≤ 1
      rw [List.count_append, hwaiters, hwoken]
      exact le_rfl
    · exact absurd (hopen.symm.trans hc) Bool.false_ne_true

/-- **Obeying a signal keeps the pool steady.** -/
theorem obey (h : p.Steady) (hidle : p.control = .idle) (x : σ) (signal : Signal) :
    (p.obey s x signal).1.Steady := by
  have hclaims : p.control.claims = 0 := by rw [hidle]; rfl
  cases signal with
  -- the task makes no claim before it looks at the pool, so it may end here
  | grow =>
    have hcount : p.countGrowth.Steady := h.congr rfl le_rfl fun _ => id
    obtain ⟨-, heq⟩ | ⟨-, heq⟩ | ⟨-, heq⟩ := obey_grow_cases s p x
    · rw [heq]
      exact hcount.endControl hclaims
    · rw [heq]
      exact hcount
    · rw [heq]
      exact (hcount.grow _ _).congr rfl le_rfl fun _ => id
  | add => exact h.grow 1 x
  | remove => exact h.congr rfl le_rfl fun _ => id
  | reset request =>
    have hrenewed : p.renewed.Steady := h.congr rfl le_rfl fun _ => id
    rw [obey_reset]
    exact (hrenewed.grow _ _).congr rfl le_rfl fun _ => id
  | shutdown =>
    have hcleared : p.cleared.Steady := h.congr rfl le_rfl fun _ => id
    rw [obey_shutdown]
    exact hcleared.endControl hclaims

/-- **A regular look keeps the pool steady.** -/
theorem tick (h : p.Steady) (hidle : p.control = .idle) (x : σ) : (p.tick s x).1.Steady := by
  have hp : { p with ticked := p.ticked + 1 }.Steady := h.congr rfl le_rfl fun _ => id
  have hclaims : p.control.claims = 0 := by rw [hidle]; rfl
  -- it ends if the sum of sizes is too large, and otherwise makes claims only in order to shrink
  obtain ⟨-, heq⟩ | ⟨-, heq⟩ | ⟨-, -, heq⟩ | ⟨-, -, heq⟩ := tick_cases s p x
  · rw [heq]
    exact hp.endControl hclaims
  · rw [heq]
    exact (hp.grow _ _).congr rfl le_rfl fun _ => id
  · rw [heq]
    exact hp.shrink _ x (Nat.le_zero.mp (hclaims ▸ h.line))
  · rw [heq]
    exact h.congr rfl le_rfl fun _ => id

/-- **Going on keeps the pool steady.** -/
theorem goOn (h : p.Steady) (x : σ) : (p.goOn s x).1.Steady := by
  have hless : { p with woken := p.woken.erase .control }.line ≤ p.line :=
    Nat.add_le_add_left (List.Sublist.count_le _ List.erase_sublist) _
  have hlone : { p with woken := p.woken.erase .control }.Steady := h.congr rfl hless fun _ => id
  -- the task is in the line once at most, so after it was woken it is no longer there
  have hzero (hwoken : .control ∈ p.woken) :
      { p with woken := p.woken.erase .control }.line = 0 := by
    have hpos := List.count_pos_iff.mpr hwoken
    have hline := h.line_le
    unfold Pool.line at hline ⊢
    dsimp only
    rw [List.count_erase_self]
    omega
  obtain heq | ⟨left, -, ⟨hclosed, heq⟩ | ⟨-, hwoken, -, heq⟩ | ⟨-, hwoken, i, rest, -, heq⟩⟩ :=
    goOn_cases s p x
  · rw [heq]
    exact h
  · -- nobody waits for a pool that is shut down
    have hwaiters := h.shut hclosed
    rw [heq]
    refine hlone.shrink left x ?_
    by_cases hwoken : .control ∈ p.woken
    · exact hzero hwoken
    · unfold Pool.line
      dsimp only
      rw [hwaiters, List.count_erase_self, List.count_eq_zero.mpr hwoken]
      rfl
  · rw [heq]
    exact hlone.shrink _ x (hzero hwoken)
  · rw [heq]
    exact shrink _ _ (hlone.congr rfl le_rfl fun _ => id) (hzero hwoken)

/-- The control task has no claim when its work begins. -/
theorem create {contract : ContractId} {program : Module} {settings : PoolTerms} {x y : σ}
    (hcreate : Pool.create s contract program settings x = (.ok p, y)) : p.Steady := by
  obtain ⟨trial, x', _, rfl, rfl⟩ := create_eq_ok hcreate
  have hempty : ({ contract, program, settings } : Pool).Steady :=
    ⟨le_rfl, fun _ => rfl, List.Pairwise.nil, fun hm => absurd hm List.not_mem_nil, fun _ => rfl⟩
  have hgrow := hempty.grow (s := s) settings.minSize (s.teardown trial x')
  have horders := orders_grow (s := s) { contract, program, settings } settings.minSize
    (s.teardown trial x')
  -- the control task begins idle, whatever it is set to afterwards
  have hidle := congrArg (·.2.1) horders
  obtain ⟨hwaiters, hwoken⟩ := hgrow.of_idle hidle
  refine ⟨?_, hgrow.shut, hgrow.order, hgrow.last, fun _ => congrArg (·.1) horders⟩
  show List.count _ _ + List.count _ _ ≤ _
  rw [hwaiters, hwoken]
  exact Nat.zero_le _

end Steady

/-! ### Claims and instances -/

/-- The claims and the ready instances fit together. -/
structure Matched (p : Pool) : Prop where
  /-- As long as the pool is open there is an instance for every claim. -/
  ready : p.closed = false → p.ready.length = p.permits + p.woken.length
  /-- Nobody waits while a claim is free. -/
  free : p.permits = 0 ∨ p.waiters = []

namespace Matched

variable {p p' : Pool}

/-- Work that leaves the line, the claims and the ready instances. -/
theorem congr (h : p.Matched) (hclosed : p'.closed = p.closed) (hready : p'.ready = p.ready)
    (hpermits : p'.permits = p.permits) (hwoken : p'.woken = p.woken)
    (hwaiters : p'.waiters = p.waiters) : p'.Matched where
  ready := by
    rw [hclosed, hready, hpermits, hwoken]
    exact h.ready
  free := by
    rw [hpermits, hwaiters]
    exact h.free

/-- **Whoever has a claim finds an instance**, as long as the pool is open. -/
theorem next (h : p.Matched) (hopen : p.closed = false) (hwoken : p.woken ≠ []) :
    ∃ i rest, p.ready = i :: rest := by
  have hlength := h.ready hopen
  have hpos := List.length_pos_iff.mpr hwoken
  exact List.exists_cons_of_length_pos (by omega)

/-- As long as the pool is open, what nobody has a claim to is as much as there are free claims. -/
theorem unclaimed (h : p.Matched) (hopen : p.closed = false) : p.unclaimed = p.permits := by
  have hlength := h.ready hopen
  unfold Pool.unclaimed
  rw [hopen, if_neg Bool.false_ne_true]
  omega

/-- A claim that has become free is given to whoever waits. -/
theorem grant (hready : p.closed = false → p.ready.length = p.permits + p.woken.length + 1)
    (hfree : p.permits = 0 ∨ p.waiters = []) : p.grant.Matched where
  ready hopen := by
    have hclosed : p.grant.closed = p.closed := congrArg (·.2.2) (orders_grant p)
    rw [ready_grant, hready (hclosed ▸ hopen), claims_grant]
  free := by
    by_cases hw : p.waiters = []
    · exact .inr (waiters_grant hw)
    · obtain ⟨w, rest, hcons⟩ := List.exists_cons_of_ne_nil hw
      rw [grant_cons hcons]
      exact .inl (hfree.resolve_right hw)

theorem push (h : p.Matched) (i : Instance) : (p.push i).Matched := by
  refine grant (fun hopen => ?_) h.free
  show (p.ready ++ [i]).length = _
  rw [List.length_append, h.ready hopen]
  rfl

theorem resume (h : p.Matched) {l r : List Waiter} {ticket : Ticket} {since : Nat}
    (hp : p.woken = l ++ .caller ticket since :: r) :
    ({ p with woken := l ++ r }.resume ticket since).Matched := by
  obtain ⟨hclosed, heq⟩ | ⟨hopen, hready, heq⟩ | ⟨hopen, i, rest, hready, heq⟩ :=
    ({ p with woken := l ++ r } : Pool).resume_cases ticket since
  · rw [heq]
    exact ⟨fun hopen => absurd (hopen.symm.trans hclosed) Bool.false_ne_true, h.free⟩
  · -- there is an instance for the claim of this caller
    obtain ⟨i, rest, hcons⟩ := h.next hopen (by rw [hp]; simp)
    exact absurd (hready.symm.trans hcons) (List.cons_ne_nil _ _).symm
  · rw [heq]
    refine ⟨fun _ => ?_, h.free⟩
    have hlength := h.ready hopen
    have hready : p.ready = i :: rest := hready
    rw [hready, hp] at hlength
    simp only [List.length_append, List.length_cons] at hlength ⊢
    omega

theorem grow (h : p.Matched) (n : UInt32) (x : σ) : (p.grow s n x).1.Matched := by
  have hstable : GrowthStable s fun q _ => q.Matched :=
    { resume := fun hp hq => hq.resume hp
      growOne := fun {q y} hq => by
        unfold growOne
        split
        · have hsize : { q with size := q.size + 1 }.Matched := hq.congr rfl rfl rfl rfl rfl
          exact hsize.push _
        · exact hq }
  exact hstable.grow n h

theorem signal (h : p.Matched) (l : List Signal) : (p.signal l).Matched := by
  unfold Pool.signal
  split
  · exact h
  · exact h.congr rfl rfl rfl rfl rfl

theorem acquire (h : p.Matched) : p.acquire.2.Matched := by
  by_cases hclosed : p.closed = true
  · rw [acquire_closed hclosed]
    exact h.congr rfl rfl rfl rfl rfl
  · have hopen := eq_false_of_ne_true hclosed
    obtain hnone | ⟨permits, i, rest, hpermits, hready⟩ := p.takes_or_not
    · -- as long as the pool is open there are as many instances as permits, so no permit is left
      have hzero : p.permits = 0 := by
        rcases hnone with hzero | hnil
        · exact hzero
        · have hlength := h.ready hopen
          rw [hnil] at hlength
          simp only [List.length_nil] at hlength
          omega
      have hp : { p with nextTicket := p.nextTicket + 1, permits := p.permits - 1 }.Matched := by
        refine h.congr rfl rfl ?_ rfl rfl
        show p.permits - 1 = p.permits
        omega
      have hsignal := hp.signal [.grow]
      rw [acquire_empty hopen hnone]
      refine ⟨hsignal.ready, .inl ?_⟩
      unfold Pool.signal
      dsimp only
      split
      · show p.permits - 1 = 0
        omega
      · show p.permits - 1 = 0
        omega
    · rw [acquire_ready hopen hpermits hready]
      have hlength := h.ready hopen
      have hnobody := h.free.resolve_left (by omega)
      rw [hready, hpermits, List.length_cons] at hlength
      exact ⟨fun _ => by dsimp only; omega, .inr hnobody⟩

theorem cancel (h : p.Matched) (ticket : Ticket) : (p.cancel ticket).Matched := by
  have hfree : p.permits = 0 ∨ p.waiters.filter (fun w => !isWaiting ticket w) = [] := by
    refine h.free.imp id fun hw => ?_
    rw [hw]
    rfl
  obtain heq | ⟨l, since, r, hwoken, heq⟩ := p.cancel_cases ticket
  · rw [heq]
    exact ⟨h.ready, hfree⟩
  · rw [heq]
    refine grant (fun hopen => ?_) hfree
    have hlength := h.ready hopen
    rw [hwoken] at hlength
    simp only [List.length_append, List.length_cons] at hlength ⊢
    omega

theorem release (h : p.Matched) (i : Instance) (x : σ) : (p.release s i x).1.Matched := by
  rcases release_cases s p i x with ⟨-, heq⟩ | ⟨-, -, heq⟩ | ⟨-, -, heq⟩ | ⟨-, -, heq⟩
  · rw [heq]
    exact h
  · rw [heq]
    exact h.congr rfl rfl rfl rfl rfl
  · rw [heq]
    exact h.signal _
  · rw [heq]
    exact h.push _

theorem discard (h : p.Matched) (i : Instance) (x : σ) : (p.discard s i x).1.Matched := by
  rcases discard_cases s p i x with ⟨-, heq⟩ | ⟨-, -, heq⟩ | ⟨-, -, heq⟩
  · rw [heq]
    exact h
  · rw [heq]
    exact h.congr rfl rfl rfl rfl rfl
  · rw [heq]
    exact h.signal _

theorem requestReset (h : p.Matched) : p.requestReset.2.Matched :=
  (h.signal [.reset p.nextRequest]).congr rfl rfl rfl rfl rfl

theorem requestShutdown (h : p.Matched) : p.requestShutdown.Matched := by
  by_cases hclosed : p.closed = true
  · rw [requestShutdown_closed hclosed]
    exact h
  · rw [requestShutdown_open (eq_false_of_ne_true hclosed)]
    have hdismissed : p.dismissed.Matched := ⟨nofun, .inr rfl⟩
    exact hdismissed.signal _

theorem shrink (n : Nat) {p : Pool} (x : σ) (h : p.Matched) : (shrink s n p x).1.Matched := by
  -- an instance and its permit go together
  refine shrink_induction (P := fun _ p _ r => p.Matched → r.1.Matched)
    (fun p x h => ?_) (fun {n p x permits i rest r} hopen hpermits hready hrest h => ?_)
    (fun {n p x r} hopen hsome hready _ h => ?_) (fun {n p x} _ h => ?_)
    (fun {n p x} _ hnone h => ?_) n p x h
  · exact h.congr rfl rfl rfl rfl rfl
  · have hlength := h.ready hopen
    have hnobody := h.free.resolve_left (by omega)
    rw [hready, hpermits, List.length_cons] at hlength
    exact hrest ⟨fun _ => by dsimp only; omega, .inr hnobody⟩
  · -- there is an instance for every claim
    have hlength := h.ready hopen
    rw [hready, List.length_nil] at hlength
    omega
  · exact h.congr rfl rfl rfl rfl rfl
  · exact ⟨h.ready, .inl hnone⟩

theorem cleared (h : p.Matched) : p.cleared.Matched where
  ready hopen := by
    have hlength := h.ready hopen
    show (p.ready.drop p.unclaimed).length = p.permits - p.unclaimed + p.woken.length
    rw [h.unclaimed hopen, List.length_drop]
    omega
  free := h.free.imp (fun hnone => by unfold Pool.cleared; dsimp only; omega) id

theorem obey (h : p.Matched) (x : σ) (signal : Signal) : (p.obey s x signal).1.Matched := by
  -- what the task counts does not touch the permits; what it makes comes with one each
  cases signal with
  | grow =>
    have hcount : p.countGrowth.Matched := h.congr rfl rfl rfl rfl rfl
    obtain ⟨-, heq⟩ | ⟨-, heq⟩ | ⟨-, heq⟩ := obey_grow_cases s p x
    · rw [heq]
      exact hcount.congr rfl rfl rfl rfl rfl
    · rw [heq]
      exact hcount
    · rw [heq]
      exact (hcount.grow _ _).congr rfl rfl rfl rfl rfl
  | add => exact h.grow 1 x
  | remove => exact h.congr rfl rfl rfl rfl rfl
  | reset request =>
    have hrenewed : p.renewed.Matched :=
      cleared (p := { p with epoch := p.epoch + 1 }) (h.congr rfl rfl rfl rfl rfl)
    rw [obey_reset]
    exact (hrenewed.grow _ _).congr rfl rfl rfl rfl rfl
  | shutdown =>
    rw [obey_shutdown]
    exact h.cleared.congr rfl rfl rfl rfl rfl

theorem tick (h : p.Matched) (x : σ) : (p.tick s x).1.Matched := by
  have hp : { p with ticked := p.ticked + 1 }.Matched := h.congr rfl rfl rfl rfl rfl
  obtain ⟨-, heq⟩ | ⟨-, heq⟩ | ⟨-, -, heq⟩ | ⟨-, -, heq⟩ := tick_cases s p x
  · rw [heq]
    exact hp.congr rfl rfl rfl rfl rfl
  · rw [heq]
    exact (hp.grow _ _).congr rfl rfl rfl rfl rfl
  · rw [heq]
    exact hp.shrink _ x
  · rw [heq]
    exact hp.congr rfl rfl rfl rfl rfl

theorem goOn (h : p.Matched) (x : σ) : (p.goOn s x).1.Matched := by
  obtain heq | ⟨left, -, ⟨hclosed, heq⟩ | ⟨hopen, hwoken, hready, -⟩ |
    ⟨hopen, hwoken, i, rest, hready, heq⟩⟩ := goOn_cases s p x
  · rw [heq]
    exact h
  · rw [heq]
    exact shrink _ _ ⟨fun hopen => absurd (hopen.symm.trans hclosed) Bool.false_ne_true, h.free⟩
  · -- who was woken owns a permit, so an instance is there
    obtain ⟨i, rest, hcons⟩ := h.next hopen (List.ne_nil_of_mem hwoken)
    exact absurd (hready.symm.trans hcons) (List.cons_ne_nil _ _).symm
  · rw [heq]
    refine shrink _ _ ⟨fun _ => ?_, h.free⟩
    have hlength := h.ready hopen
    have hpos := List.length_pos_of_mem hwoken
    rw [hready, List.length_cons] at hlength
    show rest.length = p.permits + (p.woken.erase .control).length
    rw [List.length_erase_of_mem hwoken]
    omega

theorem create {contract : ContractId} {program : Module} {settings : PoolTerms} {x y : σ}
    (hcreate : Pool.create s contract program settings x = (.ok p, y)) : p.Matched := by
  obtain ⟨trial, x', _, rfl, rfl⟩ := create_eq_ok hcreate
  have hempty : ({ contract, program, settings } : Pool).Matched := ⟨fun _ => rfl, .inl rfl⟩
  exact (hempty.grow (s := s) settings.minSize (s.teardown trial x')).congr rfl rfl rfl rfl rfl

end Matched

end Pool

namespace Scene

variable {σ : Type} {s : NumberedSupply σ}

/-- A single action keeps the pool steady. -/
theorem Step.steady {sc sc' : Scene σ} (h : Step s sc sc') (hsc : sc.pool.Steady) :
    sc'.pool.Steady := by
  cases h with
  | acquire => exact hsc.acquire
  | cancel ticket => exact hsc.cancel ticket
  | resume hp => exact hsc.resume hp
  | claim ticket => exact hsc.claim ticket
  | release hout hafter => exact hsc.release (s := s.counted) _ _
  | discard hout hafter => exact hsc.discard (s := s.counted) _ sc.world
  | spawn hcreate => exact hsc
  | spawnFailed hcreate => exact hsc
  | close hout hafter hdetached => exact hsc
  | requestReset => exact hsc.requestReset
  | requestShutdown => exact hsc.requestShutdown
  | obey hidle hsignals =>
    rename_i signal rest
    exact (hsc.next hsignals).obey hidle _ signal
  | tick hidle => exact hsc.tick hidle _
  | goOn => exact hsc.goOn _
  | wait milliseconds => exact hsc.congr rfl le_rfl fun _ => id
  | advance seconds => exact hsc.congr rfl le_rfl fun _ => id
  | elsewhere hnext => exact hsc

/-- **Every pool is steady in every run.** -/
theorem Reachable.steady {contract : ContractId} {program : Module} {settings : PoolTerms}
    {sc : Scene σ} (h : Reachable s contract program settings sc) : sc.pool.Steady := by
  induction h with
  | create hcreate => exact Pool.Steady.create hcreate
  | step _ hstep ih => exact hstep.steady ih

/-- A single action leaves an instance for every claim. -/
theorem Step.matched {sc sc' : Scene σ} (h : Step s sc sc') (hsc : sc.pool.Matched) :
    sc'.pool.Matched := by
  cases h with
  | acquire => exact hsc.acquire
  | cancel ticket => exact hsc.cancel ticket
  | resume hp => exact hsc.resume hp
  | claim ticket => exact hsc.congr rfl rfl rfl rfl rfl
  | release hout hafter => exact hsc.release (s := s.counted) _ _
  | discard hout hafter => exact hsc.discard (s := s.counted) _ sc.world
  | spawn hcreate => exact hsc
  | spawnFailed hcreate => exact hsc
  | close hout hafter hdetached => exact hsc
  | requestReset => exact hsc.requestReset
  | requestShutdown => exact hsc.requestShutdown
  | obey hidle hsignals =>
    rename_i signal rest
    have hnext : { sc.pool with signals := rest }.Matched := hsc.congr rfl rfl rfl rfl rfl
    exact hnext.obey _ signal
  | tick hidle => exact hsc.tick _
  | goOn => exact hsc.goOn _
  | wait milliseconds => exact hsc.congr rfl rfl rfl rfl rfl
  | advance seconds => exact hsc.congr rfl rfl rfl rfl rfl
  | elsewhere hnext => exact hsc

/-- **In every run there is an instance for every claim.** -/
theorem Reachable.matched {contract : ContractId} {program : Module} {settings : PoolTerms}
    {sc : Scene σ} (h : Reachable s contract program settings sc) : sc.pool.Matched := by
  induction h with
  | create hcreate => exact Pool.Matched.create hcreate
  | step _ hstep ih => exact hstep.matched ih

end Scene

end ContractHost
