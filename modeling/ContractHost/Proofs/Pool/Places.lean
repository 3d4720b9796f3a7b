import ContractHost.Proofs.Pool.Control
import Mathlib.Data.List.Perm.Basic

/-!
# The places of a pool

A pool holds instances in two places: ready ones, and those in answers that were not taken yet.  For
any kind of instance, the work inside a pool moves as many as there are from place to place.

## Main definitions

* `Pool.tally` — how many instances of a kind a pool holds.

## Main results

* `Pool.tally_push`, `Pool.tally_resume`, `Pool.tally_acquire` — **what moves instances.**
* `Pool.tally_ready`, `Pool.tally_cleared`, `Pool.tally_claim` — what takes some away.
-/

namespace ContractHost

namespace Pool

variable {σ : Type}

/-- How many instances of a kind a pool holds. -/
def tally (q : Instance → Bool) (p : Pool) : Nat :=
  p.held.countP q

theorem tally_of_parts {q : Instance → Bool} {p : Pool} {ready taken : List Instance}
    (hready : p.ready = ready) (htaken : p.taken = taken) :
    p.tally q = ready.countP q + taken.countP q := by
  unfold tally held
  rw [hready, htaken, List.countP_append]

theorem tally_eq (q : Instance → Bool) (p : Pool) :
    p.tally q = p.ready.countP q + p.taken.countP q :=
  tally_of_parts rfl rfl

theorem tally_true (p : Pool) : p.tally (fun _ => true) = p.held.length :=
  congrFun List.countP_true p.held

/-- A pool that holds none from outside holds as many as belong to it. -/
theorem tally_true_of_pooled {p : Pool} (h : p.tally (·.detached) = 0) :
    p.tally (fun _ => true) = p.tally (!·.detached) := by
  have hlength := List.length_eq_countP_add_countP (fun i : Instance => i.detached) (l := p.held)
  have hnone : p.held.countP (fun i => i.detached) = 0 := h
  rw [tally_true, hlength, hnone, Nat.zero_add]
  simp only [tally, Bool.not_eq_true, Bool.decide_eq_false]

theorem taken_of_served {p p' : Pool} {l : List (Ticket × Except ExecutionError Instance)}
    (h : p'.served = p.served ++ l) : p'.taken = p.taken ++ l.filterMap (·.2.toOption) := by
  unfold taken
  rw [h, List.filterMap_append]

/-- Where claims go makes no difference to what a pool holds. -/
@[simp] theorem tally_grant (q : Instance → Bool) (p : Pool) : p.grant.tally q = p.tally q := by
  unfold tally held taken
  rw [ready_grant, served_grant]

/-- An instance that becomes ready is held from now on. -/
theorem tally_push (q : Instance → Bool) (p : Pool) (i : Instance) :
    (p.push i).tally q = p.tally q + if q i then 1 else 0 := by
  have hready : { p with ready := p.ready ++ [i] }.tally q = _ := tally_of_parts rfl rfl
  unfold push
  rw [tally_grant, hready, tally_eq, List.countP_append, List.countP_singleton]
  exact Nat.add_right_comm _ _ _

theorem tally_signal (q : Instance → Bool) (p : Pool) (l : List Signal) :
    (p.signal l).tally q = p.tally q := by
  unfold signal
  split <;> rfl

/-- An answer that tells of an error carries no instance. -/
theorem tally_refuse (q : Instance → Bool) {p p' : Pool}
    {l : List (Ticket × Except ExecutionError Instance)} (hserved : p'.served = p.served ++ l)
    (hl : ∀ a ∈ l, a.2.toOption = none) (hready : p'.ready = p.ready) :
    p'.tally q = p.tally q := by
  -- what is answered changes, but no instance is among the answers
  have hnone : l.filterMap (·.2.toOption) = [] := List.filterMap_eq_nil_iff.mpr hl
  have htaken : p'.taken = p.taken := by
    rw [taken_of_served hserved, hnone, List.append_nil]
  rw [tally_eq, tally_eq, htaken, hready]

/-- An answer that gives the instance that was ready for longest moves it. -/
theorem tally_serve (q : Instance → Bool) {p p' : Pool} {ticket : Ticket} {i : Instance}
    (hserved : p'.served = p.served ++ [(ticket, .ok i)]) (hready : p.ready = i :: p'.ready) :
    p'.tally q = p.tally q := by
  have htaken : p'.taken = p.taken ++ [i] := taken_of_served hserved
  rw [tally_eq, tally_eq, htaken, hready, List.countP_append, List.countP_singleton,
    List.countP_cons]
  omega

/-- A caller that goes on holds no more than the pool has held. -/
theorem tally_resume (q : Instance → Bool) (p : Pool) (ticket : Ticket) (since : Nat) :
    (p.resume ticket since).tally q = p.tally q := by
  obtain ⟨-, h⟩ | ⟨-, -, h⟩ | ⟨-, i, rest, hready, h⟩ := p.resume_cases ticket since
  · rw [h]
    exact tally_refuse q rfl (fun a ha => by rw [List.mem_singleton.mp ha]; rfl) rfl
  · rw [h]
    rfl
  · rw [h]
    exact tally_serve q rfl hready

/-- Asking moves at most one instance, from the ready ones into an answer. -/
theorem tally_acquire (q : Instance → Bool) (p : Pool) : p.acquire.2.tally q = p.tally q := by
  by_cases hclosed : p.closed = true
  · rw [acquire_closed hclosed]
    exact tally_refuse q rfl (fun a ha => by rw [List.mem_singleton.mp ha]; rfl) rfl
  · have hopen := eq_false_of_ne_true hclosed
    obtain hnone | ⟨permits, i, rest, hpermits, hready⟩ := p.takes_or_not
    · rw [acquire_empty hopen hnone]
      exact tally_signal q { p with
        nextTicket := p.nextTicket + 1, permits := p.permits - 1 } [.grow]
    · rw [acquire_ready hopen hpermits hready]
      exact tally_serve q rfl hready

theorem tally_cancel (q : Instance → Bool) (p : Pool) (ticket : Ticket) :
    (p.cancel ticket).tally q = p.tally q := by
  obtain h | ⟨l, since, r, -, h⟩ := p.cancel_cases ticket
  · rw [h]
    rfl
  · rw [h, tally_grant]
    rfl

theorem tally_requestShutdown (q : Instance → Bool) (p : Pool) :
    p.requestShutdown.tally q = p.tally q := by
  unfold requestShutdown
  split
  · rfl
  · dsimp only
    rw [tally_signal]
    refine tally_refuse q rfl (fun a ha => ?_) rfl
    obtain ⟨ticket, _, rfl⟩ := List.mem_map.mp ha
    rfl

theorem claim_cons {p : Pool} {ticket : Ticket} {answer : Except ExecutionError Instance}
    {rest : List (Ticket × Except ExecutionError Instance)}
    (h : p.served = (ticket, answer) :: rest) :
    p.claim ticket = (some answer, { p with served := rest }) := by
  unfold claim
  rw [h, List.eraseP_cons, List.find?_cons, beq_self_eq_true]
  rfl

/-- The answer to a caller is one of those that the pool keeps, and the others stay. -/
theorem claim_cases (p : Pool) (ticket : Ticket) :
    (∀ a ∈ p.served, a.1 ≠ ticket) ∧ p.claim ticket = (none, p) ∨
      ∃ l answer r, p.served = l ++ (ticket, answer) :: r ∧
        p.claim ticket = (some answer, { p with served := l ++ r }) := by
  unfold claim
  -- the first answer with the ticket is found and taken out by the same test
  cases hfind : p.served.find? (fun a => a.1 == ticket) with
  | none =>
    have hnone (a : Ticket × Except ExecutionError Instance) (ha : a ∈ p.served) : a.1 ≠ ticket :=
      fun heq => List.find?_eq_none.mp hfind a ha (beq_iff_eq.mpr heq)
    refine .inl ⟨hnone, ?_⟩
    rw [List.eraseP_of_forall_not fun a ha => mt beq_iff_eq.mp (hnone a ha)]
    rfl
  | some found =>
    obtain ⟨t, answer⟩ := found
    obtain ⟨hfound, l, r, hserved, hbefore⟩ := List.find?_eq_some_iff_append.mp hfind
    obtain rfl : t = ticket := beq_iff_eq.mp hfound
    refine .inr ⟨l, answer, r, hserved, ?_⟩
    have herase : p.served.eraseP (fun a => a.1 == t) = l ++ r := by
      rw [hserved, List.eraseP_append_right _ fun a ha => by simpa using hbefore a ha,
        List.eraseP_cons, hfound]
      rfl
    rw [herase]
    rfl

theorem tally_claim (q : Instance → Bool) (p : Pool) (ticket : Ticket) :
    p.tally q = (p.claim ticket).2.tally q +
      ((p.claim ticket).1.elim [] (·.toOption.toList)).countP q := by
  obtain ⟨-, h⟩ | ⟨l, answer, r, hserved, h⟩ := p.claim_cases ticket
  · rw [h]
    rfl
  · have htaken : p.taken = l.filterMap (·.2.toOption) ++
        (answer.toOption.toList ++ r.filterMap (·.2.toOption)) := by
      unfold taken
      rw [hserved, List.filterMap_append]
      cases answer <;> rfl
    have hleft : { p with served := l ++ r }.taken =
        l.filterMap (·.2.toOption) ++ r.filterMap (·.2.toOption) :=
      List.filterMap_append
    rw [h, tally_of_parts rfl htaken, tally_of_parts rfl hleft]
    simp only [List.countP_append, Option.elim_some]
    omega

/-- The instance that is ready for longest, taken away. -/
theorem tally_ready (q : Instance → Bool) {p : Pool} {i : Instance} {rest : List Instance}
    (h : p.ready = i :: rest) :
    p.tally q = { p with ready := rest }.tally q + if q i then 1 else 0 := by
  have hless : { p with ready := rest }.tally q = _ := tally_eq q _
  rw [hless, tally_of_parts h rfl, List.countP_cons]
  exact Nat.add_right_comm _ _ _

/-- What nobody has a claim to, taken away. -/
theorem tally_cleared (q : Instance → Bool) (p : Pool) :
    p.tally q = p.cleared.tally q + (p.ready.take p.unclaimed).countP q := by
  have hsplit := congrArg (List.countP q) (List.take_append_drop p.unclaimed p.ready)
  have hcleared : p.cleared.tally q = (p.ready.drop p.unclaimed).countP q + p.taken.countP q :=
    tally_of_parts rfl rfl
  rw [List.countP_append] at hsplit
  rw [hcleared, tally_eq, ← hsplit]
  omega

theorem length_unclaimed (p : Pool) : (p.ready.take p.unclaimed).length = p.unclaimed := by
  rw [List.length_take]
  unfold unclaimed
  split <;> omega

end Pool

end ContractHost
