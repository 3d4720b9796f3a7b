import ContractHost.Proofs.Pool.Counting
import ContractHost.Proofs.Pool.Sources

/-!
# Callers and their tickets

Whoever asks a pool for an instance gets a ticket that nobody else has.  From then on the ticket is
in the line, or with a claim, or with an answer; and work on the pool neither loses one nor adds
one. A caller that takes its answer, or no longer waits, takes its ticket along.  So a pool owes an
answer to those who have asked and not gone, and to nobody else.

## Main definitions

* `Pool.tickets` — the tickets of all callers that have not taken an answer.
* `Pool.Owes` — exactly the callers with these tickets have not.

## Main results

* `Pool.workStable_owes`, `Pool.Owes.settle` — **work on a pool keeps the tickets.**
* `Pool.Owes.acquire`, `Pool.Owes.claim`, `Pool.Owes.cancel` — callers come and go.
-/

namespace ContractHost

/-- The ticket of a caller; the control task has none. -/
def Waiter.ticket? : Waiter → Option Ticket
  | .caller ticket _ => some ticket
  | .control => none

namespace Pool

variable {σ : Type} {s : Supply σ}

/-- The tickets of the callers that wait, or were given a claim, or got an answer that they have not
taken. -/
def tickets (p : Pool) : List Ticket :=
  (p.waiters ++ p.woken).filterMap Waiter.ticket? ++ p.served.map (·.1)

theorem tickets_of_perm {p q : Pool}
    (hline : (q.waiters ++ q.woken).Perm (p.waiters ++ p.woken)) (hserved : q.served = p.served) :
    q.tickets.Perm p.tickets := by
  unfold tickets
  rw [hserved]
  exact (hline.filterMap _).append_right _

/-! ### Single actions -/

theorem tickets_signal (p : Pool) (l : List Signal) : (p.signal l).tickets = p.tickets := by
  unfold signal
  split <;> rfl

/-- A claim that somebody is given takes no ticket away. -/
theorem tickets_grant (p : Pool) : p.grant.tickets.Perm p.tickets := by
  refine tickets_of_perm ?_ (served_grant p)
  cases hwaiters : p.waiters with
  | nil =>
    rw [grant_nil hwaiters]
    exact .of_eq (congrArg (· ++ p.woken) hwaiters)
  | cons w rest =>
    rw [grant_cons hwaiters]
    show (rest ++ (p.woken ++ [w])).Perm (w :: rest ++ p.woken)
    rw [← List.append_assoc]
    exact List.perm_append_singleton _ _

theorem tickets_push (p : Pool) (i : Instance) : (p.push i).tickets.Perm p.tickets :=
  tickets_grant _

/-- A caller with a claim has an answer next, or waits again. -/
theorem tickets_resume {p : Pool} {l r : List Waiter} {ticket : Ticket} {since : Nat}
    (hp : p.woken = l ++ .caller ticket since :: r) :
    ({ p with woken := l ++ r }.resume ticket since).tickets.Perm p.tickets := by
  have hbefore : (p.waiters ++ p.woken).Perm
      (Waiter.caller ticket since :: (p.waiters ++ (l ++ r))) := by
    rw [hp, ← List.append_assoc, ← List.append_assoc]
    exact List.perm_middle
  have hanswered (answer : Except ExecutionError Instance) :
      ((p.waiters ++ (l ++ r)).filterMap Waiter.ticket? ++
        (p.served ++ [(ticket, answer)]).map (·.1)).Perm p.tickets := by
    refine .trans ?_ ((hbefore.filterMap Waiter.ticket?).append_right _).symm
    rw [List.map_append, ← List.append_assoc]
    exact List.perm_append_singleton _ _
  -- whoever is woken has an answer afterwards or is back in the line, so the ticket is still there
  obtain ⟨-, heq⟩ | ⟨-, -, heq⟩ | ⟨-, i, rest, -, heq⟩ :=
    resume_cases { p with woken := l ++ r } ticket since
  · rw [heq]
    exact hanswered _
  · rw [heq]
    refine tickets_of_perm ?_ rfl
    show (p.waiters ++ [Waiter.caller ticket since] ++ (l ++ r)).Perm _
    rw [List.append_assoc]
    exact List.perm_middle.trans hbefore.symm
  · rw [heq]
    exact hanswered _

/-- A caller that no longer waits leaves the line, or gives up its claim. -/
theorem tickets_cancel (p : Pool) (ticket : Ticket) :
    (p.cancel ticket).tickets.Perm ((p.waiters.filterMap Waiter.ticket?).filter (· != ticket) ++
      (p.woken.filterMap Waiter.ticket?).erase ticket ++ p.served.map (·.1)) := by
  have hline : (p.waiters.filter fun w => !isWaiting ticket w).filterMap Waiter.ticket? =
      (p.waiters.filterMap Waiter.ticket?).filter (· != ticket) := by
    rw [List.filter_filterMap, List.filterMap_filter]
    refine List.filterMap_congr fun w _ => ?_
    cases w with
    | control => rfl
    | caller t since =>
      by_cases h : t = ticket <;> simp [isWaiting, Waiter.ticket?, Option.filter, h]
  -- of those that were woken one at most has the ticket, so the first with it is the only one
  have hwoken : (p.woken.eraseP (isWaiting ticket)).filterMap Waiter.ticket? =
      (p.woken.filterMap Waiter.ticket?).erase ticket := by
    induction p.woken with
    | nil => rfl
    | cons w rest ih =>
      cases w with
      | control => exact ih
      | caller t since =>
        by_cases h : t = ticket
        · simp [isWaiting, Waiter.ticket?, h]
        · simp [isWaiting, Waiter.ticket?, h, ih]
  rw [← hline, ← hwoken, ← List.filterMap_append]
  unfold cancel
  split
  · exact tickets_grant _
  · rename_i hnone
    have hsame : p.woken.eraseP (isWaiting ticket) = p.woken :=
      List.eraseP_of_forall_not fun w hw hticket => hnone (List.any_eq_true.mpr ⟨w, hw, hticket⟩)
    rw [hsame]
    exact .refl _

/-! ### What a pool owes -/

/-- Exactly the callers with the tickets `l` have asked and not taken an answer. -/
structure Owes (p : Pool) (l : List Ticket) : Prop where
  /-- These are the tickets. -/
  tickets : p.tickets.Perm l
  /-- No two callers have the same. -/
  nodup : l.Nodup
  /-- They were given out. -/
  given : ∀ t ∈ l, t < p.nextTicket

namespace Owes

variable {p q : Pool} {l : List Ticket} {ticket : Ticket}

theorem of_perm (h : p.Owes l) (hq : q.tickets.Perm p.tickets)
    (hnext : q.nextTicket = p.nextTicket) : q.Owes l :=
  ⟨hq.trans h.tickets, h.nodup, fun t ht => hnext ▸ h.given t ht⟩

theorem congr (h : p.Owes l) (hstock : q.stock = p.stock) : q.Owes l := by
  have htickets : q.stock.tickets = p.stock.tickets := congrArg Pool.tickets hstock
  exact h.of_perm (.of_eq htickets) (congrArg (·.nextTicket) hstock)

/-- It is all the same in which order the tickets are listed. -/
theorem perm {l' : List Ticket} (h : p.Owes l) (hl : l.Perm l') : p.Owes l' :=
  ⟨h.tickets.trans hl, hl.nodup h.nodup, fun t ht => h.given t (hl.mem_iff.mpr ht)⟩

theorem of_empty {p : Pool} (h : p.tickets = []) : p.Owes [] :=
  ⟨.of_eq h, List.nodup_nil, fun _ ht => absurd ht List.not_mem_nil⟩

end Owes

/-- **Work neither loses a ticket nor adds one.** -/
theorem workStable_owes (s : Supply σ) (l : List Ticket) : WorkStable s fun p _ => p.Owes l where
  resume hp hl := hl.of_perm (tickets_resume hp) (congrArg (·.2.1) (terms_resume _ _ _))
  growOne {p x} hl := by
    unfold growOne
    split
    · exact hl.of_perm (tickets_push _ _) (congrArg (·.2.1) (terms_push _ _))
    · exact hl
  keep hl hstock := hl.congr hstock
  -- the task in the line has no ticket
  join {p x} hl := by
    have hsame : (p.waiters ++ [Waiter.control] ++ p.woken).filterMap Waiter.ticket? =
        (p.waiters ++ p.woken).filterMap Waiter.ticket? := by
      rw [List.filterMap_append, List.filterMap_append, List.filterMap_append]
      exact congrArg (· ++ _) (List.append_nil _)
    refine hl.of_perm ?_ rfl
    unfold tickets
    rw [hsame]
  leave {p x} hl := by
    refine hl.of_perm ?_ rfl
    by_cases hclaim : Waiter.control ∈ p.woken
    · have hfirst := (List.perm_cons_erase hclaim).filterMap Waiter.ticket?
      unfold tickets
      dsimp only
      rw [List.filterMap_append, List.filterMap_append]
      exact (hfirst.symm.append_left _).append_right _
    · rw [List.erase_of_not_mem hclaim]
  takeReady _ hl := hl.of_perm (.refl _) rfl

namespace Owes

variable {p : Pool} {l : List Ticket} {ticket : Ticket}

/-- **Settling keeps the tickets.** -/
theorem settle (h : p.Owes l) (x : σ) : (p.settle s x).1.Owes l :=
  (workStable_owes s l).settle (fun h => h.of_perm (.refl _) rfl) (x := x) h

theorem create {contract : ContractId} {program : Module} {settings : PoolTerms} {x y : σ}
    (hcreate : Pool.create s contract program settings x = (.ok p, y)) : p.Owes [] := by
  obtain ⟨trial, z, -, rfl, -⟩ := create_eq_ok hcreate
  exact (((workStable_owes s []).grow (p := { contract, program, settings })
    (x := s.teardown trial z) settings.minSize (.of_empty rfl)).congr rfl)

theorem release (h : p.Owes l) (i : Instance) (x : σ) : (p.release s i x).1.Owes l := by
  rcases release_cases s p i x with ⟨-, heq⟩ | ⟨-, -, heq⟩ | ⟨-, -, heq⟩ | ⟨-, -, heq⟩
  · rw [heq]
    exact h
  · rw [heq]
    exact h.congr rfl
  · rw [heq]
    exact h.congr (stock_signal p _)
  · rw [heq]
    exact h.of_perm (tickets_push _ _) (congrArg (·.2.1) (terms_push _ _))

theorem discard (h : p.Owes l) (i : Instance) (x : σ) : (p.discard s i x).1.Owes l := by
  rcases discard_cases s p i x with ⟨-, heq⟩ | ⟨-, -, heq⟩ | ⟨-, -, heq⟩
  · rw [heq]
    exact h
  · rw [heq]
    exact h.congr rfl
  · rw [heq]
    exact h.congr (stock_signal p _)

theorem requestReset (h : p.Owes l) : p.requestReset.2.Owes l := by
  have hnext : p.requestReset.2.nextTicket = p.nextTicket :=
    congrArg (·.nextTicket) (stock_signal p [.reset p.nextRequest])
  exact h.of_perm (.of_eq (tickets_signal p _)) hnext

/-- Whoever waits is told that the pool is shut down. -/
theorem requestShutdown (h : p.Owes l) : p.requestShutdown.Owes l := by
  cases hclosed : p.closed with
  | true => rwa [requestShutdown_closed hclosed]
  | false =>
    rw [requestShutdown_open hclosed]
    have hnext : (p.dismissed.signal [.shutdown]).nextTicket = p.nextTicket :=
      congrArg (·.nextTicket) (stock_signal p.dismissed _)
    refine h.of_perm ?_ hnext
    have hwaiting : p.waiting = p.waiters.filterMap Waiter.ticket? := rfl
    -- all who wait are told that the pool is closed, in the order in which they wait
    have htold : p.dismissed.tickets = p.woken.filterMap Waiter.ticket? ++
        (p.served.map (·.1) ++ p.waiters.filterMap Waiter.ticket?) := by
      unfold Pool.tickets dismissed
      rw [List.map_append, List.map_map, ← hwaiting]
      exact congrArg (fun l => _ ++ (_ ++ l)) (List.map_id _)
    rw [tickets_signal, htold, ← List.append_assoc]
    unfold Pool.tickets
    rw [List.filterMap_append, List.append_assoc (p.waiters.filterMap _)]
    exact List.perm_append_comm

/-- **Whoever asks gets a ticket** that nobody had before. -/
theorem acquire (h : p.Owes l) : p.acquire.2.Owes (p.acquire.1 :: l) := by
  have hticket : p.acquire.1 = p.nextTicket := by
    unfold Pool.acquire
    dsimp only
    split
    · rfl
    · split <;> rfl
  have hnew : p.nextTicket ∉ l := fun hmem => Nat.lt_irrefl _ (h.given _ hmem)
  -- a number that was not given before, and all others as they were
  have hadded {q : Pool} (hnext : q.nextTicket = p.nextTicket + 1)
      (hq : q.tickets.Perm (p.nextTicket :: p.tickets)) : q.Owes (p.nextTicket :: l) := by
    refine ⟨hq.trans (h.tickets.cons _), List.nodup_cons.mpr ⟨hnew, h.nodup⟩, fun t ht => ?_⟩
    rw [hnext]
    rcases List.mem_cons.mp ht with rfl | ht
    · exact Nat.lt_succ_self _
    · exact Nat.lt_succ_of_lt (h.given t ht)
  have hanswered (answer : Except ExecutionError Instance) :
      ((p.waiters ++ p.woken).filterMap Waiter.ticket? ++
        (p.served ++ [(p.nextTicket, answer)]).map (·.1)).Perm (p.nextTicket :: p.tickets) := by
    rw [List.map_append, ← List.append_assoc]
    exact List.perm_append_singleton _ _
  rw [hticket]
  by_cases hclosed : p.closed = true
  · rw [acquire_closed hclosed]
    exact hadded rfl (hanswered _)
  · have hopen := eq_false_of_ne_true hclosed
    obtain hnone | ⟨permits, i, rest, hpermits, hready⟩ := p.takes_or_not
    · -- the ticket is the last one in the line
      have hq : p.acquire.2.tickets = p.waiters.filterMap Waiter.ticket? ++
          p.nextTicket :: (p.woken.filterMap Waiter.ticket? ++ p.served.map (·.1)) := by
        rw [acquire_empty hopen hnone]
        unfold Pool.tickets signal
        dsimp only
        split <;> simp [Waiter.ticket?]
      have hnext : p.acquire.2.nextTicket = p.nextTicket + 1 := by
        rw [acquire_empty hopen hnone]
        unfold signal
        dsimp only
        split <;> rfl
      refine hadded hnext ?_
      rw [hq]
      refine List.perm_middle.trans (.cons _ (.of_eq ?_))
      unfold Pool.tickets
      rw [List.filterMap_append, List.append_assoc]
    · rw [acquire_ready hopen hpermits hready]
      exact hadded rfl (hanswered _)

/-- A ticket that is taken away is owed no longer. -/
theorem less {q : Pool} (h : p.Owes l) (hnext : q.nextTicket = p.nextTicket)
    (hq : p.tickets.Perm (ticket :: q.tickets)) : q.Owes (l.filter (· != ticket)) := by
  have hl := h.tickets.symm.trans hq
  have hmem : ticket ∉ q.tickets := (List.nodup_cons.mp (hl.nodup_iff.mp h.nodup)).1
  have hothers : (ticket :: q.tickets).filter (· != ticket) = q.tickets := by
    rw [List.filter_cons_of_neg (by simp), List.filter_eq_self]
    exact fun t ht => bne_iff_ne.mpr fun heq => hmem (heq ▸ ht)
  refine ⟨?_, h.nodup.filter _, fun t ht => hnext ▸ h.given t (List.mem_of_mem_filter ht)⟩
  have hfiltered := hl.filter (· != ticket)
  rw [hothers] at hfiltered
  exact hfiltered.symm

/-- **A caller that has no answer no longer waits.** -/
theorem cancel (h : p.Owes l) (hnone : ∀ a ∈ p.served, a.1 ≠ ticket) :
    (p.cancel ticket).Owes (l.filter (· != ticket)) := by
  have hserved : (p.served.map (·.1)).filter (· != ticket) = p.served.map (·.1) := by
    refine List.filter_eq_self.mpr fun t ht => bne_iff_ne.mpr ?_
    obtain ⟨a, ha, rfl⟩ := List.mem_map.mp ht
    exact hnone a ha
  -- erasing a ticket once is leaving it out, for it stands there once
  have hnodup : (p.woken.filterMap Waiter.ticket?).Nodup := by
    have hall := h.tickets.nodup_iff.mpr h.nodup
    unfold Pool.tickets at hall
    rw [List.filterMap_append] at hall
    exact (List.nodup_append.mp (List.nodup_append.mp hall).1).2.1
  have hless : (p.cancel ticket).tickets.Perm (p.tickets.filter (· != ticket)) := by
    have hall : p.tickets = p.waiters.filterMap Waiter.ticket? ++
        p.woken.filterMap Waiter.ticket? ++ p.served.map (·.1) := by
      unfold Pool.tickets
      rw [List.filterMap_append]
    rw [hall, List.filter_append, List.filter_append, hserved, ← hnodup.erase_eq_filter]
    exact tickets_cancel p ticket
  have hnext : (p.cancel ticket).nextTicket = p.nextTicket := by
    obtain heq | ⟨a, since, b, -, heq⟩ := p.cancel_cases ticket
    · rw [heq]
    · rw [heq]
      exact congrArg (·.2.1) (terms_grant _)
  exact ⟨hless.trans (h.tickets.filter _), h.nodup.filter _,
    fun t ht => hnext ▸ h.given t (List.mem_of_mem_filter ht)⟩

/-- Whoever has gone may leave the line, too. -/
theorem cancel_of_not_mem (h : p.Owes l) (hmem : ticket ∉ l) : (p.cancel ticket).Owes l := by
  have hsame : l.filter (· != ticket) = l :=
    List.filter_eq_self.mpr fun t ht => bne_iff_ne.mpr fun heq => hmem (heq ▸ ht)
  rw [← hsame]
  refine h.cancel fun a ha heq => hmem (h.tickets.mem_iff.mp ?_)
  exact heq ▸ List.mem_append_right _ (List.mem_map_of_mem ha)

/-- **A caller takes its answer**, or there is none for it, and it may leave the line. -/
theorem claim (h : p.Owes l) (ticket : Ticket) :
    p.claim ticket = (none, p) ∧ (p.cancel ticket).Owes (l.filter (· != ticket)) ∨
      ∃ answer, (p.claim ticket).1 = some answer ∧
        (p.claim ticket).2.Owes (l.filter (· != ticket)) := by
  obtain ⟨hnone, heq⟩ | ⟨a, answer, b, hserved, heq⟩ := p.claim_cases ticket
  · exact .inl ⟨heq, h.cancel hnone⟩
  · rw [heq]
    refine .inr ⟨answer, rfl, h.less rfl ?_⟩
    unfold Pool.tickets
    rw [hserved, List.map_append, List.map_cons, List.map_append, ← List.append_assoc,
      ← List.append_assoc]
    exact List.perm_middle

end Owes

end Pool

end ContractHost
