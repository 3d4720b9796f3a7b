import ContractHost.Proofs.Pool.Bound
import ContractHost.Proofs.Pool.Work
import Mathlib.Data.List.Perm.Subperm

/-!
# After the end

When the control task obeys the end, it empties the pool and stops.  Requests for growth, resets and
replacements that were told before have been obeyed by then; those that are told later are not heard
any more.  So from then on nothing enters the pool, and only the instances that somebody has are
left to be taken off its size.

## Main definitions

* `Pool.Drained` — a pool of which the control task has obeyed the end.
* `Scene.Dwindles` — what happens to the instances that somebody has, and to the answers.

## Main results

* `Pool.Steady.drained` — **obeying the end drains the pool**, whatever was told before.
* `Scene.Step.dwindles` — a single action leaves a drained pool drained, and lets nobody have an
  instance of it who had none.
* `Scene.Reachable.invariant_of_drained` — the books stay in order after the end.
* `Scene.Reachable.drained_of_run` — **in every run after the end** all callers are refused, nothing
  is ready, and the size is the number of instances that somebody still has.
-/

namespace ContractHost

namespace Pool

variable {σ : Type} {s : Supply σ} {p p' : Pool}

/-- A pool of which the control task has obeyed the end. -/
structure Drained (p : Pool) : Prop where
  /-- The pool is shut down. -/
  closed : p.closed = true
  /-- The control task has ended. -/
  ended : p.control = .ended
  /-- Nothing is left that it was told. -/
  signals : p.signals = []
  /-- No instance is ready. -/
  ready : p.ready = []
  /-- Nobody waits for one. -/
  waiters : p.waiters = []

/-- **Obeying the end drains the pool.** -/
theorem Steady.drained (h : p.Steady) (hclosed : p.closed = true) (x : σ) :
    (p.obey s x .shutdown).1.Drained where
  closed := hclosed
  ended := rfl
  signals := rfl
  ready := by
    -- of a pool that is shut down no claim is honoured, so that no instance is spared
    have hall : p.unclaimed = p.ready.length := if_pos hclosed
    show p.ready.drop p.unclaimed = []
    rw [hall, List.drop_length]
  waiters := h.shut hclosed

namespace Drained

theorem congr (h : p.Drained) (horders : p'.orders = p.orders) (hready : p'.ready = p.ready)
    (hwaiters : p'.waiters = p.waiters) : p'.Drained where
  closed := (congrArg (·.2.2) horders).trans h.closed
  ended := (congrArg (·.2.1) horders).trans h.ended
  signals := (congrArg (·.1) horders).trans h.signals
  ready := hready.trans h.ready
  waiters := hwaiters.trans h.waiters

theorem signal (h : p.Drained) (l : List Signal) : p.signal l = p :=
  if_pos h.ended

theorem goOn (h : p.Drained) (x : σ) : p.goOn s x = (p, x) := by
  unfold Pool.goOn
  rw [h.ended]

theorem taken_refused {ticket : Ticket} {e : ExecutionError}
    (h : p'.served = p.served ++ [(ticket, .error e)]) : p'.taken = p.taken := by
  rw [taken_of_served h]
  exact List.append_nil _

theorem cancel (h : p.Drained) (ticket : Ticket) :
    (p.cancel ticket).Drained ∧ (p.cancel ticket).label = p.label ∧
      (p.cancel ticket).served = p.served := by
  have hnobody : p.waiters.filter (fun w => !isWaiting ticket w) = p.waiters := by
    rw [h.waiters, List.filter_nil]
  obtain heq | ⟨l, since, r, -, heq⟩ := p.cancel_cases ticket
  · rw [heq, hnobody]
    exact ⟨h.congr rfl rfl rfl, rfl, rfl⟩
  · rw [heq, hnobody, grant_nil (p := { p with woken := l ++ r }) h.waiters]
    exact ⟨h.congr rfl rfl rfl, rfl, rfl⟩

end Drained

end Pool

namespace Scene

variable {σ : Type} {s : NumberedSupply σ} {sc sc' sc'' : Scene σ}

/-- From `sc` to `sc'` nobody was given an instance of the pool: those that somebody has are some of
those that somebody had, and all that callers were answered meanwhile is that the pool is shut
down. -/
structure Dwindles (sc sc' : Scene σ) : Prop where
  /-- Who has an instance had it before. -/
  out : List.Subperm sc'.checkedOut sc.checkedOut
  /-- New answers are refusals. -/
  answers : ∀ a ∈ sc'.pool.served, a ∈ sc.pool.served ∨ a.2 = .error sc.pool.closedError
  /-- The contract of the pool is the same. -/
  contract : sc'.pool.contract = sc.pool.contract

namespace Dwindles

theorem refl (sc : Scene σ) : sc.Dwindles sc :=
  ⟨List.Subperm.refl _, fun _ ha => .inl ha, rfl⟩

theorem trans (h : sc.Dwindles sc') (h' : sc'.Dwindles sc'') : sc.Dwindles sc'' := by
  refine ⟨h'.out.trans h.out, fun a ha => ?_, h'.contract.trans h.contract⟩
  rcases h'.answers a ha with hold | hrefused
  · exact h.answers a hold
  · right
    rw [hrefused]
    unfold Pool.closedError
    rw [h.contract]

/-- Something changes that is neither an instance in use nor an answer. -/
theorem of_same {pool : Pool} {out : List Instance} (world : Census σ)
    (hlabel : pool.label = sc.pool.label) (hserved : pool.served = sc.pool.served)
    (hout : (out.filter (!·.detached)).Sublist (sc.out.filter (!·.detached))) :
    sc.Dwindles ⟨pool, out, world⟩ := by
  refine ⟨?_, fun a ha => .inl (hserved ▸ ha), congrArg (·.1) hlabel⟩
  unfold checkedOut Pool.taken
  dsimp only
  rw [hserved]
  exact (hout.append_left _).subperm

theorem of_refused {pool : Pool} {ticket : Ticket} (hlabel : pool.label = sc.pool.label)
    (hserved : pool.served = sc.pool.served ++ [(ticket, .error sc.pool.closedError)]) :
    sc.Dwindles { sc with pool } := by
  have htaken := Pool.Drained.taken_refused hserved
  refine ⟨?_, fun a ha => ?_, congrArg (·.1) hlabel⟩
  · unfold checkedOut
    dsimp only
    rw [htaken]
  · have ha : a ∈ pool.served := ha
    rw [hserved] at ha
    rcases List.mem_append.mp ha with hold | hnew
    · exact .inl hold
    · exact .inr (by rw [List.mem_singleton.mp hnew])

theorem of_claim (sc : Scene σ) (ticket : Ticket) : sc.Dwindles { sc with
    pool := (sc.pool.claim ticket).2
    out := sc.out ++ (sc.pool.claim ticket).1.elim [] (·.toOption.toList) } := by
  obtain ⟨-, heq⟩ | ⟨l, answer, r, hserved, heq⟩ := sc.pool.claim_cases ticket
  · rw [heq]
    exact of_same _ rfl rfl (by rw [Option.elim_none, List.append_nil])
  · rw [heq]
    refine ⟨?_, fun a ha => ?_, rfl⟩
    · have hbefore : sc.checkedOut = l.filterMap (·.2.toOption) ++
          (answer.toOption.toList ++ r.filterMap (·.2.toOption)) ++
            sc.out.filter (!·.detached) := by
        unfold checkedOut Pool.taken
        rw [hserved, List.filterMap_append, List.filterMap_cons]
        cases answer <;> rfl
      rw [hbefore]
      show List.Subperm ((l ++ r).filterMap (·.2.toOption) ++
        (sc.out ++ answer.toOption.toList).filter (!·.detached)) _
      rw [List.filterMap_append, List.filter_append, List.append_assoc, List.append_assoc]
      refine (List.subperm_append_left _).mpr ?_
      -- the instance is counted with the user instead
      have hmoved : (answer.toOption.toList ++ r.filterMap (·.2.toOption) ++
          sc.out.filter (!·.detached)).Perm (r.filterMap (·.2.toOption) ++
            (sc.out.filter (!·.detached) ++ answer.toOption.toList)) := by
        rw [List.append_assoc, ← List.append_assoc (r.filterMap _)]
        exact List.perm_append_comm
      refine List.Subperm.trans ?_ hmoved.symm.subperm
      exact ((List.filter_sublist.append_left _).append_left _).subperm
    · refine .inl ?_
      rw [hserved]
      exact List.mem_append.mpr ((List.mem_append.mp ha).imp_right (List.mem_cons_of_mem _))

end Dwindles

theorem sublist_of_part {l r : List Instance} {i : Instance} (hout : sc.out = l ++ i :: r) :
    ((l ++ r).filter (!·.detached)).Sublist (sc.out.filter (!·.detached)) := by
  rw [hout]
  exact (((List.sublist_cons_self i r).append_left l)).filter _

/-- **A single action leaves a drained pool drained**, and gives nobody an instance of it. -/
theorem Step.dwindles (hstep : Step s sc sc') (h : sc.pool.Drained) :
    sc'.pool.Drained ∧ sc.Dwindles sc' := by
  -- callers are refused, instances only go, and the task that has ended does nothing
  cases hstep with
  | acquire =>
    rw [Pool.acquire_closed h.closed]
    exact ⟨h.congr rfl rfl rfl, .of_refused rfl rfl⟩
  | cancel ticket =>
    obtain ⟨hdrained, hlabel, hserved⟩ := h.cancel ticket
    exact ⟨hdrained, .of_same _ hlabel hserved (List.Sublist.refl _)⟩
  | resume hp =>
    rename_i l r ticket since
    have hrefused := Pool.resume_closed (p := { sc.pool with woken := l ++ r })
      h.closed ticket since
    rw [hrefused]
    exact ⟨h.congr rfl rfl rfl, .of_refused rfl rfl⟩
  | claim ticket => exact ⟨h.congr rfl rfl rfl, .of_claim sc ticket⟩
  | release hout hafter =>
    rename_i l r i i'
    rcases Pool.release_cases s.counted sc.pool i' sc.world with
      ⟨-, heq⟩ | ⟨-, -, heq⟩ | ⟨-, hopen, -⟩ | ⟨-, hopen, -⟩
    · rw [heq]
      exact ⟨h, .of_same _ rfl rfl (sublist_of_part hout)⟩
    · rw [heq]
      exact ⟨h.congr rfl rfl rfl, .of_same _ rfl rfl (sublist_of_part hout)⟩
    · exact absurd (hopen.symm.trans h.closed) Bool.false_ne_true
    · exact absurd (hopen.symm.trans h.closed) Bool.false_ne_true
  | discard hout hafter =>
    rename_i l r i i'
    rcases Pool.discard_cases s.counted sc.pool i' sc.world with
      ⟨-, heq⟩ | ⟨-, -, heq⟩ | ⟨-, hopen, -⟩
    · rw [heq]
      exact ⟨h, .of_same _ rfl rfl (sublist_of_part hout)⟩
    · rw [heq]
      exact ⟨h.congr rfl rfl rfl, .of_same _ rfl rfl (sublist_of_part hout)⟩
    · exact absurd (hopen.symm.trans h.closed) Bool.false_ne_true
  | spawn hcreate =>
    rename_i i world
    refine ⟨h, .of_same _ rfl rfl ?_⟩
    -- what nested calls are given is not counted
    have hdetached : i.detached = true := by
      unfold Pool.createDetached at hcreate
      split at hcreate
      · cases hcreate
        rfl
      · cases hcreate
    have hnone : [i].filter (fun j : Instance => !j.detached) = [] := by
      rw [List.filter_singleton, hdetached]
      rfl
    rw [List.filter_append, hnone, List.append_nil]
  | close hout hafter hdetached =>
    exact ⟨h, .of_same _ rfl rfl (sublist_of_part hout)⟩
  | requestReset =>
    unfold Pool.requestReset
    rw [h.signal]
    exact ⟨h.congr rfl rfl rfl, .of_same _ rfl rfl (List.Sublist.refl _)⟩
  | requestShutdown =>
    rw [Pool.requestShutdown_closed h.closed]
    exact ⟨h, .refl sc⟩
  | obey hidle hsignals => exact absurd (h.ended.symm.trans hidle) (by decide)
  | tick hidle => exact absurd (h.ended.symm.trans hidle) (by decide)
  | goOn =>
    rw [h.goOn]
    exact ⟨h, .refl sc⟩
  | spawnFailed | wait | advance | elsewhere =>
    exact ⟨h.congr rfl rfl rfl, .of_same _ rfl rfl (List.Sublist.refl _)⟩

/-- What holds after one action holds after a run. -/
theorem Dwindles.of_run (hrun : Relation.ReflTransGen (Step s) sc sc') (h : sc.pool.Drained) :
    sc'.pool.Drained ∧ sc.Dwindles sc' := by
  induction hrun with
  | refl => exact ⟨h, .refl sc⟩
  | tail _ hstep ih =>
    obtain ⟨hdrained, hdwindles⟩ := hstep.dwindles ih.1
    exact ⟨hdrained, ih.2.trans hdwindles⟩

variable {contract : ContractId} {program : Module} {settings : PoolTerms}

/-- The instances that somebody has are among the living. -/
theorem Conserved.checkedOut_le (h : sc.Conserved) :
    sc.checkedOut.length ≤ sc.world.live.length := by
  rw [h.places.length_eq, List.length_map, List.length_append, List.length_append]
  omega

/-- Under settings that leave room for growth, no more instances are in use than can be counted. -/
theorem Reachable.checkedOut_lt {bound : Nat} (hroom : settings.Roomy bound)
    (h : Reachable s contract program settings sc) : sc.checkedOut.length < 2 ^ 32 := by
  have hcounted := (h.within hroom).fits.counted
  have hlength := Invariant.held_length sc
  have hlt := sc.pool.size.toNat_lt
  rw [Pool.tally_true] at hcounted
  unfold total at hlength
  omega

/-- The scene in which the control task has obeyed the end, of which it was told before `rest`. -/
def atEnd (s : NumberedSupply σ) (sc : Scene σ) (rest : List Signal) : Scene σ :=
  sc.act ({ sc.pool with signals := rest }.obey s.counted sc.world .shutdown)

/-- **The books stay in order after the end**: the control task has heard of every removal before.
-/
theorem Reachable.invariant_of_drained {rest : List Signal}
    (h : Reachable s contract program settings sc) (hidle : sc.pool.control = .idle)
    (hsignals : sc.pool.signals = .shutdown :: rest) (hbegin : (sc.atEnd s rest).pool.Drained)
    (hrun : Relation.ReflTransGen (Step s) (sc.atEnd s rest) sc') : sc'.Invariant s 0 := by
  have hawake : sc.pool.control ≠ .ended := fun he => Control.noConfusion (hidle.symm.trans he)
  induction hrun with
  | refl =>
    obtain ⟨lost, hlost, rfl | ⟨hgrow, -⟩⟩ := (h.invariant_of_awake hawake).obey hidle hsignals
    · exact hlost
    · exact Signal.noConfusion hgrow
  | tail hbefore hstep ih =>
    obtain ⟨hdrained, -⟩ := Dwindles.of_run hbefore hbegin
    obtain ⟨lost, hlost, rfl | ⟨-, ⟨-, hopen⟩ | ⟨hfree, -⟩⟩⟩ := hstep.invariant ih
    · exact hlost
    · exact absurd (hopen.symm.trans hdrained.closed) Bool.false_ne_true
    · exact Control.noConfusion (hfree.symm.trans hdrained.ended)

/-- **Pools stay drained after the end.**  In every run that follows, nothing is ready, and nobody
waits; every caller is told that the pool is shut down; and the size is the number of instances that
somebody has had since before the end.  The size is a number of 32 bits, and is that number as long
as so many instances can live on the host, or can belong to a pool of these settings; then it is
zero exactly when the last of them was given back or given up. -/
theorem Reachable.drained_of_run {rest : List Signal}
    (h : Reachable s contract program settings sc) (hidle : sc.pool.control = .idle)
    (hsignals : sc.pool.signals = .shutdown :: rest)
    (hrun : Relation.ReflTransGen (Step s) (sc.atEnd s rest) sc') :
    sc'.pool.ready = [] ∧ sc'.pool.waiters = [] ∧
      sc'.pool.acquire.2.served =
        sc'.pool.served ++ [(sc'.pool.acquire.1, .error (.poolClosed contract.key))] ∧
      (∀ a ∈ sc'.pool.served,
        a ∈ (sc.atEnd s rest).pool.served ∨ a.2 = .error (.poolClosed contract.key)) ∧
      List.Subperm sc'.checkedOut (sc.atEnd s rest).checkedOut ∧
      sc'.pool.size = UInt32.ofNat sc'.checkedOut.length ∧
      (sc'.world.live.length < 2 ^ 32 ∨ (∃ bound, settings.Roomy bound) →
        sc'.pool.size.toNat = sc'.checkedOut.length ∧
          (sc'.pool.size = 0 ↔ sc'.checkedOut = [])) := by
  have hclosed : sc.pool.closed = true := h.steady.last (hsignals ▸ List.mem_cons_self)
  have hbegin : (sc.atEnd s rest).pool.Drained :=
    (h.steady.next hsignals).drained (s := s.counted) hclosed sc.world
  obtain ⟨hdrained, hdwindles⟩ := Dwindles.of_run hrun hbegin
  have hreach : Reachable s contract program settings sc' :=
    (h.step (Step.obey hidle hsignals)).run hrun
  have hinvariant := h.invariant_of_drained hidle hsignals hbegin hrun
  have hconserved := hinvariant.conserved hinvariant.size_eq
  -- nothing is ready and no removal is left to be told, so only what is checked out is counted
  have hsize : sc'.pool.size = UInt32.ofNat sc'.checkedOut.length := by
    rw [hconserved.size]
    unfold total removals
    rw [hdrained.ready, hdrained.signals]
    simp only [List.length_nil, List.count_nil, Nat.zero_add, Nat.add_zero]
  have hkey : ∀ {sc : Scene σ}, Reachable s contract program settings sc →
      sc.pool.closedError = .poolClosed contract.key := by
    intro sc hsc
    unfold Pool.closedError
    have hcontract : sc.pool.contract = contract := congrArg (·.1) hsc.label
    rw [hcontract]
  refine ⟨hdrained.ready, hdrained.waiters, ?_, ?_, hdwindles.out, hsize, ?_⟩
  · rw [Pool.acquire_closed hdrained.closed, hkey hreach]
    unfold Pool.acquire
    rw [if_pos hdrained.closed]
  · rw [← hkey (h.step (Step.obey hidle hsignals))]
    exact hdwindles.answers
  · intro hroom
    have hlt : sc'.checkedOut.length < 2 ^ 32 := by
      rcases hroom with hlive | ⟨bound, hroom⟩
      · exact hconserved.checkedOut_le.trans_lt hlive
      · exact hreach.checkedOut_lt hroom
    have hcount : sc'.pool.size.toNat = sc'.checkedOut.length := by
      rw [hsize, UInt32.toNat_ofNat_of_lt' hlt]
    refine ⟨hcount, ?_⟩
    rw [← UInt32.toNat_inj, hcount, UInt32.toNat_zero, List.length_eq_zero_iff]

/-- A pool of one instance is shut down while a caller has it.  Its size is one after the end, and
zero when the caller has given the instance back; who asks in between is refused. -/
theorem drained_of_one :
    ∃ sc sc' : Scene Nat,
      Reachable .unfailing ⟨"counter", "1.0.0"⟩ default
        { minSize := 1, maxSize := 2, growStep := 1 } sc ∧
      sc.pool.control = .idle ∧ sc.pool.signals = [.shutdown] ∧
      Relation.ReflTransGen (Step .unfailing) (sc.atEnd .unfailing []) sc' ∧
      (sc.atEnd .unfailing []).pool.size = 1 ∧ sc'.pool.size = 0 ∧
      sc'.pool.served = [(1, .error (.poolClosed "counter_1.0.0"))] := by
  let i : Instance :=
    { (default : Module) with id := 1, pageLimit := 0, memory := ⟨0, ∅⟩, gas := 0 }
  let p : Pool :=
    { contract := ⟨"counter", "1.0.0"⟩, program := default, ready := [i], permits := 1, size := 1
      settings := { minSize := 1, maxSize := 2, growStep := 1 } }
  have hcreate : Pool.create NumberedSupply.unfailing.counted ⟨"counter", "1.0.0"⟩ default
      { minSize := 1, maxSize := 2, growStep := 1 } ⟨0, []⟩ = (.ok p, ⟨2, [1]⟩) := rfl
  let sc : Scene Nat :=
    { pool := { p with
        ready := [], permits := 0, uses := 1, nextTicket := 1, closed := true,
        signals := [.shutdown] }
      out := [i]
      world := ⟨2, [1]⟩ }
  have hclosing : Reachable .unfailing ⟨"counter", "1.0.0"⟩ default
      { minSize := 1, maxSize := 2, growStep := 1 } sc :=
    (((Reachable.create hcreate).step (Step.acquire _)).step (Step.claim _ 0)).step
      (Step.requestShutdown _)
  -- another caller is refused, and then the instance is given back
  have hrefused := Step.acquire (s := .unfailing) (sc.atEnd .unfailing [])
  have hback := (Relation.ReflTransGen.single hrefused).tail
    (@Step.release _ _ _ [] [] i i rfl ⟨rfl, rfl, rfl⟩)
  obtain ⟨-, -, -, -, -, hsize, -⟩ := hclosing.drained_of_run rfl rfl hback
  exact ⟨sc, _, hclosing, rfl, rfl, hback, by decide +kernel, hsize, rfl⟩

end Scene

end ContractHost
