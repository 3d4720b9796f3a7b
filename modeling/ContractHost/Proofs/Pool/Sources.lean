import ContractHost.Proofs.Pool.Conservation
import ContractHost.Proofs.Pool.Frame

/-!
# Where instances come from

An instance gets into a pool in two ways only: it is made for the pool, or a user gives it back.
Then it is ready, and goes to a caller that asks or to one that has waited.  So one look at a single
action shows where everything is that the pool holds after it.

Instances are told apart by their numbers.  A number that was never given out counts as one copy of
an instance that is still to be made; then no action makes a copy more.

## Main definitions

* `Pool.Fit`, `Pool.Admits` — what a pool demands of an instance, and before it becomes ready.
* `Pool.Expecting` — a caller that asked has no answer yet.
* `Pool.Sources`, `Scene.Enters` — where instances come from.
* `Scene.Hearing` — what becomes of the signals that the control task has still to hear.
* `Scene.copies` — how often a number is in use or still to be given out.

## Main results

* `Scene.Step.sources` — **what a single action moves, and where to.**
* `Scene.Step.hearing` — what a single action does to the queue of signals.
* `Scene.Step.copies_le` — **no action makes a second copy of an instance.**
-/

namespace ContractHost

variable {σ : Type}

/-- The signal asks for a reset. -/
def Signal.isReset : Signal → Bool
  | .reset _ => true
  | _ => false

/-- The census tells no more of a creation than the host does. -/
theorem NumberedSupply.host_create (s : NumberedSupply σ) (m : Module) (x : Census σ) :
    s.create m x.host = ((s.counted.create m x).1, (s.counted.create m x).2.host) := by
  unfold Supply.counted
  dsimp only
  split
  · rename_i i host hmade
    exact hmade
  · rename_i e host hmade
    exact hmade

/-- Numbers are given out in their order, whether a creation succeeds or not. -/
theorem NumberedSupply.next_create (s : NumberedSupply σ) (m : Module) (x : Census σ) :
    s.next x.host ≤ s.next (s.counted.create m x).2.host := by
  have hmade := s.host_create m x
  cases hresult : (s.counted.create m x).1 with
  | ok i =>
    rw [hresult] at hmade
    obtain ⟨hle, hlt, -⟩ := s.next_create_ok hmade
    exact hle.trans hlt.le
  | error e =>
    rw [hresult] at hmade
    exact s.next_create_error hmade

theorem NumberedSupply.next_teardownAll (s : NumberedSupply σ) (l : List Instance) (x : Census σ) :
    s.next x.host ≤ s.next (s.counted.teardownAll l x).host := by
  induction l generalizing x with
  | nil => exact le_rfl
  | cons i l ih => exact (s.next_teardown i x.host).trans (ih (s.counted.teardown i x))

/-- A number that is still to be given out counts as one. -/
def NumberedSupply.unborn (s : NumberedSupply σ) (n : Nat) (x : σ) : Nat :=
  if s.next x ≤ n then 1 else 0

theorem NumberedSupply.unborn_le (s : NumberedSupply σ) {x y : σ} (h : s.next x ≤ s.next y)
    (n : Nat) : s.unborn n y ≤ s.unborn n x := by
  unfold unborn
  split
  · rw [if_pos (h.trans ‹_›)]
  · exact Nat.zero_le _

/-- The instance that gets a number counts for it from then on. -/
theorem NumberedSupply.unborn_create (s : NumberedSupply σ) {m : Module} {i : Instance} {x y : σ}
    (h : s.create m x = (.ok i, y)) (n : Nat) :
    (if i.id == n then 1 else 0) + s.unborn n y ≤ s.unborn n x := by
  obtain ⟨hle, hlt, -⟩ := s.next_create_ok h
  by_cases hsame : i.id = n
  · subst hsame
    unfold unborn
    rw [if_pos (beq_self_eq_true _), if_neg (Nat.not_le.mpr hlt), if_pos hle]
  · rw [if_neg (by simpa using hsame), Nat.zero_add]
    exact s.unborn_le (hle.trans hlt.le) n

namespace Pool

/-- What a pool demands of every instance. -/
structure Fit (p : Pool) (i : Instance) : Prop where
  /-- It belongs to the pool. -/
  pooled : i.detached = false
  /-- It serves no invocation. -/
  unbound : i.bound = none
  /-- It has not failed too often. -/
  errors : i.errors ≤ p.settings.discardThreshold

/-- What a pool demands of an instance before it becomes ready. -/
structure Admits (p : Pool) (i : Instance) : Prop extends p.Fit i where
  /-- It is of the present generation. -/
  epoch : i.epoch = p.epoch

/-- The generation, and the numbers of the next caller and of the next reset. -/
def terms (p : Pool) : UInt64 × Ticket × Nat :=
  (p.epoch, p.nextTicket, p.nextRequest)

theorem terms_grant (p : Pool) : p.grant.terms = p.terms := by
  unfold grant
  split <;> rfl

theorem terms_push (p : Pool) (i : Instance) : (p.push i).terms = p.terms :=
  terms_grant _

theorem terms_resume (p : Pool) (ticket : Ticket) (since : Nat) :
    (p.resume ticket since).terms = p.terms := by
  obtain ⟨-, h⟩ | ⟨-, -, h⟩ | ⟨-, _, _, -, h⟩ := p.resume_cases ticket since <;> rw [h] <;> rfl

theorem Fit.congr {p q : Pool} {i : Instance} (h : p.Fit i) (hlabel : q.label = p.label) :
    q.Fit i := by
  have hsettings : q.settings = p.settings := congrArg (·.2.2) hlabel
  exact ⟨h.pooled, h.unbound, hsettings ▸ h.errors⟩

theorem Admits.congr {p q : Pool} {i : Instance} (h : p.Admits i) (hlabel : q.label = p.label)
    (hepoch : q.epoch = p.epoch) : q.Admits i :=
  ⟨h.toFit.congr hlabel, h.epoch.trans hepoch.symm⟩

/-- An answer with an instance is not among those that tell of an error. -/
theorem mem_of_refused {l l' : List (Ticket × Except ExecutionError Instance)}
    (hl : ∀ a ∈ l', a.2.toOption = none) {a : Ticket × Except ExecutionError Instance}
    (ha : a ∈ l ++ l') {i : Instance} (hi : a.2 = .ok i) : a ∈ l := by
  rcases List.mem_append.mp ha with ha | ha
  · exact ha
  · have hnone := hl a ha
    rw [hi] at hnone
    exact nomatch hnone

theorem mem_taken {p : Pool} {i : Instance} : i ∈ p.taken ↔ ∃ a ∈ p.served, a.2 = .ok i := by
  unfold taken
  rw [List.mem_filterMap]
  refine exists_congr fun a => and_congr_right fun _ => ?_
  cases a.2 <;> simp [Except.toOption]

/-- Where a pool holds an instance. -/
theorem mem_held {p : Pool} {i : Instance} :
    i ∈ p.held ↔ i ∈ p.ready ∨ ∃ a ∈ p.served, a.2 = .ok i := by
  unfold held
  rw [List.mem_append, mem_taken]

/-- A caller with this ticket has no answer yet: it waits in line, or has a claim. -/
def Expecting (p : Pool) (ticket : Ticket) : Prop :=
  ∃ since, .caller ticket since ∈ p.waiters ++ p.woken

/-- Whoever has been given a claim has waited for it. -/
theorem subset_grant (p : Pool) : p.grant.waiters ++ p.grant.woken ⊆ p.waiters ++ p.woken := by
  intro w hw
  cases hwaiters : p.waiters with
  | nil =>
    rw [grant_nil hwaiters] at hw
    exact hwaiters ▸ hw
  | cons first rest =>
    rw [grant_cons hwaiters] at hw
    simp only [List.mem_append, List.mem_cons, List.not_mem_nil, or_false] at hw ⊢
    tauto

/-- The instances of the second pool are those of the first one, and such as `E` holds of.  A caller
has got an instance because it asked an open pool, just now or before. -/
structure Sources (E : Instance → Prop) (p p' : Pool) : Prop where
  /-- An instance is ready that was ready, or has entered. -/
  ready : ∀ i ∈ p'.ready, i ∈ p.ready ∨ E i
  /-- Callers are given what is ready. -/
  served : ∀ a ∈ p'.served, ∀ i, a.2 = .ok i → a ∈ p.served ∨
    p.closed = false ∧ (i ∈ p.ready ∨ E i) ∧
      (p.Expecting a.1 ∨ a.1 = p.nextTicket ∧ p.nextTicket < p'.nextTicket)
  /-- Nobody expects an answer who has not asked. -/
  expecting : ∀ {t}, p'.Expecting t →
    p.Expecting t ∨ t = p.nextTicket ∧ p.nextTicket < p'.nextTicket
  /-- Callers are numbered in their order. -/
  nextTicket : p.nextTicket ≤ p'.nextTicket

namespace Sources

variable {E : Instance → Prop} {p q q' : Pool} {i : Instance}

theorem refl (E : Instance → Prop) (p : Pool) : Sources E p p :=
  { ready := fun _ hi => .inl hi
    served := fun _ ha _ _ => .inl ha
    expecting := .inl
    nextTicket := le_rfl }

/-- A pool that holds less has no other sources. -/
theorem less (h : Sources E p q) (hready : q'.ready ⊆ q.ready)
    (hserved : ∀ a ∈ q'.served, ∀ i, a.2 = .ok i → a ∈ q.served)
    (hexpecting : q'.waiters ++ q'.woken ⊆ q.waiters ++ q.woken)
    (hnext : q'.nextTicket = q.nextTicket) : Sources E p q' :=
  { ready := fun i hi => h.ready i (hready hi)
    served := fun a ha i hi => hnext ▸ h.served a (hserved a ha i hi) i hi
    expecting := fun ⟨since, hmem⟩ => hnext ▸ h.expecting ⟨since, hexpecting hmem⟩
    nextTicket := hnext ▸ h.nextTicket }

theorem congr (h : Sources E p q) (hstock : q'.stock = q.stock) : Sources E p q' := by
  have hready : q'.ready = q.ready := congrArg (·.ready) hstock
  have hserved : q'.served = q.served := congrArg (·.served) hstock
  have hwaiters : q'.waiters = q.waiters := congrArg (·.waiters) hstock
  have hwoken : q'.woken = q.woken := congrArg (·.woken) hstock
  refine h.less (fun _ hi => hready ▸ hi) (fun _ ha _ _ => hserved ▸ ha) ?_
    (congrArg (·.nextTicket) hstock)
  rw [hwaiters, hwoken]
  exact fun _ hw => hw

/-- Who expects an answer expected it before, as long as nobody asks. -/
theorem expected (h : Sources E p q) (hnext : q.nextTicket = p.nextTicket) {t : Ticket}
    (ht : q.Expecting t) : p.Expecting t := by
  rcases h.expecting ht with hbefore | ⟨-, hlt⟩
  · exact hbefore
  · exact absurd hlt (hnext ▸ lt_irrefl _)

/-- A claim becomes free, or somebody's. -/
theorem grant (h : Sources E p q) : Sources E p q.grant :=
  h.less (by rw [ready_grant]; exact fun _ hi => hi)
    (fun a ha _ _ => served_grant q ▸ ha) (subset_grant q) (congrArg (·.2.1) (terms_grant q))

theorem push (h : Sources E p q) (hi : E i) : Sources E p (q.push i) := by
  refine grant { h with ready := fun j hj => ?_ }
  rcases List.mem_append.mp hj with hj | hj
  · exact h.ready j hj
  · exact .inr (List.mem_singleton.mp hj ▸ hi)

theorem resume (h : Sources E p q) (hclosed : q.closed = p.closed)
    (hnext : q.nextTicket = p.nextTicket) {l r : List Waiter} {ticket : Ticket} {since : Nat}
    (hq : q.woken = l ++ .caller ticket since :: r) :
    Sources E p ({ q with woken := l ++ r }.resume ticket since) := by
  have hasked : q.Expecting ticket :=
    ⟨since, List.mem_append_right _ (hq ▸ List.mem_append_right _ List.mem_cons_self)⟩
  have hothers : q.waiters ++ (l ++ r) ⊆ q.waiters ++ q.woken := by
    rw [hq]
    exact (((List.sublist_cons_self _ _).append_left _).append_left _).subset
  have hless : Sources E p { q with woken := l ++ r } :=
    h.less (fun _ hi => hi) (fun _ ha _ _ => ha) hothers rfl
  -- it is refused, it goes back into the line, or it is given the first instance that is ready
  obtain ⟨-, heq⟩ | ⟨-, -, heq⟩ | ⟨hopen, i, rest, hready, heq⟩ :=
    ({ q with woken := l ++ r } : Pool).resume_cases ticket since
  · rw [heq]
    refine hless.less (fun _ hi => hi) (fun a ha i hi => mem_of_refused (fun b hb => ?_) ha hi)
      (fun _ hw => hw) rfl
    rw [List.mem_singleton.mp hb]
    rfl
  · rw [heq]
    refine h.less (fun _ hi => hi) (fun _ ha _ _ => ha) (fun w hw => ?_) rfl
    rw [hq]
    simp only [List.mem_append, List.mem_cons, List.not_mem_nil, or_false] at hw ⊢
    tauto
  · rw [heq]
    -- the caller was expecting before, for it was woken then
    have hbefore : i ∈ q.ready := hready ▸ List.mem_cons_self
    refine { hless with
      ready := fun j hj => h.ready j (hready ▸ List.mem_cons_of_mem _ hj)
      served := fun a ha j hj => ?_ }
    rcases List.mem_append.mp ha with ha | ha
    · exact h.served a ha j hj
    · rw [List.mem_singleton.mp ha] at hj ⊢
      cases hj
      exact .inr ⟨hclosed ▸ hopen, h.ready i hbefore, .inl (h.expected hnext hasked)⟩

theorem mono (h : Sources E p q) {E' : Instance → Prop} (hE : ∀ i, E i → E' i) :
    Sources E' p q :=
  { h with
    ready := fun i hi => (h.ready i hi).imp_right (hE i)
    served := fun a ha i hi =>
      (h.served a ha i hi).imp_right (.imp_right (.imp_left (.imp_right (hE i)))) }

/-- What a pool holds it held before, or it has entered. -/
theorem held (h : Sources E p q) (hi : i ∈ q.held) : i ∈ p.held ∨ E i := by
  rcases mem_held.mp hi with hi | ⟨a, ha, hi⟩
  · exact (h.ready i hi).imp_left fun hi => mem_held.mpr (.inl hi)
  · rcases h.served a ha i hi with ha | ⟨-, hready | henters, -⟩
    · exact .inl (mem_held.mpr (.inr ⟨a, ha, hi⟩))
    · exact .inl (mem_held.mpr (.inl hready))
    · exact .inr henters

/-- A reset has no other sources than the pool before it. -/
theorem of_renewed {l : List Signal} (h : Sources E { p with signals := l }.renewed q) :
    Sources E p q := by
  have hdrop {i : Instance} (hi : i ∈ ({ p with signals := l } : Pool).renewed.ready) :
      i ∈ p.ready := List.mem_of_mem_drop hi
  exact
    { h with
      ready := fun i hi => (h.ready i hi).imp_left hdrop
      served := fun a ha i hi =>
        (h.served a ha i hi).imp_right (.imp_right (.imp_left (.imp_left hdrop))) }

end Sources

/-- A new instance that is made for the pool. -/
structure Bears (s : NumberedSupply σ) (p : Pool) (x : Census σ) (i : Instance) : Prop where
  /-- The pool demands no more of it. -/
  admitted : p.Admits i
  /-- Its number is new. -/
  new : s.next x.host ≤ i.id

/-- Work changes none of the terms. -/
theorem workStable_terms (s : Supply σ) (c : UInt64 × Ticket × Nat) :
    WorkStable s fun q _ => q.terms = c :=
  { resume := fun _ h => (terms_resume _ _ _).trans h
    growOne := fun {q y} h => by
      unfold Pool.growOne
      split
      · exact (terms_push _ _).trans h
      · exact h
    keep := fun {q q' y} h hstock => by
      have hterms : q'.stock.terms = q.stock.terms := congrArg terms hstock
      exact hterms.trans h
    join := fun h => h
    leave := fun h => h
    takeReady := fun _ h => h }

/-- A reset changes nothing of the terms but the generation. -/
theorem terms_reset (s : Supply σ) (p : Pool) (x : σ) (request : Nat) :
    (p.obey s x (.reset request)).1.terms = (p.epoch + 1, p.nextTicket, p.nextRequest) := by
  have hwork := workStable_terms s p.renewed.terms
  have hgrown := hwork.grow p.renewed.missing
    (x := s.teardownAll (p.ready.take p.unclaimed) x) rfl
  rw [obey_reset]
  exact hgrown

/-- Numbers are given out in their order. -/
theorem workStable_next (s : NumberedSupply σ) (n : Nat) :
    WorkStable s.counted fun _ y => n ≤ s.next y.host :=
  { resume := fun _ h => h
    growOne := fun {q y} h => by
      have hlater := h.trans (s.next_create q.program y)
      unfold Pool.growOne
      split <;> rename_i hcreate <;> rw [hcreate] at hlater <;> exact hlater
    keep := fun h _ => h
    join := fun h => h
    leave := fun h => h
    takeReady := fun {q i rest y} _ h => h.trans (s.next_teardown i y.host) }

/-- **The work of the control task** moves instances of the pool, and makes new ones. -/
theorem workStable_sources {s : NumberedSupply σ} (hfresh : s.Fresh) (p : Pool) (x : Census σ) :
    WorkStable s.counted fun q y => Sources (p.Bears s x) p q ∧
      (q.label = p.label ∧ q.closed = p.closed) ∧ q.terms = p.terms ∧
      s.next x.host ≤ s.next y.host :=
  have hlabel := workStable_label s.counted p.label p.closed
  have hterms := workStable_terms s.counted p.terms
  have hlater := workStable_next s (s.next x.host)
  { resume := fun {q l ticket since r y} hq h =>
      ⟨h.1.resume h.2.1.2 (congrArg (·.2.1) h.2.2.1) hq, hlabel.resume (x := y) hq h.2.1,
        hterms.resume (x := y) hq h.2.2.1, h.2.2.2⟩
    growOne := fun {q y} h => by
      obtain ⟨hsources, hkept, hsame, hnext⟩ := h
      refine ⟨?_, hlabel.growOne hkept, hterms.growOne hsame, hlater.growOne hnext⟩
      have hmade := s.host_create q.program y
      unfold Pool.growOne
      split
      · rename_i i z hcreate
        rw [hcreate] at hmade
        obtain ⟨hle, -, hpooled⟩ := s.next_create_ok hmade
        obtain ⟨hunbound, herrors⟩ := hfresh hmade
        have hbears : p.Bears s x { i with epoch := q.epoch } :=
          { admitted := ⟨⟨hpooled, hunbound, herrors ▸ UInt32.zero_le⟩, congrArg (·.1) hsame⟩
            new := hnext.trans hle }
        have hsize : Sources (p.Bears s x) p { q with size := q.size + 1 } := hsources.congr rfl
        exact hsize.push hbears
      · exact hsources
    keep := fun {q q' y} h hstock =>
      ⟨h.1.congr hstock, hlabel.keep (x := y) h.2.1 hstock, hterms.keep (x := y) h.2.2.1 hstock,
        h.2.2.2⟩
    join := fun {q y} h => by
      -- the control task expects no answer
      refine ⟨{ h.1 with expecting := fun ⟨since, hmem⟩ => h.1.expecting ⟨since, ?_⟩ }, h.2⟩
      simp only [List.mem_append, List.mem_singleton, reduceCtorEq, or_false] at hmem ⊢
      exact hmem
    leave := fun {q y} h =>
      ⟨h.1.less (fun _ hi => hi) (fun _ ha _ _ => ha)
        (List.erase_sublist.append_left _).subset rfl, h.2⟩
    takeReady := fun {q i rest y} hready h =>
      ⟨h.1.less (fun _ hi => hready ▸ List.mem_cons_of_mem _ hi) (fun _ ha _ _ => ha)
        (fun _ hw => hw) rfl, h.2.1, h.2.2.1, hlater.takeReady hready h.2.2.2⟩ }

/-- **A reset** leaves ready only what callers have claims to. -/
theorem sources_reset {s : NumberedSupply σ} (hfresh : s.Fresh) (p : Pool) (x : Census σ)
    (request : Nat) :
    Sources (p.renewed.Bears s x) p.renewed (p.obey s.counted x (.reset request)).1 ∧
      ((p.obey s.counted x (.reset request)).1.label = p.label ∧
        (p.obey s.counted x (.reset request)).1.closed = p.closed) ∧
      (p.obey s.counted x (.reset request)).1.terms = p.renewed.terms ∧
      s.next x.host ≤ s.next (p.obey s.counted x (.reset request)).2.host := by
  have hwork := workStable_sources hfresh p.renewed x
  have hstart := s.next_teardownAll (p.ready.take p.unclaimed) x
  rw [obey_reset]
  refine hwork.keep (hwork.grow p.renewed.missing ?_) rfl
  exact ⟨Sources.refl _ _, ⟨rfl, rfl⟩, rfl, hstart⟩

theorem signals_create {s : Supply σ} {contract : ContractId} {program : Module}
    {settings : PoolTerms} {x y : σ} {p : Pool}
    (hcreate : Pool.create s contract program settings x = (.ok p, y)) : p.signals = [] := by
  obtain ⟨trial, z, -, rfl, -⟩ := create_eq_ok hcreate
  exact congrArg (·.1) (orders_grow { contract, program, settings } settings.minSize _)

/-- A pool is created with new instances only. -/
theorem sources_create {s : NumberedSupply σ} (hfresh : s.Fresh) {contract : ContractId}
    {program : Module} {settings : PoolTerms} {x y : Census σ} {p : Pool}
    (hcreate : Pool.create s.counted contract program settings x = (.ok p, y)) :
    ∃ z, Sources (Bears s { contract, program, settings } z) { contract, program, settings } p ∧
      p.label = (contract, program, settings) ∧ p.terms = (0, 0, 0) := by
  obtain ⟨trial, z, -, rfl, -⟩ := create_eq_ok hcreate
  have hwork := workStable_sources hfresh { contract, program, settings }
    (s.counted.teardown trial z)
  obtain ⟨hsources, ⟨hlabel, -⟩, hterms, -⟩ := hwork.grow settings.minSize
    ⟨Sources.refl _ _, ⟨rfl, rfl⟩, rfl, le_rfl⟩
  exact ⟨_, hsources.congr rfl, hlabel, hterms⟩

/-- An instance of an open pool that is given back is replaced, if it is of another generation or
has failed too often; otherwise it becomes ready again. -/
theorem release_pooled (s : Supply σ) {p : Pool} {i : Instance} (hpooled : i.detached = false)
    (hopen : p.closed = false) (x : σ) :
    p.release s i x =
      if i.epoch = p.epoch ∧ i.errors ≤ p.settings.discardThreshold then (p.push i.unbind, x)
      else (p.signal [.remove, .add], s.teardown i.unbind x) := by
  unfold release
  have hunbound : i.unbind.detached = false := hpooled
  have hepoch : i.unbind.epoch = i.epoch := rfl
  have herrors : i.unbind.errors = i.errors := rfl
  dsimp only
  rw [hunbound, hopen, hepoch, herrors]
  by_cases hsame : i.epoch = p.epoch
  · by_cases hfew : i.errors ≤ p.settings.discardThreshold
    · simp [hsame, hfew, UInt32.not_lt.mpr hfew]
    · simp [hsame, hfew, UInt32.not_le.mp hfew]
  · simp [hsame]

theorem stock_signal (p : Pool) (l : List Signal) : (p.signal l).stock = p.stock := by
  unfold signal
  split <;> rfl

/-- What becomes of the queue depends on nothing else. -/
theorem signals_signal {p q : Pool} (hsignals : p.signals = q.signals)
    (hcontrol : p.control = q.control) (l : List Signal) :
    (p.signal l).signals = (q.signal l).signals := by
  unfold signal
  rw [hcontrol]
  split
  · exact hsignals
  · exact congrArg (· ++ l) hsignals

/-- A caller that asks is answered, gets an instance that is ready, or waits. -/
theorem sources_acquire (E : Instance → Prop) (p : Pool) : Sources E p p.acquire.2 := by
  have hrefl := Sources.refl E p
  cases hclosed : p.closed with
  | true =>
    have hnone : ∀ a ∈ [(p.nextTicket, (Except.error p.closedError : Except _ Instance))],
        a.2.toOption = none := fun a ha => by rw [List.mem_singleton.mp ha]; rfl
    rw [acquire_closed hclosed]
    exact { hrefl with
      served := fun a ha i hi => .inl (mem_of_refused hnone ha hi)
      expecting := fun ht => .inl ht
      nextTicket := Nat.le_succ _ }
  | false =>
    obtain hnone | ⟨permits, i, rest, hpermits, hready⟩ := p.takes_or_not
    · -- the new caller is the only one that has come to wait
      rw [acquire_empty hclosed hnone]
      have hjoined : Sources E p { p with
          nextTicket := p.nextTicket + 1
          waiters := p.waiters ++ [.caller p.nextTicket p.now] } := by
        refine { hrefl with
          served := fun a ha _ _ => .inl ha
          expecting := fun {t} ht => ?_
          nextTicket := Nat.le_succ _ }
        obtain ⟨since, hmem⟩ := ht
        simp only [List.mem_append, List.mem_singleton, Waiter.caller.injEq] at hmem
        rcases hmem with (hw | ⟨rfl, -⟩) | hw
        · exact .inl ⟨since, List.mem_append_left _ hw⟩
        · exact .inr ⟨rfl, Nat.lt_succ_self _⟩
        · exact .inl ⟨since, List.mem_append_right _ hw⟩
      refine hjoined.congr ?_
      unfold signal
      split <;> rfl
    · have hfirst : i ∈ p.ready := hready ▸ List.mem_cons_self
      rw [acquire_ready hclosed hpermits hready]
      refine { hrefl with
        ready := fun j hj => .inl (hready ▸ List.mem_cons_of_mem _ hj)
        served := fun a ha j hj => ?_
        expecting := fun ht => .inl ht
        nextTicket := Nat.le_succ _ }
      rcases List.mem_append.mp ha with ha | ha
      · exact .inl ha
      · -- the answer with the new ticket is the instance that was ready
        rw [List.mem_singleton.mp ha] at hj ⊢
        cases hj
        exact .inr ⟨hclosed, .inl hfirst, .inr ⟨rfl, Nat.lt_succ_self _⟩⟩

/-- A caller that no longer waits expects nothing. -/
theorem sources_cancel (E : Instance → Prop) (p : Pool) (ticket : Ticket) :
    Sources E p (p.cancel ticket) := by
  have hrefl := Sources.refl E p
  have hfilter : (p.waiters.filter fun w => !isWaiting ticket w).Sublist p.waiters :=
    List.filter_sublist
  obtain heq | ⟨l, since, r, hwoken, heq⟩ := p.cancel_cases ticket
  · rw [heq]
    exact hrefl.less (fun _ hi => hi) (fun _ ha _ _ => ha) (hfilter.append_right _).subset rfl
  · rw [heq]
    have hothers : (l ++ r).Sublist p.woken :=
      hwoken ▸ (List.sublist_cons_self _ _).append_left _
    have hless : Sources E p { p with
        waiters := p.waiters.filter fun w => !isWaiting ticket w
        woken := l ++ r } :=
      hrefl.less (fun _ hi => hi) (fun _ ha _ _ => ha) (hfilter.append hothers).subset rfl
    exact hless.grant

/-- Callers are answered when the pool is shut down. -/
theorem sources_requestShutdown (E : Instance → Prop) (p : Pool) :
    Sources E p p.requestShutdown := by
  have hrefl := Sources.refl E p
  cases hclosed : p.closed with
  | true => rwa [requestShutdown_closed hclosed]
  | false =>
    rw [requestShutdown_open hclosed]
    have hnone : ∀ a ∈ p.waiting.map fun ticket =>
        (ticket, (Except.error p.closedError : Except _ Instance)), a.2.toOption = none := by
      intro a ha
      obtain ⟨ticket, -, rfl⟩ := List.mem_map.mp ha
      rfl
    have hdismissed : Sources E p p.dismissed :=
      hrefl.less (fun _ hi => hi) (fun a ha i hi => mem_of_refused hnone ha hi)
        (List.subset_append_right _ _) rfl
    exact hdismissed.congr (stock_signal _ _)

/-- An instance outside the pool is made as one of the pool is, and does not belong to it. -/
theorem createDetached_eq_ok {s : Supply σ} {p : Pool} {i : Instance} {x y : σ}
    (h : p.createDetached s x = (.ok i, y)) :
    ∃ j, s.create p.program x = (.ok j, y) ∧ i = { j with detached := true } := by
  unfold createDetached at h
  split at h
  · rename_i j z hmade
    cases h
    exact ⟨j, hmade, rfl⟩
  · cases h

theorem createDetached_snd (s : Supply σ) (p : Pool) (x : σ) :
    (p.createDetached s x).2 = (s.create p.program x).2 := by
  unfold createDetached
  split <;> rename_i hmade <;> rw [hmade]

theorem next_release (s : NumberedSupply σ) (p : Pool) (i : Instance) (x : Census σ) :
    s.next x.host ≤ s.next (p.release s.counted i x).2.host := by
  rcases release_cases s.counted p i x with ⟨-, heq⟩ | ⟨-, -, heq⟩ | ⟨-, -, heq⟩ | ⟨-, -, heq⟩
  · exact heq ▸ s.next_teardown _ _
  · exact heq ▸ s.next_teardown _ _
  · exact heq ▸ s.next_teardown _ _
  · exact heq ▸ le_rfl

theorem tally_release (q : Instance → Bool) (s : Supply σ) (p : Pool) (i : Instance) (x : σ) :
    (p.release s i x).1.tally q ≤ p.tally q + if q i.unbind then 1 else 0 := by
  rcases release_cases s p i x with ⟨-, heq⟩ | ⟨-, -, heq⟩ | ⟨-, -, heq⟩ | ⟨-, -, heq⟩
  · rw [heq]
    exact Nat.le_add_right _ _
  · rw [heq]
    exact Nat.le_add_right _ _
  · rw [heq, tally_signal]
    exact Nat.le_add_right _ _
  · rw [heq]
    exact (tally_push q p i.unbind).le

/-- A pool does not take an instance that has failed too often. -/
theorem tally_release_failed (q : Instance → Bool) (s : Supply σ) {p : Pool} {i : Instance} (x : σ)
    (h : p.settings.discardThreshold < i.errors) : (p.release s i x).1.tally q = p.tally q := by
  rcases release_cases s p i x with ⟨-, heq⟩ | ⟨-, -, heq⟩ | ⟨-, -, heq⟩ | ⟨hpooled, hopen, -⟩
  · rw [heq]
  · rw [heq]
    rfl
  · rw [heq, tally_signal]
  · have hnot : ¬ (i.epoch = p.epoch ∧ i.errors ≤ p.settings.discardThreshold) :=
      fun hadmitted => UInt32.not_lt.mpr hadmitted.2 h
    rw [release_pooled s hpooled hopen, if_neg hnot, tally_signal]

theorem tally_discard (q : Instance → Bool) (s : Supply σ) (p : Pool) (i : Instance) (x : σ) :
    (p.discard s i x).1.tally q = p.tally q := by
  rcases discard_cases s p i x with ⟨-, heq⟩ | ⟨-, -, heq⟩ | ⟨-, -, heq⟩
  · rw [heq]
  · rw [heq]
    rfl
  · rw [heq]
    exact tally_signal q p _

/-- **The work of the control task** makes no second copy of an instance. -/
theorem workStable_copies (s : NumberedSupply σ) (n c : Nat) :
    WorkStable s.counted fun q y => q.tally (·.id == n) + s.unborn n y.host ≤ c :=
  { resume := fun {q l ticket since r y} _ h =>
      (Nat.add_le_add_right (tally_resume _ { q with woken := l ++ r } ticket since).le _).trans h
    growOne := fun {q y} h => by
      have hmade := s.host_create q.program y
      have hlater := s.unborn_le (s.next_create q.program y) n
      unfold Pool.growOne
      split
      · -- a number that is born here is not to be given any more
        rename_i i z hcreate
        rw [hcreate] at hmade
        have hpush := tally_push (·.id == n) { q with size := q.size + 1 }
          { i with epoch := q.epoch }
        have hbirth := s.unborn_create hmade n
        have hsize : { q with size := q.size + 1 }.tally (·.id == n) = q.tally (·.id == n) := rfl
        dsimp only at hpush hbirth ⊢
        omega
      · rename_i e z hcreate
        rw [hcreate] at hlater
        exact (Nat.add_le_add_left hlater _).trans h
    keep := fun {q q' y} h hstock => by
      have htally : q'.stock.tally (·.id == n) = q.stock.tally (·.id == n) := by rw [hstock]
      exact (Nat.add_le_add_right htally.le _).trans h
    join := fun h => h
    leave := fun h => h
    takeReady := fun {q i rest y} hready h => by
      have hless := tally_ready (·.id == n) hready
      have hlater := s.unborn_le (s.next_teardown i y.host) n
      exact (Nat.add_le_add (hless ▸ Nat.le_add_right _ _) hlater).trans h }

end Pool

namespace Scene

variable {s : NumberedSupply σ} {sc sc' : Scene σ}

/-- An instance enters the pool with an action. -/
structure Enters (s : NumberedSupply σ) (sc sc' : Scene σ) (i : Instance) : Prop where
  /-- The pool demands no more of it. -/
  admitted : sc'.pool.Admits i
  /-- It is new, or a user gave it back. -/
  source : s.next sc.world.host ≤ i.id ∨ sc.pool.closed = false ∧ ∃ j ∈ sc.out, j.After i

/-- What the control task makes for a pool enters it. -/
theorem enters_of_bears {p : Pool} {i : Instance} (h : p.Bears s sc.world i)
    (hlabel : sc'.pool.label = p.label) (hterms : sc'.pool.terms = p.terms) : Enters s sc sc' i :=
  ⟨h.admitted.congr hlabel (congrArg (·.1) hterms), .inl h.new⟩

/-- What holds of the pool after work of the control task. -/
theorem sources_of_work {r : Pool × Census σ}
    (h : Pool.Sources (sc.pool.Bears s sc.world) sc.pool r.1 ∧
      (r.1.label = sc.pool.label ∧ r.1.closed = sc.pool.closed) ∧ r.1.terms = sc.pool.terms ∧
      s.next sc.world.host ≤ s.next r.2.host) :
    Pool.Sources (Enters s sc (sc.act r)) sc.pool (sc.act r).pool :=
  h.1.mono fun _ hi => enters_of_bears hi h.2.1.1 h.2.2.1

/-- Giving an instance back moves it into an open pool, if the pool admits it. -/
theorem sources_release {l r : List Instance} {i i' : Instance} (hout : sc.out = l ++ i :: r)
    (hafter : i.After i') :
    Pool.Sources
      (Enters s sc ({ sc with out := l ++ r }.act (sc.pool.release s.counted i' sc.world)))
      sc.pool (sc.pool.release s.counted i' sc.world).1 := by
  have hrefl := fun sc' => Pool.Sources.refl (Enters s sc sc') sc.pool
  rcases Pool.release_cases s.counted sc.pool i' sc.world with
    ⟨-, heq⟩ | ⟨-, -, heq⟩ | ⟨-, -, heq⟩ | ⟨hpooled, hopen, -⟩
  · rw [heq]
    exact hrefl _
  · rw [heq]
    exact (hrefl _).congr rfl
  · rw [heq]
    exact (hrefl _).congr (Pool.stock_signal _ _)
  · rw [Pool.release_pooled s.counted hpooled hopen]
    split
    · -- only here does it come in, and it was checked out with the same number and generation
      rename_i hadmitted
      have hi : sc.pool.Admits i'.unbind := ⟨⟨hpooled, rfl, hadmitted.2⟩, hadmitted.1⟩
      have hmem : i ∈ sc.out := hout ▸ List.mem_append_right _ List.mem_cons_self
      exact (hrefl _).push
        ⟨hi.congr (Pool.label_push _ _) (congrArg (·.1) (Pool.terms_push _ _)),
          .inr ⟨hopen, i, hmem, hafter.id, hafter.epoch, hafter.detached⟩⟩
    · exact (hrefl _).congr (Pool.stock_signal _ _)

/-- **What a single action moves, and where to.** -/
theorem Step.sources (hfresh : s.Fresh) (h : Step s sc sc') :
    Pool.Sources (Enters s sc sc') sc.pool sc'.pool := by
  have hwork := Pool.workStable_sources hfresh sc.pool sc.world
  have hstart : Pool.Sources (sc.pool.Bears s sc.world) sc.pool sc.pool ∧
      (sc.pool.label = sc.pool.label ∧ sc.pool.closed = sc.pool.closed) ∧
      sc.pool.terms = sc.pool.terms ∧ s.next sc.world.host ≤ s.next sc.world.host :=
    ⟨.refl _ _, ⟨rfl, rfl⟩, rfl, le_rfl⟩
  have hrefl := fun sc' => Pool.Sources.refl (Enters s sc sc') sc.pool
  -- callers move what is there; only the task makes instances, and only a release brings one in
  cases h with
  | acquire => exact Pool.sources_acquire _ _
  | cancel ticket => exact Pool.sources_cancel _ _ _
  | resume hp => exact (hrefl _).resume rfl rfl hp
  | claim ticket =>
    exact (hrefl _).less (fun _ hi => hi) (fun _ ha _ _ => List.mem_of_mem_eraseP ha)
      (fun _ hw => hw) rfl
  | release hout hafter => exact sources_release hout hafter
  | discard hout hafter =>
    rename_i l r i i'
    rcases Pool.discard_cases s.counted sc.pool i' sc.world with
      ⟨-, heq⟩ | ⟨-, -, heq⟩ | ⟨-, -, heq⟩
    · rw [heq]
      exact hrefl _
    · rw [heq]
      exact (hrefl _).congr rfl
    · rw [heq]
      exact (hrefl _).congr (Pool.stock_signal _ _)
  | spawn | spawnFailed | close | elsewhere => exact hrefl _
  | requestReset =>
    exact ((hrefl _).congr (Pool.stock_signal _ _)).less (fun _ hi => hi) (fun _ ha _ _ => ha)
      (fun _ hw => hw) rfl
  | requestShutdown => exact Pool.sources_requestShutdown _ _
  | obey hidle hsignals =>
    rename_i signal rest
    -- a reset begins a new generation, so it is not compared with the terms before it
    by_cases hreset : ∃ request, signal = .reset request
    · obtain ⟨request, rfl⟩ := hreset
      obtain ⟨hsources, ⟨hlabel, -⟩, hterms, -⟩ :=
        Pool.sources_reset hfresh { sc.pool with signals := rest } sc.world request
      exact (hsources.mono fun _ hi => enters_of_bears hi hlabel hterms).of_renewed
    · exact sources_of_work (hwork.obey signal (hwork.keep hstart rfl)
        fun request he => absurd ⟨request, he⟩ hreset)
  | tick hidle => exact sources_of_work (hwork.tick hstart)
  | goOn => exact sources_of_work (hwork.goOn hstart)
  | wait | advance => exact (hrefl _).congr rfl

/-- What users have they had before, or took as an answer, or it is outside the pool. -/
theorem Step.out (h : Step s sc sc') {i : Instance} (hi : i ∈ sc'.out) :
    i ∈ sc.out ∨ (∃ a ∈ sc.pool.served, a.2 = .ok i) ∨ i.detached = true := by
  have hpart : ∀ {l r : List Instance} {j : Instance}, sc.out = l ++ j :: r → i ∈ l ++ r →
      i ∈ sc.out := by
    intro l r j hout hi
    rw [hout]
    rcases List.mem_append.mp hi with hi | hi
    · exact List.mem_append_left _ hi
    · exact List.mem_append_right _ (List.mem_cons_of_mem _ hi)
  -- instances are checked out by a claim or for nested calls; all else gives some back
  cases h with
  | claim ticket =>
    rcases List.mem_append.mp hi with hi | hi
    · exact .inl hi
    · obtain ⟨-, heq⟩ | ⟨l, answer, r, hserved, heq⟩ := sc.pool.claim_cases ticket
      · rw [heq] at hi
        exact absurd hi List.not_mem_nil
      · rw [heq] at hi
        refine .inr (.inl ⟨(ticket, answer), ?_, ?_⟩)
        · exact hserved ▸ List.mem_append_right _ List.mem_cons_self
        · cases answer with
          | error e => exact absurd hi List.not_mem_nil
          | ok j => rw [List.mem_singleton.mp hi]
  | release hout | discard hout | close hout => exact .inl (hpart hout hi)
  | spawn hcreate =>
    rcases List.mem_append.mp hi with hi | hi
    · exact .inl hi
    · obtain ⟨j, -, rfl⟩ := Pool.createDetached_eq_ok hcreate
      exact .inr (.inr (List.mem_singleton.mp hi ▸ rfl))
  | acquire | cancel | resume | spawnFailed | requestReset | requestShutdown | obey | tick | goOn
  | wait | advance | elsewhere => exact .inl hi

theorem Step.next_le (h : Step s sc sc') : s.next sc.world.host ≤ s.next sc'.world.host := by
  have hwork := Pool.workStable_next s (s.next sc.world.host)
  have hdetached := Pool.createDetached_snd s.counted sc.pool sc.world
  -- numbers are given where instances are made, and nothing takes one back
  cases h with
  | acquire | cancel | resume | claim | requestReset | requestShutdown | wait | advance =>
    exact le_rfl
  | release hout hafter => exact Pool.next_release s _ _ _
  | discard hout hafter => exact s.next_drop _ _
  | spawn hcreate | spawnFailed hcreate =>
    rw [hcreate] at hdetached
    exact (s.next_create _ _).trans_eq (congrArg (fun y : Census σ => s.next y.host) hdetached.symm)
  | close hout => exact s.next_teardown _ _
  | obey hidle hsignals =>
    rename_i signal rest
    exact hwork.obey signal (p := { sc.pool with signals := rest }) (x := sc.world) le_rfl
      fun _ _ => le_rfl
  | tick hidle => exact hwork.tick (p := sc.pool) le_rfl
  | goOn => exact hwork.goOn (p := sc.pool) le_rfl
  | elsewhere hnext => exact hnext

/-! ### What the control task is told -/

/-- What becomes, with a single action, of the signals that the control task has still to hear. -/
inductive Hearing (s : NumberedSupply σ) (sc sc' : Scene σ) : Prop
  /-- It may be told more. -/
  | told {l : List Signal} (hsignals : sc'.pool.signals = sc.pool.signals ++ l)
    (hepoch : sc'.pool.epoch = sc.pool.epoch)
    (hresets : sc.pool.nextRequest + l.countP Signal.isReset ≤ sc'.pool.nextRequest)
  /-- It obeys a signal that asks for no reset. -/
  | obeyed {signal : Signal} {rest : List Signal} (hsignals : sc.pool.signals = signal :: rest)
    (hno : signal.isReset = false) (hrest : sc'.pool.signals = rest)
    (hepoch : sc'.pool.epoch = sc.pool.epoch)
    (hresets : sc'.pool.nextRequest = sc.pool.nextRequest)
  /-- It carries out a reset. -/
  | reset {request : Nat} {rest : List Signal} (hidle : sc.pool.control = .idle)
    (hsignals : sc.pool.signals = .reset request :: rest) (hrest : sc'.pool.signals = rest)
    (hepoch : sc'.pool.epoch = sc.pool.epoch + 1)
    (hresets : sc'.pool.nextRequest = sc.pool.nextRequest)
    (heq : sc' = sc.act
      ({ sc.pool with signals := rest }.obey s.counted sc.world (.reset request)))
  /-- It ends, and hears of nothing more. -/
  | ended (hcontrol : sc'.pool.control = .ended)
    (hcause : .shutdown ∈ sc.pool.signals ∨ sc.pool.shouldGrow = none)
    (hnone : sc'.pool.signals = []) (hepoch : sc'.pool.epoch = sc.pool.epoch)
    (hresets : sc'.pool.nextRequest = sc.pool.nextRequest)

/-- The control task is told something, unless it has ended. -/
theorem hearing_of_signal {l : List Signal}
    (hsignals : sc'.pool.signals = (sc.pool.signal l).signals)
    (hepoch : sc'.pool.epoch = sc.pool.epoch)
    (hresets : sc.pool.nextRequest + l.countP Signal.isReset ≤ sc'.pool.nextRequest) :
    Hearing s sc sc' := by
  unfold Pool.signal at hsignals
  split at hsignals
  · exact .told (l := []) (hsignals.trans (List.append_nil _).symm) hepoch
      (Nat.le_of_add_right_le hresets)
  · exact .told hsignals hepoch hresets

theorem hearing_of_silence (hsignals : sc'.pool.signals = sc.pool.signals)
    (hepoch : sc'.pool.epoch = sc.pool.epoch)
    (hresets : sc'.pool.nextRequest = sc.pool.nextRequest) : Hearing s sc sc' :=
  .told (l := []) (hsignals.trans (List.append_nil _).symm) hepoch hresets.ge

theorem hearing_of_obeying {signal : Signal} {rest : List Signal} {x : Census σ}
    (hsignals : sc.pool.signals = signal :: rest) (hidle : sc.pool.control = .idle)
    (hno : signal.isReset = false) :
    Hearing s sc (sc.act ({ sc.pool with signals := rest }.obey s.counted x signal)) := by
  have hterms := (Pool.workStable_terms s.counted sc.pool.terms).obey
    (p := { sc.pool with signals := rest }) (x := x) signal rfl
    fun request he => absurd hno (he ▸ Bool.noConfusion)
  have hepoch := congrArg (·.1) hterms
  have hresets := congrArg (·.2.2) hterms
  obtain hsame | ⟨hended, hnone, hcause⟩ :=
    Pool.control_obey (s := s.counted) { sc.pool with signals := rest } x signal
  · refine .obeyed hsignals hno (Pool.signals_obey _ _ signal fun hended => ?_) hepoch hresets
    exact Control.noConfusion (hidle.symm.trans (hsame.symm.trans hended))
  · refine .ended hended ?_ hnone hepoch hresets
    rcases hcause with rfl | ⟨-, hgrow⟩
    · exact .inl (hsignals ▸ List.mem_cons_self)
    · exact .inr hgrow

/-- **What a single action does to the queue of signals.** -/
theorem Step.hearing (h : Step s sc sc') : Hearing s sc sc' := by
  have hterms := Pool.workStable_terms s.counted sc.pool.terms
  have hepoch : ∀ l, (sc.pool.signal l).epoch = sc.pool.epoch :=
    fun l => congrArg (·.epoch) (Pool.stock_signal sc.pool l)
  have hresets : ∀ l, (sc.pool.signal l).nextRequest = sc.pool.nextRequest :=
    fun l => congrArg (·.nextRequest) (Pool.stock_signal sc.pool l)
  -- each step says nothing, tells the task something, has it obey, or ends it
  cases h with
  | acquire =>
    cases hclosed : sc.pool.closed with
    | true =>
      rw [Pool.acquire_closed hclosed]
      exact hearing_of_silence rfl rfl rfl
    | false =>
      obtain hnone | ⟨permits, i, rest, hpermits, hready⟩ := sc.pool.takes_or_not
      · rw [Pool.acquire_empty hclosed hnone]
        have hasked := Pool.stock_signal { sc.pool with
          nextTicket := sc.pool.nextTicket + 1, permits := sc.pool.permits - 1 } [.grow]
        have hsignals := Pool.signals_signal (q := sc.pool) (p := { sc.pool with
          nextTicket := sc.pool.nextTicket + 1, permits := sc.pool.permits - 1 }) rfl rfl [.grow]
        exact hearing_of_signal hsignals (congrArg (·.epoch) hasked)
          (congrArg (·.nextRequest) hasked).ge
      · rw [Pool.acquire_ready hclosed hpermits hready]
        exact hearing_of_silence rfl rfl rfl
  | cancel ticket =>
    obtain heq | ⟨l, since, r, -, heq⟩ := sc.pool.cancel_cases ticket
    · rw [heq]
      exact hearing_of_silence rfl rfl rfl
    · rw [heq]
      have horders := Pool.orders_grant { sc.pool with
        waiters := sc.pool.waiters.filter fun w => !Pool.isWaiting ticket w, woken := l ++ r }
      have hgranted := Pool.terms_grant { sc.pool with
        waiters := sc.pool.waiters.filter fun w => !Pool.isWaiting ticket w, woken := l ++ r }
      exact hearing_of_silence (congrArg (·.1) horders) (congrArg (·.1) hgranted)
        (congrArg (·.2.2) hgranted)
  | resume hp =>
    rename_i l r ticket since
    have hresumed := Pool.terms_resume { sc.pool with woken := l ++ r } ticket since
    have horders := Pool.orders_resume { sc.pool with woken := l ++ r } ticket since
    exact hearing_of_silence (congrArg (·.1) horders) (congrArg (·.1) hresumed)
      (congrArg (·.2.2) hresumed)
  | release hout hafter =>
    rename_i l r i i'
    rcases Pool.release_cases s.counted sc.pool i' sc.world with
      ⟨-, heq⟩ | ⟨-, -, heq⟩ | ⟨-, -, heq⟩ | ⟨-, -, heq⟩
    · rw [heq]
      exact hearing_of_silence rfl rfl rfl
    · rw [heq]
      exact hearing_of_silence rfl rfl rfl
    · rw [heq]
      exact hearing_of_signal (l := [.remove, .add]) rfl (hepoch _) (hresets _).ge
    · rw [heq]
      have hpush := Pool.terms_push sc.pool i'.unbind
      exact hearing_of_silence (congrArg (·.1) (Pool.orders_push _ _)) (congrArg (·.1) hpush)
        (congrArg (·.2.2) hpush)
  | discard hout hafter =>
    rename_i l r i i'
    rcases Pool.discard_cases s.counted sc.pool i' sc.world with
      ⟨-, heq⟩ | ⟨-, -, heq⟩ | ⟨-, -, heq⟩
    · rw [heq]
      exact hearing_of_silence rfl rfl rfl
    · rw [heq]
      exact hearing_of_silence rfl rfl rfl
    · rw [heq]
      exact hearing_of_signal (l := [.remove, .add]) rfl (hepoch _) (hresets _).ge
  | requestReset => exact hearing_of_signal (l := [.reset _]) rfl (hepoch _) le_rfl
  | requestShutdown =>
    cases hclosed : sc.pool.closed with
    | true =>
      rw [Pool.requestShutdown_closed hclosed]
      exact hearing_of_silence rfl rfl rfl
    | false =>
      rw [Pool.requestShutdown_open hclosed]
      have hdismissed := Pool.stock_signal sc.pool.dismissed [.shutdown]
      have hsignals := Pool.signals_signal (p := sc.pool.dismissed) (q := sc.pool) rfl rfl
        [.shutdown]
      exact hearing_of_signal hsignals (congrArg (·.epoch) hdismissed)
        (congrArg (·.nextRequest) hdismissed).ge
  | obey hidle hsignals =>
    rename_i signal rest
    cases signal with
    | grow | add | remove | shutdown => exact hearing_of_obeying hsignals hidle rfl
    | reset request =>
      have hreset := Pool.terms_reset s.counted { sc.pool with signals := rest } sc.world request
      refine .reset hidle hsignals (Pool.signals_obey _ _ _ fun hended => ?_)
        (congrArg (·.1) hreset) (congrArg (·.2.2) hreset) rfl
      -- a reset does not end the task
      obtain hsame | ⟨-, -, hcause⟩ := Pool.control_obey (s := s.counted)
        { sc.pool with signals := rest } sc.world (.reset request)
      · exact Control.noConfusion (hidle.symm.trans (hsame.symm.trans hended))
      · exact nomatch hcause
  | tick hidle =>
    have htick := hterms.tick (x := sc.world) rfl
    have hawake : sc.pool.control ≠ .ended := by rw [hidle]; exact nofun
    obtain ⟨-, hsignals⟩ | ⟨hended, hnone, hgrow⟩ :=
      Pool.control_tick (s := s.counted) hawake sc.world
    · exact hearing_of_silence hsignals (congrArg (·.1) htick) (congrArg (·.2.2) htick)
    · exact .ended hended (.inr hgrow) hnone (congrArg (·.1) htick) (congrArg (·.2.2) htick)
  | goOn =>
    have hgo := hterms.goOn (x := sc.world) rfl
    exact hearing_of_silence (Pool.signals_goOn _ _) (congrArg (·.1) hgo) (congrArg (·.2.2) hgo)
  | claim | spawn | spawnFailed | close | wait | advance | elsewhere =>
    exact hearing_of_silence rfl rfl rfl

/-! ### Copies of an instance -/

/-- How often a number is in use, by the pool or its users, or still to be given out. -/
def copies (s : NumberedSupply σ) (n : Nat) (sc : Scene σ) : Nat :=
  sc.pool.tally (·.id == n) + sc.out.countP (·.id == n) + s.unborn n sc.world.host

/-- Work inside the pool leaves the users' instances alone. -/
theorem copies_le_of_work {n : Nat} {r : Pool × Census σ}
    (h : r.1.tally (·.id == n) + s.unborn n r.2.host ≤
      sc.pool.tally (·.id == n) + s.unborn n sc.world.host) :
    (sc.act r).copies s n ≤ sc.copies s n := by
  unfold copies act
  dsimp only
  omega

/-- **No action makes a second copy of an instance.** -/
theorem Step.copies_le (h : Step s sc sc') (n : Nat) : sc'.copies s n ≤ sc.copies s n := by
  have hwork := Pool.workStable_copies s n
    (sc.pool.tally (·.id == n) + s.unborn n sc.world.host)
  have hlater := s.unborn_le h.next_le n
  have hout : ∀ {l r : List Instance} {i : Instance}, sc.out = l ++ i :: r →
      sc.out.countP (·.id == n) = (l ++ r).countP (·.id == n) + if i.id == n then 1 else 0 :=
    fun hi => Invariant.countP_out hi _
  have hsame : ∀ {pool : Pool}, pool.tally (·.id == n) = sc.pool.tally (·.id == n) →
      ∀ {host : σ}, s.unborn n host ≤ s.unborn n sc.world.host →
      ∀ {out : List Instance}, out.countP (·.id == n) ≤ sc.out.countP (·.id == n) →
      pool.tally (·.id == n) + out.countP (·.id == n) + s.unborn n host ≤ sc.copies s n :=
    fun htally _ hunborn _ hout => Nat.add_le_add (Nat.add_le_add htally.le hout) hunborn
  -- a step moves an instance from one place to another, makes it under a number that was free, or
  -- drops it
  cases h with
  | acquire => exact hsame (Pool.tally_acquire _ _) hlater le_rfl
  | cancel ticket => exact hsame (Pool.tally_cancel _ _ _) hlater le_rfl
  | resume hp =>
    rename_i l r ticket since
    exact hsame (Pool.tally_resume _ { sc.pool with woken := l ++ r } _ _) hlater le_rfl
  | requestReset => exact hsame (Pool.tally_signal _ _ _) hlater le_rfl
  | requestShutdown => exact hsame (Pool.tally_requestShutdown _ _) hlater le_rfl
  | spawnFailed | wait | advance | elsewhere => exact hsame rfl hlater le_rfl
  | claim ticket =>
    have htaken := Pool.tally_claim (·.id == n) sc.pool ticket
    unfold copies
    rw [List.countP_append, htaken]
    dsimp only
    omega
  | release hi hafter =>
    rename_i l r i i'
    have hback := Pool.tally_release (·.id == n) s.counted sc.pool i' sc.world
    have hid : i'.unbind.id = i.id := hafter.id
    have hless := hout hi
    rw [hid] at hback
    unfold copies act at *
    dsimp only at *
    omega
  | discard hi hafter =>
    exact hsame (Pool.tally_discard _ s.counted _ _ sc.world) hlater
      ((hout hi).symm ▸ Nat.le_add_right _ _)
  | spawn hcreate =>
    obtain ⟨j, hmade, rfl⟩ := Pool.createDetached_eq_ok hcreate
    have hhost := s.host_create sc.pool.program sc.world
    rw [hmade] at hhost
    have hbirth := s.unborn_create hhost n
    unfold copies
    rw [List.countP_append, List.countP_singleton]
    dsimp only at hbirth ⊢
    omega
  | close hi => exact hsame rfl hlater ((hout hi).symm ▸ Nat.le_add_right _ _)
  | obey hidle hsignals =>
    rename_i signal rest
    exact copies_le_of_work (hwork.obey signal (p := { sc.pool with signals := rest }) le_rfl
      fun _ _ => le_rfl)
  | tick hidle => exact copies_le_of_work (hwork.tick le_rfl)
  | goOn => exact copies_le_of_work (hwork.goOn le_rfl)

end Scene

end ContractHost
