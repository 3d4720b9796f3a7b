import ContractHost.Proofs.Host.Exchange

/-!
# Trees of calls

A call that is carried out makes requests, and some of them are calls of other contracts, which make
requests in their turn.  So every call has a tree of calls below it.  The tree is what the requests
come to that were written down while the instance of the call ran.

## Main definitions

* `Attempt` — a call, with the host that it finds.
* `Attempt.visits`, `Attempt.nested` — the requests of its instance, and the calls among them.
* `Attempt.family`, `Attempt.below` — the tree of a call, with the call itself and without it.
* `Attempt.Ran`, `Attempt.Trial` — a call that was carried out, and what a call comes to.
* `Attempt.Ended` — a call that was not broken off.
* `Attempt.Sequel` — what becomes of a nested call.

## Main results

* `Attempt.family_eq` — a tree consists of its topmost call and the trees of the calls nested in it.
* `Attempt.trial` — **what every call comes to.**
* `Attempt.Ended.sequel` — **what becomes of the calls nested in a call.**
* `Attempt.Ended.family` — **the calls below a call that ended have ended.**
-/

namespace ContractHost

variable {τ : Type}

/-- A call within a tree, with the host that it finds. -/
structure Attempt (τ : Type) where
  /-- How many levels of calls may be carried out, this one included. -/
  levels : Nat
  /-- What is called, and whether it has waited. -/
  entry : Entry
  /-- The host. -/
  host : Host τ

namespace Attempt

/-- What is called. -/
def call (a : Attempt τ) : Call :=
  a.entry.call

variable [LedgerAccess τ] (setup : HostSetup) (a : Attempt τ)

/-- How the call ends. -/
def result : Completion :=
  (a.host.perform setup false a.levels a.entry).1

/-- Whatever carries out the calls that are nested in the call. -/
def inner : Invoker τ :=
  Host.invokeWithin setup false (a.levels - 1)

/-- The call with its instance about to run, if it comes to that. -/
def begun? : Option (Begun τ) :=
  if a.levels = 0 then none else (a.host.enter setup a.entry).toOption

/-- How the instance runs once the call has begun. -/
def run (s : Begun τ) : Except CallFault Unit × Instance × Host τ :=
  Host.callGuest setup.guest (hostCalls setup (a.inner setup)) false s.context
    (budgetOf setup a.call) s.inst s.host

/-- The requests that the instance makes. -/
def visits : List (Visit (Host τ)) :=
  match a.begun? setup with
  | none => []
  | some s =>
    (Host.callGuest setup.guest (recording (hostCalls setup (a.inner setup))) false s.context
      (budgetOf setup a.call) s.inst (s.host, [])).2.2.2

/-- The gas that the instance uses by itself. -/
def own : Nat :=
  match a.begun? setup with
  | none => 0
  | some s => usedAlone (budgetOf setup a.call).toNat (a.visits setup) (a.run setup s).2.1.gas.toNat

/-- The call that is nested in a request of the instance, if there is one. -/
def nestedIn (v : Visit (Host τ)) : Option (Attempt τ) :=
  (a.begun? setup).bind fun s =>
    (v.nested? setup (s.inst.linkage false)).map fun asked =>
      ⟨a.levels - 1, .new asked.1, asked.2⟩

/-- The calls that are nested in the call. -/
def nested : List (Attempt τ) :=
  (a.visits setup).filterMap (a.nestedIn setup)

/-- A call and the calls below it, down to a depth. -/
def familyWithin (setup : HostSetup) : Nat → Attempt τ → List (Attempt τ)
  | 0, a => [a]
  | depth + 1, a => a :: (a.nested setup).flatMap (familyWithin setup depth)

/-- The tree of a call: the call itself and all calls below it. -/
def family : List (Attempt τ) :=
  familyWithin setup a.levels a

/-- The calls below a call. -/
def below : List (Attempt τ) :=
  (a.nested setup).flatMap (family setup)

variable {setup a} {b : Attempt τ}

theorem levels_of_mem_nested (h : b ∈ a.nested setup) : b.levels + 1 = a.levels := by
  obtain ⟨v, -, hv⟩ := List.mem_filterMap.mp h
  obtain ⟨s, hs, hasked⟩ := Option.bind_eq_some_iff.mp hv
  obtain ⟨asked, -, rfl⟩ := Option.map_eq_some_iff.mp hasked
  have hlevels : a.levels ≠ 0 := by
    intro hzero
    unfold begun? at hs
    rw [if_pos hzero] at hs
    cases hs
  show a.levels - 1 + 1 = a.levels
  omega

/-- **A tree consists of its topmost call and the calls below it.** -/
theorem family_eq (setup : HostSetup) (a : Attempt τ) :
    a.family setup = a :: a.below setup := by
  unfold family below
  -- a nested attempt has one level less, so its family is measured with the same number
  cases hlevels : a.levels with
  | zero =>
    have hnone : a.nested setup = [] := by
      refine List.eq_nil_iff_forall_not_mem.mpr fun b hb => ?_
      have hb := levels_of_mem_nested hb
      omega
    rw [hnone]
    rfl
  | succ n =>
    show a :: (a.nested setup).flatMap (familyWithin setup n) = _
    rw [List.flatMap_congr fun b hb => ?_]
    have hb := levels_of_mem_nested hb
    have hn : b.levels = n := by omega
    unfold family
    rw [hn]

theorem mem_family : b ∈ a.family setup ↔ b = a ∨ b ∈ a.below setup := by
  rw [family_eq, List.mem_cons]

theorem self_mem_family (setup : HostSetup) (a : Attempt τ) : a ∈ a.family setup :=
  mem_family.mpr (.inl rfl)

theorem mem_below : b ∈ a.below setup ↔ ∃ c ∈ a.nested setup, b ∈ c.family setup :=
  List.mem_flatMap

/-- What holds of a call if it holds of the calls nested in it holds of all calls. -/
theorem induct {P : Attempt τ → Prop} (setup : HostSetup)
    (h : ∀ a : Attempt τ, (∀ b ∈ a.nested setup, P b) → P a) (a : Attempt τ) : P a := by
  -- the levels that are left bound the depth of the tree
  generalize hlevels : a.levels = n
  induction n generalizing a with
  | zero =>
    refine h a fun b hb => ?_
    have hb := levels_of_mem_nested hb
    omega
  | succ n ih =>
    refine h a fun b hb => ih b ?_
    have hb := levels_of_mem_nested hb
    omega

/-- A tree contains the trees of its calls. -/
theorem family_trans (setup : HostSetup) (a : Attempt τ) :
    ∀ t ∈ a.family setup, ∀ d ∈ t.family setup, d ∈ a.family setup := by
  refine induct (P := fun a => ∀ t ∈ a.family setup, ∀ d ∈ t.family setup, d ∈ a.family setup)
    setup ?_ a
  intro a ih t ht d hd
  rcases mem_family.mp ht with rfl | ht
  · exact hd
  · obtain ⟨b, hb, ht⟩ := mem_below.mp ht
    exact mem_family.mpr (.inr (mem_below.mpr ⟨b, hb, ih b hb t ht d hd⟩))

/-- A call that was carried out: its instance has run, by the exchanges with its host. -/
structure Ran (setup : HostSetup) (a : Attempt τ) (s : Begun τ) (result : Except CallFault Unit)
    (i : Instance) (y : Host τ) (c : Context) : Prop where
  /-- The call has begun. -/
  begun : a.begun? setup = some s
  /-- The instance has run. -/
  run : a.run setup s = (result, i, y)
  /-- This is its course. -/
  course : Course (hostCalls setup (a.inner setup)) (s.inst.linkage false)
    ((s.inst.setGas (budgetOf setup a.call)).machine s.host) (a.visits setup) (i.machine y)
  /-- Nothing had come of the invocation at first. -/
  outcome : s.context.outcome = {}
  /-- It has gone on since. -/
  advances : s.context.Advances c
  /-- It is under way as it stands now. -/
  underway : Host.Underway a.host.registry.contexts c y
  /-- Each request was an exchange. -/
  exchanged : ∀ v ∈ a.visits setup, Exchanged setup (a.inner setup) (s.inst.linkage false)
    a.host.registry.contexts c v
  /-- It was under way from the beginning. -/
  began : Host.Underway a.host.registry.contexts s.context s.host
  /-- The instance is bound to it. -/
  bound : s.inst.bound = some s.context.handle

/-- What a call comes to. -/
inductive Trial (setup : HostSetup) (a : Attempt τ) : Completion → Prop
  /-- It is broken off. -/
  | suspended : Trial setup a .suspended
  /-- It is not carried out, and makes no requests. -/
  | refused (e : ExecutionError) (hbegun : a.begun? setup = none) :
      Trial setup a (.finished (.error e))
  /-- It is carried out, and concluded. -/
  | concluded {s : Begun τ} {result : Except CallFault Unit} {i : Instance} {y : Host τ}
      {c : Context} (h : a.Ran setup s result i y c) :
      Trial setup a (.finished (.ok (y.conclude setup s.pool s.context result i).1))

theorem course_of_begun {s : Begun τ} (h : a.begun? setup = some s)
    (hends : (a.run setup s).1 ≠ .error .suspended) :
    Course (hostCalls setup (a.inner setup)) (s.inst.linkage false)
      ((s.inst.setGas (budgetOf setup a.call)).machine s.host) (a.visits setup)
      ((a.run setup s).2.1.machine (a.run setup s).2.2) := by
  have hvisits : a.visits setup = (Host.callGuest setup.guest
      (recording (hostCalls setup (a.inner setup))) false
      s.context (budgetOf setup a.call) s.inst (s.host, [])).2.2.2 := by
    unfold visits
    rw [h]
  rw [hvisits]
  exact (course_callGuest setup.guest _ false s.context _ s.inst s.host).2 hends

/-- **What every call comes to.** -/
theorem trial (setup : HostSetup) {a : Attempt τ} (ha : a.host.Orderly) :
    a.Trial setup (a.result setup) := by
  obtain ⟨levels, e, x⟩ := a
  cases levels with
  | zero => cases e <;> exact .refused _ rfl
  | succ n =>
    have hbeginning := Host.beginning_enter setup e ha
    have hresult := congrArg Prod.fst (Host.perform_succ setup false n e x)
    have hbegun : (⟨n + 1, e, x⟩ : Attempt τ).begun? setup = (x.enter setup e).toOption :=
      if_neg (Nat.succ_ne_zero n)
    show Trial setup _ (x.perform setup false (n + 1) e).1
    rw [hresult]
    generalize x.enter setup e = b at hbeginning hbegun ⊢
    cases hbeginning with
    | @ended completion y hcompletion horderly hcontexts =>
      cases completion with
      | suspended => exact .suspended
      | finished result =>
        cases result with
        | ok o => exact absurd rfl (hcompletion o)
        | error e => exact .refused e hbegun
    | @begun s hunderway hfree hbound houtcome hcached =>
      have hcourse := course_of_begun hbegun
      show Trial setup _ (s.finish setup ((⟨n + 1, e, x⟩ : Attempt τ).run setup s)).1
      cases hran : (⟨n + 1, e, x⟩ : Attempt τ).run setup s with
      | mk result rest =>
        obtain ⟨i, y⟩ := rest
        rw [hran] at hcourse
        by_cases hends : result = .error .suspended
        · -- the instance has not come to an end, so neither has the call
          rw [hends]
          exact .suspended
        · obtain ⟨c, hnow, hadvances, hexchanged⟩ := hunderway.course
            (Host.tidy_invokeWithin setup false n) hbound (hcourse hends)
          rw [s.finish_of_ended setup hends]
          exact .concluded ⟨hbegun, hran, hcourse hends, houtcome, hadvances, hnow, hexchanged,
            hunderway, hbound⟩

/-- **What every line and every exchange keeps of the invocation, the whole run keeps.** -/
theorem Ran.along {s : Begun τ} {result : Except CallFault Unit} {i : Instance} {y : Host τ}
    {c : Context} (h : a.Ran setup s result i y c)
    {P : List (Visit (Host τ)) → Context → Prop} (hstart : P [] s.context)
    (hline : ∀ {visits c} (line : String), P visits c → P visits (c.pushLog line))
    (hvisit : ∀ {visits v c c'}, v ∈ a.visits setup →
      Host.Underway a.host.registry.contexts c v.before.world →
      Exchange setup (a.inner setup) (s.inst.linkage false) v c c' → P visits c →
      P (visits ++ [v]) c') : P (a.visits setup) c := by
  obtain ⟨c', hc', hadvances, hkept⟩ := h.began.along
    (Host.tidy_invokeWithin setup false (a.levels - 1)) h.bound h.course
    (P := fun visits c => visits ⊆ a.visits setup → P visits c) (fun _ => hstart)
    (fun line hkept hsub => hline line (hkept hsub))
    fun hc hexchange hkept hsub =>
      have ⟨hbefore, hv⟩ := List.append_subset.mp hsub
      hvisit (hv (List.mem_singleton_self _)) hc hexchange (hkept hbefore)
  -- one invocation is registered under the handle
  have hhandle : c'.handle = c.handle := hadvances.handle.trans h.advances.handle.symm
  have hget : y.registry.get? c'.handle = some c' := hc'.get?
  rw [hhandle, h.underway.get?] at hget
  cases hget
  exact hkept (List.Subset.refl _)

theorem visits_of_not_begun (h : a.begun? setup = none) : a.visits setup = [] := by
  unfold visits
  rw [h]

theorem nested_of_not_begun (h : a.begun? setup = none) : a.nested setup = [] := by
  unfold nested
  rw [visits_of_not_begun h]
  rfl

theorem family_of_not_begun (h : a.begun? setup = none) : a.family setup = [a] := by
  rw [family_eq, below, nested_of_not_begun h]
  rfl

/-- A call that is nested in another one is nested in one of its requests. -/
theorem nestedIn_eq {s : Begun τ} (hbegun : a.begun? setup = some s) (v : Visit (Host τ)) :
    a.nestedIn setup v = (v.nested? setup (s.inst.linkage false)).map fun asked =>
      ⟨a.levels - 1, .new asked.1, asked.2⟩ := by
  unfold nestedIn
  rw [hbegun]
  rfl

/-! ### Calls that ended -/

/-- A call that ended, on a host whose pools are quiet. -/
structure Ended (setup : HostSetup) (a : Attempt τ) : Prop where
  /-- The pools are quiet. -/
  orderly : a.host.Orderly
  /-- The call was not broken off. -/
  finished : ∃ result, a.result setup = .finished result

/-- What becomes of a call that is nested in a request. -/
structure Sequel (setup : HostSetup) (b : Attempt τ) (v : Visit (Host τ)) (c : Context) : Prop where
  /-- It has ended. -/
  ended : b.Ended setup
  /-- It began with the gas that its caller had used. -/
  gasUsed : b.call.gasUsed = UInt64.ofNat (setup.gasLimit - v.before.gas)
  /-- If it has failed, its caller is marked as failed. -/
  failed : (b.result setup).Failed → c.outcome.isSuccess = false

/-- **What becomes of a call that is nested in a request.** -/
theorem Ran.sequel {s : Begun τ} {result : Except CallFault Unit} {i : Instance} {y : Host τ}
    {c : Context} (h : a.Ran setup s result i y c) {v : Visit (Host τ)} (hv : v ∈ a.visits setup)
    (hb : a.nestedIn setup v = some b) : b.Sequel setup v c := by
  rw [nestedIn_eq h.begun] at hb
  obtain ⟨⟨call, z⟩, hnested, rfl⟩ := Option.map_eq_some_iff.mp hb
  obtain ⟨c₁, c₂, hunderway, hexchange, hnow⟩ := h.exchanged v hv
  obtain ⟨hz, hgas⟩ := hexchange.nested hunderway hnested
  refine ⟨⟨hz.orderly, ?_⟩, hgas, fun hfailed => hnow.failed (hexchange.failed hnested hfailed)⟩
  obtain ⟨served, c₃, hcalled, -⟩ := hexchange.called hnested
  generalize v.after.gas = gas at hcalled
  cases hcalled with
  | broken hinvoke => exact ⟨_, hinvoke⟩
  | failed hinvoke ho => exact ⟨_, hinvoke⟩
  | returned hinvoke ho ptr => exact ⟨_, hinvoke⟩

/-- **A call in which others are nested was carried out**, and each of them has its sequel. -/
theorem Ended.sequel (ha : a.Ended setup) (hb : b ∈ a.nested setup) :
    ∃ s result i y c, a.Ran setup s result i y c ∧
      a.result setup = .finished (.ok (y.conclude setup s.pool s.context result i).1) ∧
      ∃ v ∈ a.visits setup, a.nestedIn setup v = some b ∧ b.Sequel setup v c := by
  obtain ⟨v, hv, hin⟩ := List.mem_filterMap.mp hb
  obtain ⟨finished, hfinished⟩ := ha.finished
  have htrial := trial setup ha.orderly
  rw [hfinished] at htrial ⊢
  cases htrial with
  | refused e hbegun =>
    rw [visits_of_not_begun hbegun] at hv
    cases hv
  | @concluded s result i y c h =>
    exact ⟨s, result, i, y, c, h, rfl, v, hv, hin, h.sequel hv hin⟩

/-- **The calls nested in a call that ended have ended.** -/
theorem Ended.nested (ha : a.Ended setup) (hb : b ∈ a.nested setup) : b.Ended setup := by
  obtain ⟨s, result, i, y, c, -, -, v, -, -, hsequel⟩ := ha.sequel hb
  exact hsequel.ended

theorem Ended.family (ha : a.Ended setup) : ∀ t ∈ a.family setup, t.Ended setup := by
  refine induct (P := fun a => a.Ended setup → ∀ t ∈ a.family setup, t.Ended setup) setup ?_ a ha
  intro a ih ha t ht
  rcases mem_family.mp ht with rfl | ht
  · exact ha
  · obtain ⟨b, hb, ht⟩ := mem_below.mp ht
    exact ih b hb (ha.nested hb) t ht

end Attempt

end ContractHost
