import ContractHost.Proofs.Host.Propagation
import ContractHost.Proofs.Request.Scheduling

/-!
# The scheduling class of a tree of calls

The class that an outcome reports is that of all requests of its tree.  A request that opens a range
sets the class of its invocation before it can fail.  A nested call hands its class to its caller
together with its outcome, whether that is a success or a failure, and no invocation loses the class
that it has: not by an error that is recorded, not by a trap, and not by running out of gas.  Only
an invocation in which the host itself crashes reports no class.

## Main definitions

* `Visit.Ranges`, `Visit.Brings` — what sets the class of an invocation.
* `Attempt.Ranges`, `Attempt.Crashed` — a call that opens a range itself, and one in which the host
  crashes.

## Main results

* `Exchange.txClass_iff` — one request, and the class of its invocation.
* `Attempt.Ran.txClass_iff` — **the class of an invocation at its end.**
* `Attempt.Ended.txClass_iff` — **the class of an outcome is that of its tree.**
* `Host.scheduling_class` — the same for every call below a topmost one.
-/

namespace ContractHost

variable {τ : Type} [LedgerAccess τ] {setup : HostSetup}

/-! ### Requests -/

namespace Visit

/-- The request opens a range. -/
def Ranges (linkage : Linkage) (v : Visit (Host τ)) : Prop :=
  ∃ c name body, v.asked? linkage = some (c, name, body) ∧ opensRange name body = true

instance (linkage : Linkage) (v : Visit (Host τ)) : Decidable (v.Ranges linkage) :=
  decidable_of_iff
    ((v.asked? linkage).any fun asked => opensRange asked.2.1 asked.2.2) (by
      unfold Ranges
      cases v.asked? linkage with
      | none => simp
      | some asked =>
        obtain ⟨c, name, body⟩ := asked
        simp)

/-- The call that is nested in the request has an outcome that reports a range. -/
def Brings (setup : HostSetup) (invoke : Invoker τ) (linkage : Linkage) (v : Visit (Host τ)) :
    Prop :=
  ∃ call y o, v.nested? setup linkage = some (call, y) ∧
    (invoke call y).1 = .finished (.ok o) ∧ o.txClass = .iterator

end Visit

theorem Answered.txClass {c c' : Context} {served : Served} {answer : Answer}
    (h : Answered c served answer c') : c'.outcome.txClass = c.outcome.txClass := by
  cases h <;> rfl

theorem opensRange_callContractLen (body : Bytes) :
    opensRange Method.callContractLen.name body = false := by
  have hname : (decide (Method.callContractLen.name = Method.kvIterator.name) ||
      decide (Method.callContractLen.name = Method.kvPreIterator.name)) = false := by decide
  unfold opensRange
  rw [hname, Bool.false_and]

section

variable {invoke : Invoker τ} {linkage : Linkage} {v : Visit (Host τ)} {c c' : Context}

/-- A call hands on its class with its outcome. -/
theorem Called.txClass_iff {gas gas' : Nat} {served : Served}
    (h : Called setup invoke c gas (v.nested? setup linkage) served gas' c') :
    c'.outcome.txClass = .iterator ↔
      c.outcome.txClass = .iterator ∨ v.Brings setup invoke linkage := by
  unfold Visit.Brings
  generalize v.nested? setup linkage = asked at h
  cases h with
  | refused e => simp
  | broken hinvoke => simp [hinvoke]
  | @failed call y o hinvoke ho =>
    show (c.outcome.txClass.merge o.txClass) = .iterator ↔ _
    rw [TxClass.merge_eq_iterator_iff]
    simp [hinvoke]
  | @returned call y o hinvoke ho ptr =>
    show (c.outcome.txClass.merge o.txClass) = .iterator ↔ _
    rw [TxClass.merge_eq_iterator_iff]
    simp [hinvoke]

/-- **A request sets the class of its invocation exactly if it opens a range, or if the call nested
in it brings the class along.** -/
theorem Exchange.txClass_iff (h : Exchange setup invoke linkage v c c') :
    c'.outcome.txClass = .iterator ↔
      c.outcome.txClass = .iterator ∨ v.Ranges linkage ∨ v.Brings setup invoke linkage := by
  unfold Visit.Ranges
  -- a request for a range turns the class, and so does a callee that brings it
  cases h with
  | unheard hasked hanswer hgas =>
    have hnested : ¬ v.Brings setup invoke linkage := by
      rintro ⟨call, y, o, hnested, -⟩
      unfold Visit.nested? at hnested
      rw [hasked] at hnested
      cases hnested
    simp [hasked, hnested]
  | @own name body result d c' hasked hname hserved heffect hanswered hgas hrun =>
    have hnested : ¬ v.Brings setup invoke linkage := by
      rintro ⟨call, y, o, hnested, -⟩
      unfold Visit.nested? at hnested
      rw [hasked, Option.bind_some, if_neg hname] at hnested
      cases hnested
    have hclass := txClass_serve setup.crypto name body (v.before.world.desk c)
    rw [hrun] at hclass
    rw [hanswered.txClass]
    change d.context.outcome.txClass = if opensRange name body then .iterator
      else c.outcome.txClass at hclass
    rw [hclass]
    cases hopens : opensRange name body <;> simp [hasked, hnested, hopens]
  | @other body served c₁ c' hasked hserved hcalled hanswered =>
    rw [hanswered.txClass, hcalled.txClass_iff]
    simp [hasked, opensRange_callContractLen]

end

/-- Unless the host has crashed, an outcome reports the class of its invocation. -/
theorem Host.txClass_conclude {x : Host τ} {id : PoolId} {c : Context}
    {result : Except CallFault Unit} {i : Instance} (h : isCrash result = false) :
    (x.conclude setup id c result i).1.txClass = (x.current c).outcome.txClass := by
  unfold conclude
  dsimp only
  rw [if_neg (Bool.eq_false_iff.mp h)]
  split
  · rfl
  · split <;> rfl

/-! ### Calls -/

namespace Attempt

/-- The script of the call opens a range itself. -/
def Ranges (setup : HostSetup) (a : Attempt τ) : Prop :=
  ∃ s, a.begun? setup = some s ∧ ∃ v ∈ a.visits setup, v.Ranges (s.inst.linkage false)

/-- The host crashes in the call. -/
def Crashed (setup : HostSetup) (a : Attempt τ) : Prop :=
  ∃ s, a.begun? setup = some s ∧ Host.isCrash (a.run setup s).1 = true

instance (setup : HostSetup) (a : Attempt τ) : Decidable (a.Ranges setup) :=
  decidable_of_iff ((a.begun? setup).any fun s =>
    (a.visits setup).any fun v => v.Ranges (s.inst.linkage false)) (by
      unfold Ranges
      cases a.begun? setup <;> simp)

instance (setup : HostSetup) (a : Attempt τ) : Decidable (a.Crashed setup) :=
  decidable_of_iff ((a.begun? setup).any fun s => Host.isCrash (a.run setup s).1) (by
    unfold Crashed
    cases a.begun? setup <;> simp)

/-- The call has an outcome that reports a range. -/
def Reports (setup : HostSetup) (a : Attempt τ) : Prop :=
  ∃ o, a.result setup = .finished (.ok o) ∧ o.txClass = .iterator

variable {a : Attempt τ}

/-- **At its end an invocation has the class of its requests.** -/
theorem Ran.txClass_iff {s : Begun τ} {result : Except CallFault Unit} {i : Instance} {y : Host τ}
    {c : Context} (h : a.Ran setup s result i y c) :
    c.outcome.txClass = .iterator ↔ ∃ v ∈ a.visits setup,
      v.Ranges (s.inst.linkage false) ∨ v.Brings setup (a.inner setup) (s.inst.linkage false) := by
  refine h.along (P := fun visits c => c.outcome.txClass = .iterator ↔ ∃ v ∈ visits,
    v.Ranges (s.inst.linkage false) ∨ v.Brings setup (a.inner setup) (s.inst.linkage false))
    ?_ ?_ ?_
  · rw [h.outcome]
    exact ⟨nofun, fun ⟨v, hv, _⟩ => nomatch hv⟩
  · exact fun line hclass => hclass
  · intro visits v c c' _ _ hexchange hclass
    rw [hexchange.txClass_iff, hclass]
    simp [List.mem_append, or_and_right, exists_or]

/-- A request brings a class along that the call nested in it reports. -/
theorem Ran.brings_iff {s : Begun τ} {result : Except CallFault Unit} {i : Instance} {y : Host τ}
    {c : Context} (h : a.Ran setup s result i y c) (v : Visit (Host τ)) :
    v.Brings setup (a.inner setup) (s.inst.linkage false) ↔
      ∃ b, a.nestedIn setup v = some b ∧ b.Reports setup := by
  rw [nestedIn_eq h.begun]
  constructor
  · rintro ⟨call, z, o, hnested, hinvoke, hclass⟩
    rw [hnested]
    exact ⟨_, rfl, o, hinvoke, hclass⟩
  · rintro ⟨b, hin, o, hresult, hclass⟩
    obtain ⟨⟨call, z⟩, hnested, rfl⟩ := Option.map_eq_some_iff.mp hin
    exact ⟨call, z, o, hnested, hresult, hclass⟩

/-- **A call reports a range exactly if its own script has opened one, or if a call nested in it
reports one.** -/
theorem Ended.reports_iff (ha : a.Ended setup) (hcrash : ¬ a.Crashed setup) :
    a.Reports setup ↔ a.Ranges setup ∨ ∃ b ∈ a.nested setup, b.Reports setup := by
  obtain ⟨finished, hfinished⟩ := ha.finished
  have htrial := trial setup ha.orderly
  rw [hfinished] at htrial
  cases htrial with
  | refused e hbegun =>
    -- no call that did not begin has made a request
    rw [nested_of_not_begun hbegun]
    constructor
    · rintro ⟨o, ho, -⟩
      rw [hfinished] at ho
      cases ho
    · rintro (⟨s, hs, -⟩ | ⟨b, hb, -⟩)
      · rw [hbegun] at hs
        cases hs
      · cases hb
  | @concluded s result i y c hran =>
    have hsound : Host.isCrash result = false := by
      refine Bool.eq_false_iff.mpr fun h => hcrash ⟨s, hran.begun, ?_⟩
      rw [hran.run]
      exact h
    have hclass : a.Reports setup ↔ c.outcome.txClass = .iterator := by
      rw [← hran.underway.current hran.advances.handle.symm, ← Host.txClass_conclude hsound]
      constructor
      · rintro ⟨o, ho, hclass⟩
        rw [hfinished] at ho
        cases ho
        exact hclass
      · exact fun h => ⟨_, hfinished, h⟩
    rw [hclass, hran.txClass_iff]
    constructor
    · rintro ⟨v, hv, hranges | hbrings⟩
      · exact .inl ⟨s, hran.begun, v, hv, hranges⟩
      · obtain ⟨b, hin, hreports⟩ := (hran.brings_iff v).mp hbrings
        exact .inr ⟨b, List.mem_filterMap.mpr ⟨v, hv, hin⟩, hreports⟩
    · rintro (⟨s', hs', v, hv, hranges⟩ | ⟨b, hb, hreports⟩)
      · rw [hran.begun] at hs'
        cases hs'
        exact ⟨v, hv, .inl hranges⟩
      · obtain ⟨v, hv, hin⟩ := List.mem_filterMap.mp hb
        exact ⟨v, hv, .inr ((hran.brings_iff v).mpr ⟨b, hin, hreports⟩)⟩

/-- **A call reports a range exactly if one was opened in its tree**, as long as the host does not
crash in it. -/
theorem Ended.reports_iff_family (ha : a.Ended setup)
    (hcrash : ∀ d ∈ a.family setup, ¬ d.Crashed setup) :
    a.Reports setup ↔ ∃ d ∈ a.family setup, d.Ranges setup := by
  -- by induction on the tree: an attempt reports what it or an attempt right below reports
  refine induct (P := fun a => a.Ended setup → (∀ d ∈ a.family setup, ¬ d.Crashed setup) →
    (a.Reports setup ↔ ∃ d ∈ a.family setup, d.Ranges setup)) setup ?_ a ha hcrash
  intro a ih ha hcrash
  rw [family_eq, List.forall_mem_cons] at hcrash
  rw [ha.reports_iff hcrash.1, family_eq, List.exists_mem_cons_iff]
  refine or_congr_right ?_
  constructor
  · rintro ⟨b, hb, hreports⟩
    have hsound : ∀ d ∈ b.family setup, ¬ d.Crashed setup :=
      fun d hd => hcrash.2 d (mem_below.mpr ⟨b, hb, hd⟩)
    obtain ⟨d, hd, hranges⟩ := (ih b hb (ha.nested hb) hsound).mp hreports
    exact ⟨d, mem_below.mpr ⟨b, hb, hd⟩, hranges⟩
  · rintro ⟨d, hd, hranges⟩
    obtain ⟨b, hb, hd⟩ := mem_below.mp hd
    have hsound : ∀ d ∈ b.family setup, ¬ d.Crashed setup :=
      fun d hd => hcrash.2 d (mem_below.mpr ⟨b, hb, hd⟩)
    exact ⟨b, hb, (ih b hb (ha.nested hb) hsound).mpr ⟨d, hd, hranges⟩⟩

end Attempt

/-- **The class that an outcome reports is that of its tree of calls.**  Below a topmost call that
has come to an end, every outcome of a tree in which the host does not crash reports a range exactly
if a request of that tree was heard that opens one: a request by one of the two names, for a body
that is a packet.  It does not matter what came of the request, nor whether the call has succeeded,
has reported an error, was stopped by a trap or has run out of gas.  The topmost call may have
waited for its instance, and the host may be any one that is orderly, as every host in service is.
-/
theorem Host.scheduling_class {x : Host τ} {e : Entry} {result : Except ExecutionError Outcome}
    (hx : x.Orderly) (hended : (x.root setup e).result setup = .finished result) :
    ∀ t ∈ (x.root setup e).family setup, (∀ d ∈ t.family setup, ¬ d.Crashed setup) →
      ∀ o, t.result setup = .finished (.ok o) →
        (o.txClass = .iterator ↔ ∃ d ∈ t.family setup, d.Ranges setup) := by
  intro t ht hcrash o ho
  have hroot : (x.root setup e).Ended setup := ⟨hx, result, hended⟩
  rw [← (hroot.family t ht).reports_iff_family hcrash]
  constructor
  · exact fun hclass => ⟨o, ho, hclass⟩
  · rintro ⟨o', ho', hclass⟩
    rw [ho] at ho'
    cases ho'
    exact hclass

namespace Host

/-- A host with a contract that asks for a range, does not say which, and traps. -/
def rangingHost : Host Session :=
  let header := headerOf 2 .kvPreIterator
  let body := Packet.encode ⟨[]⟩
  let request : Action := .request 1024 (Int32.ofNat header.length)
    (Int32.ofNat (1024 + header.length)) (Int32.ofNat body.length)
  let script : Script :=
    { data := [(1024, header ++ body)], methods := [("run", { body := [request, .trap] })] }
  { ledger := ⟨Ledger.deploy {} ⟨"trapping", "1"⟩ ⟨[1], some script⟩, default⟩ }

theorem orderly_rangingHost : rangingHost.Orderly :=
  .of_empty rangingHost.ledger

/-- The range was opened by the contract that was called, and its caller reports it. -/
theorem scheduling_class_relaying :
    ∃ o, (rangingHost.invoke singleSetup relaying).1 = .finished (.ok o) ∧ o.txClass = .iterator ∧
      ¬ (rangingHost.root singleSetup (.new relaying)).Ranges singleSetup := by
  have hfamily : ((rangingHost.root singleSetup (.new relaying)).family singleSetup).map (fun d =>
      (decide (d.Ranges singleSetup), decide (d.Crashed singleSetup),
        code? (d.result singleSetup))) =
      [(false, false, some 1), (true, false, some 1)] := by decide +kernel
  obtain ⟨outer, rest, houter, hfirst, hrest⟩ := List.map_eq_cons_iff.mp hfamily
  obtain ⟨inner, rest, rfl, hsecond, hnil⟩ := List.map_eq_cons_iff.mp hrest
  obtain rfl := List.map_eq_nil_iff.mp hnil
  obtain rfl : rangingHost.root singleSetup (.new relaying) = outer := by
    rw [Attempt.family_eq] at houter
    exact (List.cons.inj houter).1
  simp only [Prod.mk.injEq, decide_eq_true_eq, decide_eq_false_iff_not] at hfirst hsecond
  obtain ⟨o, hresult, -⟩ := exists_of_code? hfirst.2.2
  have hended : (rangingHost.invoke singleSetup relaying).1 = .finished (.ok o) := by
    rw [← result_root, hresult]
  have hsound : ∀ d ∈ (rangingHost.root singleSetup (.new relaying)).family singleSetup,
      ¬ d.Crashed singleSetup := by
    rw [houter]
    simp [hfirst.2.1, hsecond.2.1]
  have hroot : rangingHost.root singleSetup (.new relaying) ∈
      (rangingHost.root singleSetup (.new relaying)).family singleSetup := by
    rw [houter]
    exact List.mem_cons_self
  have hopened : ∃ d ∈ (rangingHost.root singleSetup (.new relaying)).family singleSetup,
      d.Ranges singleSetup := by
    rw [houter]
    exact ⟨inner, by simp, hsecond.1⟩
  have hclass := (scheduling_class orderly_rangingHost hresult _ hroot hsound o hresult).mpr hopened
  exact ⟨o, hended, hclass, hfirst.1⟩

end Host

end ContractHost
