import ContractHost.Proofs.Host.Events

/-!
# The events of a failure

A call fails in one of two ways.  Its run may break down: no gas is left, the script traps or
leaves, or the host crashes.  Or its script returns, but a failure was recorded on the way: the
script has reported an error itself, or one of its requests has failed.

Of a run that has broken down no events are reported.  A failure that was recorded takes no events
away, neither those before it nor those after it, and they are reported as if the call had
succeeded.  Only the caller of a nested call drops them.

## Main definitions

* `Attempt.breakdown?` — why the run of a call has broken down.
* `Completion.handed` — the events that a call hands to its caller.
* `Attempt.gathered` — the events that come together in the invocation of a call.
* `Attempt.Marked` — a request that may have recorded a failure.

## Main results

* `Exchange.gathers` — **one request, and the events of its invocation**, failed or not.
* `Attempt.Ended.reports` — **the events that a call reports**, however it ends.
* `Attempt.Ended.marked` — **a failure without a breakdown was recorded for a request.**
* `Host.events_of_failure` — **the failures that report events.**
* `Host.failure_with_events` — there are some.
-/

namespace ContractHost

theorem Course.requested {σ : Type} {host : HostCalls σ} {linkage : Linkage} {start m : Machine σ}
    {visits : List (Visit σ)} {v : Visit σ} (h : Course host linkage start visits m)
    (hv : v ∈ visits) : host.request linkage v.regions v.before.toCaller v.before.world =
      (v.answer, v.after.toCaller, v.after.world) := by
  obtain ⟨earlier, later, rfl⟩ := List.append_of_mem hv
  exact h.upTo.before.2.1

/-- The events that a call hands to its caller: those of a success, and none of a failure. -/
def Completion.handed (completion : Completion) : List Event :=
  completion.outcome?.elim [] fun o => if o.isSuccess then o.events else []

variable {τ : Type} [LedgerAccess τ] {setup : HostSetup}

/-! ### Requests -/

section

variable {invoke : Invoker τ} {linkage : Linkage} {v : Visit (Host τ)} {c c' : Context}

/-- The events that the call nested in a request hands over. -/
def Visit.hands (setup : HostSetup) (invoke : Invoker τ) (linkage : Linkage) (v : Visit (Host τ)) :
    List Event :=
  (v.nested? setup linkage).elim [] fun asked => (invoke asked.1 asked.2).1.handed

theorem Visit.emits?_of_own {name : String} {body : Bytes}
    (hasked : v.asked? linkage = some (c, name, body))
    (hname : name ≠ Method.callContractLen.name)
    (hrequest : (hostCalls setup invoke).request linkage v.regions v.before.toCaller
      v.before.world = (v.answer, v.after.toCaller, v.after.world)) :
    v.emits? c.contract (LedgerAccess.txId v.before.world.ledger) linkage =
      emission? c.contract (LedgerAccess.txId v.before.world.ledger) name body := by
  unfold emits?
  rw [hasked, Option.bind_some]
  cases hemission : emission? c.contract (LedgerAccess.txId v.before.world.ledger) name body with
  | none => rw [ite_self]
  | some e =>
    have hdone : ((v.before.world.desk c).run (serve setup.crypto name body)).1 = .ok .done :=
      run_serve_of_emission setup.crypto hemission
    rw [Host.request_of_own hasked hname, hdone] at hrequest
    have hanswer : .signal signals.success = v.answer := congrArg Prod.fst hrequest
    rw [if_pos hanswer.symm]

/-- A call that has succeeded hands its events to its caller, and no other call does. -/
theorem Called.hands {gas gas' : Nat} {served : Served}
    (h : Called setup invoke c gas (v.nested? setup linkage) served gas' c') :
    c'.outcome.events = c.outcome.events ++ v.hands setup invoke linkage := by
  unfold Visit.hands
  generalize v.nested? setup linkage = asked at h ⊢
  -- only a callee that returned with success hands anything on
  cases h with
  | refused e => exact (List.append_nil _).symm
  | broken hinvoke =>
    rw [Option.elim_some, hinvoke]
    exact (List.append_nil _).symm
  | @failed call y o hinvoke ho =>
    have hnone : (Completion.finished (.ok o)).handed = [] := if_neg (Bool.eq_false_iff.mp ho)
    rw [Option.elim_some, hinvoke, hnone]
    exact (List.append_nil _).symm
  | @returned call y o hinvoke ho ptr =>
    have hall : (Completion.finished (.ok o)).handed = o.events := if_pos ho
    rw [Option.elim_some, hinvoke, hall]
    rfl

/-- **What a request adds to the events of its invocation**, whether that has failed or not: the
events that the call nested in it hands over, or the event that it emits itself. -/
theorem Exchange.gathers (h : Exchange setup invoke linkage v c c')
    (hrequest : (hostCalls setup invoke).request linkage v.regions v.before.toCaller
      v.before.world = (v.answer, v.after.toCaller, v.after.world)) :
    c'.outcome.events = c.outcome.events ++ (v.hands setup invoke linkage ++
      (v.emits? c.contract (LedgerAccess.txId v.before.world.ledger) linkage).toList) := by
  -- a request is unheard, served from the desk, or a nested call; only the last two add events, and
  -- each adds to a different summand
  cases h with
  | unheard hasked hanswer hgas =>
    have hhands : v.hands setup invoke linkage = [] := by
      unfold Visit.hands Visit.nested?
      rw [hasked]
      rfl
    obtain ⟨hemits, -⟩ : _ ∧ v.relays setup invoke linkage = [] := Visit.emits?_of_unheard hasked
    rw [hemits, hhands]
    exact (List.append_nil _).symm
  | @own name body result d _ hasked hname hserved heffect hanswered hgas hrun =>
    have hhands : v.hands setup invoke linkage = [] := by
      unfold Visit.hands Visit.nested?
      rw [hasked, Option.bind_some, if_neg hname]
      rfl
    have hserve := events_serve setup.crypto name body (v.before.world.desk c)
    rw [hrun] at hserve
    have hevents : d.context.outcome.events = c.outcome.events ++
        (emission? c.contract (LedgerAccess.txId v.before.world.ledger) name body).toList := hserve
    rw [hanswered.events, hevents, hhands, List.nil_append,
      Visit.emits?_of_own hasked hname hrequest]
  | @other body served c₁ _ hasked hserved hcalled hanswered =>
    have hemits : v.emits? c.contract (LedgerAccess.txId v.before.world.ledger) linkage = none := by
      have hname : Method.ofName? Method.callContractLen.name ≠ some .emitEvent := by decide
      unfold Visit.emits?
      rw [hasked, Option.bind_some, emission?_of_ne hname, ite_self]
    rw [hemits, Option.toList_none, List.append_nil, hanswered.events, hcalled.hands]

/-- A request that may have recorded a failure: it has failed, or it reports an error. -/
def Visit.Marks (linkage : Linkage) (v : Visit (Host τ)) : Prop :=
  v.answer = .signal signals.failure ∨ v.method? linkage = some .errorResult

/-- Answering marks an invocation as failed only if the request is answered as a failure. -/
theorem Answered.marks {served : Served} {answer : Answer} (h : Answered c served answer c')
    (hc : c.outcome.isSuccess = true) (hfailed : c'.outcome.isSuccess = false) :
    answer = .signal signals.failure := by
  cases h with
  | failed e => rfl
  | unwritten reply e => rfl
  | rejected => rfl
  | suspended => exact nomatch hc.symm.trans hfailed
  | crashed message => exact nomatch hc.symm.trans hfailed
  | written reply => exact nomatch hc.symm.trans hfailed

/-- A request other than one that reports an error leaves the code. -/
theorem Context.code_after (c : Context) (txId : String) {name : String} (body : Bytes)
    (hname : Method.ofName? name ≠ some .errorResult) :
    (c.after txId name body).outcome.isSuccess = c.outcome.isSuccess := by
  unfold after
  split
  · unfold setSuccess
    split <;> rfl
  · rename_i h
    exact absurd h hname
  · split <;> rfl
  · split <;> rfl
  · rfl
  · rfl

/-- **A request after which its invocation is marked as failed**, and was not before, has failed or
reports an error. -/
theorem Exchange.marks (h : Exchange setup invoke linkage v c c')
    (hc : c.outcome.isSuccess = true) (hfailed : c'.outcome.isSuccess = false) :
    v.Marks linkage := by
  cases h with
  | unheard hasked hanswer hgas => exact .inl hanswer
  -- an explicit error report turns the code; of the others only one whose answer could not be
  -- delivered
  | @own name body result d _ hasked hname hserved heffect hanswered hgas hrun =>
    by_cases herror : Method.ofName? name = some .errorResult
    · refine .inr ?_
      unfold Visit.method?
      rw [hasked, Option.bind_some]
      exact herror
    · have hstanding := (stands_serve setup.crypto name body (v.before.world.desk c)).standing
      rw [hrun] at hstanding
      have hd : d.context.outcome.isSuccess = true :=
        ((congrArg Outcome.isSuccess (Context.outcome_of_standing hstanding)).trans
          (c.code_after _ body herror)).trans hc
      exact .inl (hanswered.marks hd hfailed)
  | @other body served c₁ _ hasked hserved hcalled hanswered =>
    have hc₁ : c₁.outcome.isSuccess = true := by
      generalize v.nested? setup linkage = asked, v.after.gas = gas at hcalled
      cases hcalled <;> exact hc
    exact .inl (hanswered.marks hc₁ hfailed)

end

theorem Host.reported_conclude {x : Host τ} {id : PoolId} {c : Context}
    {result : Except CallFault Unit} {i : Instance} :
    (x.conclude setup id c result i).1.events =
      if (reasonOf setup.config.execution.gasLimit i.gas result).isSome then []
      else (x.current c).outcome.events := by
  unfold conclude
  dsimp only
  cases reasonOf setup.config.execution.gasLimit i.gas result with
  | none =>
    dsimp only
    split <;> rfl
  | some reason =>
    dsimp only
    split <;> rfl

/-! ### Calls -/

namespace Attempt

variable (setup) in
/-- Why the run of the call has broken down, if it has. -/
def breakdown? (a : Attempt τ) : Option String :=
  (a.begun? setup).bind fun s =>
    Host.reasonOf setup.config.execution.gasLimit (a.run setup s).2.1.gas (a.run setup s).1

variable (setup) in
/-- The events that come together in the invocation of the call, in the order of its requests: those
that the calls nested in them hand over, and those that it emits itself. -/
def gathered (a : Attempt τ) : List Event :=
  (a.visits setup).flatMap fun v =>
    (a.nestedIn setup v).elim [] (fun b => (b.result setup).handed) ++ (a.emits? setup v).toList

variable (setup) in
/-- One of the requests of the call may have recorded a failure. -/
def Marked (a : Attempt τ) : Prop :=
  ∃ s, a.begun? setup = some s ∧ ∃ v ∈ a.visits setup, v.Marks (s.inst.linkage false)

variable {a : Attempt τ} {s : Begun τ} {result : Except CallFault Unit} {i : Instance} {y : Host τ}
variable {c : Context}

/-- The events of an invocation are those that were gathered, whether it has failed or not. -/
theorem Ran.gathers (h : a.Ran setup s result i y c)
    (htx : ∀ v ∈ a.visits setup,
      LedgerAccess.txId v.before.world.ledger = LedgerAccess.txId a.host.ledger) :
    c.outcome.events = a.gathered setup := by
  obtain ⟨-, henter⟩ := enter_of_begun h.begun
  have hcontract : s.context.contract = a.call.contract := (Host.context_of_enter henter).1
  -- along the course: the events so far are those gathered from the requests so far
  have hrun : s.context.SameCall c ∧ c.outcome.events = a.gathered setup := by
    refine h.along (P := fun visits c => s.context.SameCall c ∧ c.outcome.events =
      visits.flatMap fun v => (a.nestedIn setup v).elim [] (fun b => (b.result setup).handed) ++
        (a.emits? setup v).toList) ?_ ?_ ?_
    · refine ⟨.refl _, ?_⟩
      rw [h.outcome]
      rfl
    · exact fun line hkept => ⟨hkept.1.trans ⟨rfl, rfl⟩, hkept.2⟩
    · rintro visits v c c' hv hc hexchange ⟨hsame, hkept⟩
      refine ⟨hsame.trans hexchange.sameCall, ?_⟩
      have hemits : a.emits? setup v =
          v.emits? c.contract (LedgerAccess.txId v.before.world.ledger) (s.inst.linkage false) := by
        unfold emits?
        rw [h.begun, Option.bind_some, hsame.contract, hcontract, htx v hv]
      have hhands : v.hands setup (a.inner setup) (s.inst.linkage false) =
          (a.nestedIn setup v).elim [] fun b => (b.result setup).handed := by
        unfold Visit.hands
        rw [nestedIn_eq h.begun]
        cases v.nested? setup (s.inst.linkage false) <;> rfl
      rw [hexchange.gathers (h.course.requested hv), hkept, hhands, ← hemits, List.flatMap_append,
        List.flatMap_singleton]
  exact hrun.2

/-- An invocation that is marked as failed was marked for one of its requests. -/
theorem Ran.marked (h : a.Ran setup s result i y c) (hfailed : c.outcome.isSuccess = false) :
    a.Marked setup := by
  -- along the course: once the code has turned, one of the requests so far has marked it
  have hrun : c.outcome.isSuccess = false →
      ∃ v ∈ a.visits setup, v.Marks (s.inst.linkage false) := by
    refine h.along (P := fun visits c => c.outcome.isSuccess = false →
      ∃ v ∈ visits, v.Marks (s.inst.linkage false)) ?_ (fun _ hkept => hkept) ?_
    · intro hstart
      rw [h.outcome] at hstart
      cases hstart
    · intro visits v c c' _ _ hexchange hkept hnow
      -- either this request turns the code, or an earlier one had done so
      cases hc : c.outcome.isSuccess with
      | true =>
        exact ⟨v, List.mem_append_right _ List.mem_cons_self, hexchange.marks hc hnow⟩
      | false =>
        obtain ⟨w, hw, hmarks⟩ := hkept hc
        exact ⟨w, List.mem_append_left _ hw, hmarks⟩
  exact ⟨s, h.begun, hrun hfailed⟩

theorem Ran.breakdown? (h : a.Ran setup s result i y c) : a.breakdown? setup =
    Host.reasonOf setup.config.execution.gasLimit i.gas result := by
  unfold Attempt.breakdown?
  rw [h.begun, Option.bind_some, h.run]

/-- **The events that a call reports**, however it ends: none if its run has broken down, and those
that were gathered otherwise. -/
theorem Ended.reports (ha : a.Ended setup) (hkeeps : LedgerAccess.KeepsTxId τ) {o : Outcome}
    (ho : a.result setup = .finished (.ok o)) :
    o.events = if (a.breakdown? setup).isSome then [] else a.gathered setup := by
  have htrial := trial setup ha.orderly
  rw [ho] at htrial
  cases htrial with
  | @concluded s result i y c h =>
    have hcurrent : y.current s.context = c := h.underway.current h.advances.handle.symm
    obtain ⟨-, -, htx⟩ := saved ha.orderly (hkeeps (LedgerAccess.txId a.host.ledger)) rfl a
      (a.self_mem_family setup)
    rw [Host.reported_conclude, hcurrent, h.gathers htx, h.breakdown?]

/-- **A failure without a breakdown was recorded for a request.** -/
theorem Ended.marked (ha : a.Ended setup) {o : Outcome} (ho : a.result setup = .finished (.ok o))
    (hfailed : o.code ≠ 0) (hreturned : a.breakdown? setup = none) : a.Marked setup := by
  have htrial := trial setup ha.orderly
  rw [ho] at htrial
  cases htrial with
  | @concluded s result i y c h =>
    have hcurrent : y.current s.context = c := h.underway.current h.advances.handle.symm
    rw [h.breakdown?] at hreturned
    refine h.marked (Bool.eq_false_iff.mpr fun hsuccess => hfailed ?_)
    -- the code of the invocation is the one that is reported
    unfold Host.conclude
    dsimp only
    rw [hreturned, hcurrent]
    dsimp only
    split <;> exact of_decide_eq_true hsuccess

end Attempt

/-- **The failures that report events.**  In the tree of any call, a failure of which the run has
broken down reports none.  Any other failure was recorded for a request of its own, one that has
failed or one that reports an error, and it reports all that was gathered: the events that it has
emitted itself, before or after that request, and those of the calls nested in it that have
succeeded.  So it reports events exactly if there are any.  The host may be any one that is orderly,
as every host in service is, and the ledger any one whose operations leave the name of the
transaction. -/
theorem Host.events_of_failure {x : Host τ} {e : Entry} (hkeeps : LedgerAccess.KeepsTxId τ)
    (hx : x.Orderly) :
    ∀ t ∈ (x.root setup e).family setup, ∀ o, t.result setup = .finished (.ok o) → o.code ≠ 0 →
      (t.breakdown? setup ≠ none → o.events = []) ∧
      (t.breakdown? setup = none → t.Marked setup ∧ o.events = t.gathered setup) ∧
      (o.events = [] ↔ t.breakdown? setup ≠ none ∨ ∀ v ∈ t.visits setup,
        t.emits? setup v = none ∧
          ∀ b, t.nestedIn setup v = some b → (b.result setup).handed = []) := by
  intro t ht o ho hcode
  obtain ⟨horderly, -, -⟩ :=
    (x.root setup e).saved hx (hkeeps (LedgerAccess.txId x.ledger)) rfl t ht
  have hended : t.Ended setup := ⟨horderly, _, ho⟩
  have hreports := hended.reports hkeeps ho
  -- a call that broke down reports no events, any other all that it gathered
  cases hbreakdown : t.breakdown? setup with
  | some reason =>
    rw [hbreakdown] at hreports
    have hbroken : some reason ≠ none := Option.some_ne_none reason
    exact ⟨fun _ => hreports, fun h => absurd h hbroken, iff_of_true hreports (.inl hbroken)⟩
  | none =>
    rw [hbreakdown] at hreports
    have hgathered : o.events = t.gathered setup := hreports
    refine ⟨fun h => absurd rfl h, fun _ => ⟨hended.marked ho hcode hbreakdown, hgathered⟩, ?_⟩
    -- a list of lists joined is empty if each of them is
    rw [hgathered, Attempt.gathered, List.flatMap_eq_nil_iff, or_iff_right (fun h => h rfl)]
    refine forall₂_congr fun v _ => ?_
    rw [List.append_eq_nil_iff, Option.toList_eq_nil_iff, and_comm]
    refine and_congr_right fun _ => ?_
    cases t.nestedIn setup v with
    | none => exact iff_of_true rfl fun _ h => by cases h
    | some b => exact ⟨fun h b' hb' => Option.some.inj hb' ▸ h, fun h => h b rfl⟩

namespace Host

/-- A call of a contract that emits an event, calls a contract that emits another one, and then
reports an error. -/
def protesting : Call :=
  let callBody := Packet.encode ⟨[⟨.user, "contract_name", .text "replying"⟩,
    ⟨.user, "method", .text "run"⟩, ⟨.user, "value_ptr", .int32 0⟩]⟩
  let code := askingCode [(1024, headerOf 1 .emitEvent, aboutTopic "question"),
    (2048, headerOf 1 .callContractLen, callBody),
    (4096, headerOf 1 .errorResult, Utf8.encode "no")]
  { contract := ⟨"protesting", "1"⟩, code, method := "run" }

theorem outcome?_protesting : ((replyingHost.invoke singleSetup protesting).1.outcome?.map fun o =>
    (o.code, o.events.map fun e => (e.topic, e.contractName))) =
    some (1, [("question", "protesting"), ("reply", "replying")]) := by
  decide +kernel

/-- They are what was gathered, for the run has not broken down. -/
theorem events_of_failure_protesting :
    ∃ o, (replyingHost.invoke singleSetup protesting).1 = .finished (.ok o) ∧ o.code ≠ 0 ∧
      (replyingHost.root singleSetup (.new protesting)).breakdown? singleSetup = none ∧
      o.events = (replyingHost.root singleSetup (.new protesting)).gathered singleSetup := by
  have hreturned :
      (replyingHost.root singleSetup (.new protesting)).breakdown? singleSetup = none := by
    decide +kernel
  obtain ⟨o, houtcome, hfound⟩ := Option.map_eq_some_iff.mp outcome?_protesting
  obtain ⟨hcode, -⟩ := Prod.mk.inj hfound
  have hended := Completion.outcome?_eq_some houtcome
  have hresult := (result_root singleSetup protesting replyingHost).trans hended
  have hfailed : o.code ≠ 0 := hcode ▸ by decide
  obtain ⟨-, hevents, -⟩ := events_of_failure Session.keepsTxId orderly_replyingHost _
    (Attempt.self_mem_family singleSetup _) o hresult hfailed
  exact ⟨o, hended, hfailed, hreturned, (hevents hreturned).2⟩

/-- **A failure reports events.**  The contract says itself that it has failed, and its own event
and the one of the contract that it has called are reported beside the code of a failure. -/
theorem failure_with_events :
    ∃ o, (replyingHost.invoke singleSetup protesting).1 = .finished (.ok o) ∧ o.code = 1 ∧
      o.events.map (fun e => (e.topic, e.contractName)) =
        [("question", "protesting"), ("reply", "replying")] := by
  obtain ⟨o, houtcome, hfound⟩ := Option.map_eq_some_iff.mp outcome?_protesting
  obtain ⟨hcode, hevents⟩ := Prod.mk.inj hfound
  exact ⟨o, Completion.outcome?_eq_some houtcome, hcode, hevents⟩

end Host

end ContractHost
