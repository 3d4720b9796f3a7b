import ContractHost.Proofs.Host.Passage
import ContractHost.Proofs.Host.Propagation

/-!
# The events of a tree of calls

A contract emits events one by one, and calls other contracts in between.  A call hands its events
to its caller all at once, when it returns.  That the caller has them in the order in which they
were emitted is because no instance makes a request while another call that it has asked for is
under way.

An invocation that is marked as failed reports no events in the end, and a failure anywhere in a
tree reaches everything above it.  So what a success reports is everything that was emitted in its
tree, and each event still names the contract that has emitted it.

## Main definitions

* `Visit.emits?` — the event that a request emits.
* `Attempt.emitted` — the events of a tree of calls, in the order of the requests.
* `Attempt.ownEvents` — the events that a call emits itself.

## Main results

* `Exchange.events` — **one request, and the events of its invocation.**
* `Attempt.Ended.events` — **the events of a success are those of its tree.**
* `Attempt.emitted_perm` — they are the events that the calls of the tree emit themselves.
* `Host.events_of_success` — the same for every call below a topmost one.
-/

namespace ContractHost

namespace Completion

/-- The outcome of a call, if it has one. -/
def outcome? : Completion → Option Outcome
  | .finished (.ok o) => some o
  | _ => none

theorem outcome?_eq_some {completion : Completion} {o : Outcome}
    (h : completion.outcome? = some o) : completion = .finished (.ok o) := by
  unfold outcome? at h
  split at h
  · exact congrArg (fun o => finished (.ok o)) (Option.some.inj h)
  · cases h

/-- The events that a call reports when it ends. -/
def events (completion : Completion) : List Event :=
  completion.outcome?.elim [] (·.events)

end Completion

/-- No operation renames the transaction. -/
def LedgerAccess.KeepsTxId (τ : Type) [LedgerAccess τ] : Prop :=
  ∀ id, Stable fun t : τ => LedgerAccess.txId t = id

theorem Session.keepsTxId : LedgerAccess.KeepsTxId Session := by
  intro id
  constructor
  · rintro t t' name key field value ht ⟨rfl⟩
    exact ht
  · rintro t t' name key field ht ⟨rfl⟩
    exact ht
  all_goals exact fun _ _ ht => ht

variable {τ : Type} [LedgerAccess τ] {setup : HostSetup}

/-! ### Requests -/

namespace Visit

/-- The event that a request emits for a contract: the request is heard and succeeds, its name asks
for an event, and its body describes one. -/
def emits? (contract : ContractId) (txId : String) (linkage : Linkage) (v : Visit (Host τ)) :
    Option Event :=
  if v.answer = .signal signals.success then
    (v.asked? linkage).bind fun asked => emission? contract txId asked.2.1 asked.2.2
  else none

/-- The events that the call nested in a request reports. -/
def relays (setup : HostSetup) (invoke : Invoker τ) (linkage : Linkage) (v : Visit (Host τ)) :
    List Event :=
  (v.nested? setup linkage).elim [] fun asked => (invoke asked.1 asked.2).1.events

variable {invoke : Invoker τ} {linkage : Linkage} {v : Visit (Host τ)} {contract : ContractId}
variable {txId : String} {e : Event}

omit [LedgerAccess τ] in
/-- An event names the contract and the transaction. -/
theorem emits?_eq_some (h : v.emits? contract txId linkage = some e) :
    e.txId = txId ∧ e.contractName = contract.name ∧ e.contractVersion = contract.version := by
  unfold emits? at h
  split at h
  · obtain ⟨asked, -, hemission⟩ := Option.bind_eq_some_iff.mp h
    exact emission?_eq_some hemission
  · cases h

/-- What is not heard emits nothing, and no call is nested in it. -/
theorem emits?_of_unheard (h : v.asked? linkage = none) :
    v.emits? contract txId linkage = none ∧ v.relays setup invoke linkage = [] := by
  unfold emits? relays nested?
  rw [h]
  exact ⟨ite_self none, rfl⟩

end Visit

section

variable {invoke : Invoker τ} {linkage : Linkage} {v : Visit (Host τ)} {c c' : Context}

theorem Answered.events {served : Served} {answer : Answer} (h : Answered c served answer c') :
    c'.outcome.events = c.outcome.events := by
  cases h <;> rfl

/-- A request that is served and does nothing else is answered as a success, unless a failure is
recorded. -/
theorem Answered.of_done {answer : Answer} (h : Answered c (.finished (.ok .done)) answer c')
    (hsuccess : c'.outcome.isSuccess = true) : answer = .signal signals.success := by
  generalize hserved : Served.finished (.ok .done) = served at h
  cases h with
  | written reply => rfl
  | unwritten reply e => cases hsuccess
  | rejected => cases hserved
  | failed e => cases hserved
  | crashed message => cases hserved
  | suspended => cases hserved

/-- A call that has succeeded hands its events to its caller, and any other call marks its caller as
failed. -/
theorem Called.events {gas gas' : Nat} {served : Served} {answer : Answer} {c₁ : Context}
    (h : Called setup invoke c gas (v.nested? setup linkage) served gas' c₁)
    (hanswered : Answered c₁ served answer c') (hsuccess : c'.outcome.isSuccess = true) :
    c₁.outcome.events = c.outcome.events ++ v.relays setup invoke linkage := by
  unfold Visit.relays
  generalize v.nested? setup linkage = asked at h ⊢
  cases h with
  | refused e => exact (List.append_nil _).symm
  | broken hinvoke =>
    rw [hanswered.of_failed.2] at hsuccess
    cases hsuccess
  | failed hinvoke ho =>
    rw [hanswered.of_failed.2] at hsuccess
    cases hsuccess
  | @returned call y o hinvoke ho ptr =>
    rw [Option.elim_some, hinvoke]
    rfl

/-- **What a request adds to the events of an invocation** that is not marked as failed: the events
of the call nested in it, or the event that it emits itself. -/
theorem Exchange.events (h : Exchange setup invoke linkage v c c')
    (hsuccess : c'.outcome.isSuccess = true) :
    c'.outcome.events = c.outcome.events ++ (v.relays setup invoke linkage ++
      (v.emits? c.contract (LedgerAccess.txId v.before.world.ledger) linkage).toList) := by
  cases h with
  | unheard hasked hanswer hgas =>
    obtain ⟨hemits, hrelays⟩ := Visit.emits?_of_unheard hasked
    rw [hemits, hrelays]
    exact (List.append_nil _).symm
  | @own name body result d _ hasked hname hserved heffect hanswered hgas hrun =>
    have hrelays : v.relays setup invoke linkage = [] := by
      unfold Visit.relays Visit.nested?
      rw [hasked, Option.bind_some, if_neg hname]
      rfl
    have hserve := events_serve setup.crypto name body (v.before.world.desk c)
    rw [hrun] at hserve
    have hevents : d.context.outcome.events = c.outcome.events ++
        (emission? c.contract (LedgerAccess.txId v.before.world.ledger) name body).toList := hserve
    rw [hanswered.events, hevents, hrelays, List.nil_append]
    unfold Visit.emits?
    rw [hasked, Option.bind_some]
    cases hemission : emission? c.contract (LedgerAccess.txId v.before.world.ledger) name body with
    | none => rw [ite_self]
    | some e =>
      -- an event that is described well is emitted, and so the answer is a success
      have hdone : ((v.before.world.desk c).run (serve setup.crypto name body)).1 = .ok .done :=
        run_serve_of_emission setup.crypto hemission
      rw [hrun] at hdone
      obtain rfl : result = .ok .done := hdone
      rw [if_pos (hanswered.of_done hsuccess)]
  | @other body served c₁ _ hasked hserved hcalled hanswered =>
    have hemits : v.emits? c.contract (LedgerAccess.txId v.before.world.ledger) linkage = none := by
      have hname : Method.ofName? Method.callContractLen.name ≠ some .emitEvent := by decide
      unfold Visit.emits?
      rw [hasked, Option.bind_some, emission?_of_ne hname, ite_self]
    rw [hemits, Option.toList_none, List.append_nil, hanswered.events]
    exact hcalled.events hanswered hsuccess

/-- A call nested in a request has succeeded, unless its caller is marked as failed. -/
theorem Exchange.succeeded (h : Exchange setup invoke linkage v c c') {call : Call} {y : Host τ}
    (hnested : v.nested? setup linkage = some (call, y)) (hsuccess : c'.outcome.isSuccess = true) :
    ∃ o, (invoke call y).1 = .finished (.ok o) ∧ o.isSuccess = true := by
  obtain ⟨served, c₁, hcalled, hanswered⟩ := h.called hnested
  generalize v.after.gas = gas at hcalled
  cases hcalled with
  | broken hinvoke =>
    rw [hanswered.of_failed.2] at hsuccess
    cases hsuccess
  | failed hinvoke ho =>
    rw [hanswered.of_failed.2] at hsuccess
    cases hsuccess
  | returned hinvoke ho ptr => exact ⟨_, hinvoke, ho⟩

end

theorem Host.events_conclude {x : Host τ} {id : PoolId} {c : Context}
    {result : Except CallFault Unit} {i : Instance}
    (h : (x.conclude setup id c result i).1.isSuccess = true) :
    (x.conclude setup id c result i).1.events = (x.current c).outcome.events := by
  unfold conclude at h ⊢
  dsimp only at h ⊢
  split
  · split <;> rfl
  · rename_i hreason
    rw [hreason] at h
    dsimp only at h
    split at h <;> cases h

/-! ### Calls -/

namespace Attempt

variable (setup) in
/-- The event that the call emits in a request. -/
def emits? (a : Attempt τ) (v : Visit (Host τ)) : Option Event :=
  (a.begun? setup).bind fun s =>
    v.emits? a.call.contract (LedgerAccess.txId a.host.ledger) (s.inst.linkage false)

variable (setup) in
/-- The events that the call emits itself. -/
def ownEvents (a : Attempt τ) : List Event :=
  (a.visits setup).filterMap (a.emits? setup)

/-- The events of a call and of the calls below it, down to a depth.  A call that is nested in a
request emits its events before its caller goes on. -/
def emittedWithin (setup : HostSetup) : Nat → Attempt τ → List Event
  | 0, _ => []
  | depth + 1, a => (a.visits setup).flatMap fun v =>
      (a.nestedIn setup v).elim [] (emittedWithin setup depth) ++ (a.emits? setup v).toList

variable (setup) in
/-- The events of a tree of calls, in the order in which they are emitted. -/
def emitted (a : Attempt τ) : List Event :=
  emittedWithin setup a.levels a

variable {a : Attempt τ}

theorem levels_of_nestedIn {v : Visit (Host τ)} {b : Attempt τ} (h : a.nestedIn setup v = some b) :
    b.levels = a.levels - 1 := by
  obtain ⟨s, hs, hasked⟩ := Option.bind_eq_some_iff.mp h
  obtain ⟨asked, -, rfl⟩ := Option.map_eq_some_iff.mp hasked
  rfl

/-- **The events of a tree are those of its requests**, in their order. -/
theorem emitted_eq (setup : HostSetup) (a : Attempt τ) :
    a.emitted setup = (a.visits setup).flatMap fun v =>
      (a.nestedIn setup v).elim [] (emitted setup) ++ (a.emits? setup v).toList := by
  unfold emitted
  -- a nested attempt has one level less, so what it emits is measured with the same number
  cases hlevels : a.levels with
  | zero =>
    rw [visits_of_not_begun (if_pos hlevels)]
    rfl
  | succ n =>
    refine List.flatMap_congr fun v _ => ?_
    cases hin : a.nestedIn setup v with
    | none => rfl
    | some b =>
      have hb : b.levels = n := by
        rw [levels_of_nestedIn hin, hlevels]
        rfl
      show emittedWithin setup n b ++ _ = emittedWithin setup b.levels b ++ _
      rw [hb]

/-- **The events of a tree are those that its calls emit themselves**, each as often as it was
emitted. -/
theorem emitted_perm (setup : HostSetup) (a : Attempt τ) :
    (a.emitted setup).Perm ((a.family setup).flatMap (ownEvents setup)) := by
  -- by induction on the tree: what is emitted in the order of the requests is, up to order, what is
  -- emitted by the attempts one by one
  refine induct (P := fun a => (a.emitted setup).Perm ((a.family setup).flatMap (ownEvents setup)))
    setup ?_ a
  intro a ih
  have hown : a.ownEvents setup = (a.visits setup).flatMap fun v => (a.emits? setup v).toList :=
    List.filterMap_eq_flatMap_toList _ _
  have hbelow : ((a.visits setup).flatMap fun v =>
      (a.nestedIn setup v).elim [] (emitted setup)) = (a.nested setup).flatMap (emitted setup) := by
    unfold nested
    rw [List.filterMap_eq_flatMap_toList, List.flatMap_assoc]
    refine List.flatMap_congr fun v _ => ?_
    cases a.nestedIn setup v with
    | none => rfl
    | some b => exact (List.flatMap_singleton _ b).symm
  rw [emitted_eq, family_eq, List.flatMap_cons, hown]
  refine (List.flatMap_append_perm _ _ _).symm.trans ?_
  refine List.perm_append_comm.trans (List.Perm.append_left _ ?_)
  rw [hbelow, below, List.flatMap_assoc]
  exact List.Perm.flatMap_left _ ih

/-- A request that does not mark its caller as failed relays the events of the tree of the call that
is nested in it, if that call reports them. -/
theorem relays_eq {s : Begun τ} (hbegun : a.begun? setup = some s) {v : Visit (Host τ)}
    (hv : v ∈ a.visits setup) {c c' : Context}
    (hexchange : Exchange setup (a.inner setup) (s.inst.linkage false) v c c')
    (hnested : ∀ b ∈ a.nested setup, ∀ o, b.result setup = .finished (.ok o) →
      o.isSuccess = true → o.events = b.emitted setup)
    (hsuccess : c'.outcome.isSuccess = true) :
    v.relays setup (a.inner setup) (s.inst.linkage false) =
      (a.nestedIn setup v).elim [] (emitted setup) := by
  unfold Visit.relays
  cases hin : a.nestedIn setup v with
  | none =>
    rw [nestedIn_eq hbegun, Option.map_eq_none_iff] at hin
    rw [hin]
    rfl
  | some b =>
    have hb : b ∈ a.nested setup := List.mem_filterMap.mpr ⟨v, hv, hin⟩
    rw [nestedIn_eq hbegun] at hin
    obtain ⟨⟨call, z⟩, hasked, rfl⟩ := Option.map_eq_some_iff.mp hin
    rw [hasked, Option.elim_some, Option.elim_some]
    -- the call has succeeded, or its caller would be marked as failed
    obtain ⟨o, hinvoke, ho⟩ := hexchange.succeeded hasked hsuccess
    rw [hinvoke]
    exact hnested _ hb o hinvoke ho

/-- An invocation that is not marked as failed has the events of its requests, if every call nested
in them that succeeds reports the events of its tree. -/
theorem Ran.events {s : Begun τ} {result : Except CallFault Unit} {i : Instance} {y : Host τ}
    {c : Context} (h : a.Ran setup s result i y c)
    (htx : ∀ v ∈ a.visits setup,
      LedgerAccess.txId v.before.world.ledger = LedgerAccess.txId a.host.ledger)
    (hnested : ∀ b ∈ a.nested setup, ∀ o, b.result setup = .finished (.ok o) →
      o.isSuccess = true → o.events = b.emitted setup)
    (hsuccess : c.outcome.isSuccess = true) : c.outcome.events = a.emitted setup := by
  obtain ⟨-, henter⟩ := enter_of_begun h.begun
  have hcontract : s.context.contract = a.call.contract := (Host.context_of_enter henter).1
  -- along the course: while the code is success, the events so far are those emitted by the
  -- requests so far
  have hrun : s.context.SameCall c ∧ (c.outcome.isSuccess = true → c.outcome.events =
      (a.visits setup).flatMap fun v =>
        (a.nestedIn setup v).elim [] (emitted setup) ++ (a.emits? setup v).toList) := by
    refine h.along (P := fun visits c => s.context.SameCall c ∧ (c.outcome.isSuccess = true →
      c.outcome.events = visits.flatMap fun v =>
        (a.nestedIn setup v).elim [] (emitted setup) ++ (a.emits? setup v).toList)) ?_ ?_ ?_
    · refine ⟨.refl _, fun _ => ?_⟩
      rw [h.outcome]
      rfl
    · exact fun line hkept => ⟨hkept.1.trans ⟨rfl, rfl⟩, hkept.2⟩
    · rintro visits v c c' hv hc hexchange ⟨hsame, hkept⟩
      refine ⟨hsame.trans hexchange.sameCall, fun hnow => ?_⟩
      -- a code that has turned does not turn back
      have hbefore : c.outcome.isSuccess = true := by
        by_contra hfailed
        have hfailed := hexchange.advances.failed (Bool.eq_false_iff.mpr hfailed)
        exact nomatch hnow.symm.trans hfailed
      have hemits : a.emits? setup v =
          v.emits? c.contract (LedgerAccess.txId v.before.world.ledger) (s.inst.linkage false) := by
        unfold emits?
        rw [h.begun, Option.bind_some, hsame.contract, hcontract, htx v hv]
      have hrelays := relays_eq h.begun hv hexchange hnested hnow
      rw [hexchange.events hnow, hkept hbefore, hrelays, ← hemits, List.flatMap_append,
        List.flatMap_singleton]
  rw [emitted_eq]
  exact hrun.2 hsuccess

/-- **The events of a success are those of its tree**, if no operation renames the transaction. -/
theorem Ended.events (ha : a.Ended setup) (hkeeps : LedgerAccess.KeepsTxId τ) :
    ∀ o, a.result setup = .finished (.ok o) → o.isSuccess = true → o.events = a.emitted setup := by
  refine induct (P := fun a => a.Ended setup → ∀ o, a.result setup = .finished (.ok o) →
    o.isSuccess = true → o.events = a.emitted setup) setup ?_ a ha
  intro a ih ha o ho hsuccess
  have htrial := trial setup ha.orderly
  rw [ho] at htrial
  cases htrial with
  | @concluded s result i y c h =>
    have hcurrent : y.current s.context = c := h.underway.current h.advances.handle.symm
    have hinvocation := Host.isSuccess_conclude hsuccess
    rw [hcurrent] at hinvocation
    obtain ⟨-, -, htx⟩ := saved ha.orderly (hkeeps (LedgerAccess.txId a.host.ledger)) rfl a
      (a.self_mem_family setup)
    rw [Host.events_conclude hsuccess, hcurrent]
    exact h.events htx (fun b hb => ih b hb (ha.nested hb)) hinvocation

/-- Every event that a call emits itself names its contract and its transaction. -/
theorem of_mem_ownEvents {e : Event} (h : e ∈ a.ownEvents setup) :
    e.txId = LedgerAccess.txId a.host.ledger ∧ e.contractName = a.call.contract.name ∧
      e.contractVersion = a.call.contract.version := by
  obtain ⟨v, -, hemits⟩ := List.mem_filterMap.mp h
  obtain ⟨s, -, hemits⟩ := Option.bind_eq_some_iff.mp hemits
  exact Visit.emits?_eq_some hemits

end Attempt

/-- **The events of a success are those that were emitted in its tree**, in their order.  Every
outcome with the code zero, of a topmost call or of a nested one, has exactly the events that the
requests of its tree have emitted, in the order of the requests, those of a nested call before its
caller goes on.  They are what the calls of the tree emit themselves, none lost and none twice, and
each of them names the transaction and the contract that has emitted it.  The host may be any one
that is orderly, as every host in service is, and the ledger any one whose operations leave the name
of the transaction. -/
theorem Host.events_of_success {x : Host τ} {entry : Entry} (hkeeps : LedgerAccess.KeepsTxId τ)
    (hx : x.Orderly) :
    ∀ t ∈ (x.root setup entry).family setup, ∀ o, t.result setup = .finished (.ok o) → o.code = 0 →
      o.events = t.emitted setup ∧
      o.events.Perm ((t.family setup).flatMap (Attempt.ownEvents setup)) ∧
      ∀ d ∈ t.family setup, ∀ e ∈ d.ownEvents setup, e.txId = LedgerAccess.txId x.ledger ∧
        e.contractName = d.call.contract.name ∧ e.contractVersion = d.call.contract.version := by
  intro t ht o ho hcode
  have hstable := hkeeps (LedgerAccess.txId x.ledger)
  obtain ⟨horderly, -, -⟩ := (x.root setup entry).saved hx hstable rfl t ht
  have hended : t.Ended setup := ⟨horderly, _, ho⟩
  have hevents := hended.events hkeeps o ho (decide_eq_true hcode)
  refine ⟨hevents, hevents.symm ▸ t.emitted_perm setup, fun d hd e he => ?_⟩
  obtain ⟨htx, hname, hversion⟩ := Attempt.of_mem_ownEvents he
  obtain ⟨-, hsame, -⟩ := (x.root setup entry).saved hx hstable rfl d
    (Attempt.family_trans setup _ t ht d hd)
  exact ⟨htx.trans hsame, hname, hversion⟩

namespace Host

/-- An event about a topic. -/
def aboutTopic (topic : String) : Bytes :=
  Packet.encode ⟨[⟨.user, "topic", .text topic⟩, ⟨.user, "data", .text "1"⟩]⟩

/-- A host with a contract that emits one event. -/
def replyingHost : Host Session :=
  let code := askingCode [(1024, headerOf 2 .emitEvent, aboutTopic "reply")]
  { ledger := ⟨Ledger.deploy {} ⟨"replying", "1"⟩ code, { id := "tx" }⟩ }

theorem orderly_replyingHost : replyingHost.Orderly :=
  .of_empty replyingHost.ledger

/-- A call of a contract that emits one event, calls the other contract, and emits another event. -/
def talking : Call :=
  let callBody := Packet.encode ⟨[⟨.user, "contract_name", .text "replying"⟩,
    ⟨.user, "method", .text "run"⟩, ⟨.user, "value_ptr", .int32 0⟩]⟩
  let code := askingCode [(1024, headerOf 1 .emitEvent, aboutTopic "question"),
    (2048, headerOf 1 .callContractLen, callBody),
    (4096, headerOf 1 .emitEvent, aboutTopic "thanks")]
  { contract := ⟨"talking", "1"⟩, code, method := "run" }

theorem outcome?_talking : ((replyingHost.invoke singleSetup talking).1.outcome?.map fun o =>
    (o.code, o.events.map fun e => (e.topic, e.txId, e.contractName))) =
    some (0, [("question", "tx", "talking"), ("reply", "tx", "replying"),
      ("thanks", "tx", "talking")]) := by decide +kernel

/-- The event of the contract that is called stands between those of its caller. -/
theorem events_of_success_talking :
    ∃ o, (replyingHost.invoke singleSetup talking).1 = .finished (.ok o) ∧
      o.events = (replyingHost.root singleSetup (.new talking)).emitted singleSetup ∧
      o.events.map (fun e => (e.topic, e.txId, e.contractName)) =
        [("question", "tx", "talking"), ("reply", "tx", "replying"),
          ("thanks", "tx", "talking")] := by
  obtain ⟨o, houtcome, hfound⟩ := Option.map_eq_some_iff.mp outcome?_talking
  obtain ⟨hcode, htopics⟩ := Prod.mk.inj hfound
  have hended := Completion.outcome?_eq_some houtcome
  have hresult := (result_root singleSetup talking replyingHost).trans hended
  obtain ⟨hevents, -, -⟩ := events_of_success Session.keepsTxId orderly_replyingHost _
    (Attempt.self_mem_family singleSetup _) o hresult hcode
  exact ⟨o, hended, hevents, htopics⟩

end Host

end ContractHost
