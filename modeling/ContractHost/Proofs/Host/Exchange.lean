import ContractHost.Proofs.Host.Filing
import ContractHost.Proofs.Host.Underway

/-!
# What a request does to its invocation

A request is served, and then answered.  Serving it may change the invocation; answering it may add
an error, where serving has failed or where the reply cannot be written.  A call of another contract
is served by way of that contract's own invocation, which leaves the caller's invocation alone until
its outcome is taken over.

## Main definitions

* `Visit.asked?`, `method?`, `nested?`, `served?` — a request as the host reads and serves it.
* `Answered`, `Called` — how a request is answered, and how a call of another contract is served.
* `Exchange` — what a request does to its invocation.
* `Invoker.Tidy` — whoever carries out calls leaves the invocations under way as they were.
* `Host.InService` — a host with whatever it has done since it was new.

## Main results

* `Host.Underway.exchange` — **what a request does to its invocation.**
* `Host.tidy_invokeWithin` — **calls leave the invocations under way as they were.**
* `Host.InService.orderly` — **every host in service is orderly.**
-/

namespace ContractHost

variable {τ : Type} [LedgerAccess τ]

/-! ### Requests as the host reads them -/

/-- The call that a request for another contract comes to, and the host that it finds. -/
def Host.callAsked? (setup : HostSetup) (x : Host τ) (c : Context) (gas : Nat) (body : Bytes) :
    Option (Call × Host τ) :=
  match x.serveOn c (callOf setup gas body) with
  | (.ok (_, call), y) => some (call, y)
  | (.error _, _) => none

namespace Visit

/-- The invocation for which a request is served, with the name and the body of the request. -/
def asked? (linkage : Linkage) (v : Visit (Host τ)) : Option (Context × String × Bytes) :=
  v.before.world.addressee? linkage v.regions v.before.memory

/-- What is requested. -/
def method? (linkage : Linkage) (v : Visit (Host τ)) : Option Method :=
  (v.asked? linkage).bind fun asked => Method.ofName? asked.2.1

/-- The call that is nested in a request, and the host that it finds. -/
def nested? (setup : HostSetup) (linkage : Linkage) (v : Visit (Host τ)) :
    Option (Call × Host τ) :=
  (v.asked? linkage).bind fun asked =>
    if asked.2.1 = Method.callContractLen.name then
      v.before.world.callAsked? setup asked.1 v.before.gas asked.2.2
    else none

/-- How a request is served, if it is heard. -/
def served? (setup : HostSetup) (invoke : Invoker τ) (linkage : Linkage) (v : Visit (Host τ)) :
    Option Served :=
  (v.asked? linkage).map fun asked =>
    (v.before.world.serveRequest setup invoke asked.1 asked.2.1 asked.2.2 v.before.toCaller).1

end Visit

/-- A call has failed: it was not carried out, or its outcome is a failure. -/
def Completion.Failed : Completion → Prop
  | .finished (.ok o) => o.isSuccess = false
  | .finished (.error _) => True
  | .suspended => False

/-- Whoever carries out calls leaves the pools quiet, and the invocations under way as they were. -/
def Invoker.Tidy (invoke : Invoker τ) : Prop :=
  ∀ {call : Call} {x y : Host τ} {result : Except ExecutionError Outcome}, x.Orderly →
    invoke call x = (.finished result, y) →
    y.Orderly ∧ y.registry.contexts = x.registry.contexts

/-! ### Answers -/

/-- How a request that was served is answered, and what becomes of its invocation. -/
inductive Answered (c : Context) : Served → Answer → Context → Prop
  /-- Not at all. -/
  | suspended : Answered c .suspended .suspended c
  /-- The host has crashed. -/
  | crashed (message : String) :
      Answered c (.finished (.error (.crashed message))) (.crashed message) c
  /-- Serving has failed. -/
  | failed (e : SyscallError) :
      Answered c (.finished (.error (.failed e))) (.signal signals.failure)
        (c.recordError e.message)
  /-- The reply cannot be written. -/
  | unwritten (reply : Reply) (e : SyscallError) :
      Answered c (.finished (.ok reply)) (.signal signals.failure) (c.recordError e.message)
  /-- The request is refused without an error. -/
  | rejected : Answered c (.finished (.ok .rejected)) (.signal signals.failure) c
  /-- The reply is written. -/
  | written (reply : Reply) : Answered c (.finished (.ok reply)) (.signal signals.success) c

theorem Answered.onward {c c' : Context} {served : Served} {answer : Answer}
    (h : Answered c served answer c') : c.Onward c' := by
  cases h with
  | suspended => exact .refl c
  | crashed message => exact .refl c
  | failed e => exact c.onward_recordError e.message
  | unwritten reply e => exact c.onward_recordError e.message
  | rejected => exact .refl c
  | written reply => exact .refl c

theorem Answered.ne_suspended {c c' : Context} {result : Except RequestFault Reply}
    {answer : Answer} (h : Answered c (.finished result) answer c') : answer ≠ .suspended := by
  generalize hserved : Served.finished result = served at h
  cases h with
  | suspended => cases hserved
  | _ => exact nofun

theorem Answered.of_error {c c' : Context} {e : RequestFault} {answer : Answer}
    (h : Answered c (.finished (.error e)) answer c') : answer ≠ .signal signals.success := by
  generalize hserved : Served.finished (.error e) = served at h
  cases h <;> cases hserved
  · exact nofun
  · exact fun h => absurd (Answer.signal.inj h) (by decide)

theorem Answered.of_failed {c c' : Context} {e : SyscallError} {answer : Answer}
    (h : Answered c (.finished (.error (.failed e))) answer c') :
    answer = .signal signals.failure ∧ c' = c.recordError e.message := by
  generalize hserved : Served.finished (.error (.failed e)) = served at h
  cases h <;> cases hserved
  exact ⟨rfl, rfl⟩

theorem applyReply_eq_ok {linkage : Linkage} {caller caller' : Caller} {reply : Reply}
    {signal : Int32} (h : applyReply linkage caller reply = .ok (signal, caller')) :
    caller'.gas = caller.gas ∧
      (reply = .rejected ∧ signal = signals.failure ∨ signal = signals.success) := by
  cases reply with
  | done =>
    cases h
    exact ⟨rfl, .inr rfl⟩
  | rejected =>
    cases h
    exact ⟨rfl, .inl ⟨rfl, rfl⟩⟩
  -- the reply is written only if the memory is exported and the region lies in it
  | write ptr bytes =>
    unfold applyReply at h
    obtain ⟨memory, -, h⟩ := Except.bind_eq_ok_iff.mp h
    obtain ⟨after, -, h⟩ := Except.bind_eq_ok_iff.mp h
    cases h
    exact ⟨rfl, .inr rfl⟩

variable {base : OrderedMap Int32 Context} {c c₀ : Context} {x : Host τ}

omit [LedgerAccess τ] in
/-- **Every request is answered in one of these ways**, and answering uses no gas. -/
theorem Host.Underway.answered (h : Underway base c x) (hhandle : c₀.handle = c.handle)
    (linkage : Linkage) (served : Served) (caller : Caller) :
    ∃ c', Underway base c' (x.answer linkage c₀ served caller).2.2 ∧
      Answered c served (x.answer linkage c₀ served caller).1 c' ∧
      (x.answer linkage c₀ served caller).2.1.gas = caller.gas := by
  unfold Host.answer
  cases served with
  | suspended => exact ⟨c, h, .suspended, rfl⟩
  | finished result =>
    cases result with
    | error e =>
      cases e with
      | failed e => exact ⟨_, h.record hhandle e, .failed e, rfl⟩
      | crashed message => exact ⟨c, h, .crashed message, rfl⟩
    -- the answer is a signal, or the error of a reply that could not be written
    | ok reply =>
      dsimp only
      cases happly : applyReply linkage caller reply with
      | error e => exact ⟨_, h.record hhandle e, .unwritten reply e, rfl⟩
      | ok applied =>
        obtain ⟨signal, caller'⟩ := applied
        obtain ⟨hgas, ⟨rfl, rfl⟩ | rfl⟩ := applyReply_eq_ok happly
        · exact ⟨c, h, .rejected, hgas⟩
        · exact ⟨c, h, .written reply, hgas⟩

/-! ### Calls of other contracts -/

section

open Serving

/-- One more than a number of 32 bits is one greater, unless it is zero. -/
theorem toNat_succ_of_ne_zero {n : UInt32} (h : n + 1 ≠ 0) : (n + 1).toNat = n.toNat + 1 := by
  have hlt := n.toNat_lt_size
  have hne : (n + 1).toNat ≠ 0 := fun hzero => h (UInt32.toNat_inj.mp hzero)
  rw [UInt32.toNat_add] at hne ⊢
  change (n.toNat + 1) % UInt32.size ≠ 0 at hne
  change (n.toNat + 1) % UInt32.size = n.toNat + 1
  simp only [UInt32.size] at hlt hne ⊢
  omega

omit [LedgerAccess τ] in
/-- There is no call if its depth cannot be counted. -/
theorem comesTo_deeper_bind {α : Type} {Q : Except RequestFault α → Desk τ → Prop} {d : Desk τ}
    {depth : UInt32} {f : UInt32 → Serving τ α} (herror : ∀ e, Q (.error e) d)
    (hf : depth + 1 ≠ 0 → ComesTo Q d (f (depth + 1))) : ComesTo Q d (deeper depth >>= f) := by
  unfold deeper
  split
  · exact herror _
  · rename_i hdepth
    exact hf hdepth

/-- Whoever asks for a call looks things up, and does nothing yet.  The call begins with the gas
that its caller has used, one level deeper. -/
theorem comesTo_callOf (setup : HostSetup) (gas : Nat) (body : Bytes) (d : Desk τ) :
    ComesTo (fun asked d' => d' = d ∧ ∀ ptr call, asked = .ok (ptr, call) →
        call.gasUsed = UInt64.ofNat (setup.gasLimit - gas) ∧
          call.depth.toNat = d.context.depth.toNat + 1) d (callOf setup gas body) := by
  have herror (e : RequestFault) : d = d ∧ ∀ ptr call,
      (.error e : Except RequestFault (Int32 × Call)) = .ok (ptr, call) →
        call.gasUsed = UInt64.ofNat (setup.gasLimit - gas) ∧
          call.depth.toNat = d.context.depth.toNat + 1 :=
    ⟨rfl, nofun⟩
  refine (reads_ofPacket _).comesTo_bind herror fun body => ?_
  refine (reads_place body).comesTo_bind herror fun ptr => ?_
  refine (reads_ofPacket _).comesTo_bind herror fun name => ?_
  refine (reads_ofPacket _).comesTo_bind herror fun method => ?_
  -- whatever parameters were read, the rest of the way is the same
  have hlisted (params : OrderedMap String Bytes) :
      ComesTo (fun asked d' => d' = d ∧ ∀ ptr call, asked = .ok (ptr, call) →
          call.gasUsed = UInt64.ofNat (setup.gasLimit - gas) ∧
            call.depth.toNat = d.context.depth.toNat + 1)
        d (Host.callListed (UInt64.ofNat (setup.gasLimit - gas)) ptr name method params) := by
    refine reads_ledger.comesTo_bind herror fun t => ?_
    refine (reads_ofLedger _).comesTo_bind herror fun listed => comesTo_context_bind ?_
    refine comesTo_deeper_bind herror fun hdepth => ⟨rfl, fun ptr call hcall => ?_⟩
    cases hcall
    exact ⟨rfl, toNat_succ_of_ne_zero hdepth⟩
  dsimp only
  split
  · exact herror _
  · split
    · refine (reads_ofPacket _).comesTo_bind herror fun blob => ?_
      exact (reads_ofPacket _).comesTo_bind herror fun packet => hlisted _
    · exact hlisted _

omit [LedgerAccess τ] in
theorem run_absorb (ptr : Int32) (o : Outcome) (d : Desk τ) :
    d.run (absorb ptr o) =
      if o.isSuccess then
        (.ok (.length ptr o.payload.length),
          { d with context :=
              (((d.context.mergeTxClass o.txClass).pushEvents o.events).cache o.payload).2 })
      else
        (.error (.failed (.callContract o.message)),
          { d with context := (d.context.mergeTxClass o.txClass).clearCache }) := by
  unfold absorb
  cases o.isSuccess <;> rfl

end

/-- How a call of another contract is served that is not broken off, for a caller with some gas:
whether a call was asked for, how it was served, the gas that is left, and what becomes of the
caller's invocation. -/
inductive Called (setup : HostSetup) (invoke : Invoker τ) (c : Context) (gas : Nat) :
    Option (Call × Host τ) → Served → Nat → Context → Prop
  /-- No call comes of it. -/
  | refused (e : RequestFault) : Called setup invoke c gas none (.finished (.error e)) gas c
  /-- The call could not be carried out. -/
  | broken {call : Call} {y : Host τ} {e : ExecutionError}
      (hinvoke : (invoke call y).1 = .finished (.error e)) :
      Called setup invoke c gas (some (call, y))
        (.finished (.error (.failed (.callContract e.message)))) gas c
  /-- The call has failed. -/
  | failed {call : Call} {y : Host τ} {o : Outcome}
      (hinvoke : (invoke call y).1 = .finished (.ok o)) (ho : o.isSuccess = false) :
      Called setup invoke c gas (some (call, y))
        (.finished (.error (.failed (.callContract o.message))))
        (setup.gasLimit - o.gasUsed.toNat) (c.mergeTxClass o.txClass).clearCache
  /-- The call has succeeded. -/
  | returned {call : Call} {y : Host τ} {o : Outcome}
      (hinvoke : (invoke call y).1 = .finished (.ok o)) (ho : o.isSuccess = true) (ptr : Int32) :
      Called setup invoke c gas (some (call, y)) (.finished (.ok (.length ptr o.payload.length)))
        (setup.gasLimit - o.gasUsed.toNat)
        (((c.mergeTxClass o.txClass).pushEvents o.events).cache o.payload).2

variable {setup : HostSetup} {invoke : Invoker τ}

omit [LedgerAccess τ] in
theorem Called.advances {gas gas' : Nat} {asked : Option (Call × Host τ)} {served : Served}
    {c' : Context} (h : Called setup invoke c gas asked served gas' c') : c.Advances c' := by
  cases h with
  | refused e => exact .refl c
  | broken hinvoke => exact .refl c
  | @failed call y o hinvoke ho =>
    exact (c.onward_mergeTxClass o.txClass).toAdvances.trans (Context.advances_clearCache _)
  | @returned call y o hinvoke ho ptr =>
    have honward : c.Onward ((c.mergeTxClass o.txClass).pushEvents o.events) :=
      (c.onward_mergeTxClass o.txClass).trans (Context.onward_pushEvents _ o.events)
    exact honward.toAdvances.trans (Context.advances_cache _ o.payload)

/-- A call that is asked for finds the invocations as they were. -/
theorem Host.Underway.callAsked (h : Underway base c x) {gas : Nat} {body : Bytes} {call : Call}
    {y : Host τ} (hasked : x.callAsked? setup c gas body = some (call, y)) :
    Underway base c y ∧ call.gasUsed = UInt64.ofNat (setup.gasLimit - gas) := by
  have hcall := comesTo_callOf setup gas body (x.desk c)
  unfold Serving.ComesTo at hcall
  unfold Host.callAsked? Host.serveOn at hasked
  generalize (x.desk c).run (callOf setup gas body) = ran at hcall hasked
  obtain ⟨asked, d⟩ := ran
  obtain ⟨rfl, hfound⟩ := hcall
  cases asked with
  | error e => cases hasked
  | ok found =>
    cases hasked
    exact ⟨h.clear (d := x.desk c) rfl, (hfound _ _ rfl).1⟩

/-- A call that is asked for is exactly one level deeper than its caller. -/
theorem Host.depth_callAsked {gas : Nat} {body : Bytes} {call : Call} {y : Host τ}
    (hasked : x.callAsked? setup c gas body = some (call, y)) :
    call.depth.toNat = c.depth.toNat + 1 := by
  have hcall := comesTo_callOf setup gas body (x.desk c)
  unfold Serving.ComesTo at hcall
  unfold Host.callAsked? Host.serveOn at hasked
  generalize (x.desk c).run (callOf setup gas body) = ran at hcall hasked
  obtain ⟨asked, d⟩ := ran
  obtain ⟨-, hfound⟩ := hcall
  cases asked with
  | error e => cases hasked
  | ok found =>
    cases hasked
    exact (hfound _ _ rfl).2

theorem Host.depth_callAsked_ne_zero {gas : Nat} {body : Bytes} {call : Call} {y : Host τ}
    (hasked : x.callAsked? setup c gas body = some (call, y)) : call.depth ≠ 0 := by
  intro htop
  have hdepth := depth_callAsked hasked
  rw [htop] at hdepth
  exact nomatch hdepth

/-- **A call of another contract is served in one of these ways.** -/
theorem Host.Underway.called (h : Underway base c x) (htidy : invoke.Tidy) (body : Bytes)
    (caller : Caller) (hserved : (x.serveCall setup invoke c body caller).1 ≠ .suspended) :
    ∃ c', Underway base c' (x.serveCall setup invoke c body caller).2.2 ∧
      Called setup invoke c caller.gas (x.callAsked? setup c caller.gas body)
        (x.serveCall setup invoke c body caller).1
        (x.serveCall setup invoke c body caller).2.1.gas c' := by
  have hcall := comesTo_callOf setup caller.gas body (x.desk c)
  unfold Serving.ComesTo at hcall
  unfold Host.serveCall Host.callAsked? Host.serveOn at *
  generalize (x.desk c).run (callOf setup caller.gas body) = ran at hcall hserved ⊢
  obtain ⟨asked, d⟩ := ran
  -- so far things were only looked up
  obtain ⟨rfl, -⟩ := hcall
  have hy : Underway base c (x.clear (x.desk c)) := h.clear (d := x.desk c) rfl
  cases asked with
  | error e => exact ⟨c, hy, .refused e⟩
  | ok found =>
    obtain ⟨ptr, call⟩ := found
    dsimp only at hserved ⊢
    generalize x.clear (x.desk c) = y at hy hserved ⊢
    cases hinvoke : invoke call y with
    | mk completion z =>
      have hresult : (invoke call y).1 = completion := congrArg Prod.fst hinvoke
      rw [hinvoke] at hserved
      cases completion with
      | suspended => exact absurd rfl hserved
      | finished result =>
        obtain ⟨horderly, hcontexts⟩ := htidy hy.orderly hinvoke
        have hz : Underway base c z := ⟨horderly, hcontexts.trans hy.contexts⟩
        cases result with
        | error e => exact ⟨c, hz, .broken hresult⟩
        | ok o =>
          dsimp only
          rw [hz.current rfl, run_absorb]
          cases ho : o.isSuccess with
          | false => exact ⟨_, hz.clear (d := ⟨_, _, _⟩) rfl, .failed hresult ho⟩
          | true => exact ⟨_, hz.clear (d := ⟨_, _, _⟩) rfl, .returned hresult ho ptr⟩

/-! ### Requests from beginning to end -/

/-- What a request that was answered has done to its invocation. -/
inductive Exchange (setup : HostSetup) (invoke : Invoker τ) (linkage : Linkage)
    (v : Visit (Host τ)) (c : Context) : Context → Prop
  /-- It is not heard. -/
  | unheard (hasked : v.asked? linkage = none) (hanswer : v.answer = .signal signals.failure)
      (hgas : v.after.gas = v.before.gas) : Exchange setup invoke linkage v c c
  /-- It concerns its own invocation. -/
  | own {name : String} {body : Bytes} {result : Except RequestFault Reply} {d : Desk τ}
      {c' : Context} (hasked : v.asked? linkage = some (c, name, body))
      (hname : name ≠ Method.callContractLen.name)
      (hserved : v.served? setup invoke linkage = some (.finished result))
      (heffect : Effect setup.crypto name body (v.before.world.desk c) result d)
      (hanswered : Answered d.context (.finished result) v.answer c')
      (hgas : v.after.gas = v.before.gas)
      (hrun : (v.before.world.desk c).run (serve setup.crypto name body) = (result, d)) :
      Exchange setup invoke linkage v c c'
  /-- It asks for a call of another contract. -/
  | other {body : Bytes} {served : Served} {c₁ c' : Context}
      (hasked : v.asked? linkage = some (c, Method.callContractLen.name, body))
      (hserved : v.served? setup invoke linkage = some served)
      (hcalled : Called setup invoke c v.before.gas (v.nested? setup linkage) served v.after.gas c₁)
      (hanswered : Answered c₁ served v.answer c') : Exchange setup invoke linkage v c c'

omit [LedgerAccess τ] in
/-- A request that was served is answered, and its invocation is under way as before. -/
theorem Host.Underway.answered_visit {linkage : Linkage} {v : Visit (Host τ)} {served : Served}
    {caller : Caller} {y : Host τ} (h : Underway base c y) (hhandle : c₀.handle = c.handle)
    (hanswer : y.answer linkage c₀ served caller = (v.answer, v.after.toCaller, v.after.world)) :
    ∃ c', Underway base c' v.after.world ∧ Answered c served v.answer c' ∧
      v.after.gas = caller.gas := by
  have hanswered := h.answered hhandle linkage served caller
  rw [hanswer] at hanswered
  exact hanswered

section

variable {linkage : Linkage} {regions : Regions} {caller : Caller} {name : String} {body : Bytes}

theorem Host.request_of_unheard
    (hasked : x.addressee? linkage regions caller.memory = none) :
    (hostCalls setup invoke).request linkage regions caller x =
      (.signal signals.failure, caller, x) := by
  show x.request setup invoke linkage regions caller = _
  unfold Host.request
  rw [hasked]

theorem Host.request_of_own
    (hasked : x.addressee? linkage regions caller.memory = some (c, name, body))
    (hname : name ≠ Method.callContractLen.name) :
    (hostCalls setup invoke).request linkage regions caller x =
      (x.clear ((x.desk c).run (serve setup.crypto name body)).2).answer linkage c
        (.finished ((x.desk c).run (serve setup.crypto name body)).1) caller := by
  show x.request setup invoke linkage regions caller = _
  unfold Host.request
  rw [hasked]
  dsimp only
  unfold Host.serveRequest Host.serveOn
  rw [if_neg hname]

theorem Host.request_of_other
    (hasked : x.addressee? linkage regions caller.memory =
      some (c, Method.callContractLen.name, body)) :
    (hostCalls setup invoke).request linkage regions caller x =
      (x.serveCall setup invoke c body caller).2.2.answer linkage c
        (x.serveCall setup invoke c body caller).1
        (x.serveCall setup invoke c body caller).2.1 := by
  show x.request setup invoke linkage regions caller = _
  unfold Host.request
  rw [hasked]
  dsimp only
  unfold Host.serveRequest
  rw [if_pos rfl]

variable {v : Visit (Host τ)}

theorem Visit.served?_of_own (hasked : v.asked? linkage = some (c, name, body))
    (hname : name ≠ Method.callContractLen.name) :
    v.served? setup invoke linkage =
      some (.finished ((v.before.world.desk c).run (serve setup.crypto name body)).1) := by
  unfold served?
  rw [hasked, Option.map_some]
  unfold Host.serveRequest Host.serveOn
  rw [if_neg hname]

theorem Visit.served?_of_other
    (hasked : v.asked? linkage = some (c, Method.callContractLen.name, body)) :
    v.served? setup invoke linkage =
      some (v.before.world.serveCall setup invoke c body v.before.toCaller).1 := by
  unfold served?
  rw [hasked, Option.map_some]
  unfold Host.serveRequest
  rw [if_pos rfl]

theorem Visit.nested?_of_other
    (hasked : v.asked? linkage = some (c, Method.callContractLen.name, body)) :
    v.nested? setup linkage = v.before.world.callAsked? setup c v.before.gas body := by
  unfold nested?
  rw [hasked, Option.bind_some, if_pos rfl]

end

/-- **What a request does to its invocation**, while nobody else makes requests for it. -/
theorem Host.Underway.exchange {linkage : Linkage} {v : Visit (Host τ)}
    (h : Underway base c v.before.world) (htidy : invoke.Tidy)
    (hbound : linkage.bound = some c.handle)
    (hrequest : (hostCalls setup invoke).request linkage v.regions v.before.toCaller
      v.before.world = (v.answer, v.after.toCaller, v.after.world))
    (hanswer : v.answer ≠ .suspended) :
    ∃ c', Underway base c' v.after.world ∧ Exchange setup invoke linkage v c c' := by
  cases hasked : v.asked? linkage with
  | none =>
    rw [request_of_unheard hasked] at hrequest
    obtain ⟨hsignal, hcaller, hworld⟩ : Answer.signal signals.failure = v.answer ∧
        v.before.toCaller = v.after.toCaller ∧ v.before.world = v.after.world := by
      simpa only [Prod.mk.injEq] using hrequest
    exact ⟨c, hworld ▸ h, .unheard hasked hsignal.symm (congrArg Caller.gas hcaller).symm⟩
  | some asked =>
    obtain ⟨c₀, name, body⟩ := asked
    obtain rfl : c₀ = c := h.addressee hbound hasked
    by_cases hname : name = Method.callContractLen.name
    · obtain rfl := hname
      rw [request_of_other hasked] at hrequest
      -- the call may be broken off, but then so is the request
      have hends : (v.before.world.serveCall setup invoke c₀ body v.before.toCaller).1 ≠
          .suspended := by
        intro hsuspended
        rw [hsuspended] at hrequest
        exact hanswer (congrArg Prod.fst hrequest).symm
      obtain ⟨c₁, hy, hcalled⟩ := h.called htidy body v.before.toCaller hends
      obtain ⟨c', hc', hanswered, hgas⟩ :=
        hy.answered_visit hcalled.advances.handle.symm hrequest
      rw [← Visit.nested?_of_other hasked, ← hgas] at hcalled
      exact ⟨c', hc', .other hasked (Visit.served?_of_other hasked) hcalled hanswered⟩
    · rw [request_of_own hasked hname] at hrequest
      have heffect := effect_serve setup.crypto name body (v.before.world.desk c₀)
      have hhandle := heffect.advances.handle
      obtain ⟨c', hc', hanswered, hgas⟩ :=
        (h.clear hhandle).answered_visit hhandle.symm hrequest
      exact ⟨c', hc',
        .own hasked hname (Visit.served?_of_own hasked hname) heffect hanswered hgas rfl⟩

namespace Exchange

variable {linkage : Linkage} {v : Visit (Host τ)} {c' : Context}

/-- **No request undoes what must stay.** -/
theorem advances (h : Exchange setup invoke linkage v c c') : c.Advances c' := by
  cases h with
  | unheard hasked hanswer hgas => exact .refl c
  | own hasked hname hserved heffect hanswered hgas =>
    exact heffect.advances.trans hanswered.onward.toAdvances
  | other hasked hserved hcalled hanswered =>
    exact hcalled.advances.trans hanswered.onward.toAdvances

/-- A call comes only of a request for one. -/
theorem called (h : Exchange setup invoke linkage v c c') {call : Call} {y : Host τ}
    (hnested : v.nested? setup linkage = some (call, y)) :
    ∃ served c₁, Called setup invoke c v.before.gas (some (call, y)) served v.after.gas c₁ ∧
      Answered c₁ served v.answer c' := by
  cases h with
  | unheard hasked hanswer hgas =>
    unfold Visit.nested? at hnested
    rw [hasked] at hnested
    cases hnested
  | own hasked hname hserved heffect hanswered hgas =>
    unfold Visit.nested? at hnested
    rw [hasked] at hnested
    simp only [Option.bind_some, if_neg hname] at hnested
    cases hnested
  | other hasked hserved hcalled hanswered =>
    rw [hnested] at hcalled
    exact ⟨_, _, hcalled, hanswered⟩

/-- A call that is asked for finds the invocations as they were, and begins with the gas that its
caller has used. -/
theorem nested (h : Exchange setup invoke linkage v c c') (hc : Host.Underway base c v.before.world)
    {call : Call} {y : Host τ} (hnested : v.nested? setup linkage = some (call, y)) :
    Host.Underway base c y ∧ call.gasUsed = UInt64.ofNat (setup.gasLimit - v.before.gas) := by
  unfold Visit.nested? at hnested
  cases h with
  | unheard hasked hanswer hgas =>
    rw [hasked] at hnested
    cases hnested
  | own hasked hname hserved heffect hanswered hgas =>
    rw [hasked] at hnested
    simp only [Option.bind_some, if_neg hname] at hnested
    cases hnested
  | other hasked hserved hcalled hanswered =>
    rw [hasked] at hnested
    simp only [Option.bind_some, if_true] at hnested
    exact hc.callAsked hnested

/-- **A call that fails marks its caller as failed.** -/
theorem failed (h : Exchange setup invoke linkage v c c') {call : Call} {y : Host τ}
    (hnested : v.nested? setup linkage = some (call, y)) (hfailed : (invoke call y).1.Failed) :
    c'.outcome.isSuccess = false := by
  obtain ⟨served, c₁, hcalled, hanswered⟩ := h.called hnested
  generalize v.after.gas = gas at hcalled
  cases hcalled with
  | broken hinvoke =>
    rw [hanswered.of_failed.2]
    rfl
  | failed hinvoke ho =>
    rw [hanswered.of_failed.2]
    rfl
  | returned hinvoke ho ptr =>
    rw [hinvoke] at hfailed
    exact absurd (ho.symm.trans hfailed) nofun

/-- **A caller goes on with what a call has left.**  A request uses no other gas. -/
theorem gas (h : Exchange setup invoke linkage v c c') :
    v.after.gas = match v.nested? setup linkage with
      | none => v.before.gas
      | some (call, y) =>
        match (invoke call y).1 with
        | .finished (.ok o) => setup.gasLimit - o.gasUsed.toNat
        | _ => v.before.gas := by
  -- gas changes in a nested call only, and there to what the callee has left over
  cases hnested : v.nested? setup linkage with
  | some asked =>
    obtain ⟨call, y⟩ := asked
    obtain ⟨served, c₁, hcalled, -⟩ := h.called hnested
    generalize v.after.gas = gas at hcalled ⊢
    cases hcalled with
    | broken hinvoke => simp only [hinvoke]
    | failed hinvoke ho => simp only [hinvoke]
    | returned hinvoke ho ptr => simp only [hinvoke]
  | none =>
    cases h with
    | unheard hasked hanswer hgas => exact hgas
    | own hasked hname hserved heffect hanswered hgas => exact hgas
    | other hasked hserved hcalled hanswered =>
      rw [hnested] at hcalled
      generalize v.after.gas = gas at hcalled ⊢
      cases hcalled
      rfl

end Exchange

/-! ### Runs from beginning to end -/

/-- A request that was part of a run, whose invocation has gone on since. -/
def Exchanged (setup : HostSetup) (invoke : Invoker τ) (linkage : Linkage)
    (base : OrderedMap Int32 Context) (now : Context) (v : Visit (Host τ)) : Prop :=
  ∃ c c', Host.Underway base c v.before.world ∧ Exchange setup invoke linkage v c c' ∧
    c'.Advances now

/-- **What every line and every exchange keeps of an invocation, a run keeps.**  The invariant is
about the invocation and the requests so far. -/
theorem Host.Underway.along {linkage : Linkage} {start m : Machine (Host τ)}
    {visits : List (Visit (Host τ))} (h : Underway base c start.world) (htidy : invoke.Tidy)
    (hbound : linkage.bound = some c.handle)
    (hcourse : Course (hostCalls setup invoke) linkage start visits m)
    {P : List (Visit (Host τ)) → Context → Prop} (hstart : P [] c)
    (hline : ∀ {visits a} (line : String), P visits a → P visits (a.pushLog line))
    (hvisit : ∀ {visits v a b}, Underway base a v.before.world →
      Exchange setup invoke linkage v a b → P visits a → P (visits ++ [v]) b) :
    ∃ c', Underway base c' m.world ∧ c.Advances c' ∧ P visits c' := by
  refine hcourse.invariant (P := fun visits x => ∃ c', Underway base c' x ∧ c.Advances c' ∧
    P visits c') ⟨c, h, .refl c, hstart⟩ ?_ ?_
  · rintro visits n ptr len ⟨a, ha, hadvances, hvisits⟩
    obtain ⟨b, hb, rfl | ⟨line, rfl⟩⟩ :=
      ha.logged (hadvances.handle ▸ hbound) ptr len n.memory
    · exact ⟨b, hb, hadvances, hvisits⟩
    · have honward : a.Onward (a.pushLog line) := .of_eq rfl rfl rfl
      exact ⟨_, hb, hadvances.trans honward.toAdvances, hline line hvisits⟩
  · rintro visits n regions answer caller world - hrequest hanswer ⟨a, ha, hadvances, hvisits⟩
    obtain ⟨b, hb, hexchange⟩ := ha.exchange (v := ⟨regions, n, answer, ⟨caller, world⟩⟩) htidy
      (hadvances.handle ▸ hbound) hrequest hanswer
    exact ⟨b, hb, hadvances.trans hexchange.advances, hvisit ha hexchange hvisits⟩

/-- **While an instance runs, its invocation goes on**, by the exchanges with its host. -/
theorem Host.Underway.course {linkage : Linkage} {start m : Machine (Host τ)}
    {visits : List (Visit (Host τ))} (h : Underway base c start.world) (htidy : invoke.Tidy)
    (hbound : linkage.bound = some c.handle)
    (hcourse : Course (hostCalls setup invoke) linkage start visits m) :
    ∃ c', Underway base c' m.world ∧ c.Advances c' ∧
      ∀ v ∈ visits, Exchanged setup invoke linkage base c' v := by
  -- an exchange stays one as the invocation goes on
  have hstays {visits : List (Visit (Host τ))} {a b : Context} (hadvances : a.Advances b)
      (hvisits : ∀ v ∈ visits, Exchanged setup invoke linkage base a v) :
      ∀ v ∈ visits, Exchanged setup invoke linkage base b v := by
    intro v hv
    obtain ⟨c₁, c₂, hunderway, hexchange, hnow⟩ := hvisits v hv
    exact ⟨c₁, c₂, hunderway, hexchange, hnow.trans hadvances⟩
  refine h.along htidy hbound hcourse
    (P := fun visits c' => ∀ v ∈ visits, Exchanged setup invoke linkage base c' v) nofun ?_ ?_
  · intro visits a line hvisits
    have honward : a.Onward (a.pushLog line) := .of_eq rfl rfl rfl
    exact hstays honward.toAdvances hvisits
  · intro visits v a b ha hexchange hvisits w hw
    rcases List.mem_append.mp hw with hw | hw
    · exact hstays hexchange.advances hvisits w hw
    · rw [List.mem_singleton.mp hw]
      exact ⟨a, b, ha, hexchange, .refl b⟩

/-- **Calls leave the invocations under way as they were**, however many levels are nested, and
whether they have waited or not. -/
theorem Host.tidy_perform (setup : HostSetup) (breaksOff : Bool) (levels : Nat) :
    ∀ {e : Entry} {x y : Host τ} {result : Except ExecutionError Outcome}, x.Orderly →
      x.perform setup breaksOff levels e = (.finished result, y) →
      y.Orderly ∧ y.registry.contexts = x.registry.contexts := by
  induction levels with
  | zero =>
    intro e x y result hx hperform
    cases e <;> cases hperform <;> exact ⟨hx, rfl⟩
  | succ levels ih =>
    intro e x y result hx hperform
    have hinner : Invoker.Tidy (invokeWithin (τ := τ) setup breaksOff levels) :=
      fun hx hinvoke => ih (e := .new _) hx hinvoke
    have hcarried := carried_perform setup breaksOff levels e x
    have hbeginning := beginning_enter setup e hx
    rw [hperform] at hcarried
    cases hcarried with
    | early henter =>
      rw [henter] at hbeginning
      cases hbeginning with
      | ended hcompletion horderly hcontexts => exact ⟨horderly, hcontexts⟩
    | @concluded s ended i z henter hran hends =>
      have hcourse := (course_callGuest setup.guest
        (hostCalls setup (invokeWithin setup breaksOff levels)) breaksOff
        s.context (budgetOf setup e.call) s.inst s.host).2
      rw [hran] at hcourse
      rw [henter] at hbeginning
      cases hbeginning with
      | begun hunderway hfree hbound houtcome hcached =>
        -- the calls that are nested have one level less
        obtain ⟨c', hz, hadvances, -⟩ := hunderway.course hinner hbound (hcourse hends)
        exact conclude_of_underway setup hz (hadvances.handle.symm ▸ hfree)
          hadvances.handle.symm s.pool ended i

theorem Host.tidy_invokeWithin (setup : HostSetup) (breaksOff : Bool) (levels : Nat) :
    Invoker.Tidy (invokeWithin (τ := τ) setup breaksOff levels) :=
  fun hx hinvoke => tidy_perform setup breaksOff levels (e := .new _) hx hinvoke

/-! ### Hosts in service -/

/-- A new host, and every host that comes of one by orders, by calls that end, and by calls that
wait for an instance and go on later or give up.  Its ledger may be replaced in between. -/
inductive Host.InService (setup : HostSetup) : Host τ → Prop
  /-- It is new. -/
  | new (ledger : τ) : InService setup { ledger }
  /-- It goes on over another ledger. -/
  | moved {x : Host τ} (hx : InService setup x) (ledger : τ) (journal : List LogLine) :
      InService setup { x with ledger, journal }
  /-- It has carried out one more order. -/
  | ordered {x : Host τ} (hx : InService setup x) (order : Order) :
      InService setup (x.carryOut setup order)
  /-- It has served one more call, which may have waited. -/
  | served {x y : Host τ} (hx : InService setup x) {e : Entry}
      {result : Except ExecutionError Outcome}
      (hperform : x.perform setup false (setup.gasLimit + 1) e = (.finished result, y)) :
      InService setup y
  /-- One more call waits. -/
  | waits {x y : Host τ} (hx : InService setup x) {e : Entry}
      (henter : x.enter setup e = .error (.suspended, y)) : InService setup y
  /-- A call has given up waiting. -/
  | left {x : Host τ} (hx : InService setup x) (q : Queued) : InService setup (x.leave setup q)

/-- No order stirs up the pools. -/
theorem Host.Orderly.carryOut (hx : x.Orderly) (order : Order) :
    (x.carryOut setup order).Orderly := by
  have hfiles : x.Files fun _ _ _ => True := ⟨hx, fun _ => trivial⟩
  cases order with
  | «open» c code => exact orderly_openPool setup hx c code
  | close c => exact (hfiles.closeKey c.key).orderly
  | closeAll => exact (Files.foldl (fun key hy => hy.closeKey key) x.poolKeys hfiles).orderly
  | reset c => exact (hfiles.resetKey c.key).orderly
  | resetAll => exact (Files.foldl (fun key hy => hy.resetKey key) x.poolKeys hfiles).orderly

/-- **Every host in service is orderly.** -/
theorem Host.InService.orderly (h : x.InService setup) : x.Orderly := by
  induction h with
  | new ledger => exact .of_empty ledger
  | moved _ ledger journal ih => exact ⟨ih.quiet, ih.numbered, ih.filed⟩
  | ordered _ order ih => exact ih.carryOut order
  | served _ hperform ih => exact (tidy_perform setup false _ ih hperform).1
  | @waits x y _ e henter ih =>
    have hbeginning := beginning_enter setup e ih
    rw [henter] at hbeginning
    cases hbeginning with
    | ended hcompletion horderly hcontexts => exact horderly
  | @left x _ q ih =>
    have hdequeued : (x.dequeue q).Orderly := ih.congr rfl rfl rfl
    exact hdequeued.tended (tended_leave ih q)

end ContractHost
