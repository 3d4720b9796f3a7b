import ContractHost.Proofs.Guest.Broken
import ContractHost.Proofs.Host.Exchange
import ContractHost.Proofs.Host.History
import ContractHost.Proofs.Host.Letters

/-!
# How far a request reaches

A request names an invocation by its handle, in bytes that the script may choose.  It is heard only
if that is the handle to which the calling instance is bound, and if an invocation is under way
under it.  Otherwise it fails, and nothing at all has happened.  A request that is heard is served
on that one invocation: of the invocations under way it changes no other, and beyond them at most
the ledger and the journal, or what a call has changed that is nested in it.

A call that is nested leaves the invocations under way before it as they are, at every moment.  So
they are untouched even if it is broken off.

## Main definitions

* `Host.namedHandle?` — the handle that the header of a request names.
* `Host.Rewritten` — only the invocation under one handle has changed.
* `Host.Reaches` — what a request that is heard comes to.
* `Host.Isolated` — requests and log lines reach no further than they should.

## Main results

* `Host.Underway.reaches` — **what a request that is heard comes to.**
* `Host.spares_invokeWithin` — **calls spare the invocations under way**, even if they are broken
  off.
* `Host.isolated` — **every request and every log line reaches its own invocation only.**
-/

namespace ContractHost

/-! ### One entry of the registry -/

namespace Registry

variable {r : Registry} {c c' : Context} {handle : Int32}

theorem update_self (h : r.get? c.handle = some c) : r.update c = r := by
  unfold update
  rw [OrderedMap.insert_of_get? h]

theorem update_update (h : c'.handle = c.handle) : (r.update c).update c' = r.update c' := by
  unfold update
  dsimp only
  rw [h, OrderedMap.insert_insert]

theorem get?_update_self (r : Registry) (c : Context) : (r.update c).get? c.handle = some c :=
  OrderedMap.get?_insert_self _ _ _

theorem get?_update_of_ne (r : Registry) (h : c.handle ≠ handle) :
    (r.update c).get? handle = r.get? handle := by
  show (r.contexts.insert c.handle c).get? handle = _
  rw [OrderedMap.get?_insert_ite, if_neg h]
  rfl

/-- Every invocation is registered under its own handle. -/
def Own (r : Registry) : Prop :=
  ∀ handle c, r.get? handle = some c → c.handle = handle

theorem own_empty : Own {} :=
  fun _ _ h => nomatch h

theorem Own.update (h : r.Own) (c : Context) : (r.update c).Own := by
  intro handle found hfound
  by_cases heq : c.handle = handle
  · obtain rfl := heq
    rw [get?_update_self] at hfound
    cases hfound
    rfl
  · rw [get?_update_of_ne r heq] at hfound
    exact h handle found hfound

end Registry

namespace Host

variable {τ : Type} {x y z : Host τ} {base : OrderedMap Int32 Context} {c c' : Context}
variable {handle : Int32}

theorem clear_desk (h : x.registry.get? c.handle = some c) : x.clear (x.desk c) = x := by
  show { x with registry := x.registry.update c } = x
  rw [Registry.update_self h]

theorem Underway.of_get? (hx : x.Orderly) (hget : x.registry.get? c.handle = some c) :
    Underway (x.registry.contexts.erase c.handle) c x where
  orderly := hx
  contexts := by
    refine OrderedMap.ext_get? fun k => ?_
    rw [OrderedMap.get?_insert_ite, OrderedMap.get?_erase_ite]
    by_cases hk : c.handle = k
    · rw [if_pos hk, ← hk]
      exact hget
    · rw [if_neg hk, if_neg hk]

theorem Underway.get?_of_ne (h : Underway base c x) (hne : c.handle ≠ handle) :
    x.registry.get? handle = base.get? handle := by
  unfold Registry.get?
  rw [h.contexts, OrderedMap.get?_insert_ite, if_neg hne]

/-- Of the invocations under way only that under one handle has changed, and nothing else has. -/
def Rewritten (handle : Int32) (x y : Host τ) : Prop :=
  ∃ c, c.handle = handle ∧ y = { x with registry := x.registry.update c }

theorem Rewritten.get?_of_ne {other : Int32} (h : Rewritten handle x y) (hne : handle ≠ other) :
    y.registry.get? other = x.registry.get? other := by
  obtain ⟨c, rfl, rfl⟩ := h
  exact Registry.get?_update_of_ne _ hne

theorem Underway.rewritten_self (h : Underway base c x) : Rewritten c.handle x x :=
  ⟨c, rfl, by rw [Registry.update_self h.get?]⟩

theorem Rewritten.trans (h : Rewritten handle x y) (h' : Rewritten handle y z) :
    Rewritten handle x z := by
  obtain ⟨c, rfl, rfl⟩ := h
  obtain ⟨c', hc', rfl⟩ := h'
  refine ⟨c', hc', ?_⟩
  dsimp only
  rw [Registry.update_update hc']

theorem Rewritten.underway (h : Rewritten c.handle x y) (hx : Underway base c x) :
    ∃ c', c'.handle = c.handle ∧ Underway base c' y := by
  obtain ⟨c', hhandle, rfl⟩ := h
  exact ⟨c', hhandle, hx.update hhandle x.ledger x.journal⟩

/-- The way back from an invocation's view changes that invocation, the ledger and the journal. -/
theorem rewritten_clear (x : Host τ) (d : Desk τ) :
    Rewritten d.context.handle { x with ledger := d.ledger, journal := d.journal } (x.clear d) :=
  ⟨d.context, rfl, rfl⟩

theorem rewritten_record (h : Underway base c x) (hhandle : c'.handle = c.handle)
    (e : SyscallError) : Rewritten c.handle x (x.record c' e) := by
  unfold record
  rw [h.current hhandle]
  exact ⟨c.recordError e.message, rfl, rfl⟩

theorem Underway.rewritten_answer (h : Underway base c x) (hhandle : c'.handle = c.handle)
    (linkage : Linkage) (served : Served) (caller : Caller) :
    Rewritten c.handle x (x.answer linkage c' served caller).2.2 := by
  unfold answer
  cases served with
  | suspended => exact h.rewritten_self
  | finished result =>
    cases result with
    | error e =>
      cases e with
      | failed e => exact rewritten_record h hhandle e
      | crashed message => exact h.rewritten_self
    | ok reply =>
      dsimp only
      cases applyReply linkage caller reply with
      | ok applied => exact h.rewritten_self
      | error e => exact rewritten_record h hhandle e

/-- The outcome of a call is taken over into the caller's invocation only. -/
theorem rewritten_absorb (x : Host τ) (c : Context) (ptr : Int32) (o : Outcome) :
    Rewritten c.handle x (x.serveOn c (absorb ptr o)).2 := by
  unfold serveOn
  rw [run_absorb]
  cases o.isSuccess with
  | true => exact ⟨(((c.mergeTxClass o.txClass).pushEvents o.events).cache o.payload).2, rfl, rfl⟩
  | false => exact ⟨(c.mergeTxClass o.txClass).clearCache, rfl, rfl⟩

theorem answer_ne_suspended (linkage : Linkage) (c : Context)
    (result : Except RequestFault Reply) (caller : Caller) (x : Host τ) :
    (x.answer linkage c (.finished result) caller).1 ≠ .suspended := by
  unfold answer
  cases result with
  | error e => cases e <;> exact nofun
  | ok reply =>
    dsimp only
    cases applyReply linkage caller reply <;> exact nofun

/-! ### Requests that are not heard -/

/-- The handle that the header of a request names, if there is a header that can be read. -/
def namedHandle? (linkage : Linkage) (r : Regions) (m : Memory) : Option Int32 :=
  if r.headerLen = 0 then none
  else (readRequest linkage m r).toOption.bind fun request =>
    (readHeader request.1).toOption.map (·.1)

/-- A request is heard for the invocation under the handle that it names, to which the calling
instance is bound. -/
theorem addressee?_eq_some {linkage : Linkage} {r : Regions} {m : Memory} {name : String}
    {body : Bytes} (h : x.addressee? linkage r m = some (c, name, body)) :
    ∃ handle, namedHandle? linkage r m = some handle ∧ linkage.bound = some handle ∧
      x.registry.get? handle = some c := by
  unfold addressee? at h
  unfold namedHandle?
  -- the handle named in the header must be the one the instance is bound to
  split at h
  · cases h
  · rename_i hheader
    rw [if_neg hheader]
    simp only [Option.bind_eq_bind, Option.bind_eq_some_iff] at h
    obtain ⟨request, hrequest, ⟨handle, named⟩, hnamed, h⟩ := h
    dsimp only at h
    split at h
    · rename_i hbound
      obtain ⟨found, hget, hsame⟩ := Option.bind_eq_some_iff.mp h
      cases hsame
      refine ⟨handle, ?_, hbound, hget⟩
      rw [hrequest, Option.bind_some, hnamed]
      rfl
    · cases h

/-- **A request is not heard that names another handle**, or from an instance for which no
invocation is under way. -/
theorem addressee?_eq_none {linkage : Linkage} {r : Regions} {m : Memory}
    (h : namedHandle? linkage r m ≠ linkage.bound ∨ linkage.bound.bind x.registry.get? = none) :
    x.addressee? linkage r m = none := by
  refine Option.eq_none_iff_forall_ne_some.mpr fun ⟨c, name, body⟩ hasked => ?_
  obtain ⟨handle, hnamed, hbound, hget⟩ := addressee?_eq_some hasked
  rcases h with hother | hnobody
  · exact hother (hnamed.trans hbound.symm)
  · rw [hbound, Option.bind_some, hget] at hnobody
    cases hnobody

/-! ### Requests that are heard -/

variable [LedgerAccess τ] {setup : HostSetup} {invoke : Invoker τ}

/-- Whoever asks for a call only looks things up. -/
theorem Underway.serveOn_callOf (h : Underway base c x) (setup : HostSetup) (gas : Nat)
    (body : Bytes) :
    x.serveOn c (callOf setup gas body) = (((x.desk c).run (callOf setup gas body)).1, x) := by
  have hcall := comesTo_callOf setup gas body (x.desk c)
  unfold Serving.ComesTo at hcall
  unfold serveOn
  generalize (x.desk c).run (callOf setup gas body) = ran at hcall ⊢
  obtain ⟨asked, d⟩ := ran
  obtain ⟨rfl, -⟩ := hcall
  dsimp only
  rw [clear_desk h.get?]

/-- A call that is asked for finds the host as it is. -/
theorem Underway.host_of_callAsked (h : Underway base c x) {gas : Nat} {body : Bytes} {call : Call}
    {y : Host τ} (hasked : x.callAsked? setup c gas body = some (call, y)) : y = x := by
  unfold callAsked? at hasked
  rw [h.serveOn_callOf] at hasked
  split at hasked
  · rename_i hserved
    cases hasked
    exact (congrArg Prod.snd hserved).symm
  · cases hasked

/-- What a request that is heard has come to: an answer, and a host that differs from one that is
given by the request in the request's own invocation only. -/
inductive Reaches (setup : HostSetup) (invoke : Invoker τ) (x : Host τ) (c : Context) (gas : Nat)
    (name : String) (body : Bytes) : Answer → Host τ → Prop
  /-- It was served, on the ledger and the journal. -/
  | served {answer : Answer} {after : Host τ} (hname : name ≠ Method.callContractLen.name)
      (hanswer : answer ≠ .suspended)
      (hafter : Rewritten c.handle
        { x with
          ledger := ((x.desk c).run (serve setup.crypto name body)).2.ledger
          journal := ((x.desk c).run (serve setup.crypto name body)).2.journal } after) :
      Reaches setup invoke x c gas name body answer after
  /-- It has asked for a call that does not come about. -/
  | refused {answer : Answer} {after : Host τ} (hname : name = Method.callContractLen.name)
      (hcall : x.callAsked? setup c gas body = none) (hanswer : answer ≠ .suspended)
      (hafter : Rewritten c.handle x after) : Reaches setup invoke x c gas name body answer after
  /-- It has asked for a call, which has ended. -/
  | nested {answer : Answer} {after y : Host τ} {call : Call}
      {result : Except ExecutionError Outcome} (hname : name = Method.callContractLen.name)
      (hcall : x.callAsked? setup c gas body = some (call, x))
      (hinvoke : invoke call x = (.finished result, y)) (hanswer : answer ≠ .suspended)
      (hafter : Rewritten c.handle y after) : Reaches setup invoke x c gas name body answer after
  /-- It has asked for a call, and both are broken off. -/
  | broken {after : Host τ} {call : Call} (hname : name = Method.callContractLen.name)
      (hcall : x.callAsked? setup c gas body = some (call, x))
      (hinvoke : invoke call x = (.suspended, after)) :
      Reaches setup invoke x c gas name body .suspended after

/-- **What a request for a call comes to.** -/
theorem Underway.reaches_call (h : Underway base c x) (setup : HostSetup) (htidy : invoke.Tidy)
    (linkage : Linkage) (body : Bytes) (caller : Caller) :
    Reaches setup invoke x c caller.gas Method.callContractLen.name body
      ((x.serveCall setup invoke c body caller).2.2.answer linkage c
        (x.serveCall setup invoke c body caller).1 (x.serveCall setup invoke c body caller).2.1).1
      ((x.serveCall setup invoke c body caller).2.2.answer linkage c
        (x.serveCall setup invoke c body caller).1
        (x.serveCall setup invoke c body caller).2.1).2.2 := by
  have hasked : x.callAsked? setup c caller.gas body =
      match ((x.desk c).run (callOf setup caller.gas body)).1 with
      | .ok (_, call) => some (call, x)
      | .error _ => none := by
    unfold callAsked?
    rw [h.serveOn_callOf]
    cases ((x.desk c).run (callOf setup caller.gas body)).1 <;> rfl
  unfold serveCall
  rw [h.serveOn_callOf]
  cases hrun : ((x.desk c).run (callOf setup caller.gas body)).1 with
  | error e =>
    rw [hrun] at hasked
    exact .refused rfl hasked (answer_ne_suspended _ _ _ _ _) (h.rewritten_answer rfl _ _ _)
  | ok found =>
    obtain ⟨ptr, call⟩ := found
    rw [hrun] at hasked
    dsimp only
    -- a callee that has ended leaves the contexts as they were, so the caller is still current
    cases hinvoke : invoke call x with
    | mk completion z =>
      cases completion with
      | suspended => exact .broken rfl hasked hinvoke
      | finished result =>
        obtain ⟨horderly, hcontexts⟩ := htidy h.orderly hinvoke
        have hz : Underway base c z := ⟨horderly, hcontexts.trans h.contexts⟩
        refine .nested rfl hasked hinvoke ?_ ?_
        · cases result <;> exact answer_ne_suspended _ _ _ _ _
        · cases result with
          | error e => exact hz.rewritten_answer rfl _ _ _
          | ok o =>
            have habsorb := rewritten_absorb z c ptr o
            obtain ⟨c₁, hhandle, hz₁⟩ := habsorb.underway hz
            dsimp only
            rw [hz.current rfl]
            exact habsorb.trans (hhandle ▸ hz₁.rewritten_answer hhandle.symm _ _ _)

/-- **What a request that is heard comes to.** -/
theorem Underway.reaches (h : Underway base c x) (setup : HostSetup) (htidy : invoke.Tidy)
    {linkage : Linkage} {regions : Regions} {caller : Caller} {name : String} {body : Bytes}
    (hasked : x.addressee? linkage regions caller.memory = some (c, name, body)) :
    Reaches setup invoke x c caller.gas name body
      (x.request setup invoke linkage regions caller).1
      (x.request setup invoke linkage regions caller).2.2 := by
  by_cases hname : name = Method.callContractLen.name
  · obtain rfl := hname
    have hrequest : x.request setup invoke linkage regions caller = _ := request_of_other hasked
    rw [hrequest]
    exact h.reaches_call setup htidy linkage body caller
  · have hrequest : x.request setup invoke linkage regions caller = _ :=
      request_of_own hasked hname
    have hhandle := (effect_serve setup.crypto name body (x.desk c)).advances.handle
    rw [hrequest]
    refine .served hname (answer_ne_suspended _ _ _ _ _) ?_
    have hcleared := rewritten_clear x ((x.desk c).run (serve setup.crypto name body)).2
    rw [hhandle] at hcleared
    exact hcleared.trans (hhandle ▸ (h.clear hhandle).rewritten_answer hhandle.symm _ _ _)

/-- A request is heard by the invocation that its instance is bound to, or else by nobody, and then
nothing comes of it. -/
theorem Underway.requested (h : Underway base c x) (setup : HostSetup) (htidy : invoke.Tidy)
    {linkage : Linkage} (hbound : linkage.bound = some c.handle) (regions : Regions)
    (caller : Caller) :
    x.addressee? linkage regions caller.memory = none ∧
        x.request setup invoke linkage regions caller = (.signal signals.failure, caller, x) ∨
      ∃ name body, x.addressee? linkage regions caller.memory = some (c, name, body) ∧
        Reaches setup invoke x c caller.gas name body
          (x.request setup invoke linkage regions caller).1
          (x.request setup invoke linkage regions caller).2.2 := by
  cases hasked : x.addressee? linkage regions caller.memory with
  | none => exact .inl ⟨rfl, request_of_unheard hasked⟩
  | some asked =>
    obtain ⟨c₀, name, body⟩ := asked
    obtain rfl : c₀ = c := h.addressee hbound hasked
    exact .inr ⟨name, body, rfl, h.reaches setup htidy hasked⟩

end Host

/-! ### Calls that are broken off -/

/-- Calls leave the invocations under way before them as they are, even if they are broken off. -/
def Invoker.Spares {τ : Type} (invoke : Invoker τ) : Prop :=
  ∀ {call : Call} {x : Host τ} {handle : Int32} {c : Context}, x.Orderly →
    x.registry.get? handle = some c → (invoke call x).2.registry.get? handle = some c

namespace Host

variable {τ : Type} [LedgerAccess τ] {x y : Host τ} {base : OrderedMap Int32 Context} {c : Context}
variable {setup : HostSetup} {invoke : Invoker τ}

/-- A request reaches no other invocation, however it ends. -/
theorem Underway.request_spares (h : Underway base c x) (htidy : invoke.Tidy)
    (hspares : invoke.Spares) {linkage : Linkage} (hbound : linkage.bound = some c.handle)
    (regions : Regions) (caller : Caller) {handle : Int32} {other : Context}
    (hne : c.handle ≠ handle) (hother : x.registry.get? handle = some other) :
    (x.request setup invoke linkage regions caller).2.2.registry.get? handle = some other := by
  obtain ⟨-, hrequest⟩ | ⟨name, body, -, hreaches⟩ := h.requested setup htidy hbound regions caller
  · rw [hrequest]
    exact hother
  · generalize x.request setup invoke linkage regions caller = ended at hreaches ⊢
    obtain ⟨answer, caller', after⟩ := ended
    -- only this context is rewritten, and nested calls spare all that were there
    cases hreaches with
    | served hname hanswer hafter => exact (hafter.get?_of_ne hne).trans hother
    | refused hname hcall hanswer hafter => exact (hafter.get?_of_ne hne).trans hother
    | @nested _ _ y call result hname hcall hinvoke hanswer hafter =>
      have hkept : (invoke call x).2.registry.get? handle = some other :=
        hspares h.orderly hother
      rw [hinvoke] at hkept
      exact (hafter.get?_of_ne hne).trans hkept
    | @broken _ call hname hcall hinvoke =>
      have hkept : (invoke call x).2.registry.get? handle = some other :=
        hspares h.orderly hother
      rw [hinvoke] at hkept
      exact hkept

theorem Underway.request_answered (h : Underway base c x) (setup : HostSetup) (htidy : invoke.Tidy)
    {linkage : Linkage} (hbound : linkage.bound = some c.handle) (regions : Regions)
    (caller : Caller) (hanswer : (x.request setup invoke linkage regions caller).1 ≠ .suspended) :
    ∃ c', Underway base c' (x.request setup invoke linkage regions caller).2.2 ∧ c.Advances c' := by
  let ended := x.request setup invoke linkage regions caller
  let v : Visit (Host τ) := ⟨regions, ⟨caller, x⟩, ended.1, ⟨ended.2.1, ended.2.2⟩⟩
  have hv : Underway base c v.before.world := h
  have hrequest : (hostCalls setup invoke).request linkage v.regions v.before.toCaller
      v.before.world = (v.answer, v.after.toCaller, v.after.world) := rfl
  obtain ⟨c', hc', hexchange⟩ := hv.exchange htidy hbound hrequest hanswer
  exact ⟨c', hc', hexchange.advances⟩

/-- A line that can be read is logged once. -/
theorem log_cases (linkage : Linkage) (ptr len : Int32) (m : Memory) (x : Host τ) :
    x.log linkage ptr len m = x ∨ ∃ line,
      (∃ c, linkage.bound.bind x.registry.get? = some c ∧
        x.log linkage ptr len m = x.clear ((x.desk c).log line)) ∨
      (linkage.bound.bind x.registry.get? = none ∧
        x.log linkage ptr len m = { x with journal := x.journal ++ [.unbound line] }) := by
  unfold log
  split
  · exact .inl rfl
  · rename_i line _
    refine .inr ⟨line, ?_⟩
    cases linkage.bound.bind x.registry.get? with
    | some c => exact .inl ⟨c, rfl, rfl⟩
    | none => exact .inr ⟨rfl, rfl⟩

theorem Underway.broken_spares {start : Machine (Host τ)} (h : Underway base c start.world)
    (htidy : invoke.Tidy) (hspares : invoke.Spares) {linkage : Linkage}
    (hbound : linkage.bound = some c.handle)
    (hbroken : Course.Broken (hostCalls setup invoke) linkage start y) {handle : Int32}
    {other : Context} (hne : c.handle ≠ handle) (hother : base.get? handle = some other) :
    y.registry.get? handle = some other := by
  -- broken off in the endless loop, or inside a nested call
  cases hbroken with
  | @looping visits m hcourse hbreaksOff =>
    obtain ⟨c', hm, hadvances, -⟩ := h.course htidy hbound hcourse
    rw [hm.get?_of_ne (hadvances.handle ▸ hne)]
    exact hother
  | @inside visits m hcourse regions caller world hserved =>
    obtain ⟨c', hm, hadvances, -⟩ := h.course htidy hbound hcourse
    have hne' : c'.handle ≠ handle := hadvances.handle ▸ hne
    have hkept : m.world.registry.get? handle = some other := (hm.get?_of_ne hne').trans hother
    have hspared : (m.world.request setup invoke linkage regions
        m.toCaller).2.2.registry.get? handle = some other :=
      hm.request_spares htidy hspares (hadvances.handle ▸ hbound) regions m.toCaller hne' hkept
    have hrequest : m.world.request setup invoke linkage regions m.toCaller =
        (.suspended, caller, y) := hserved
    rw [hrequest] at hspared
    exact hspared

/-- **Calls spare the invocations under way before them**, however many levels are nested, and
whether they have waited or not. -/
theorem spares_perform (setup : HostSetup) (breaksOff : Bool) (levels : Nat) :
    ∀ {e : Entry} {x : Host τ} {handle : Int32} {other : Context}, x.Orderly →
      x.registry.get? handle = some other →
      (x.perform setup breaksOff levels e).2.registry.get? handle = some other := by
  induction levels with
  | zero =>
    intro e x handle other _ hother
    cases e <;> exact hother
  | succ levels ih =>
    intro e x handle other hx hother
    have hcarried := carried_perform setup breaksOff levels e x
    have hbeginning := beginning_enter setup e hx
    cases hperform : x.perform setup breaksOff (levels + 1) e with
    | mk completion y =>
      rw [hperform] at hcarried
      cases hcarried with
      | early henter =>
        rw [henter] at hbeginning
        cases hbeginning with
        | ended hends horderly hcontexts =>
          unfold Registry.get?
          rw [hcontexts]
          exact hother
      | concluded henter hran hends =>
        have hcontexts := (tidy_perform setup breaksOff (levels + 1) hx hperform).2
        unfold Registry.get?
        rw [hcontexts]
        exact hother
      | @brokenOff s i z henter hran =>
        have hfollows := follows_callGuest setup.guest
          (hostCalls setup (invokeWithin setup breaksOff levels)) breaksOff
          s.context (budgetOf setup e.call) s.inst s.host
        rw [hran] at hfollows
        rw [henter] at hbeginning
        cases hbeginning with
        | begun hunderway hfree hbound houtcome hcached =>
          -- its own handle was free, so it is another one
          have hne : s.context.handle ≠ handle := by
            rintro rfl
            exact nomatch hfree.symm.trans hother
          exact hunderway.broken_spares (tidy_invokeWithin setup breaksOff levels)
            (fun hx hother => ih (e := .new _) hx hother) hbound (hfollows.broken rfl) hne hother

theorem spares_invokeWithin (setup : HostSetup) (breaksOff : Bool) (levels : Nat) :
    Invoker.Spares (invokeWithin (τ := τ) setup breaksOff levels) :=
  fun hx hother => spares_perform setup breaksOff levels (e := .new _) hx hother

/-! ### The bounds of an instance -/

/-- What an instance can do to a host by its requests and its lines, whatever its memory holds. -/
structure Isolated (setup : HostSetup) (invoke : Invoker τ) (linkage : Linkage) (x : Host τ) :
    Prop where
  /-- A request that names another handle than that to which the instance is bound, or that comes
  while no invocation is under way under that handle, fails, and nothing at all changes. -/
  unheard (regions : Regions) (caller : Caller)
    (h : namedHandle? linkage regions caller.memory ≠ linkage.bound ∨
      linkage.bound.bind x.registry.get? = none) :
    x.request setup invoke linkage regions caller = (.signal signals.failure, caller, x)
  /-- Any other request reaches the ledger and the journal, or a call that it has asked for, and
  besides changes only the invocation to which the instance is bound. -/
  heard (regions : Regions) (caller : Caller) :
    x.request setup invoke linkage regions caller = (.signal signals.failure, caller, x) ∨
      ∃ c name body, linkage.bound = some c.handle ∧ x.registry.get? c.handle = some c ∧
        x.addressee? linkage regions caller.memory = some (c, name, body) ∧
        Reaches setup invoke x c caller.gas name body
          (x.request setup invoke linkage regions caller).1
          (x.request setup invoke linkage regions caller).2.2
  /-- The other invocations stay as they are, even if the request is broken off. -/
  others (regions : Regions) (caller : Caller) {handle : Int32} {other : Context}
    (hne : linkage.bound ≠ some handle) (hother : x.registry.get? handle = some other) :
    (x.request setup invoke linkage regions caller).2.2.registry.get? handle = some other
  /-- Once a request is answered, no others are under way than before. -/
  answered (regions : Regions) (caller : Caller) {handle : Int32}
    (hne : linkage.bound ≠ some handle)
    (hanswer : (x.request setup invoke linkage regions caller).1 ≠ .suspended) :
    (x.request setup invoke linkage regions caller).2.2.registry.get? handle =
      x.registry.get? handle
  /-- A line that can be read is logged for the invocation to which the instance is bound, or for
  nobody if there is none.  Nothing else changes. -/
  lines (ptr len : Int32) (m : Memory) :
    x.log linkage ptr len m = x ∨ ∃ line,
      (∃ c, linkage.bound = some c.handle ∧ x.registry.get? c.handle = some c ∧
        x.log linkage ptr len m =
          { x with
            journal := x.journal ++
              [.bound (LedgerAccess.txId x.ledger) c.contract c.handle line]
            registry := x.registry.update (c.pushLog line) }) ∨
      (linkage.bound.bind x.registry.get? = none ∧
        x.log linkage ptr len m = { x with journal := x.journal ++ [.unbound line] })
  /-- In its first actions an instance changes neither the ledger nor an invocation under way. -/
  starting (m : Module) : Idled x (createInstance setup m x).2
  /-- Nor does it in its last ones. -/
  ending {i : Instance} (h : i.bound = none) : Idled x (teardownInstance setup i x)

/-- **Every request and every line reaches the calling instance's own invocation only**, whatever
invocations are under way. -/
theorem isolated (setup : HostSetup) (breaksOff : Bool) (levels : Nat) (linkage : Linkage)
    (hx : x.Orderly) (hown : x.registry.Own) :
    Isolated setup (invokeWithin setup breaksOff levels) linkage x := by
  have htidy : Invoker.Tidy (invokeWithin (τ := τ) setup breaksOff levels) :=
    tidy_invokeWithin setup breaksOff levels
  have hspares : Invoker.Spares (invokeWithin (τ := τ) setup breaksOff levels) :=
    spares_invokeWithin setup breaksOff levels
  have hunheard (regions : Regions) (caller : Caller)
      (h : x.addressee? linkage regions caller.memory = none) :
      x.request setup (invokeWithin setup breaksOff levels) linkage regions caller =
        (.signal signals.failure, caller, x) := request_of_unheard h
  -- a request that is heard finds its invocation under way beside all others
  have hfound {regions : Regions} {caller : Caller} {c : Context} {name : String} {body : Bytes}
      (hasked : x.addressee? linkage regions caller.memory = some (c, name, body)) :
      linkage.bound = some c.handle ∧ Underway (x.registry.contexts.erase c.handle) c x := by
    obtain ⟨handle, -, hbound, hget⟩ := addressee?_eq_some hasked
    obtain rfl := hown handle c hget
    exact ⟨hbound, .of_get? hx hget⟩
  constructor
  case unheard => exact fun regions caller h => hunheard regions caller (addressee?_eq_none h)
  case heard =>
    intro regions caller
    cases hasked : x.addressee? linkage regions caller.memory with
    | none => exact .inl (hunheard regions caller hasked)
    | some asked =>
      obtain ⟨c, name, body⟩ := asked
      obtain ⟨hbound, hunderway⟩ := hfound hasked
      exact .inr ⟨c, name, body, hbound, hunderway.get?, rfl, hunderway.reaches setup htidy hasked⟩
  case others =>
    intro regions caller handle other hne hother
    cases hasked : x.addressee? linkage regions caller.memory with
    | none =>
      rw [hunheard regions caller hasked]
      exact hother
    | some asked =>
      obtain ⟨c, name, body⟩ := asked
      obtain ⟨hbound, hunderway⟩ := hfound hasked
      exact hunderway.request_spares htidy hspares hbound regions caller
        (fun heq => hne (heq ▸ hbound)) hother
  case answered =>
    intro regions caller handle hne hanswer
    cases hasked : x.addressee? linkage regions caller.memory with
    | none => rw [hunheard regions caller hasked]
    | some asked =>
      obtain ⟨c, name, body⟩ := asked
      obtain ⟨hbound, hunderway⟩ := hfound hasked
      have hne' : c.handle ≠ handle := fun heq => hne (heq ▸ hbound)
      obtain ⟨c', hc', hadvances⟩ :=
        hunderway.request_answered setup htidy hbound regions caller hanswer
      exact (hc'.get?_of_ne (hadvances.handle ▸ hne')).trans (hunderway.get?_of_ne hne').symm
  case lines =>
    intro ptr len m
    obtain hsame | ⟨line, ⟨c, hfound, hlog⟩ | hnobody⟩ := log_cases linkage ptr len m x
    · exact .inl hsame
    · obtain ⟨handle, hbound, hget⟩ := Option.bind_eq_some_iff.mp hfound
      obtain rfl := hown handle c hget
      exact .inr ⟨line, .inl ⟨c, hbound, hget, hlog⟩⟩
    · exact .inr ⟨line, .inr hnobody⟩
  case starting => exact fun m => (within_supply setup).create m x
  case ending => exact fun h => (within_supply setup).teardown x h

/-- A host on which two invocations are under way. -/
def pairHost : Host Session :=
  let first : Context := { contract := ⟨"first", "1"⟩, method := "run", handle := 1 }
  let second : Context := { contract := ⟨"second", "1"⟩, method := "run", depth := 1, handle := 2 }
  { ledger := default, registry := (Registry.update {} first).update second }

theorem orderly_pairHost : pairHost.Orderly :=
  ⟨(fun h => nomatch h), (fun h => nomatch h), (fun h => nomatch h)⟩

/-- A request of the second invocation in the name of the first is refused. -/
theorem isolated_pairHost :
    pairHost.Orderly ∧ pairHost.registry.Own ∧ pairHost.registry.size = 2 ∧
      Isolated singleSetup (invokeWithin singleSetup false 1) ⟨true, some 2, 1, false⟩ pairHost ∧
      pairHost.request singleSetup (invokeWithin singleSetup false 1) ⟨true, some 2, 1, false⟩
          (letterRegions (headerOf 1 .putState) []) ⟨letter (headerOf 1 .putState) [], 100⟩ =
        (.signal signals.failure, ⟨letter (headerOf 1 .putState) [], 100⟩, pairHost) := by
  have hown : pairHost.registry.Own := (Registry.own_empty.update _).update _
  have hisolated : Isolated singleSetup (invokeWithin singleSetup false 1) ⟨true, some 2, 1, false⟩
      pairHost := isolated singleSetup false 1 ⟨true, some 2, 1, false⟩ orderly_pairHost hown
  have hforged : namedHandle? ⟨true, some 2, 1, false⟩ (letterRegions (headerOf 1 .putState) [])
      (letter (headerOf 1 .putState) []) ≠ some 2 := by decide +kernel
  exact ⟨orderly_pairHost, hown, by decide +kernel, hisolated,
    hisolated.unheard _ _ (.inl hforged)⟩

end Host

end ContractHost
