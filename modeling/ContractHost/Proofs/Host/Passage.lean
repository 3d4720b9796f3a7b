import ContractHost.Proofs.Host.CallTree
import ContractHost.Proofs.Host.Reach
import ContractHost.Proofs.Request.Standing

/-!
# A host from request to request

While an instance runs, its host passes through one request after another.  A request without a
nested call works on the ledger, and leaves the pools alone.  A request with one leaves what the
call leaves.  Everything else that happens in between is noted in the invocation and in the journal.

## Main definitions

* `Host.Annotated` — only invocations and the journal have changed.
* `Attempt.after` — the host that a call leaves.
* `Attempt.Passage` — what a request does to its host.
* `Attempt.Closing` — how a call that ended has left its host.

## Main results

* `Attempt.Ran.throughout` — **what every request keeps of the host, the whole run keeps.**
* `Attempt.Ended.closing` — **how every call that ended has left its host.**
* `Host.stable_invokeWithin` — **no call takes away from the ledger what no operation does.**
* `Attempt.saved` — **it is there throughout the tree of a call.**
-/

namespace ContractHost

variable {τ : Type} [LedgerAccess τ]

/-! ### The invocation -/

section

variable {setup : HostSetup} {invoke : Invoker τ} {linkage : Linkage} {c c' : Context}

theorem Answered.sameCall {served : Served} {answer : Answer} (h : Answered c served answer c') :
    c.SameCall c' := by
  cases h <;> exact ⟨rfl, rfl⟩

omit [LedgerAccess τ] in
theorem Called.sameCall {gas gas' : Nat} {asked : Option (Call × Host τ)} {served : Served}
    (h : Called setup invoke c gas asked served gas' c') : c.SameCall c' := by
  cases h <;> exact ⟨rfl, rfl⟩

/-- **A request leaves alone what its invocation is called for.** -/
theorem Exchange.sameCall {v : Visit (Host τ)} (h : Exchange setup invoke linkage v c c') :
    c.SameCall c' := by
  cases h with
  | unheard hasked hanswer hgas => exact .refl c
  | @own name body result d _ hasked hname hserved heffect hanswered hgas hrun =>
    have hserve := sameCall_serve setup.crypto name body (v.before.world.desk c)
    rw [hrun] at hserve
    exact hserve.trans hanswered.sameCall
  | other hasked hserved hcalled hanswered => exact hcalled.sameCall.trans hanswered.sameCall

end

namespace Host

variable {x y z : Host τ} {c : Context}

omit [LedgerAccess τ] in
/-- Only invocations and the journal have changed. -/
def Annotated (x y : Host τ) : Prop :=
  ∃ registry journal, y = { x with registry, journal }

omit [LedgerAccess τ] in
theorem Annotated.refl (x : Host τ) : Annotated x x :=
  ⟨x.registry, x.journal, rfl⟩

omit [LedgerAccess τ] in
theorem Rewritten.annotated {handle : Int32} (h : Rewritten handle x y) : Annotated x y := by
  obtain ⟨c, -, rfl⟩ := h
  exact ⟨_, x.journal, rfl⟩

theorem annotated_log (linkage : Linkage) (ptr len : Int32) (m : Memory) (x : Host τ) :
    Annotated x (x.log linkage ptr len m) := by
  obtain hsame | ⟨line, ⟨c, -, hlog⟩ | ⟨-, hlog⟩⟩ := log_cases linkage ptr len m x
  · rw [hsame]
    exact .refl x
  · rw [hlog]
    exact ⟨_, _, rfl⟩
  · rw [hlog]
    exact ⟨x.registry, _, rfl⟩

end Host

namespace Attempt

variable {setup : HostSetup} {a b : Attempt τ} {s : Begun τ} {result : Except CallFault Unit}
variable {i : Instance} {y : Host τ} {c : Context}

/-- The host that the call leaves. -/
def after (setup : HostSetup) (a : Attempt τ) : Host τ :=
  (a.host.perform setup false a.levels a.entry).2

theorem enter_of_begun (h : a.begun? setup = some s) :
    a.levels ≠ 0 ∧ a.host.enter setup a.entry = .ok s := by
  unfold begun? at h
  split at h
  · cases h
  · rename_i hlevels
    refine ⟨hlevels, ?_⟩
    cases henter : a.host.enter setup a.entry with
    | error ended =>
      rw [henter] at h
      cases h
    | ok s' =>
      rw [henter] at h
      exact congrArg Except.ok (Option.some.inj h)

/-- To every request a course of the instance has led, even if the call is broken off. -/
theorem course_of_visit (hbegun : a.begun? setup = some s) {v : Visit (Host τ)}
    (hv : v ∈ a.visits setup) :
    ∃ visits, Course (hostCalls setup (a.inner setup)) (s.inst.linkage false)
      ((s.inst.setGas (budgetOf setup a.call)).machine s.host) visits v.before := by
  unfold visits at hv
  rw [hbegun] at hv
  exact reached_callGuest setup.guest _ false s.context _ s.inst s.host v hv

theorem host_of_nestedIn (hbegun : a.begun? setup = some s) (hbound : s.inst.bound = some c.handle)
    {base : OrderedMap Int32 Context} {v : Visit (Host τ)}
    (hc : Host.Underway base c v.before.world) (hin : a.nestedIn setup v = some b) :
    b.host = v.before.world := by
  rw [nestedIn_eq hbegun] at hin
  obtain ⟨⟨call, z⟩, hnested, rfl⟩ := Option.map_eq_some_iff.mp hin
  unfold Visit.nested? at hnested
  obtain ⟨⟨c₀, name, body⟩, hasked, hcall⟩ := Option.bind_eq_some_iff.mp hnested
  obtain rfl : c₀ = c := hc.addressee hbound hasked
  split at hcall
  · exact hc.host_of_callAsked hcall
  · cases hcall

/-- What the request leaves that was made while the instance of the call ran. -/
inductive Passage (setup : HostSetup) (a : Attempt τ) (v : Visit (Host τ)) : Prop
  /-- It works on the ledger at most. -/
  | alone (hnested : a.nestedIn setup v = none) {ledger : τ}
      (hledger : ∀ {S : τ → Prop}, Stable S → S v.before.world.ledger → S ledger)
      (hafter : Host.Annotated { v.before.world with ledger } v.after.world)
  /-- Another call is nested in it, which finds the host as it is. -/
  | nested {b : Attempt τ} (hnested : a.nestedIn setup v = some b)
      (hhost : b.host = v.before.world) (hdepth : b.call.depth.toNat = a.call.depth.toNat + 1)
      (hafter : Host.Annotated (b.after setup) v.after.world)

/-- **What every request leaves.** -/
theorem passage_of_request (hbegun : a.begun? setup = some s) {v : Visit (Host τ)}
    {base : OrderedMap Int32 Context} (hc : Host.Underway base c v.before.world)
    (hbound : s.inst.bound = some c.handle) (hdepth : c.depth = a.call.depth)
    (hrequest : (hostCalls setup (a.inner setup)).request (s.inst.linkage false) v.regions
      v.before.toCaller v.before.world = (v.answer, v.after.toCaller, v.after.world))
    (hanswer : v.answer ≠ .suspended) : a.Passage setup v := by
  have hin := nestedIn_eq hbegun v
  unfold Visit.nested? at hin
  have htidy : (a.inner setup).Tidy := Host.tidy_invokeWithin setup false (a.levels - 1)
  have hlinked : (s.inst.linkage false).bound = some c.handle := hbound
  have hrequested := hc.requested setup @htidy hlinked v.regions v.before.toCaller
  have hheard : v.before.world.request setup (a.inner setup) (s.inst.linkage false) v.regions
      v.before.toCaller = (v.answer, v.after.toCaller, v.after.world) := hrequest
  rw [hheard] at hrequested
  obtain ⟨hasked, hunheard⟩ | ⟨name, body, hasked, hreaches⟩ := hrequested
  · have hworld : v.after.world = v.before.world := congrArg (fun r => r.2.2) hunheard
    have hnobody : v.asked? (s.inst.linkage false) = none := hasked
    rw [hnobody] at hin
    exact .alone hin (fun _ h => h) (hworld ▸ Host.Annotated.refl v.before.world)
  · have hfound : v.asked? (s.inst.linkage false) = some (c, name, body) := hasked
    rw [hfound, Option.bind_some] at hin
    dsimp only at hreaches hin
    generalize v.answer = answer at hreaches hanswer
    -- a request that is answered here moves the ledger alone, and a nested call moves what the
    -- attempt below moves
    cases hreaches with
    | served hname _ hafter =>
      rw [if_neg hname] at hin
      refine .alone hin (fun hS hx => ?_) hafter.annotated
      exact hS.serve setup.crypto name body (d := v.before.world.desk c) hx
    | refused hname hcall _ hafter =>
      rw [if_pos hname, hcall] at hin
      exact .alone hin (fun _ h => h) hafter.annotated
    | @nested _ _ z call result hname hcall hinvoke _ hafter =>
      rw [if_pos hname, hcall] at hin
      have hcalled : (⟨a.levels - 1, .new call, v.before.world⟩ : Attempt τ).after setup = z :=
        congrArg Prod.snd hinvoke
      exact .nested hin rfl ((Host.depth_callAsked hcall).trans
        (congrArg (fun n => n.toNat + 1) hdepth))
        (hcalled ▸ hafter.annotated)
    | broken => exact absurd rfl hanswer

/-- **What every request keeps of the host, the whole run keeps**, if it has nothing to do with
invocations and the journal. -/
theorem Ran.throughout (h : a.Ran setup s result i y c) {P : List (Visit (Host τ)) → Host τ → Prop}
    (hstart : P [] s.host)
    (hnoted : ∀ {visits x z}, Host.Annotated x z → P visits x → P visits z)
    (hvisit : ∀ {visits v}, v ∈ a.visits setup → a.Passage setup v → P visits v.before.world →
      P (visits ++ [v]) v.after.world) : P (a.visits setup) y := by
  obtain ⟨-, henter⟩ := enter_of_begun h.begun
  obtain ⟨-, hdepth, -⟩ := Host.context_of_enter henter
  -- the induction is over prefixes, so that each visit is known to be one of the attempt
  have hinvariant : ∃ c', Host.Underway a.host.registry.contexts c' y ∧ s.context.Advances c' ∧
      s.context.SameCall c' ∧ (a.visits setup ⊆ a.visits setup → P (a.visits setup) y) := by
    refine h.course.invariant (P := fun visits x => ∃ c',
      Host.Underway a.host.registry.contexts c' x ∧ s.context.Advances c' ∧ s.context.SameCall c' ∧
        (visits ⊆ a.visits setup → P visits x))
      ⟨s.context, h.began, .refl _, .refl _, fun _ => hstart⟩ ?_ ?_
    · rintro visits m ptr len ⟨c', hc', hadvances, hsame, hP⟩
      have hbound : (s.inst.linkage false).bound = some c'.handle := hadvances.handle ▸ h.bound
      obtain ⟨c₁, hc₁, hline⟩ := hc'.logged hbound ptr len m.memory
      have hnow : visits ⊆ a.visits setup →
          P visits (m.world.log (s.inst.linkage false) ptr len m.memory) :=
        fun hsub => hnoted (Host.annotated_log _ ptr len m.memory m.world) (hP hsub)
      obtain rfl | ⟨line, rfl⟩ := hline
      · exact ⟨c₁, hc₁, hadvances, hsame, hnow⟩
      · have honward : c'.Onward (c'.pushLog line) := .of_eq rfl rfl rfl
        exact ⟨_, hc₁, hadvances.trans honward.toAdvances, hsame.trans ⟨rfl, rfl⟩, hnow⟩
    · rintro visits m regions answer caller world - hrequest hanswer ⟨c', hc', hadvances, hsame, hP⟩
      have hbound : s.inst.bound = some c'.handle := hadvances.handle ▸ h.bound
      let v : Visit (Host τ) := ⟨regions, m, answer, ⟨caller, world⟩⟩
      obtain ⟨c₁, hc₁, hexchange⟩ := hc'.exchange (v := v)
        (Host.tidy_invokeWithin setup false (a.levels - 1)) hbound hrequest hanswer
      have hpassage : a.Passage setup v := passage_of_request h.begun (v := v) hc' hbound
        (hsame.depth.trans hdepth) hrequest hanswer
      refine ⟨c₁, hc₁, hadvances.trans hexchange.advances, hsame.trans hexchange.sameCall,
        fun hsub => ?_⟩
      obtain ⟨hbefore, hv⟩ := List.append_subset.mp hsub
      exact hvisit (v := v) (hv (List.mem_singleton_self v)) hpassage (hP hbefore)
  obtain ⟨c', -, -, -, hP⟩ := hinvariant
  exact hP (List.Subset.refl _)

/-- Each request of a run was such a passage. -/
theorem Ran.passage (h : a.Ran setup s result i y c) :
    ∀ v ∈ a.visits setup, a.Passage setup v := by
  refine h.throughout (P := fun visits _ => ∀ v ∈ visits, a.Passage setup v) nofun
    (fun _ hvisits => hvisits) ?_
  intro visits v _ hpassage hvisits w hw
  rcases List.mem_append.mp hw with hw | hw
  · exact hvisits w hw
  · rw [List.mem_singleton.mp hw]
    exact hpassage

/-- How a call that ended has left its host. -/
inductive Closing (setup : HostSetup) (a : Attempt τ) : Prop
  /-- There was no level left for it. -/
  | levelless (hbegun : a.begun? setup = none) (hafter : a.after setup = a.host)
  /-- It has not begun. -/
  | early {e : ExecutionError} (hbegun : a.begun? setup = none)
      (henter : a.host.enter setup a.entry = .error (.finished (.error e), a.after setup))
  /-- It was carried out, and concluded. -/
  | concluded {s : Begun τ} {result : Except CallFault Unit} {i : Instance} {y : Host τ}
      {c : Context} (h : a.Ran setup s result i y c)
      (hafter : a.after setup = (y.conclude setup s.pool s.context result i).2)

/-- **How every call that ended has left its host.** -/
theorem Ended.closing (ha : a.Ended setup) : a.Closing setup := by
  obtain ⟨finished, hfinished⟩ := ha.finished
  have htrial := trial setup ha.orderly
  rw [hfinished] at htrial
  cases hlevels : a.levels with
  | zero =>
    have hbegun : a.begun? setup = none := if_pos hlevels
    refine .levelless hbegun ?_
    unfold after
    rw [hlevels]
    cases a.entry <;> rfl
  | succ n =>
    have hsucc := Host.perform_succ setup false n a.entry a.host
    have hresult : (a.host.perform setup false (n + 1) a.entry).1 = .finished finished := by
      rw [← hlevels]
      exact hfinished
    have hafter : a.after setup = (a.host.perform setup false (n + 1) a.entry).2 := by
      unfold after
      rw [hlevels]
    have hbegun : a.begun? setup = (a.host.enter setup a.entry).toOption :=
      if_neg (by rw [hlevels]; exact Nat.succ_ne_zero n)
    cases henter : a.host.enter setup a.entry with
    | error ended =>
      rw [henter] at hsucc hbegun
      rw [hsucc] at hresult hafter
      have hended : ended = (.finished finished, a.after setup) := Prod.ext hresult hafter.symm
      cases htrial with
      | refused e hnone => exact .early hnone (henter.trans (congrArg _ hended))
      | concluded h => exact nomatch hbegun.symm.trans h.begun
    | ok s =>
      rw [henter] at hsucc hbegun
      cases htrial with
      | refused e hnone => exact nomatch hbegun.symm.trans hnone
      | @concluded s' ended i y c h =>
        obtain rfl : s = s' := Option.some.inj (hbegun.symm.trans h.begun)
        have hrun := h.run
        unfold run inner call at hrun
        rw [hlevels, Nat.add_sub_cancel] at hrun
        dsimp only at hsucc
        rw [hrun] at hsucc
        -- a run that was broken off would not have ended
        have hends : ended ≠ .error .suspended := by
          rintro rfl
          rw [hsucc] at hresult
          cases hresult
        rw [s.finish_of_ended setup hends] at hsucc
        exact .concluded h (hafter.trans (congrArg Prod.snd hsucc))

end Attempt

/-! ### The ledger -/

/-- Calls take nothing away from the ledger, even if they are broken off. -/
def Invoker.Saves (S : τ → Prop) (invoke : Invoker τ) : Prop :=
  ∀ {call : Call} {x : Host τ}, x.Orderly → S x.ledger → S (invoke call x).2.ledger

namespace Host

variable {setup : HostSetup} {x y : Host τ} {base : OrderedMap Int32 Context} {c : Context}
variable {S : τ → Prop} {invoke : Invoker τ} {linkage : Linkage}

omit [LedgerAccess τ] in
theorem Annotated.ledger (h : Annotated x y) : y.ledger = x.ledger := by
  obtain ⟨registry, journal, rfl⟩ := h
  rfl

theorem Underway.request_saves (h : Underway base c x) (hS : Stable S) (htidy : invoke.Tidy)
    (hsaves : invoke.Saves S) (hbound : linkage.bound = some c.handle) (regions : Regions)
    (caller : Caller) (hx : S x.ledger) :
    S (x.request setup invoke linkage regions caller).2.2.ledger := by
  obtain ⟨-, hrequest⟩ | ⟨name, body, -, hreaches⟩ := h.requested setup htidy hbound regions caller
  · rw [hrequest]
    exact hx
  · generalize x.request setup invoke linkage regions caller = ended at hreaches ⊢
    obtain ⟨answer, caller', after⟩ := ended
    -- the ledger is written by the request itself or by the nested call
    cases hreaches with
    | served hname hanswer hafter =>
      rw [hafter.annotated.ledger]
      exact hS.serve setup.crypto name body (d := x.desk c) hx
    | refused hname hcall hanswer hafter =>
      rw [hafter.annotated.ledger]
      exact hx
    | @nested _ _ y call result hname hcall hinvoke hanswer hafter =>
      have hy : S (invoke call x).2.ledger := hsaves h.orderly hx
      rw [hinvoke] at hy
      rw [hafter.annotated.ledger]
      exact hy
    | @broken _ call hname hcall hinvoke =>
      have hy : S (invoke call x).2.ledger := hsaves h.orderly hx
      rw [hinvoke] at hy
      exact hy

theorem Underway.course_saves {start m : Machine (Host τ)} {visits : List (Visit (Host τ))}
    (h : Underway base c start.world) (hS : Stable S) (htidy : invoke.Tidy)
    (hsaves : invoke.Saves S) (hbound : linkage.bound = some c.handle)
    (hcourse : Course (hostCalls setup invoke) linkage start visits m) (hx : S start.world.ledger) :
    ∃ c', Underway base c' m.world ∧ c.Advances c' ∧ S m.world.ledger := by
  refine hcourse.invariant (P := fun _ x => ∃ c', Underway base c' x ∧ c.Advances c' ∧ S x.ledger)
    ⟨c, h, .refl c, hx⟩ ?_ ?_
  · rintro visits n ptr len ⟨a, ha, hadvances, hn⟩
    obtain ⟨b, hb, honward⟩ := ha.log (hadvances.handle ▸ hbound) ptr len n.memory
    have hlogged : (n.world.log linkage ptr len n.memory).ledger = n.world.ledger :=
      (annotated_log linkage ptr len n.memory n.world).ledger
    exact ⟨b, hb, hadvances.trans honward.toAdvances, hlogged.symm ▸ hn⟩
  · rintro visits n regions answer caller world - hrequest hanswer ⟨a, ha, hadvances, hn⟩
    have hbound' : linkage.bound = some a.handle := hadvances.handle ▸ hbound
    obtain ⟨b, hb, hexchange⟩ := ha.exchange (v := ⟨regions, n, answer, ⟨caller, world⟩⟩) htidy
      hbound' hrequest hanswer
    have hsaved : S (n.world.request setup invoke linkage regions n.toCaller).2.2.ledger :=
      ha.request_saves hS htidy hsaves hbound' regions n.toCaller hn
    have hserved : n.world.request setup invoke linkage regions n.toCaller =
        (answer, caller, world) := hrequest
    rw [hserved] at hsaved
    exact ⟨b, hb, hadvances.trans hexchange.advances, hsaved⟩

theorem Underway.broken_saves {start : Machine (Host τ)} (h : Underway base c start.world)
    (hS : Stable S) (htidy : invoke.Tidy) (hsaves : invoke.Saves S)
    (hbound : linkage.bound = some c.handle)
    (hbroken : Course.Broken (hostCalls setup invoke) linkage start y)
    (hx : S start.world.ledger) : S y.ledger := by
  cases hbroken with
  | looping hcourse _ =>
    obtain ⟨-, -, -, hm⟩ := h.course_saves hS htidy hsaves hbound hcourse hx
    exact hm
  | @inside visits m hcourse regions caller world hserved =>
    obtain ⟨c', hc', hadvances, hm⟩ := h.course_saves hS htidy hsaves hbound hcourse hx
    have hsaved : S (m.world.request setup invoke linkage regions m.toCaller).2.2.ledger :=
      hc'.request_saves hS htidy hsaves (hadvances.handle ▸ hbound) regions m.toCaller hm
    have hrequest : m.world.request setup invoke linkage regions m.toCaller =
        (.suspended, caller, y) := hserved
    rw [hrequest] at hsaved
    exact hsaved

/-- Beginning a call and concluding it leave the ledger alone. -/
theorem ledger_enter (hx : x.Orderly) (setup : HostSetup) (e : Entry) :
    (∀ ended, x.enter setup e = .error ended → ended.2.ledger = x.ledger) ∧
      ∀ s, x.enter setup e = .ok s → s.host.ledger = x.ledger := by
  have hadmits : Admits setup (fun y : Host τ => y.Orderly ∧ y.ledger = x.ledger)
      fun _ _ _ => True :=
    .of_tended And.left (fun hy ht => ⟨hy.1.tended ht, ht.ledger.trans hy.2⟩)
      (fun hy _ => ⟨hy.1.congr rfl rfl rfl, hy.2⟩) fun hy c code =>
        ⟨orderly_openPool setup hy.1 c code, (openPool_frame hy.1 c code).1.trans hy.2⟩
  have hadmitted := hadmits.enter e ⟨hx, rfl⟩
  constructor
  · intro ended henter
    rw [henter] at hadmitted
    exact hadmitted.2
  · intro s henter
    rw [henter] at hadmitted
    obtain ⟨i, y, registry, ⟨-, hledger⟩, -, -, hhost⟩ := hadmitted
    rw [hhost]
    exact hledger

theorem ledger_conclude (hx : x.Orderly) (setup : HostSetup) (id : PoolId) (c : Context)
    (result : Except CallFault Unit) (i : Instance) :
    (x.conclude setup id c result i).2.ledger = x.ledger := by
  have hremoved : Orderly { x with registry := x.registry.remove c.handle } :=
    hx.congr rfl rfl rfl
  have hgiven (i : Instance) :
      ({ x with registry := x.registry.remove c.handle }.giveBack setup id i).ledger = x.ledger :=
    (tended_giveBack hremoved i).ledger
  unfold conclude
  dsimp only
  -- concluding gives the instance back and may close a pool; neither is in the ledger
  split
  · exact hgiven _
  · split
    · have hback : Tended _
          ({ x with registry := x.registry.remove c.handle }.giveBack setup id i) :=
        tended_giveBack hremoved i
      exact (refiled_closeKey setup (hremoved.tended hback) c.contract.key).ledger.trans (hgiven i)
    · exact hgiven _

/-- **No call takes away from the ledger what no operation does**, however many calls are nested in
it, whether it has waited or not, and even if it is broken off. -/
theorem stable_perform (hS : Stable S) (setup : HostSetup) (breaksOff : Bool) (levels : Nat) :
    ∀ {e : Entry} {x : Host τ}, x.Orderly → S x.ledger →
      S (x.perform setup breaksOff levels e).2.ledger := by
  -- by induction on the levels: nested calls are made one level further down
  induction levels with
  | zero =>
    intro e x _ hx
    cases e <;> exact hx
  | succ levels ih =>
    intro e x horderly hx
    have htidy : Invoker.Tidy (invokeWithin (τ := τ) setup breaksOff levels) :=
      tidy_invokeWithin setup breaksOff levels
    have hsaves : Invoker.Saves S (invokeWithin (τ := τ) setup breaksOff levels) :=
      fun hx hS => ih (e := .new _) hx hS
    have hcarried := carried_perform setup breaksOff levels e x
    have hbeginning := beginning_enter setup e horderly
    obtain ⟨hearly, hbegun⟩ := ledger_enter horderly setup e
    generalize x.perform setup breaksOff (levels + 1) e = ended at hcarried ⊢
    cases hcarried with
    | early henter =>
      rw [hearly _ henter]
      exact hx
    | @brokenOff s i z henter hran =>
      rw [henter] at hbeginning
      have hs : S ((s.inst.setGas (budgetOf setup e.call)).machine s.host).world.ledger :=
        (hbegun s henter).symm ▸ hx
      have hfollows := follows_callGuest setup.guest
        (hostCalls setup (invokeWithin setup breaksOff levels)) breaksOff
        s.context (budgetOf setup e.call) s.inst s.host
      rw [hran] at hfollows
      cases hbeginning with
      | begun hunderway hfree hbound houtcome hcached =>
        have hz : S z.ledger :=
          hunderway.broken_saves hS htidy hsaves hbound (hfollows.broken rfl) hs
        exact hz
    | @concluded s ended i z henter hran hends =>
      rw [henter] at hbeginning
      have hs : S ((s.inst.setGas (budgetOf setup e.call)).machine s.host).world.ledger :=
        (hbegun s henter).symm ▸ hx
      have hcourse := (course_callGuest setup.guest
        (hostCalls setup (invokeWithin setup breaksOff levels)) breaksOff
        s.context (budgetOf setup e.call) s.inst s.host).2
      rw [hran] at hcourse
      cases hbeginning with
      | begun hunderway hfree hbound houtcome hcached =>
        obtain ⟨c', hz, -, hsaved⟩ :=
          hunderway.course_saves hS htidy hsaves hbound (hcourse hends) hs
        have hsame : (z.conclude setup s.pool s.context ended i).2.ledger = z.ledger :=
          ledger_conclude hz.orderly setup s.pool s.context ended i
        exact hsame.symm ▸ hsaved

theorem stable_invokeWithin (hS : Stable S) (setup : HostSetup) (breaksOff : Bool) (levels : Nat) :
    Invoker.Saves S (invokeWithin (τ := τ) setup breaksOff levels) :=
  fun horderly hx => stable_perform hS setup breaksOff levels (e := .new _) horderly hx

end Host

namespace Attempt

variable {setup : HostSetup} {a : Attempt τ} {S : τ → Prop}

/-- **What no operation takes away from the ledger is there at every request**, even if the call is
broken off.  Its invocation is under way then. -/
theorem underway_of_visit (ha : a.host.Orderly) (hS : Stable S) (hx : S a.host.ledger)
    {v : Visit (Host τ)} (hv : v ∈ a.visits setup) :
    ∃ s c, a.begun? setup = some s ∧ s.inst.bound = some c.handle ∧
      Host.Underway a.host.registry.contexts c v.before.world ∧ S v.before.world.ledger := by
  cases hbegun : a.begun? setup with
  | none =>
    rw [visits_of_not_begun hbegun] at hv
    cases hv
  | some s =>
    obtain ⟨-, henter⟩ := enter_of_begun hbegun
    have hs : S ((s.inst.setGas (budgetOf setup a.call)).machine s.host).world.ledger :=
      ((Host.ledger_enter ha setup a.entry).2 s henter).symm ▸ hx
    have hbeginning := Host.beginning_enter setup a.entry ha
    rw [henter] at hbeginning
    -- the course up to the visit, along which the context was kept
    obtain ⟨visits, hcourse⟩ := course_of_visit hbegun hv
    cases hbeginning with
    | begun hunderway hfree hbound houtcome hcached =>
      obtain ⟨c, hc, hadvances, hsaved⟩ := hunderway.course_saves hS
        (Host.tidy_invokeWithin setup false (a.levels - 1))
        (Host.stable_invokeWithin hS setup false (a.levels - 1)) hbound hcourse hs
      exact ⟨s, c, rfl, hadvances.handle ▸ hbound, hc, hsaved⟩

/-- **And throughout the tree of a call**, all of whose calls find orderly hosts. -/
theorem saved (ha : a.host.Orderly) (hS : Stable S) (hx : S a.host.ledger) :
    ∀ t ∈ a.family setup, t.host.Orderly ∧ S t.host.ledger ∧
      ∀ v ∈ t.visits setup, S v.before.world.ledger := by
  refine induct (P := fun a => a.host.Orderly → S a.host.ledger → ∀ t ∈ a.family setup,
    t.host.Orderly ∧ S t.host.ledger ∧ ∀ v ∈ t.visits setup, S v.before.world.ledger) setup ?_
    a ha hx
  intro a ih ha hx t ht
  rcases mem_family.mp ht with rfl | ht
  · refine ⟨ha, hx, fun v hv => ?_⟩
    obtain ⟨-, -, -, -, -, hsaved⟩ := underway_of_visit ha hS hx hv
    exact hsaved
  · obtain ⟨b, hb, ht⟩ := mem_below.mp ht
    obtain ⟨v, hv, hin⟩ := List.mem_filterMap.mp hb
    obtain ⟨s, c, hbegun, hbound, hc, hsaved⟩ := underway_of_visit ha hS hx hv
    have hhost : b.host = v.before.world := host_of_nestedIn hbegun hbound hc hin
    exact ih b hb (hhost ▸ hc.orderly) (hhost ▸ hsaved) t ht

end Attempt

end ContractHost
