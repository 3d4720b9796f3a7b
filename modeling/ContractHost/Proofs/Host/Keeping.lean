import ContractHost.Proofs.Host.Takings

/-!
# Calls keep the leases

While an instance runs, its own invocation goes on, and calls that it makes come and go.  A call
that has come to an end has given its instance back, and has no lease any more.  A call that is
broken off keeps its lease, and so do all calls that are broken off with it; the host notes them.  A
call that waits has no lease yet.  No nested call waits.

## Main definitions

* `Host.Left` — the leases that a call leaves, and whether it waits.
* `Invoker.Keeps` — whoever carries out calls keeps the leases.
* `Host.Engaged` — one of the leases in use, with all others.

## Main results

* `Host.Engaged.along` — **while an instance runs, the leases are the same.**
* `Host.Engaged.broken` — a run that is broken off leaves the leases of the calls inside it.
* `Host.keeps_perform` — **calls keep the leases**, however many levels are nested, and whether they
  have waited or not.
-/

namespace ContractHost

variable {τ : Type} [LedgerAccess τ]

namespace Host

/-- The leases that a call leaves in use besides those of before, when it is carried out on a host
`x` and comes to a host `y`. -/
inductive Left (e : Entry) (x : Host τ) : List Lease → Completion → Host τ → Prop
  /-- It has ended, and leaves none. -/
  | ended {result : Except ExecutionError Outcome} {y : Host τ} (hstalled : y.stalled = x.stalled)
      (hqueued : y.queued = x.queuedBeside e) : Left e x [] (.finished result) y
  /-- It was broken off, and leaves its own and those of the calls inside it, which are noted. -/
  | brokenOff {left : List Lease} {y : Host τ} (hleft : left ≠ [])
      (hstalled : y.stalled = x.stalled ++ left) (hqueued : y.queued = x.queuedBeside e) :
      Left e x left .suspended y
  /-- It goes to the end of a line. -/
  | waiting {q : Queued} {y : Host τ} (hentry : e = .new q.call) (hdepth : q.call.depth = 0)
      (hregistry : y.registry = x.registry) (hstalled : y.stalled = x.stalled)
      (hqueued : y.queued = x.queued ++ [q]) : Left e x [] .suspended y
  /-- It waits on. -/
  | still {q : Queued} (hentry : e = .waited q) : Left e x [] .suspended x

section

variable {e : Entry} {x y : Host τ} {left : List Lease} {completion : Completion}

omit [LedgerAccess τ]

theorem Left.stalled (h : Left e x left completion y) : y.stalled = x.stalled ++ left := by
  cases h with
  | ended hstalled => exact hstalled.trans (List.append_nil _).symm
  | brokenOff _ hstalled => exact hstalled
  | waiting _ _ _ hstalled => exact hstalled.trans (List.append_nil _).symm
  | still => exact (List.append_nil _).symm

theorem Left.queued {call : Call} (h : Left (.new call) x left completion y)
    (hdepth : call.depth ≠ 0) : y.queued = x.queued := by
  cases h with
  | ended _ hqueued => exact hqueued
  | brokenOff _ _ hqueued => exact hqueued
  | waiting hentry htop =>
    cases hentry
    exact absurd htop hdepth
  | still => rfl

end

end Host

/-- Whoever carries out calls keeps the leases, but for those that a call leaves. -/
def Invoker.Keeps (setup : HostSetup) (invoke : Invoker τ) : Prop :=
  ∀ {gone : Set Nat} {busy : List Lease} {call : Call} {x y : Host τ} {completion : Completion},
    Host.Leased setup gone busy x → invoke call x = (completion, y) →
      ∃ left, Host.Leased setup gone (left ++ busy) y ∧ Host.Left (.new call) x left completion y

namespace Host

variable {setup : HostSetup} {invoke : Invoker τ} {x y base : Host τ} {busy : List Lease}
variable {gone : Set Nat} {handle : Int32} {linkage : Linkage}

/-- Exactly the leases `busy` are in use, one of them under a given handle, and the same calls were
broken off, and wait, as on the host `base`. -/
structure Engaged (setup : HostSetup) (gone : Set Nat) (handle : Int32) (busy : List Lease)
    (base x : Host τ) : Prop where
  /-- These leases are in use. -/
  leased : Leased setup gone busy x
  /-- One of them has this handle. -/
  among : handle ∈ busy.map Lease.handle
  /-- The same calls were broken off. -/
  stalled : x.stalled = base.stalled
  /-- The same calls wait. -/
  queued : x.queued = base.queued

namespace Engaged

theorem log (h : Engaged setup gone handle busy base x) (hbound : linkage.bound = some handle)
    (ptr len : Int32) (m : Memory) :
    Engaged setup gone handle busy base (x.log linkage ptr len m) := by
  obtain ⟨c, rfl, hc⟩ := h.leased.underway h.among
  have hfound : linkage.bound.bind x.registry.get? = some c := by
    rw [hbound]
    exact hc.get?
  obtain heq | ⟨line, ⟨c₀, hsome, heq⟩ | ⟨hnone, -⟩⟩ := log_cases linkage ptr len m x
  · rw [heq]
    exact h
  · obtain rfl : c = c₀ := Option.some.inj (hfound.symm.trans hsome)
    rw [heq]
    obtain ⟨hleased, hstalled, hqueued⟩ :=
      h.leased.rewritten h.among (rewritten_clear x ((x.desk c).log line))
    exact ⟨hleased, h.among, hstalled.trans h.stalled, hqueued.trans h.queued⟩
  · exact nomatch hfound.symm.trans hnone

/-- **What a request leaves**: the same leases, and those of the calls that were broken off inside
it, if it was broken off. -/
theorem request (h : Engaged setup gone handle busy base x) (htidy : invoke.Tidy)
    (hkeeps : invoke.Keeps setup) (hbound : linkage.bound = some handle) (regions : Regions)
    (caller : Caller) :
    ∃ left, Leased setup gone (left ++ busy)
        (x.request setup invoke linkage regions caller).2.2 ∧
      (x.request setup invoke linkage regions caller).2.2.stalled = base.stalled ++ left ∧
      (x.request setup invoke linkage regions caller).2.2.queued = base.queued ∧
      ((x.request setup invoke linkage regions caller).1 = .suspended ∨ left = []) := by
  obtain ⟨c, rfl, hc⟩ := h.leased.underway h.among
  rw [← h.stalled, ← h.queued]
  obtain ⟨-, hrequest⟩ | ⟨name, body, -, hreaches⟩ := hc.requested setup htidy hbound regions caller
  · rw [hrequest]
    exact ⟨[], h.leased, (List.append_nil _).symm, rfl, .inr rfl⟩
  · generalize x.request setup invoke linkage regions caller = ended at hreaches ⊢
    obtain ⟨answer, caller', after⟩ := ended
    -- only a nested call moves leases, and only one that is cut off leaves some of its own
    cases hreaches with
    | served hname hanswer hafter =>
      obtain ⟨hleased, hstalled, hqueued⟩ := h.leased.rewritten h.among hafter
      exact ⟨[], hleased, hstalled.trans (List.append_nil _).symm, hqueued, .inr rfl⟩
    | refused hname hcall hanswer hafter =>
      obtain ⟨hleased, hstalled, hqueued⟩ :=
        h.leased.rewritten (t := x.ledger) (j := x.journal) h.among hafter
      exact ⟨[], hleased, hstalled.trans (List.append_nil _).symm, hqueued, .inr rfl⟩
    | @nested _ _ y call result hname hcall hinvoke hanswer hafter =>
      obtain ⟨left, hleft, hleaves⟩ := hkeeps h.leased hinvoke
      cases hleaves with
      | ended hstill hsame =>
        obtain ⟨hleased, hstalled, hqueued⟩ :=
          hleft.rewritten (t := y.ledger) (j := y.journal) h.among hafter
        exact ⟨[], hleased, (hstalled.trans hstill).trans (List.append_nil _).symm,
          hqueued.trans hsame, .inr rfl⟩
    | broken hname hcall hinvoke =>
      obtain ⟨left, hleft, hleaves⟩ := hkeeps h.leased hinvoke
      exact ⟨left, hleft, hleaves.stalled, hleaves.queued (depth_callAsked_ne_zero hcall), .inl rfl⟩

/-- **While an instance runs, the leases are the same.** -/
theorem along {start m : Machine (Host τ)} {visits : List (Visit (Host τ))}
    (h : Engaged setup gone handle busy base start.world) (htidy : invoke.Tidy)
    (hkeeps : invoke.Keeps setup) (hbound : linkage.bound = some handle)
    (hcourse : Course (hostCalls setup invoke) linkage start visits m) :
    Engaged setup gone handle busy base m.world := by
  refine hcourse.invariant (P := fun _ x => Engaged setup gone handle busy base x) h
    (fun ptr len hx => hx.log hbound ptr len _) ?_
  intro visits n regions answer caller world _ hserved hanswer hx
  obtain ⟨left, hleft, hstill, hsame, hnone⟩ := hx.request htidy hkeeps hbound regions n.toCaller
  have hrequest : n.world.request setup invoke linkage regions n.toCaller =
      (answer, caller, world) := hserved
  rw [hrequest] at hleft hstill hsame hnone
  obtain rfl : left = [] := hnone.resolve_left hanswer
  exact ⟨hleft, hx.among, hstill.trans (List.append_nil _), hsame⟩

/-- **A run that is broken off leaves the leases of the calls inside it.** -/
theorem broken {start : Machine (Host τ)}
    (h : Engaged setup gone handle busy base start.world) (htidy : invoke.Tidy)
    (hkeeps : invoke.Keeps setup) (hbound : linkage.bound = some handle)
    (hbroken : Course.Broken (hostCalls setup invoke) linkage start y) :
    ∃ left, Leased setup gone (left ++ busy) y ∧ y.stalled = base.stalled ++ left ∧
      y.queued = base.queued := by
  cases hbroken with
  | looping hcourse =>
    have hm := h.along htidy hkeeps hbound hcourse
    exact ⟨[], hm.leased, hm.stalled.trans (List.append_nil _).symm, hm.queued⟩
  | @inside visits m hcourse regions caller world hserved =>
    have hm := h.along htidy hkeeps hbound hcourse
    obtain ⟨left, hleft, hstill, hsame, -⟩ := hm.request htidy hkeeps hbound regions m.toCaller
    have hrequest : m.world.request setup invoke linkage regions m.toCaller =
        (.suspended, caller, y) := hserved
    rw [hrequest] at hleft hstill hsame
    exact ⟨left, hleft, hstill, hsame⟩

end Engaged

/-! ### Calls from beginning to end -/

section

variable {breaksOff : Bool} {levels : Nat} {e : Entry} {s : Begun τ} {l : Lease} {i : Instance}
variable {rest : List Lease}

namespace Leased

/-- A call that has begun is under way, with its lease. -/
theorem engaged (h : Leased setup gone busy x) (henter : x.enter setup e = .ok s) :
    Engaged setup gone s.context.handle (s.lease :: busy) s.host s.host ∧
      s.inst.bound = some s.context.handle ∧ s.host.stalled = x.stalled ∧
      s.host.queued = x.queuedBeside e := by
  have htaking := h.enter e
  rw [henter] at htaking
  cases htaking with
  | taken hleased hstalled hqueued =>
    have hbound : s.lease.inst.bound = some s.lease.handle := hleased.bound _ List.mem_cons_self
    exact ⟨⟨hleased, List.mem_cons_self, rfl, rfl⟩, hbound, hstalled, hqueued⟩

/-- **What a run leaves**: the same leases, and those of the calls that were broken off inside it,
if it was broken off. -/
theorem run (h : Leased setup gone busy x) (henter : x.enter setup e = .ok s)
    (htidy : invoke.Tidy) (hkeeps : invoke.Keeps setup) {ended : Except CallFault Unit}
    (hran : callGuest setup.guest (hostCalls setup invoke) breaksOff s.context
      (budgetOf setup e.call) s.inst s.host = (ended, i, y)) :
    ∃ left, Leased setup gone (left ++ ⟨s.pool, s.context.handle, i⟩ :: busy) y ∧
      y.stalled = x.stalled ++ left ∧ y.queued = x.queuedBeside e ∧
      (ended = .error .suspended ∨ left = []) := by
  obtain ⟨hengaged, hbound, hstill, hsame⟩ :
      Engaged setup gone s.context.handle (s.lease :: busy) s.host
        ((s.inst.setGas (budgetOf setup e.call)).machine s.host).world ∧
      s.inst.bound = some s.context.handle ∧ s.host.stalled = x.stalled ∧
        s.host.queued = x.queuedBeside e := h.engaged henter
  have hfollows := follows_callGuest setup.guest (hostCalls setup invoke) breaksOff s.context
    (budgetOf setup e.call) s.inst s.host
  have hinst := Instance.ran_callGuest setup.guest (hostCalls setup invoke) breaksOff s.context
    (budgetOf setup e.call) s.inst s.host
  rw [hran] at hfollows hinst
  rw [← hstill, ← hsame]
  -- the lease of the call is in the middle, behind those the call has left
  have hused {left : List Lease} (hleft : Leased setup gone (left ++ s.lease :: busy) y) :
      Leased setup gone (left ++ ⟨s.pool, s.context.handle, i⟩ :: busy) y := by
    have hfirst := hleft.perm List.perm_middle
    have hafter : Leased setup gone (⟨s.pool, s.context.handle, i⟩ :: (left ++ busy)) y :=
      hfirst.replace rfl rfl hinst
    exact hafter.perm List.perm_middle.symm
  -- cut off in the middle, or along the whole course
  by_cases hends : ended = .error .suspended
  · obtain ⟨left, hleft, hstalled, hqueued⟩ :=
      hengaged.broken htidy hkeeps hbound (hfollows.broken hends)
    exact ⟨left, hused hleft, hstalled, hqueued, .inl hends⟩
  · obtain ⟨visits, hcourse⟩ := hfollows.course hends
    have hy := hengaged.along htidy hkeeps hbound hcourse
    have hleft : Leased setup gone ([] ++ s.lease :: busy) y := hy.leased
    exact ⟨[], hused hleft, hy.stalled.trans (List.append_nil _).symm, hy.queued, .inr rfl⟩

end Leased

/-- What is noted of a call on its instance when it is given back. -/
def noted (setup : HostSetup) (c : Context) (ended : Except CallFault Unit) (i : Instance) :
    Instance :=
  match reasonOf setup.config.execution.gasLimit i.gas ended with
  | none => i.clearErrors
  | some _ => if c.method = exportNames.init then i else i.recordError

omit [LedgerAccess τ] in
theorem after_noted (setup : HostSetup) (c : Context) (ended : Except CallFault Unit)
    (i : Instance) : i.After (noted setup c ended i) := by
  unfold noted
  split
  · exact ⟨rfl, rfl, rfl⟩
  · split <;> exact ⟨rfl, rfl, rfl⟩

/-- Setting a contract up went wrong. -/
def SetupFailed (setup : HostSetup) (c : Context) (ended : Except CallFault Unit) (i : Instance) :
    Prop :=
  c.method = exportNames.init ∧ reasonOf setup.config.execution.gasLimit i.gas ended ≠ none

/-- How a call is concluded: its invocation is removed and its instance is given back, and the pool
is closed if setting the contract up went wrong. -/
theorem snd_conclude (setup : HostSetup) (x : Host τ) (id : PoolId) (c : Context)
    (ended : Except CallFault Unit) (i : Instance) :
    ¬ SetupFailed setup c ended i ∧ (x.conclude setup id c ended i).2 =
        { x with registry := x.registry.remove c.handle }.giveBack setup id
          (noted setup c ended i) ∨
      SetupFailed setup c ended i ∧ (x.conclude setup id c ended i).2 =
        ({ x with registry := x.registry.remove c.handle }.giveBack setup id
          (noted setup c ended i)).closePool setup c.contract := by
  unfold SetupFailed conclude noted
  dsimp only
  cases reasonOf setup.config.execution.gasLimit i.gas ended with
  | none => exact .inl ⟨fun h => h.2 rfl, rfl⟩
  | some reason =>
    by_cases hinit : c.method = exportNames.init
    · refine .inr ⟨⟨hinit, nofun⟩, ?_⟩
      simp only [if_pos hinit]
    · refine .inl ⟨fun h => hinit h.1, ?_⟩
      simp only [if_neg hinit]

/-- **A call that is concluded has no lease any more.** -/
theorem Leased.conclude (h : Leased setup gone (l :: rest) x) {c : Context}
    (hhandle : c.handle = l.handle) (ended : Except CallFault Unit) :
    Leased setup gone rest (x.conclude setup l.pool c ended l.inst).2 ∧
      (x.conclude setup l.pool c ended l.inst).2.registry = x.registry.remove l.handle ∧
      (x.conclude setup l.pool c ended l.inst).2.stalled = x.stalled ∧
      (x.conclude setup l.pool c ended l.inst).2.queued = x.queued := by
  have hconclude := snd_conclude setup x l.pool c ended l.inst
  have hremoved : Orderly { x with registry := x.registry.remove l.handle } :=
    h.orderly.congr rfl rfl rfl
  have hgiven := h.giveBack (after_noted setup c ended l.inst)
  have hback : Tended _ ({ x with registry := x.registry.remove l.handle }.giveBack setup l.pool
      (noted setup c ended l.inst)) := tended_giveBack hremoved _
  rw [hhandle] at hconclude
  rcases hconclude with ⟨-, heq⟩ | ⟨-, heq⟩
  · rw [heq]
    exact ⟨hgiven, hback.registry, hback.stalled, hback.queued⟩
  · have hclosed := refiled_closeKey setup hgiven.orderly c.contract.key
    rw [heq]
    exact ⟨hgiven.closeKey _, hclosed.registry.trans hback.registry,
      hclosed.stalled.trans hback.stalled, hclosed.queued.trans hback.queued⟩

/-- A call keeps the leases if the calls nested in it do. -/
theorem keeps_perform_succ
    (hkeeps : Invoker.Keeps setup (invokeWithin (τ := τ) setup breaksOff levels))
    {completion : Completion} (h : Leased setup gone busy x)
    (hperform : x.perform setup breaksOff (levels + 1) e = (completion, y)) :
    ∃ left, Leased setup gone (left ++ busy) y ∧ Left e x left completion y := by
  have hcarried := carried_perform setup breaksOff levels e x
  rw [hperform] at hcarried
  cases hcarried with
  | early henter =>
    have htaking := h.enter e
    rw [henter] at htaking
    cases htaking with
    | refused hleased hregistry hstalled hqueued =>
      exact ⟨[], hleased, .ended hstalled hqueued⟩
    | waiting hentry hdepth hleased hregistry hstalled hqueued =>
      exact ⟨[], hleased, .waiting hentry hdepth hregistry hstalled hqueued⟩
    | still hentry => exact ⟨[], h, .still hentry⟩
    | unregistered hfull hz hparted hapart hleased hregistry hstalled hqueued =>
      exact ⟨[], hleased, .ended hstalled hqueued⟩
  | @brokenOff s i z henter hran =>
    obtain ⟨left, hleft, hstalled, hqueued, -⟩ :=
      h.run henter (tidy_invokeWithin setup breaksOff levels) hkeeps hran
    -- the call that was broken off last is noted last
    refine ⟨left ++ [⟨s.pool, s.context.handle, i⟩], ?_, .brokenOff (by simp) ?_ hqueued⟩
    · rw [List.append_assoc]
      exact hleft.move rfl (hleft.orderly.congr rfl rfl rfl) le_rfl rfl rfl
    · show z.stalled ++ _ = _
      rw [hstalled, List.append_assoc]
  | @concluded s ended i z henter hran hends =>
    obtain ⟨left, hleft, hstalled, hqueued, hnone⟩ :=
      h.run henter (tidy_invokeWithin setup breaksOff levels) hkeeps hran
    obtain rfl : left = [] := hnone.resolve_left hends
    obtain ⟨hleased, -, hstill, hsame⟩ := hleft.conclude (c := s.context) rfl ended
    exact ⟨[], hleased, .ended ((hstill.trans hstalled).trans (List.append_nil _))
      (hsame.trans hqueued)⟩

theorem keeps_invokeWithin (setup : HostSetup) (breaksOff : Bool) (levels : Nat) :
    Invoker.Keeps setup (invokeWithin (τ := τ) setup breaksOff levels) := by
  induction levels with
  | zero =>
    intro gone busy call x y completion h hinvoke
    cases hinvoke
    exact ⟨[], h, .ended rfl rfl⟩
  | succ levels ih => exact fun h hinvoke => keeps_perform_succ (e := .new _) ih h hinvoke

/-- **Calls keep the leases**, however many levels are nested, and whether they have waited or not.
-/
theorem keeps_perform {completion : Completion} (h : Leased setup gone busy x)
    (hperform : x.perform setup breaksOff (levels + 1) e = (completion, y)) :
    ∃ left, Leased setup gone (left ++ busy) y ∧ Left e x left completion y :=
  keeps_perform_succ (keeps_invokeWithin setup breaksOff levels) h hperform

end

end Host

end ContractHost
