import ContractHost.Proofs.Host.Cleanup
import ContractHost.Proofs.Host.Holding

/-!
# The record of a host

What happens on a host happens in single steps: a call begins, or waits first, its instance works,
its invocation changes, it is concluded or given up, and in between pools are opened, reset and
closed.  A call that is carried out as a whole is a run of such steps, with those of the calls
nested in it in between.

When a call is concluded its end says something about the instance that it has used: that it is
sound, or that it has broken down.  This is what the record of a host consists of.

## Main definitions

* `Verdict`, `Use` — what the end of a call says about its instance.
* `streak` — how often in a row an instance has broken down.
* `Host.Step`, `Host.Runs` — single steps and runs of them, with what they record.
* `Host.Recorded` — every host that comes of a new one step by step, with its record.

## Main results

* `Host.Runs.leased` — **the leases are kept account of, step by step.**
* `Host.Step.transfer` — **how a step moves instances between the pools and the leases.**
* `Host.records_perform` — **every call is a run of single steps**, however many levels are nested.
* `Host.Reached.recorded` — **every host has a record.**
-/

namespace ContractHost

/-! ### Uses of instances -/

/-- What the end of a call says about its instance. -/
inductive Verdict
  /-- The method has come to its end, whether the call has failed or not. -/
  | sound
  /-- The run has broken down. -/
  | broken
  /-- It has broken down while it was to set the contract up. -/
  | unset
  deriving DecidableEq

/-- How often in a row an instance has broken down after a call, if it was so often before. -/
def Verdict.count : Verdict → Nat → Nat
  | .sound, _ => 0
  | .broken, k => k + 1
  | .unset, k => k

/-- The use of an instance for a call. -/
structure Use where
  /-- The number of the instance. -/
  inst : Nat
  /-- What the end of the call says about it. -/
  verdict : Verdict
  deriving DecidableEq

/-- How often in a row an instance has broken down, when the uses are over. -/
def streak (uses : List Use) (n : Nat) : Nat :=
  (uses.filter (·.inst == n)).foldl (fun k u => u.verdict.count k) 0

section

variable {uses more : List Use} {n : Nat}

theorem streak_concat_self (uses : List Use) (n : Nat) (v : Verdict) :
    streak (uses ++ [⟨n, v⟩]) n = v.count (streak uses n) := by
  simp [streak]

theorem streak_append_of_ne (h : ∀ u ∈ more, u.inst ≠ n) :
    streak (uses ++ more) n = streak uses n := by
  have hnone : more.filter (·.inst == n) = [] :=
    List.filter_eq_nil_iff.mpr fun u hu => by simpa using h u hu
  unfold streak
  rw [List.filter_append, hnone, List.append_nil]

/-- An instance that was not used has not broken down. -/
theorem streak_eq_zero (h : ∀ u ∈ uses, u.inst ≠ n) : streak uses n = 0 := by
  rw [← List.nil_append uses, streak_append_of_ne h]
  rfl

end

namespace Host

/-! ### Single steps -/

/-- What the end of a call says about its instance. -/
def verdict (setup : HostSetup) (c : Context) (ended : Except CallFault Unit) (i : Instance) :
    Verdict :=
  match reasonOf setup.config.execution.gasLimit i.gas ended with
  | none => .sound
  | some _ => if c.method = exportNames.init then .unset else .broken

variable {τ : Type} [LedgerAccess τ] {setup : HostSetup} {x y z : Host τ}
variable {busy rest left : List Lease} {uses more : List Use} {l : Lease}

/-- A single step on a host on which calls have their leases, and what is recorded with it.  None
of them is a call as a whole. -/
inductive Step (setup : HostSetup) : Tenancy τ → List Use → Tenancy τ → Prop
  /-- The leases are listed in another order. -/
  | reorder {busy rest : List Lease} (x : Host τ) (h : busy.Perm rest) :
      Step setup ⟨busy, x⟩ [] ⟨rest, x⟩
  /-- The host goes on over another ledger, later, or with another list of calls that were broken
  off. -/
  | move (busy : List Lease) (x : Host τ) (ledger : τ) (journal : List LogLine)
      (stalled : List Lease) (uptime : Nat) :
      Step setup ⟨busy, x⟩ [] ⟨busy, { x with ledger, journal, stalled, uptime }⟩
  /-- It carries out an order. -/
  | order (busy : List Lease) (x : Host τ) (order : Order) :
      Step setup ⟨busy, x⟩ [] ⟨busy, x.carryOut setup order⟩
  /-- Time passes for those who wait for a pool. -/
  | wait (busy : List Lease) (x : Host τ) (id : PoolId) (milliseconds : Nat) :
      Step setup ⟨busy, x⟩ []
        ⟨busy, x.withPool id fun p y => (p.wait milliseconds).settle (supply setup) y⟩
  /-- Time passes for the regular looks at a pool. -/
  | advance (busy : List Lease) (x : Host τ) (id : PoolId) (seconds : Nat) :
      Step setup ⟨busy, x⟩ []
        ⟨busy, x.withPool id fun p y => (p.advance seconds).settle (supply setup) y⟩
  /-- A call ends, or waits, before its instance has run. -/
  | early (busy : List Lease) {x : Host τ} {e : Entry} {ended : Completion × Host τ}
      (henter : x.enter setup e = .error ended) : Step setup ⟨busy, x⟩ [] ⟨busy, ended.2⟩
  /-- A call no longer waits. -/
  | leave (busy : List Lease) (x : Host τ) (q : Queued) :
      Step setup ⟨busy, x⟩ [] ⟨busy, x.leave setup q⟩
  /-- A call begins, whether it is made now or has waited. -/
  | enter (busy : List Lease) {x : Host τ} {e : Entry} {s : Begun τ}
      (henter : x.enter setup e = .ok s) : Step setup ⟨busy, x⟩ [] ⟨s.lease :: busy, s.host⟩
  /-- The instance of a call works. -/
  | work (rest : List Lease) (x : Host τ) {l : Lease} {i : Instance} (hran : l.inst.Ran i) :
      Step setup ⟨l :: rest, x⟩ [] ⟨{ l with inst := i } :: rest, x⟩
  /-- What a call knows changes. -/
  | rewrite {busy : List Lease} {handle : Int32} {x y : Host τ}
      (hmem : handle ∈ busy.map Lease.handle) (hrewritten : Rewritten handle x y) :
      Step setup ⟨busy, x⟩ [] ⟨busy, y⟩
  /-- A call is concluded, and the use of its instance is recorded. -/
  | conclude (rest : List Lease) {l : Lease} (x : Host τ) {c : Context} (hc : c.handle = l.handle)
      (ended : Except CallFault Unit) :
      Step setup ⟨l :: rest, x⟩ [⟨l.inst.id, verdict setup c ended l.inst⟩]
        ⟨rest, (x.conclude setup l.pool c ended l.inst).2⟩
  /-- The instance of a call is given up. -/
  | abandon (rest : List Lease) (l : Lease) (x : Host τ) :
      Step setup ⟨l :: rest, x⟩ [] ⟨rest, x.abandonLease setup l⟩

/-- Steps one after another, with all that is recorded. -/
inductive Runs (setup : HostSetup) : Tenancy τ → List Use → Tenancy τ → Prop
  /-- Nothing happens. -/
  | refl (u : Tenancy τ) : Runs setup u [] u
  /-- One more step. -/
  | tail {u v w : Tenancy τ} {uses more : List Use} (h : Runs setup u uses v)
      (hstep : Step setup v more w) : Runs setup u (uses ++ more) w

/-- The host comes of a new one, with the leases `busy` in use on it, and `uses` is recorded. -/
def Recorded (setup : HostSetup) (uses : List Use) (busy : List Lease) (x : Host τ) : Prop :=
  ∃ ledger, Runs setup ⟨[], { ledger }⟩ uses ⟨busy, x⟩

namespace Runs

variable {u v w : Tenancy τ}

theorem single (h : Step setup u uses v) : Runs setup u uses v :=
  (Runs.refl u).tail h

theorem trans (h : Runs setup u uses v) (h' : Runs setup v more w) :
    Runs setup u (uses ++ more) w := by
  induction h' with
  | refl => rwa [List.append_nil]
  | tail _ hstep ih =>
    rw [← List.append_assoc]
    exact ih.tail hstep

theorem unrecorded (h : Runs setup u uses v) (hstep : Step setup v [] w) : Runs setup u uses w := by
  have hw := h.tail hstep
  rwa [List.append_nil] at hw

end Runs

/-- **In every step the leases are kept account of**, and what is gone stays so. -/
theorem Step.leased {gone : Set Nat} {u v : Tenancy τ} (h : Step setup u uses v)
    (hu : Leased setup gone u.busy u.host) : Leased setup gone v.busy v.host := by
  -- each step of a run is one that keeps the leases
  cases h with
  | reorder x hperm => exact hu.perm hperm
  | move busy x ledger journal stalled uptime =>
    exact hu.move rfl (hu.orderly.congr rfl rfl rfl) le_rfl rfl rfl
  | order busy x order => exact hu.carryOut order
  | wait busy x id milliseconds =>
    exact hu.tell id (fun _ hp => hp) (fun _ => rfl) (fun howes => howes.congr rfl)
      fun sc => Scene.Step.wait sc milliseconds
  | advance busy x id seconds =>
    exact hu.tell id (fun _ hp => hp) (fun _ => rfl) (fun howes => howes.congr rfl)
      fun sc => Scene.Step.advance sc seconds
  | @early busy x e ended henter =>
    have htaking := hu.enter e
    rw [henter] at htaking
    cases htaking with
    | refused hleased => exact hleased
    | waiting _ _ hleased => exact hleased
    | still => exact hu
    | unregistered _ _ _ _ hleased => exact hleased
  | leave busy x q => exact (hu.leave q).1
  | enter busy henter => exact (hu.engaged henter).1.leased
  | work rest x hran => exact hu.replace rfl rfl hran
  | @rewrite _ _ x _ hmem hrewritten =>
    exact (hu.rewritten (t := x.ledger) (j := x.journal) hmem hrewritten).1
  | conclude rest x hc ended => exact (hu.conclude hc ended).1
  | abandon rest l x => exact hu.abandonLease

/-- **So they are in every run.** -/
theorem Runs.leased {gone : Set Nat} {u v : Tenancy τ} (h : Runs setup u uses v)
    (hu : Leased setup gone u.busy u.host) : Leased setup gone v.busy v.host := by
  induction h with
  | refl => exact hu
  | tail _ hstep ih => exact hstep.leased ih

/-- How a step moves instances between the pools and the leases, if the pools hold none of a kind
before it. -/
inductive Transfer (setup : HostSetup) (n : Nat) (kind : Module → Instance → Bool) :
    Tenancy τ → List Use → Tenancy τ → Prop
  /-- Pools hold none of the kind, and nothing is in use that was not before. -/
  | idle {u v : Tenancy τ} (hfree : v.host.Free n kind) (hbusy : ∀ l ∈ v.busy, l ∈ u.busy) :
      Transfer setup n kind u [] v
  /-- An instance is lent to a call, which is not of the kind. -/
  | lend {busy : List Lease} {x : Host τ} {e : Entry} {s : Begun τ}
      (henter : x.enter setup e = .ok s) (hfree : s.host.Free n kind)
      (hspared : Spared kind s.pool s.host s.inst) :
      Transfer setup n kind ⟨busy, x⟩ [] ⟨s.lease :: busy, s.host⟩
  /-- An instance works that is in use. -/
  | work {rest : List Lease} {x : Host τ} {l : Lease} {i : Instance} (hfree : x.Free n kind)
      (hran : l.inst.Ran i) :
      Transfer setup n kind ⟨l :: rest, x⟩ [] ⟨{ l with inst := i } :: rest, x⟩
  /-- An instance comes back from its call. -/
  | back {rest : List Lease} {x : Host τ} {l : Lease} {c : Context} (hc : c.handle = l.handle)
      (ended : Except CallFault Unit) :
      Transfer setup n kind ⟨l :: rest, x⟩ [⟨l.inst.id, verdict setup c ended l.inst⟩]
        ⟨rest, (x.conclude setup l.pool c ended l.inst).2⟩

/-- **Instances come into pools at the end of their calls only**, but for new ones. -/
theorem Step.transfer {n : Nat} {kind : Module → Instance → Bool} {u v : Tenancy τ}
    (h : Step setup u uses v) (hv : v.host.Orderly) (hspares : Pool.Spares n kind)
    (hu : u.host.Free n kind) : Transfer setup n kind u uses v := by
  cases h with
  | reorder x hperm => exact .idle hu fun l hl => hperm.mem_iff.mpr hl
  | move busy x ledger journal stalled uptime =>
    exact .idle (hu.move rfl hv le_rfl) fun _ hl => hl
  | order busy x order => exact .idle (hu.carryOut hspares order) fun _ hl => hl
  | wait busy x id milliseconds =>
    exact .idle (hu.tell hspares id (fun _ hp => hp) (fun _ => rfl) fun hp => hp) fun _ hl => hl
  | advance busy x id seconds =>
    exact .idle (hu.tell hspares id (fun _ hp => hp) (fun _ => rfl) fun hp => hp) fun _ hl => hl
  | @early busy x e ended henter =>
    exact .idle ((hu.enter hspares e).1 ended henter) fun _ hl => hl
  | leave busy x q => exact .idle (hu.leave hspares q) fun _ hl => hl
  | @enter busy x e s henter =>
    obtain ⟨hfree, hspared⟩ := (hu.enter hspares e).2 s henter
    exact .lend henter hfree hspared
  | work rest x hran => exact .work hu hran
  | rewrite hmem hrewritten =>
    obtain ⟨c, -, rfl⟩ := hrewritten
    exact .idle (hu.move rfl hv le_rfl) fun _ hl => hl
  | conclude rest x hc ended => exact .back hc ended
  | abandon rest l x => exact .idle (hu.abandonLease hspares l) fun _ => List.mem_cons_of_mem _

theorem Recorded.leased (h : Recorded setup uses busy x) : Leased setup ∅ busy x := by
  obtain ⟨ledger, hruns⟩ := h
  exact hruns.leased (.of_empty setup ledger)

theorem Recorded.trans (h : Recorded setup uses busy x)
    (hruns : Runs setup ⟨busy, x⟩ more ⟨rest, y⟩) : Recorded setup (uses ++ more) rest y := by
  obtain ⟨ledger, hx⟩ := h
  exact ⟨ledger, hx.trans hruns⟩

/-! ### Calls are runs of steps -/

/-- The uses are those of other instances than the leases have. -/
def Apart (uses : List Use) (busy : List Lease) : Prop :=
  ∀ u ∈ uses, ∀ l ∈ busy, l.inst.id ≠ u.inst

omit [LedgerAccess τ] in
theorem Apart.append (h : Apart uses busy) (h' : Apart more busy) : Apart (uses ++ more) busy :=
  fun u hu => (List.mem_append.mp hu).elim (h u) (h' u)

end Host

/-- Whoever carries out calls does so in single steps.  The calls that are broken off keep their
leases, and the instances that are used are not those of other leases. -/
def Invoker.Records {τ : Type} [LedgerAccess τ] (setup : HostSetup) (invoke : Invoker τ) : Prop :=
  ∀ {busy left : List Lease} {call : Call} {x y : Host τ} {completion : Completion},
    Host.Leased setup ∅ busy x → invoke call x = (completion, y) →
      y.stalled = x.stalled ++ left →
        ∃ more, Host.Runs setup ⟨busy, x⟩ more ⟨left ++ busy, y⟩ ∧ Host.Apart more busy

namespace Host

variable {τ : Type} [LedgerAccess τ] {setup : HostSetup} {x y z : Host τ}
variable {busy rest left : List Lease} {uses more : List Use} {l : Lease} {base : Host τ}
variable {invoke : Invoker τ} {handle : Int32} {linkage : Linkage}

theorem Runs.rewritten {ledger : τ} {journal : List LogLine} (hmem : handle ∈ busy.map Lease.handle)
    (hafter : Rewritten handle { x with ledger, journal } y) :
    Runs setup ⟨busy, x⟩ [] ⟨busy, y⟩ :=
  (single (.move busy x ledger journal x.stalled x.uptime)).unrecorded (.rewrite hmem hafter)

namespace Engaged

/-- **What an instance logs is a run of steps.** -/
theorem runs_log (h : Engaged setup ∅ handle busy base x) (hbound : linkage.bound = some handle)
    (ptr len : Int32) (m : Memory) :
    Runs setup ⟨busy, x⟩ [] ⟨busy, x.log linkage ptr len m⟩ := by
  obtain ⟨c, rfl, hc⟩ := h.leased.underway h.among
  have hfound : linkage.bound.bind x.registry.get? = some c := by
    rw [hbound]
    exact hc.get?
  obtain heq | ⟨line, ⟨c₀, hsome, heq⟩ | ⟨hnone, -⟩⟩ := log_cases linkage ptr len m x
  · rw [heq]
    exact .refl _
  · obtain rfl : c = c₀ := Option.some.inj (hfound.symm.trans hsome)
    rw [heq]
    exact .rewritten h.among (rewritten_clear x ((x.desk c).log line))
  · exact nomatch hfound.symm.trans hnone

/-- **A request is a run of steps**, which those of the call nested in it are part of. -/
theorem runs_request (h : Engaged setup ∅ handle busy base x) (htidy : invoke.Tidy)
    (hrecords : invoke.Records setup) (hbound : linkage.bound = some handle) (regions : Regions)
    (caller : Caller) (left : List Lease)
    (hleft : (x.request setup invoke linkage regions caller).2.2.stalled = base.stalled ++ left)
    (hnone : (x.request setup invoke linkage regions caller).1 ≠ .suspended → left = []) :
    ∃ more, Runs setup ⟨busy, x⟩ more
      ⟨left ++ busy, (x.request setup invoke linkage regions caller).2.2⟩ ∧ Apart more busy := by
  obtain ⟨c, rfl, hc⟩ := h.leased.underway h.among
  rw [← h.stalled] at hleft
  obtain ⟨-, hrequest⟩ | ⟨name, body, -, hreaches⟩ := hc.requested setup htidy hbound regions caller
  · rw [hrequest] at hnone ⊢
    obtain rfl : left = [] := hnone nofun
    exact ⟨[], .refl _, nofun⟩
  · generalize x.request setup invoke linkage regions caller = ended at hreaches hleft hnone ⊢
    obtain ⟨answer, caller', after⟩ := ended
    -- what a nested call records is all there is to record
    cases hreaches with
    | served hname hanswer hafter =>
      obtain rfl : left = [] := hnone hanswer
      exact ⟨[], .rewritten h.among hafter, nofun⟩
    | refused hname hcall hanswer hafter =>
      obtain rfl : left = [] := hnone hanswer
      exact ⟨[], .single (.rewrite h.among hafter), nofun⟩
    | @nested _ _ y call result hname hcall hinvoke hanswer hafter =>
      obtain rfl : left = [] := hnone hanswer
      have hstill : y.stalled = x.stalled ++ [] := by
        obtain ⟨c', -, rfl⟩ := hafter
        exact hleft
      obtain ⟨more, hruns, hapart⟩ := hrecords h.leased hinvoke hstill
      exact ⟨more, hruns.unrecorded (.rewrite h.among hafter), hapart⟩
    | broken hname hcall hinvoke => exact hrecords h.leased hinvoke hleft

/-- **What an instance does up to some point is a run of steps.** -/
theorem runs_along {start m : Machine (Host τ)} {visits : List (Visit (Host τ))}
    (h : Engaged setup ∅ handle busy base start.world) (htidy : invoke.Tidy)
    (hkeeps : invoke.Keeps setup) (hrecords : invoke.Records setup)
    (hbound : linkage.bound = some handle)
    (hcourse : Course (hostCalls setup invoke) linkage start visits m) :
    ∃ more, Runs setup ⟨busy, start.world⟩ more ⟨busy, m.world⟩ ∧ Apart more busy := by
  have hboth : Engaged setup ∅ handle busy base m.world ∧
      ∃ more, Runs setup ⟨busy, start.world⟩ more ⟨busy, m.world⟩ ∧ Apart more busy := by
    -- along the course: the runs of the requests so far, joined one after the other
    refine hcourse.invariant (P := fun _ x => Engaged setup ∅ handle busy base x ∧
      ∃ more, Runs setup ⟨busy, start.world⟩ more ⟨busy, x⟩ ∧ Apart more busy)
      ⟨h, [], .refl _, nofun⟩ ?_ ?_
    · rintro visits n ptr len ⟨hx, more, hruns, hapart⟩
      have hlog := hruns.trans (hx.runs_log hbound ptr len n.memory)
      rw [List.append_nil] at hlog
      exact ⟨hx.log hbound ptr len _, more, hlog, hapart⟩
    · rintro visits n regions answer caller world - hserved hanswer ⟨hx, more, hruns, hapart⟩
      have hrequest : n.world.request setup invoke linkage regions n.toCaller =
          (answer, caller, world) := hserved
      obtain ⟨left, hleft, hstill, hsame, hnone⟩ :=
        hx.request htidy hkeeps hbound regions n.toCaller
      rw [hrequest] at hleft hstill hsame hnone
      obtain rfl : left = [] := hnone.resolve_left hanswer
      have hsteps := hx.runs_request htidy hrecords hbound regions n.toCaller []
        (by rw [hrequest]; exact hstill) fun _ => rfl
      rw [hrequest] at hsteps
      obtain ⟨more', hruns', hapart'⟩ := hsteps
      exact ⟨⟨hleft, hx.among, hstill.trans (List.append_nil _), hsame⟩, more ++ more',
        hruns.trans hruns', hapart.append hapart'⟩
  exact hboth.2

/-- **So is a run that is broken off.** -/
theorem runs_broken {start : Machine (Host τ)}
    (h : Engaged setup ∅ handle busy base start.world) (htidy : invoke.Tidy)
    (hkeeps : invoke.Keeps setup) (hrecords : invoke.Records setup)
    (hbound : linkage.bound = some handle)
    (hbroken : Course.Broken (hostCalls setup invoke) linkage start y)
    (hleft : y.stalled = base.stalled ++ left) :
    ∃ more, Runs setup ⟨busy, start.world⟩ more ⟨left ++ busy, y⟩ ∧ Apart more busy := by
  -- the course up to the break, and then what the broken request has recorded
  cases hbroken with
  | looping hcourse =>
    have hm := h.along htidy hkeeps hbound hcourse
    obtain rfl : left = [] := List.self_eq_append_right.mp (hm.stalled.symm.trans hleft)
    exact h.runs_along htidy hkeeps hrecords hbound hcourse
  | @inside visits m hcourse regions caller world hserved =>
    have hm := h.along htidy hkeeps hbound hcourse
    obtain ⟨more, hruns, hapart⟩ := h.runs_along htidy hkeeps hrecords hbound hcourse
    have hrequest : m.world.request setup invoke linkage regions m.toCaller =
        (.suspended, caller, y) := hserved
    have hsteps := hm.runs_request htidy hrecords hbound regions m.toCaller left
      (by rw [hrequest]; exact hleft) fun hends => absurd (congrArg (·.1) hrequest) hends
    rw [hrequest] at hsteps
    obtain ⟨more', hruns', hapart'⟩ := hsteps
    exact ⟨more ++ more', hruns.trans hruns', hapart.append hapart'⟩

end Engaged

/-! ### Calls from beginning to end -/

section

variable {breaksOff : Bool} {levels : Nat} {e : Entry} {s : Begun τ} {i : Instance}

/-- **What happens from the beginning of a call until its instance has run is a run of steps.** -/
theorem Leased.runs (h : Leased setup ∅ busy x) (henter : x.enter setup e = .ok s)
    (htidy : invoke.Tidy) (hkeeps : invoke.Keeps setup) (hrecords : invoke.Records setup)
    {ended : Except CallFault Unit}
    (hran : callGuest setup.guest (hostCalls setup invoke) breaksOff s.context
      (budgetOf setup e.call) s.inst s.host = (ended, i, y))
    (hleft : y.stalled = x.stalled ++ left) :
    ∃ more, Runs setup ⟨busy, x⟩ more ⟨left ++ ⟨s.pool, s.context.handle, i⟩ :: busy, y⟩ ∧
      Apart more (⟨s.pool, s.context.handle, i⟩ :: busy) := by
  obtain ⟨hengaged, hbound, hstill, -⟩ :
      Engaged setup ∅ s.context.handle (s.lease :: busy) s.host
        ((s.inst.setGas (budgetOf setup e.call)).machine s.host).world ∧
      s.inst.bound = some s.context.handle ∧ s.host.stalled = x.stalled ∧
        s.host.queued = x.queuedBeside e := h.engaged henter
  have hfollows := follows_callGuest setup.guest (hostCalls setup invoke) breaksOff s.context
    (budgetOf setup e.call) s.inst s.host
  have hinst := Instance.ran_callGuest setup.guest (hostCalls setup invoke) breaksOff s.context
    (budgetOf setup e.call) s.inst s.host
  rw [hran] at hfollows hinst
  rw [← hstill] at hleft
  -- the instance has been the same all the time, but for its memory and its gas
  have hid : i.id = s.lease.inst.id := hinst.after.id
  obtain ⟨more, hruns, hapart⟩ : ∃ more, Runs setup ⟨s.lease :: busy, s.host⟩ more
      ⟨left ++ s.lease :: busy, y⟩ ∧ Apart more (s.lease :: busy) := by
    by_cases hends : ended = .error .suspended
    · exact hengaged.runs_broken htidy hkeeps hrecords hbound (hfollows.broken hends) hleft
    · obtain ⟨visits, hcourse⟩ := hfollows.course hends
      have hy := hengaged.along htidy hkeeps hbound hcourse
      obtain rfl : left = [] := List.self_eq_append_right.mp (hy.stalled.symm.trans hleft)
      exact hengaged.runs_along htidy hkeeps hrecords hbound hcourse
  have hbegun : Runs setup ⟨busy, x⟩ more ⟨left ++ s.lease :: busy, y⟩ :=
    (Runs.single (.enter busy henter)).trans hruns
  have hworked : Runs setup ⟨busy, x⟩ more
      ⟨⟨s.pool, s.context.handle, i⟩ :: (left ++ busy), y⟩ :=
    (hbegun.unrecorded (.reorder y List.perm_middle)).unrecorded (.work (left ++ busy) y hinst)
  refine ⟨more, hworked.unrecorded (.reorder y List.perm_middle.symm), fun u hu k hk => ?_⟩
  rcases List.mem_cons.mp hk with rfl | hk
  · exact fun heq => hapart u hu s.lease List.mem_cons_self (hid.symm.trans heq)
  · exact hapart u hu k (List.mem_cons_of_mem _ hk)

theorem records_perform_succ
    (hrecords : Invoker.Records setup (invokeWithin (τ := τ) setup breaksOff levels))
    {completion : Completion} (h : Leased setup ∅ busy x)
    (hperform : x.perform setup breaksOff (levels + 1) e = (completion, y))
    (hleft : y.stalled = x.stalled ++ left) :
    ∃ more, Runs setup ⟨busy, x⟩ more ⟨left ++ busy, y⟩ ∧ Apart more busy := by
  have hcarried := carried_perform setup breaksOff levels e x
  have hkeeps : Invoker.Keeps setup (invokeWithin (τ := τ) setup breaksOff levels) :=
    keeps_invokeWithin setup breaksOff levels
  have htidy : Invoker.Tidy (invokeWithin (τ := τ) setup breaksOff levels) :=
    tidy_invokeWithin setup breaksOff levels
  rw [hperform] at hcarried
  cases hcarried with
  | early henter =>
    have htaking := h.enter e
    rw [henter] at htaking
    have hstalled : y.stalled = x.stalled := by
      cases htaking with
      | refused _ _ hstalled => exact hstalled
      | waiting _ _ _ _ hstalled => exact hstalled
      | still => rfl
      | unregistered _ _ _ _ _ _ hstalled => exact hstalled
    obtain rfl : left = [] := List.self_eq_append_right.mp (hstalled.symm.trans hleft)
    exact ⟨[], .single (.early busy henter), nofun⟩
  | @brokenOff s i z henter hran =>
    obtain ⟨inner, -, hstalled, -⟩ := h.run henter htidy hkeeps hran
    obtain ⟨more, hruns, hapart⟩ := h.runs henter htidy hkeeps hrecords hran hstalled
    -- the call that was broken off last is noted last
    obtain rfl : inner ++ [⟨s.pool, s.context.handle, i⟩] = left := by
      rw [hstalled, List.append_assoc] at hleft
      exact List.append_cancel_left hleft
    rw [List.append_assoc]
    exact ⟨more, hruns.unrecorded (.move _ z z.ledger z.journal _ z.uptime),
      fun u hu k hk => hapart u hu k (List.mem_cons_of_mem _ hk)⟩
  | @concluded s ended i z henter hran hends =>
    obtain ⟨inner, hinner, hstalled, -, hnone⟩ := h.run henter htidy hkeeps hran
    obtain rfl : inner = [] := hnone.resolve_left hends
    obtain ⟨more, hruns, hapart⟩ := h.runs henter htidy hkeeps hrecords hran hstalled
    obtain ⟨-, -, hstill, -⟩ := hinner.conclude (c := s.context) rfl ended
    obtain rfl : left = [] := by
      rw [hstill, hstalled] at hleft
      exact (List.append_cancel_left hleft).symm
    refine ⟨_, hruns.tail (.conclude busy z rfl ended), Apart.append
      (fun u hu k hk => hapart u hu k (List.mem_cons_of_mem _ hk)) fun u hu k hk => ?_⟩
    obtain rfl := List.mem_singleton.mp hu
    exact hinner.others k hk

theorem records_invokeWithin (setup : HostSetup) (breaksOff : Bool) (levels : Nat) :
    Invoker.Records setup (invokeWithin (τ := τ) setup breaksOff levels) := by
  induction levels with
  | zero =>
    intro busy left call x y completion h hinvoke hleft
    cases hinvoke
    obtain rfl : left = [] := List.self_eq_append_right.mp hleft
    exact ⟨[], .refl _, nofun⟩
  | succ levels ih =>
    exact fun h hinvoke hleft => records_perform_succ (e := .new _) ih h hinvoke hleft

/-- **Every call is a run of single steps**, however many levels are nested, and whether it has
waited or not. -/
theorem records_perform {completion : Completion} (h : Leased setup ∅ busy x)
    (hperform : x.perform setup breaksOff (levels + 1) e = (completion, y))
    (hleft : y.stalled = x.stalled ++ left) :
    ∃ more, Runs setup ⟨busy, x⟩ more ⟨left ++ busy, y⟩ ∧ Apart more busy :=
  records_perform_succ (records_invokeWithin setup breaksOff levels) h hperform hleft

/-! ### Every host has a record -/

/-- What happens on a host is a run of steps. -/
theorem Happens.runs {u v : Tenancy τ} (h : Happens setup u v)
    (hu : Leased setup ∅ u.busy u.host) : ∃ more, Runs setup u more v := by
  -- each event is a run of steps; calls are those that take more than one
  cases h with
  | move busy x ledger journal stalled uptime =>
    exact ⟨_, .single (.move busy x ledger journal stalled uptime)⟩
  | order busy x order => exact ⟨_, .single (.order busy x order)⟩
  | wait busy x id milliseconds => exact ⟨_, .single (.wait busy x id milliseconds)⟩
  | advance busy x id seconds => exact ⟨_, .single (.advance busy x id seconds)⟩
  | serve hperform =>
    obtain ⟨left, -, hleft⟩ := keeps_perform hu hperform
    cases hleft with
    | ended hstalled =>
      obtain ⟨more, hruns, -⟩ :=
        records_perform hu hperform (hstalled.trans (List.append_nil _).symm)
      exact ⟨more, hruns⟩
  | suspend hperform hleft =>
    obtain ⟨more, hruns, -⟩ := records_perform hu hperform hleft
    exact ⟨more, hruns⟩
  | leave busy x q => exact ⟨_, .single (.leave busy x q)⟩
  | enter henter => exact ⟨_, .single (.enter _ henter)⟩
  | @run busy rest l start m hl breaksOff levels linkage hlinked visits hcourse i hran =>
    have hfirst := hu.perm hl
    have hbound : linkage.bound = some l.handle :=
      hlinked.trans (hfirst.bound l List.mem_cons_self)
    have hengaged : Engaged setup ∅ l.handle (l :: rest) start.world start.world :=
      ⟨hfirst, List.mem_cons_self, rfl, rfl⟩
    obtain ⟨more, hruns, -⟩ := hengaged.runs_along (tidy_invokeWithin setup breaksOff levels)
      (keeps_invokeWithin setup breaksOff levels) (records_invokeWithin setup breaksOff levels)
      hbound hcourse
    exact ⟨_, ((Runs.single (.reorder start.world hl)).trans hruns).unrecorded
      (.work rest m.world hran)⟩
  | rewrite hl hrewritten => exact ⟨_, .single (.rewrite (List.mem_map_of_mem hl) hrewritten)⟩
  | conclude hl hc ended =>
    exact ⟨_, (Runs.single (.reorder _ hl)).tail (.conclude _ _ hc ended)⟩
  | abandon hl => exact ⟨_, (Runs.single (.reorder _ hl)).tail (.abandon _ _ _)⟩

/-- **Every host has a record.** -/
theorem Reached.recorded (h : Reached setup busy x) : ∃ uses, Recorded setup uses busy x := by
  obtain ⟨ledger, hrun⟩ := h
  have hruns {u v : Tenancy τ} (hrun : Relation.ReflTransGen (Happens setup) u v)
      (hu : Leased setup ∅ u.busy u.host) : ∃ uses, Runs setup u uses v := by
    induction hrun with
    | refl => exact ⟨[], .refl _⟩
    | tail _ hhappens ih =>
      obtain ⟨uses, hfirst⟩ := ih
      obtain ⟨more, hlast⟩ := hhappens.runs (hfirst.leased hu)
      exact ⟨uses ++ more, hfirst.trans hlast⟩
  obtain ⟨uses, huses⟩ := hruns hrun (.of_empty setup ledger)
  exact ⟨uses, ledger, huses⟩

end

end Host

end ContractHost
