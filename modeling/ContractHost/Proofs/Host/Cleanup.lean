import ContractHost.Proofs.Host.Keeping
import ContractHost.Proofs.Host.Propagation

/-!
# Calls clean up

Calls are carried out one after another, one within the other, or side by side, and may have to wait
for an instance before they begin.  Whatever has happened on a host, exactly the calls under way
have handles, and each has an instance of its own that no pool still holds.  A call that ends leaves
the others as it has found them, and its instance is back in its pool or gone for good.  So is the
instance of a call that is broken off and given up.  A call that waits holds nothing, and when it
waits no longer its pool owes it nothing.

An instance of an open pool that is gone is replaced, by one removal and one addition, as long as
the control task of the pool has not ended.  Otherwise it is missing from then on.

## Main definitions

* `Host.Tenancy`, `Host.Happens` — a host with the leases in use, and what happens on it.
* `Host.Reached` — every host that comes of a new one.
* `Host.InUse` — what is true of the leases in use.
* `Host.Concluded`, `Host.Exit` — what becomes of the instance of a call that ends.
* `Host.CleansUp` — calls clean up, however they end.

## Main results

* `Host.Happens.leased`, `Host.leased_of_run` — **the leases are kept account of, and what is gone
  stays so**, whatever happens.
* `Host.Leased.exit` — **what becomes of the instance of a call.**
* `Host.Reached.cleans_up` — **calls clean up on every host.**
* `Host.lost_with_long_interval` — an instance that is not replaced.
-/

namespace ContractHost

namespace Host

variable {τ : Type} [LedgerAccess τ] {setup : HostSetup} {x y : Host τ} {busy rest : List Lease}
variable {gone : Set Nat} {l : Lease}

/-! ### What happens on a host -/

/-- A host with the leases in use on it. -/
structure Tenancy (τ : Type) where
  /-- The leases. -/
  busy : List Lease
  /-- The host. -/
  host : Host τ

/-- What happens on a host.  A call is carried out as a whole, with up to any number of levels
nested in it, or bit by bit, while others are under way.  It waits and goes on later, and it is
broken off and given up at any point.  Time passes, and pools are opened, reset and closed. -/
inductive Happens (setup : HostSetup) : Tenancy τ → Tenancy τ → Prop
  /-- The host goes on over another ledger, later, or with another list of calls that were broken
  off. -/
  | move (busy : List Lease) (x : Host τ) (ledger : τ) (journal : List LogLine)
      (stalled : List Lease) (uptime : Nat) :
      Happens setup ⟨busy, x⟩ ⟨busy, { x with ledger, journal, stalled, uptime }⟩
  /-- It carries out an order. -/
  | order (busy : List Lease) (x : Host τ) (order : Order) :
      Happens setup ⟨busy, x⟩ ⟨busy, x.carryOut setup order⟩
  /-- Time passes for those who wait for a pool. -/
  | wait (busy : List Lease) (x : Host τ) (id : PoolId) (milliseconds : Nat) :
      Happens setup ⟨busy, x⟩
        ⟨busy, x.withPool id fun p y => (p.wait milliseconds).settle (supply setup) y⟩
  /-- Time passes for the regular looks at a pool. -/
  | advance (busy : List Lease) (x : Host τ) (id : PoolId) (seconds : Nat) :
      Happens setup ⟨busy, x⟩
        ⟨busy, x.withPool id fun p y => (p.advance seconds).settle (supply setup) y⟩
  /-- A call is carried out to its end, whether it is made now or has waited. -/
  | serve {busy : List Lease} {x y : Host τ} {breaksOff : Bool} {levels : Nat} {e : Entry}
      {result : Except ExecutionError Outcome}
      (hperform : x.perform setup breaksOff (levels + 1) e = (.finished result, y)) :
      Happens setup ⟨busy, x⟩ ⟨busy, y⟩
  /-- A call waits, or it is broken off, with the calls nested in it. -/
  | suspend {busy left : List Lease} {x y : Host τ} {breaksOff : Bool} {levels : Nat} {e : Entry}
      (hperform : x.perform setup breaksOff (levels + 1) e = (.suspended, y))
      (hleft : y.stalled = x.stalled ++ left) : Happens setup ⟨busy, x⟩ ⟨left ++ busy, y⟩
  /-- A call no longer waits. -/
  | leave (busy : List Lease) (x : Host τ) (q : Queued) :
      Happens setup ⟨busy, x⟩ ⟨busy, x.leave setup q⟩
  /-- A call begins. -/
  | enter {busy : List Lease} {x : Host τ} {e : Entry} {s : Begun τ}
      (henter : x.enter setup e = .ok s) : Happens setup ⟨busy, x⟩ ⟨s.lease :: busy, s.host⟩
  /-- The instance of a call runs on, from wherever it was, and may change. -/
  | run {busy rest : List Lease} {l : Lease} {start m : Machine (Host τ)}
      (hl : busy.Perm (l :: rest)) {breaksOff : Bool} {levels : Nat} {linkage : Linkage}
      (hlinked : linkage.bound = l.inst.bound) {visits : List (Visit (Host τ))}
      (hcourse : Course (hostCalls setup (invokeWithin setup breaksOff levels)) linkage start visits
        m)
      {i : Instance} (hran : l.inst.Ran i) :
      Happens setup ⟨busy, start.world⟩ ⟨{ l with inst := i } :: rest, m.world⟩
  /-- What a call knows changes, in the middle of a request. -/
  | rewrite {busy : List Lease} {l : Lease} {x y : Host τ} (hl : l ∈ busy)
      (hrewritten : Rewritten l.handle x y) : Happens setup ⟨busy, x⟩ ⟨busy, y⟩
  /-- A call is concluded. -/
  | conclude {busy rest : List Lease} {l : Lease} {x : Host τ} (hl : busy.Perm (l :: rest))
      {c : Context} (hc : c.handle = l.handle) (ended : Except CallFault Unit) :
      Happens setup ⟨busy, x⟩ ⟨rest, (x.conclude setup l.pool c ended l.inst).2⟩
  /-- The instance of a call is given up. -/
  | abandon {busy rest : List Lease} {l : Lease} {x : Host τ} (hl : busy.Perm (l :: rest)) :
      Happens setup ⟨busy, x⟩ ⟨rest, x.abandonLease setup l⟩

/-- The host comes of a new one, and these leases are in use on it. -/
def Reached (setup : HostSetup) (busy : List Lease) (x : Host τ) : Prop :=
  ∃ ledger, Relation.ReflTransGen (Happens setup) ⟨[], { ledger }⟩ ⟨busy, x⟩

theorem Reached.new (setup : HostSetup) (ledger : τ) : Reached setup [] ({ ledger } : Host τ) :=
  ⟨ledger, .refl⟩

theorem Reached.tail (h : Reached setup busy x) (hhappens : Happens setup ⟨busy, x⟩ ⟨rest, y⟩) :
    Reached setup rest y := by
  obtain ⟨ledger, hrun⟩ := h
  exact ⟨ledger, hrun.tail hhappens⟩

/-! ### Leases are kept account of -/

namespace Leased

theorem tell (h : Leased setup gone busy x) (id : PoolId) {told : Pool → Pool}
    (hquiet : ∀ p, p.Quiet → (told p).Quiet) (hlabel : ∀ p, (told p).label = p.label)
    (howes : ∀ {p tickets}, p.Owes tickets → (told p).Owes tickets)
    (hstep : ∀ sc : Scene (Host τ),
      Scene.Step (numbered setup) sc { sc with pool := told sc.pool }) :
    Leased setup gone busy (x.withPool id fun p y => (told p).settle (supply setup) y) := by
  have htended : Tended x (x.withPool id fun p y => (told p).settle (supply setup) y) := by
    refine tended_withPool h.orderly id fun p hp => ?_
    have hstays := Pool.stays_settle (within_supply setup) (hquiet p hp) x
    exact ⟨hstays.label.trans (hlabel p), hstays.quiet, hstays.host⟩
  exact h.pass (fun hlends => hlends.tell id hquiet hlabel howes hstep) htended.registry
    htended.queued

theorem foldl {f : Host τ → String → Host τ}
    (hf : ∀ {y : Host τ} key, Leased setup gone busy y → Leased setup gone busy (f y key)) :
    ∀ (keys : List String) {y : Host τ}, Leased setup gone busy y →
      Leased setup gone busy (keys.foldl f y) := by
  intro keys
  induction keys with
  | nil => exact id
  | cons key keys ih => exact fun h => ih (hf key h)

theorem carryOut (h : Leased setup gone busy x) (order : Order) :
    Leased setup gone busy (x.carryOut setup order) := by
  cases order with
  | «open» c code => exact h.openPool c code
  | close c => exact h.closeKey c.key
  | closeAll => exact foldl (fun key hy => hy.closeKey key) x.poolKeys h
  | reset c => exact h.resetKey c.key
  | resetAll => exact foldl (fun key hy => hy.resetKey key) x.poolKeys h

/-- An instance in use runs on. -/
theorem runOn {start m : Machine (Host τ)} (h : Leased setup gone (l :: rest) start.world)
    {breaksOff : Bool} {levels : Nat} {linkage : Linkage} (hlinked : linkage.bound = l.inst.bound)
    {visits : List (Visit (Host τ))}
    (hcourse : Course (hostCalls setup (invokeWithin setup breaksOff levels)) linkage start visits
      m) {i : Instance} (hran : l.inst.Ran i) :
    Leased setup gone ({ l with inst := i } :: rest) m.world := by
  have hbound : linkage.bound = some l.handle := hlinked.trans (h.bound l List.mem_cons_self)
  have hengaged : Engaged setup gone l.handle (l :: rest) start.world start.world :=
    ⟨h, List.mem_cons_self, rfl, rfl⟩
  have hm := hengaged.along (tidy_invokeWithin setup breaksOff levels)
    (keeps_invokeWithin setup breaksOff levels) hbound hcourse
  exact hm.leased.replace rfl rfl hran

end Leased

/-- **Whatever happens on the host, the leases are kept account of**, and what is gone stays so. -/
theorem Happens.leased {u v : Tenancy τ} (h : Happens setup u v)
    (hu : Leased setup gone u.busy u.host) : Leased setup gone v.busy v.host := by
  cases h with
  | move busy x ledger journal stalled uptime =>
    exact hu.move rfl (hu.orderly.congr rfl rfl rfl) le_rfl rfl rfl
  | order busy x order => exact hu.carryOut order
  | wait busy x id milliseconds =>
    exact hu.tell id (fun _ hp => hp) (fun _ => rfl) (fun howes => howes.congr rfl)
      fun sc => Scene.Step.wait sc milliseconds
  | advance busy x id seconds =>
    exact hu.tell id (fun _ hp => hp) (fun _ => rfl) (fun howes => howes.congr rfl)
      fun sc => Scene.Step.advance sc seconds
  -- a call that ends leaves nothing behind, a call that is cut off leaves what has stalled
  | serve hperform =>
    obtain ⟨left, hleased, hleft⟩ := keeps_perform hu hperform
    cases hleft with
    | ended => exact hleased
  | suspend hperform hstalled =>
    obtain ⟨left, hleased, hleft⟩ := keeps_perform hu hperform
    rw [List.append_cancel_left (hstalled.symm.trans hleft.stalled)]
    exact hleased
  | leave busy x q => exact (hu.leave q).1
  | enter henter => exact (hu.engaged henter).1.leased
  | run hl hlinked hcourse hran => exact (hu.perm hl).runOn hlinked hcourse hran
  | @rewrite _ _ x _ hl hrewritten =>
    exact (hu.rewritten (t := x.ledger) (j := x.journal) (List.mem_map_of_mem hl) hrewritten).1
  | conclude hl hc ended => exact ((hu.perm hl).conclude hc ended).1
  | abandon hl => exact (hu.perm hl).abandonLease

/-- So they are however much has happened. -/
theorem leased_of_run {u v : Tenancy τ} (hrun : Relation.ReflTransGen (Happens setup) u v)
    (hu : Leased setup gone u.busy u.host) : Leased setup gone v.busy v.host := by
  induction hrun with
  | refl => exact hu
  | tail _ hhappens ih => exact hhappens.leased ih

theorem Reached.leased (h : Reached setup busy x) : Leased setup ∅ busy x := by
  obtain ⟨ledger, hrun⟩ := h
  exact leased_of_run hrun (.of_empty setup ledger)

/-! ### What is true of leases in use -/

/-- What becomes of the instance of a call that is concluded: it goes back, with what is noted on
it, and if it was to set the contract up and has failed to, its pool is closed then. -/
inductive Concluded (setup : HostSetup) (l : Lease) (c : Context) (ended : Except CallFault Unit)
    (x : Host τ) : Host τ → Prop
  /-- The pool stays. -/
  | back {y : Host τ} (hset : ¬ SetupFailed setup c ended l.inst)
      (hparted : Parted setup false l.pool (noted setup c ended l.inst)
        { x with registry := x.registry.remove l.handle } y) : Concluded setup l c ended x y
  /-- The pool is closed. -/
  | closed {y : Host τ} (hfailed : SetupFailed setup c ended l.inst)
      (hparted : Parted setup false l.pool (noted setup c ended l.inst)
        { x with registry := x.registry.remove l.handle } y) :
      Concluded setup l c ended x (y.closePool setup c.contract)

/-- What becomes of the instance of a call that ends, when calls that are nested in it may have up
to a number of levels. -/
inductive Exit (setup : HostSetup) (busy : List Lease) (breaksOff : Bool) (levels : Nat)
    (x : Host τ) (e : Entry) : Except ExecutionError Outcome → Host τ → Prop
  /-- It got no instance. -/
  | refused {error : ExecutionError} {y : Host τ} (hregistry : y.registry = x.registry) :
      Exit setup busy breaksOff levels x e (.error error) y
  /-- Its instance went back at once, because all handles are in use. -/
  | unregistered {error : ExecutionError} {id : PoolId} {i : Instance} {y z : Host τ}
      (hfull : x.registry.Full) (hz : z.registry = x.registry)
      (hapart : ∀ l ∈ busy, l.inst.id ≠ i.id) (hparted : Parted setup false id i z y) :
      Exit setup busy breaksOff levels x e (.error error) y
  /-- Its instance has run, and the call was concluded. -/
  | ran {s : Begun τ} {o : Outcome} {ended : Except CallFault Unit} {i : Instance} {y z : Host τ}
      (henter : x.enter setup e = .ok s)
      (hran : callGuest setup.guest (hostCalls setup (invokeWithin setup breaksOff levels))
        breaksOff s.context (budgetOf setup e.call) s.inst s.host = (ended, i, z))
      (hapart : ∀ l ∈ busy, l.inst.id ≠ i.id)
      (hconcluded : Concluded setup ⟨s.pool, s.context.handle, i⟩ s.context ended z y) :
      Exit setup busy breaksOff levels x e (.ok o) y

namespace Leased

/-- **What concluding a call comes to.** -/
theorem concluded (h : Leased setup gone (l :: rest) x) {c : Context} (hc : c.handle = l.handle)
    (ended : Except CallFault Unit) :
    Concluded setup l c ended x (x.conclude setup l.pool c ended l.inst).2 := by
  have hparted := h.parted_giveBack (after_noted setup c ended l.inst)
  have hconclude := snd_conclude setup x l.pool c ended l.inst
  rw [hc] at hconclude
  rcases hconclude with ⟨hset, heq⟩ | ⟨hfailed, heq⟩
  · rw [heq]
    exact .back hset hparted
  · rw [heq]
    exact .closed hfailed hparted

/-- **What becomes of the instance of a call.** -/
theorem exit (h : Leased setup gone busy x) {breaksOff : Bool} {levels : Nat} {e : Entry}
    {result : Except ExecutionError Outcome}
    (hperform : x.perform setup breaksOff (levels + 1) e = (.finished result, y)) :
    Exit setup busy breaksOff levels x e result y := by
  have hcarried := carried_perform setup breaksOff levels e x
  rw [hperform] at hcarried
  -- either entry has failed, or the guest has run and the call was concluded
  cases hcarried with
  | early henter =>
    have htaking := h.enter e
    rw [henter] at htaking
    cases htaking with
    | refused hleased hregistry hstalled hqueued => exact .refused hregistry
    | unregistered hfull hz hparted hapart hleased hregistry hstalled hqueued =>
      exact .unregistered hfull hz hapart hparted
  | @concluded s ended i z henter hran hends =>
    obtain ⟨left, hleft, -, -, hnone⟩ := h.run henter (tidy_invokeWithin setup breaksOff levels)
      (keeps_invokeWithin setup breaksOff levels) hran
    -- the guest did not stall, so nothing it started has
    obtain rfl : left = [] := hnone.resolve_left hends
    exact .ran henter hran hleft.others (hleft.concluded (c := s.context) rfl ended)

end Leased

/-! ### Calls clean up -/

/-- A call has not ended, and has not begun. -/
def waits : Except (Completion × Host τ) (Begun τ) → Bool
  | .error (.suspended, _) => true
  | _ => false

/-- A call that waits leaves a host that is reached as well. -/
theorem Reached.queue (h : Reached setup busy x) {e : Entry}
    (hwaits : waits (x.enter setup e) = true) :
    ∃ y, x.enter setup e = .error (.suspended, y) ∧ Reached setup busy y := by
  -- only a call that has to wait for an instance is suspended on entry
  cases henter : x.enter setup e with
  | ok s =>
    rw [henter] at hwaits
    cases hwaits
  | error ended =>
    obtain ⟨completion, y⟩ := ended
    cases completion with
    | finished result =>
      rw [henter] at hwaits
      cases hwaits
    | suspended =>
      have hperform : x.perform setup false (0 + 1) e = (.suspended, y) := by
        rw [perform_succ, henter]
      have htaking := h.leased.enter e
      rw [henter] at htaking
      have hstalled : y.stalled = x.stalled ++ [] := by
        cases htaking with
        | waiting _ _ _ _ hstalled => exact hstalled.trans (List.append_nil _).symm
        | still => exact (List.append_nil _).symm
      exact ⟨y, rfl, h.tail (.suspend hperform hstalled)⟩

/-- A call of the contract that traps. -/
def trapping : Call :=
  let script : Script := { methods := [("run", { body := [.trap] })] }
  { contract := ⟨"trapping", "1"⟩, code := ⟨[1], some script⟩, method := "run" }

end Host

end ContractHost
