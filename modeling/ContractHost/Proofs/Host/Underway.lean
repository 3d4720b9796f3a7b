import ContractHost.Proofs.Guest.Course
import ContractHost.Proofs.Host.Calling
import ContractHost.Proofs.Request.Effects

/-!
# Invocations under way

While an instance serves an invocation, nobody but the instance itself makes requests for it.  Calls
that are nested in the invocation come and go, and each takes its own handle along when it ends.  So
of all the invocations under way only this one changes, and it goes on as requests make it go on.

## Main definitions

* `Host.Underway` — the invocations under way are those of before and one more.
* `Entry`, `Host.perform` — a call that is made now or has waited, and how it is carried out.
* `Begun`, `Host.enter`, `Begun.finish` — a call up to where its instance is run, and from there on.
* `Host.Carried`, `Host.Start`, `Host.Rejoining` — the ways in which a call is carried out, and in
  which it begins.
* `Host.Admits` — properties that the beginning of calls keeps.
* `Host.Beginning` — what has become of the invocations under way then.

## Main results

* `Host.carried_perform` — **a call begins, runs, and is finished.**
* `Host.beginning_enter` — **its invocation is registered beside the others.**
* `Host.conclude_of_underway` — **at its end it takes its invocation along.**
-/

namespace ContractHost

variable {τ : Type}

namespace Host

/-! ### One more invocation under way -/

/-- The invocations under way are those of `base` and one more, which stands as given. -/
structure Underway (base : OrderedMap Int32 Context) (c : Context) (x : Host τ) : Prop where
  /-- The pools are quiet. -/
  orderly : x.Orderly
  /-- The invocation is registered beside the others. -/
  contexts : x.registry.contexts = base.insert c.handle c

variable {base : OrderedMap Int32 Context} {c c' : Context} {x : Host τ}

theorem Underway.get? (h : Underway base c x) : x.registry.get? c.handle = some c := by
  unfold Registry.get?
  rw [h.contexts]
  exact OrderedMap.get?_insert_self _ _ _

theorem Underway.current (h : Underway base c x) (hhandle : c'.handle = c.handle) :
    x.current c' = c := by
  unfold Host.current
  rw [hhandle, h.get?]
  rfl

theorem Underway.update (h : Underway base c x) (hhandle : c'.handle = c.handle) (t : τ)
    (journal : List LogLine) :
    Underway base c'
      { x with ledger := t, journal := journal, registry := x.registry.update c' } where
  orderly := h.orderly.congr rfl rfl rfl
  contexts := by
    show x.registry.contexts.insert c'.handle c' = base.insert c'.handle c'
    rw [h.contexts, hhandle, OrderedMap.insert_insert]

theorem Underway.clear (h : Underway base c x) {d : Desk τ}
    (hhandle : d.context.handle = c.handle) :
    Underway base d.context (x.clear d) :=
  h.update hhandle d.ledger d.journal

theorem Underway.record (h : Underway base c x) (hhandle : c'.handle = c.handle)
    (e : SyscallError) : Underway base (c.recordError e.message) (x.record c' e) := by
  unfold Host.record
  rw [h.current hhandle]
  have hsame : (c.recordError e.message).handle = c.handle := rfl
  exact h.update hsame x.ledger x.journal

/-- An instance makes requests for its own invocation only. -/
theorem Underway.addressee (h : Underway base c x) {linkage : Linkage}
    (hbound : linkage.bound = some c.handle) {r : Regions} {m : Memory} {c' : Context}
    {name : String} {body : Bytes} (hasked : x.addressee? linkage r m = some (c', name, body)) :
    c' = c := by
  unfold addressee? at hasked
  split at hasked
  · cases hasked
  · simp only [Option.bind_eq_bind, Option.bind_eq_some_iff] at hasked
    obtain ⟨⟨header, bytes⟩, -, ⟨handle, name'⟩, -, hasked⟩ := hasked
    dsimp only at hasked
    split at hasked
    · rename_i hhandle
      obtain ⟨c'', hget, hsame⟩ := Option.bind_eq_some_iff.mp hasked
      have hsame' : c'' = c' := congrArg Prod.fst (Option.some.inj hsame)
      rw [hbound] at hhandle
      rw [← Option.some.inj hhandle, h.get?] at hget
      rw [← hsame', Option.some.inj hget]
    · cases hasked

/-- What an instance logs becomes part of its own invocation, and of no other. -/
theorem Underway.logged [LedgerAccess τ] (h : Underway base c x) {linkage : Linkage}
    (hbound : linkage.bound = some c.handle) (ptr len : Int32) (m : Memory) :
    ∃ c', Underway base c' (x.log linkage ptr len m) ∧
      (c' = c ∨ ∃ line, c' = c.pushLog line) := by
  unfold Host.log
  split
  · exact ⟨c, h, .inl rfl⟩
  · rename_i line _
    have hfound : linkage.bound.bind x.registry.get? = some c := by
      rw [hbound]
      exact h.get?
    simp only [hfound]
    exact ⟨_, h.clear (d := (x.desk c).log line) rfl, .inr ⟨_, rfl⟩⟩

theorem Underway.log [LedgerAccess τ] (h : Underway base c x) {linkage : Linkage}
    (hbound : linkage.bound = some c.handle) (ptr len : Int32) (m : Memory) :
    ∃ c', Underway base c' (x.log linkage ptr len m) ∧ c.Onward c' := by
  obtain ⟨c', hc', rfl | ⟨line, rfl⟩⟩ := h.logged hbound ptr len m
  · exact ⟨c', hc', .refl c'⟩
  · exact ⟨_, hc', .of_eq rfl rfl rfl⟩

end Host

variable [LedgerAccess τ]

/-! ### The beginning of a call -/

/-- A call whose instance is about to run. -/
structure Begun (τ : Type) where
  /-- The invocation, as it is registered. -/
  context : Context
  /-- The pool of the contract. -/
  pool : PoolId
  /-- The instance, bound to the invocation. -/
  inst : Instance
  /-- The host. -/
  host : Host τ

namespace Host

/-- Registers a call that has an instance.  There may be no handle for it; then it has ended. -/
def beginOn (setup : HostSetup) (call : Call) (id : PoolId) (i : Instance) (x : Host τ) :
    Except (Completion × Host τ) (Begun τ) :=
  match x.registry.register (contextOf call i) with
  | .error e => .error (.finished (.error e), x.giveBack setup id i)
  | .ok (c, registry) => .ok ⟨c, id, i.bind c.handle, { x with registry }⟩

/-- Begins a call: its pool is opened, it takes an instance, and it is registered.  A call that
cannot begin has ended, or it waits. -/
def begin (setup : HostSetup) (call : Call) (x : Host τ) :
    Except (Completion × Host τ) (Begun τ) :=
  if setup.config.execution.maxCallDepth < call.depth then
    .error (.finished (.error
      (.callDepthExceeded call.depth setup.config.execution.maxCallDepth)), x)
  else match x.openPool setup call.contract call.code with
    | (.error e, x) => .error (.finished (.error e), x)
    | (.ok id, x) =>
      match x.obtain setup call.depth id with
      | (.refused e, x) => .error (.finished (.error e), x)
      | (.waiting ticket, x) =>
        .error (.suspended, { x with queued := x.queued ++ [⟨id, ticket, call⟩] })
      | (.instance i, x) => x.beginOn setup call id i

/-- Begins a call that has waited, if its pool has answered it by now. -/
def rejoin (setup : HostSetup) (q : Queued) (x : Host τ) :
    Except (Completion × Host τ) (Begun τ) :=
  match (x.dequeue q).claim q.pool q.ticket with
  | (.waiting _, _) => .error (.suspended, x)
  | (.refused e, x) => .error (.finished (.error e), x)
  | (.instance i, x) => x.beginOn setup q.call q.pool i

end Host

/-- How a call comes to be carried out. -/
inductive Entry
  /-- It is made now. -/
  | new (call : Call)
  /-- It has waited. -/
  | waited (q : Queued)

/-- The call. -/
def Entry.call : Entry → Call
  | .new call => call
  | .waited q => q.call

namespace Host

/-- Begins a call, whether it is made now or has waited. -/
def enter (setup : HostSetup) : Entry → Host τ → Except (Completion × Host τ) (Begun τ)
  | .new call, x => x.begin setup call
  | .waited q, x => x.rejoin setup q

/-- Carries out a call, whether it is made now or has waited, and the calls nested in it, up to a
number of levels. -/
def perform (setup : HostSetup) (breaksOff : Bool) : Nat → Entry → Host τ → Completion × Host τ
  | levels, .new call, x => x.invokeWithin setup breaksOff levels call
  | 0, .waited q, x => (.finished (.error
      (.callDepthExceeded q.call.depth setup.config.execution.maxCallDepth)), x)
  | levels + 1, .waited q, x => x.goOn setup breaksOff levels q

end Host

/-- The gas that the callers of a call have left it. -/
def budgetOf (setup : HostSetup) (call : Call) : UInt64 :=
  UInt64.ofNat (setup.gasLimit - call.gasUsed.toNat)

/-- Ends a call whose instance has run. -/
def Begun.finish (setup : HostSetup) (s : Begun τ) :
    Except CallFault Unit × Instance × Host τ → Completion × Host τ
  | (.error .suspended, i, x) =>
    (.suspended, { x with stalled := x.stalled ++ [⟨s.pool, s.context.handle, i⟩] })
  | (result, i, x) =>
    (.finished (.ok (x.conclude setup s.pool s.context result i).1),
      (x.conclude setup s.pool s.context result i).2)

theorem Begun.finish_of_ended (s : Begun τ) (setup : HostSetup) {result : Except CallFault Unit}
    {i : Instance} {x : Host τ} (hends : result ≠ .error .suspended) :
    s.finish setup (result, i, x) =
      (.finished (.ok (x.conclude setup s.pool s.context result i).1),
        (x.conclude setup s.pool s.context result i).2) := by
  unfold Begun.finish
  split
  · rename_i heq
    exact absurd (congrArg Prod.fst heq) hends
  · rename_i heq
    cases heq
    rfl

namespace Host

variable {setup : HostSetup} {breaksOff : Bool} {call : Call} {x y : Host τ} {s : Begun τ}

theorem runOn_eq (setup : HostSetup) (calls : HostCalls (Host τ)) (breaksOff : Bool) (call : Call)
    (id : PoolId) (i : Instance) (x : Host τ) :
    x.runOn setup calls breaksOff call id i =
      match x.beginOn setup call id i with
      | .error ended => ended
      | .ok s => s.finish setup
        (callGuest setup.guest calls breaksOff s.context (budgetOf setup call) s.inst s.host) := by
  unfold runOn beginOn
  cases x.registry.register (contextOf call i) with
  | error e => rfl
  | ok registered =>
    obtain ⟨c, registry⟩ := registered
    unfold budgetOf
    dsimp only
    generalize callGuest setup.guest calls breaksOff c
      (UInt64.ofNat (setup.gasLimit - call.gasUsed.toNat)) (i.bind c.handle)
      { x with registry } = ran
    obtain ⟨result, j, w⟩ := ran
    cases result with
    | ok u => rfl
    | error e => cases e <;> rfl

/-- **A call begins, its instance is run, and it is finished**, whether it has waited or not. -/
theorem perform_succ (setup : HostSetup) (breaksOff : Bool) (levels : Nat) (e : Entry)
    (x : Host τ) :
    x.perform setup breaksOff (levels + 1) e =
      match x.enter setup e with
      | .error ended => ended
      | .ok s => s.finish setup
        (callGuest setup.guest (hostCalls setup (invokeWithin setup breaksOff levels)) breaksOff
          s.context (budgetOf setup e.call) s.inst s.host) := by
  -- a new call opens its pool first, a call that waited has its place in line
  cases e with
  | new call =>
    unfold perform enter invokeWithin begin
    dsimp only
    split
    · rfl
    · cases x.openPool setup call.contract call.code with
      | mk opened y =>
        cases opened with
        | error e => rfl
        | ok id =>
          dsimp only
          cases y.obtain setup call.depth id with
          | mk taken z =>
            cases taken with
            | refused e => rfl
            | waiting ticket => rfl
            | «instance» i => exact runOn_eq setup _ breaksOff call id i z
  | waited q =>
    unfold perform enter goOn rejoin
    dsimp only
    cases (x.dequeue q).claim q.pool q.ticket with
    | mk answer y =>
      cases answer with
      | refused e => rfl
      | waiting ticket => rfl
      | «instance» i => exact runOn_eq setup _ breaksOff q.call q.pool i y

/-- A call that ends has waited for nothing. -/
theorem perform_of_invoke {result : Except ExecutionError Outcome}
    (h : x.invoke setup call = (.finished result, y)) :
    x.perform setup false (setup.gasLimit + 1) (.new call) = (.finished result, y) := by
  show x.invokeWithin setup false (setup.gasLimit + 1) call = (.finished result, y)
  unfold invoke at h
  generalize x.invokeWithin setup false (setup.gasLimit + 1) call = ended at h ⊢
  obtain ⟨completion, z⟩ := ended
  cases completion with
  | finished result => exact h
  | suspended => cases h

/-- How a call is carried out when the calls nested in it may have up to a number of levels. -/
inductive Carried (setup : HostSetup) (breaksOff : Bool) (levels : Nat) (e : Entry)
    (x : Host τ) : Completion × Host τ → Prop
  /-- It ends, or waits, before its instance has run. -/
  | early {ended : Completion × Host τ} (henter : x.enter setup e = .error ended) :
      Carried setup breaksOff levels e x ended
  /-- It is broken off, which is noted. -/
  | brokenOff {s : Begun τ} {i : Instance} {z : Host τ} (henter : x.enter setup e = .ok s)
      (hran : callGuest setup.guest (hostCalls setup (invokeWithin setup breaksOff levels))
        breaksOff s.context (budgetOf setup e.call) s.inst s.host = (.error .suspended, i, z)) :
      Carried setup breaksOff levels e x
        (.suspended, { z with stalled := z.stalled ++ [⟨s.pool, s.context.handle, i⟩] })
  /-- It is concluded when its instance has run. -/
  | concluded {s : Begun τ} {ended : Except CallFault Unit} {i : Instance} {z : Host τ}
      (henter : x.enter setup e = .ok s)
      (hran : callGuest setup.guest (hostCalls setup (invokeWithin setup breaksOff levels))
        breaksOff s.context (budgetOf setup e.call) s.inst s.host = (ended, i, z))
      (hends : ended ≠ .error .suspended) :
      Carried setup breaksOff levels e x
        (.finished (.ok (z.conclude setup s.pool s.context ended i).1),
          (z.conclude setup s.pool s.context ended i).2)

/-- **A call is carried out in one of these ways.** -/
theorem carried_perform (setup : HostSetup) (breaksOff : Bool) (levels : Nat) (e : Entry)
    (x : Host τ) :
    Carried setup breaksOff levels e x (x.perform setup breaksOff (levels + 1) e) := by
  rw [perform_succ]
  cases henter : x.enter setup e with
  | error ended => exact .early henter
  | ok s =>
    dsimp only
    cases hran : callGuest setup.guest (hostCalls setup (invokeWithin setup breaksOff levels))
      breaksOff s.context (budgetOf setup e.call) s.inst s.host with
    | mk ended rest =>
      obtain ⟨i, z⟩ := rest
      by_cases hends : ended = .error .suspended
      · subst hends
        exact .brokenOff henter hran
      · rw [s.finish_of_ended setup hends]
        exact .concluded henter hran hends

theorem orderly_openPool (setup : HostSetup) (hx : x.Orderly) (c : ContractId) (code : Code) :
    (x.openPool setup c code).2.Orderly := by
  have hfiles : (x.openPool setup c code).2.Files fun _ _ _ => True :=
    Files.openPool ⟨hx, fun _ => trivial⟩ fun _ _ => trivial
  exact hfiles.orderly

/-- **Taking an instance for a call**, wherever it comes from. -/
theorem tended_obtain (setup : HostSetup) (hx : x.Orderly) (depth : UInt32) (id : PoolId) :
    Tended x (x.obtain setup depth id).2 := by
  unfold obtain
  split
  · exact tended_takeDetached hx
  · exact tended_takeReady hx

/-- How far a call comes before its instance runs. -/
inductive Start (setup : HostSetup) (call : Call) (x : Host τ) :
    Except (Completion × Host τ) (Begun τ) → Prop
  /-- It is nested too deeply. -/
  | tooDeep {e : ExecutionError} : Start setup call x (.error (.finished (.error e), x))
  /-- Its pool cannot be opened. -/
  | unopened {e : ExecutionError} {y : Host τ}
      (hopen : x.openPool setup call.contract call.code = (.error e, y)) :
      Start setup call x (.error (.finished (.error e), y))
  /-- It is refused an instance. -/
  | refused {id : PoolId} {e : ExecutionError} {y z : Host τ}
      (hopen : x.openPool setup call.contract call.code = (.ok id, y))
      (hobtain : y.obtain setup call.depth id = (.refused e, z)) :
      Start setup call x (.error (.finished (.error e), z))
  /-- It waits for an instance. -/
  | waiting {id : PoolId} {ticket : Ticket} {y z : Host τ}
      (hopen : x.openPool setup call.contract call.code = (.ok id, y))
      (hobtain : y.obtain setup call.depth id = (.waiting ticket, z)) :
      Start setup call x
        (.error (.suspended, { z with queued := z.queued ++ [⟨id, ticket, call⟩] }))
  /-- There is no handle for it, and its instance goes back. -/
  | unregistered {id : PoolId} {i : Instance} {e : ExecutionError} {y z : Host τ}
      (hopen : x.openPool setup call.contract call.code = (.ok id, y))
      (hobtain : y.obtain setup call.depth id = (.instance i, z))
      (hregister : z.registry.register (contextOf call i) = .error e) :
      Start setup call x (.error (.finished (.error e), z.giveBack setup id i))
  /-- It is registered, and its instance is bound to it. -/
  | begun {id : PoolId} {i : Instance} {c : Context} {registry : Registry} {y z : Host τ}
      (hopen : x.openPool setup call.contract call.code = (.ok id, y))
      (hobtain : y.obtain setup call.depth id = (.instance i, z))
      (hregister : z.registry.register (contextOf call i) = .ok (c, registry)) :
      Start setup call x (.ok ⟨c, id, i.bind c.handle, { z with registry }⟩)

/-- **A call starts in one of these ways.** -/
theorem start_begin (setup : HostSetup) (call : Call) (x : Host τ) :
    Start setup call x (x.begin setup call) := by
  unfold begin
  -- one case for each place where entering may stop
  split
  · exact .tooDeep
  · cases hopen : x.openPool setup call.contract call.code with
    | mk opened y =>
      cases opened with
      | error e => exact .unopened hopen
      | ok id =>
        dsimp only
        cases hobtain : y.obtain setup call.depth id with
        | mk taken z =>
          cases taken with
          | refused e => exact .refused hopen hobtain
          | waiting ticket => exact .waiting hopen hobtain
          | «instance» i =>
            dsimp only [beginOn]
            cases hregister : z.registry.register (contextOf call i) with
            | error e => exact .unregistered hopen hobtain hregister
            | ok registered => exact .begun hopen hobtain hregister

/-- How far a call that has waited comes before its instance runs. -/
inductive Rejoining (setup : HostSetup) (q : Queued) (x : Host τ) :
    Except (Completion × Host τ) (Begun τ) → Prop
  /-- It has no answer yet, and still waits. -/
  | waiting {ticket : Ticket} {y : Host τ}
      (hclaim : (x.dequeue q).claim q.pool q.ticket = (.waiting ticket, y)) :
      Rejoining setup q x (.error (.suspended, x))
  /-- It is refused an instance. -/
  | refused {e : ExecutionError} {y : Host τ}
      (hclaim : (x.dequeue q).claim q.pool q.ticket = (.refused e, y)) :
      Rejoining setup q x (.error (.finished (.error e), y))
  /-- There is no handle for it, and its instance goes back. -/
  | unregistered {i : Instance} {e : ExecutionError} {y : Host τ}
      (hclaim : (x.dequeue q).claim q.pool q.ticket = (.instance i, y))
      (hregister : y.registry.register (contextOf q.call i) = .error e) :
      Rejoining setup q x (.error (.finished (.error e), y.giveBack setup q.pool i))
  /-- It is registered, and its instance is bound to it. -/
  | begun {i : Instance} {c : Context} {registry : Registry} {y : Host τ}
      (hclaim : (x.dequeue q).claim q.pool q.ticket = (.instance i, y))
      (hregister : y.registry.register (contextOf q.call i) = .ok (c, registry)) :
      Rejoining setup q x (.ok ⟨c, q.pool, i.bind c.handle, { y with registry }⟩)

/-- **A call that has waited begins in one of these ways.** -/
theorem rejoining_rejoin (setup : HostSetup) (q : Queued) (x : Host τ) :
    Rejoining setup q x (x.rejoin setup q) := by
  unfold rejoin
  cases hclaim : (x.dequeue q).claim q.pool q.ticket with
  | mk answer y =>
    cases answer with
    | refused e => exact .refused hclaim
    | waiting ticket => exact .waiting hclaim
    | «instance» i =>
      dsimp only [beginOn]
      cases hregister : y.registry.register (contextOf q.call i) with
      | error e => exact .unregistered hclaim hregister
      | ok registered => exact .begun hclaim hregister

theorem beginOn_of_enter {e : Entry} (h : x.enter setup e = .ok s) :
    ∃ id i, ∃ y : Host τ, y.beginOn setup e.call id i = .ok s := by
  cases e with
  | new call =>
    have hstart := start_begin setup call x
    have hbegin : x.begin setup call = .ok s := h
    rw [hbegin] at hstart
    cases hstart with
    | @begun id i _ _ _ z hopen hobtain hregister =>
      refine ⟨id, i, z, ?_⟩
      show z.beginOn setup call id i = _
      unfold beginOn
      rw [hregister]
  | waited q =>
    have hrejoining := rejoining_rejoin setup q x
    have hrejoin : x.rejoin setup q = .ok s := h
    rw [hrejoin] at hrejoining
    cases hrejoining with
    | @begun i _ _ y hclaim hregister =>
      refine ⟨q.pool, i, y, ?_⟩
      show y.beginOn setup q.call q.pool i = _
      unfold beginOn
      rw [hregister]

theorem context_of_enter {e : Entry} (h : x.enter setup e = .ok s) :
    s.context.contract = e.call.contract ∧ s.context.depth = e.call.depth ∧
      s.context.method = e.call.method ∧ s.context.params = e.call.params := by
  obtain ⟨id, i, y, hbegin⟩ := beginOn_of_enter h
  unfold beginOn at hbegin
  cases hregister : y.registry.register (contextOf e.call i) with
  | error e =>
    rw [hregister] at hbegin
    cases hbegin
  | ok registered =>
    obtain ⟨c, registry⟩ := registered
    rw [hregister] at hbegin
    obtain ⟨n, -, rfl, -⟩ := Registry.register_eq_ok hregister
    cases hbegin
    exact ⟨rfl, rfl, rfl, rfl⟩

/-- A property `P` of hosts that the beginning of calls keeps, and a property `Q` of the instances
that pools hand out, with the host as it is then. -/
structure Admits (setup : HostSetup) (P : Host τ → Prop) (Q : PoolId → Instance → Host τ → Prop) :
    Prop where
  /-- The opening of a pool keeps it. -/
  openPool : ∀ {x}, P x → ∀ c code, P (x.openPool setup c code).2
  /-- Taking an instance does. -/
  obtain : ∀ {x}, P x → ∀ depth id, P (x.obtain setup depth id).2 ∧
    ∀ i, (x.obtain setup depth id).1 = .instance i → Q id i (x.obtain setup depth id).2
  /-- Taking an answer does. -/
  claim : ∀ {x}, P x → ∀ id ticket, P (x.claim id ticket).2 ∧
    ∀ i, (x.claim id ticket).1 = .instance i → Q id i (x.claim id ticket).2
  /-- Going into a line and out of it does. -/
  queued : ∀ {x}, P x → ∀ queued, P { x with queued }
  /-- Giving such an instance back does. -/
  giveBack : ∀ {x id i}, P x → Q id i x → P (x.giveBack setup id i)

/-- What they come to: the property is kept of the host, and a call that goes on was given such an
instance. -/
def Admitted (P : Host τ → Prop) (Q : PoolId → Instance → Host τ → Prop) :
    Except (Completion × Host τ) (Begun τ) → Prop
  | .error ended => P ended.2
  | .ok s => ∃ i y registry, P y ∧ Q s.pool i y ∧ s.inst = i.bind s.context.handle ∧
      s.host = { y with registry }

/-- What all work on pools keeps, the beginning of calls keeps. -/
theorem Admits.of_tended {P : Host τ → Prop} (horderly : ∀ {x}, P x → x.Orderly)
    (htended : ∀ {x y}, P x → Tended x y → P y)
    (hqueued : ∀ {x}, P x → ∀ queued, P { x with queued })
    (hopen : ∀ {x}, P x → ∀ c code, P (x.openPool setup c code).2) :
    Admits setup P fun _ _ _ => True where
  openPool := hopen
  obtain hx depth id :=
    ⟨htended hx (tended_obtain setup (horderly hx) depth id), fun _ _ => trivial⟩
  claim hx _ ticket := ⟨htended hx (tended_claim (horderly hx) ticket), fun _ _ => trivial⟩
  queued := hqueued
  giveBack hx _ := htended hx (tended_giveBack (horderly hx) _)

section

variable {P : Host τ → Prop} {Q : PoolId → Instance → Host τ → Prop} (h : Admits setup P Q)

include h

theorem Admits.beginOn {call : Call} {id : PoolId} {i : Instance} (hx : P x) (hi : Q id i x) :
    Admitted P Q (x.beginOn setup call id i) := by
  unfold Host.beginOn
  cases x.registry.register (contextOf call i) with
  | error e => exact h.giveBack hx hi
  | ok registered => exact ⟨i, x, registered.2, hx, hi, rfl, rfl⟩

/-- **What the beginning of a call keeps, and what the call is given**, whether it is made now or
has waited. -/
theorem Admits.enter (e : Entry) (hx : P x) : Admitted P Q (x.enter setup e) := by
  -- the property is carried from one stage of the entry to the next
  cases e with
  | new call =>
    unfold Host.enter begin
    dsimp only
    split
    · exact hx
    · have hy := h.openPool hx call.contract call.code
      generalize x.openPool setup call.contract call.code = opened at hy ⊢
      obtain ⟨result, y⟩ := opened
      cases result with
      | error e => exact hy
      | ok id =>
        have hz := h.obtain hy call.depth id
        dsimp only
        generalize y.obtain setup call.depth id = obtained at hz ⊢
        obtain ⟨taken, z⟩ := obtained
        cases taken with
        | refused e => exact hz.1
        | waiting ticket => exact h.queued hz.1 _
        | «instance» i => exact h.beginOn hz.1 (hz.2 i rfl)
  | waited q =>
    have hleft : P (x.dequeue q) := h.queued hx _
    have hy := h.claim hleft q.pool q.ticket
    unfold Host.enter rejoin
    dsimp only
    generalize (x.dequeue q).claim q.pool q.ticket = claimed at hy ⊢
    obtain ⟨answer, y⟩ := claimed
    cases answer with
    | refused e => exact hy.1
    | waiting ticket => exact hx
    | «instance» i => exact h.beginOn hy.1 (hy.2 i rfl)

end

/-- What a call comes to before its instance runs: it has ended without an outcome, and nothing has
changed of the invocations under way; or its invocation is registered under a handle that was free,
and bound to its instance, and nothing has come of it yet. -/
inductive Beginning (x : Host τ) : Except (Completion × Host τ) (Begun τ) → Prop
  /-- It has ended. -/
  | ended {completion : Completion} {y : Host τ} (hcompletion : ∀ o, completion ≠ .finished (.ok o))
      (horderly : y.Orderly) (hcontexts : y.registry.contexts = x.registry.contexts) :
      Beginning x (.error (completion, y))
  /-- It goes on. -/
  | begun {s : Begun τ} (hunderway : Underway x.registry.contexts s.context s.host)
      (hfree : x.registry.contexts.get? s.context.handle = none)
      (hbound : s.inst.bound = some s.context.handle) (houtcome : s.context.outcome = {})
      (hcached : s.context.cached = none) : Beginning x (.ok s)

theorem free_of_register {r r' : Registry} {c c' : Context} (h : r.register c = .ok (c', r')) :
    r.get? c'.handle = none ∧ r'.contexts = r.contexts.insert c'.handle c' ∧
      c'.outcome = c.outcome ∧ c'.cached = c.cached := by
  obtain ⟨n, hfree, rfl, rfl⟩ := Registry.register_eq_ok h
  have hnone : r.get? (Int32.ofNat n) = none := Option.isNone_iff_eq_none.mp
    (Option.isSome_eq_false_iff.mp (Registry.contains_freeAfter hfree))
  exact ⟨hnone, rfl, rfl, rfl⟩

/-- A call that has an instance begins in one of these ways. -/
theorem beginning_beginOn (setup : HostSetup) (call : Call) (hx : x.Orderly) (id : PoolId)
    (i : Instance) : Beginning x (x.beginOn setup call id i) := by
  unfold beginOn
  cases hregister : x.registry.register (contextOf call i) with
  | error e =>
    have hback : Tended x (x.giveBack setup id i) := tended_giveBack hx i
    exact .ended nofun (hx.tended hback) (congrArg Registry.contexts hback.registry)
  | ok registered =>
    obtain ⟨hfree, hcontexts, houtcome, hcached⟩ := free_of_register hregister
    exact .begun ⟨hx.congr rfl rfl rfl, hcontexts⟩ hfree rfl houtcome hcached

omit [LedgerAccess τ] in
/-- What has not changed the invocations under way may come before. -/
theorem Beginning.congr {r : Except (Completion × Host τ) (Begun τ)} (h : Beginning y r)
    (hcontexts : y.registry.contexts = x.registry.contexts) : Beginning x r := by
  cases h with
  | ended hcompletion horderly hsame => exact .ended hcompletion horderly (hsame.trans hcontexts)
  | begun hunderway hfree hbound houtcome hcached =>
    exact .begun (hcontexts ▸ hunderway) (hcontexts ▸ hfree) hbound houtcome hcached

/-- A call that is made now begins in one of these ways. -/
theorem beginning_begin (setup : HostSetup) (call : Call) (hx : x.Orderly) :
    Beginning x (x.begin setup call) := by
  have hy := orderly_openPool setup hx call.contract call.code
  have hopened : (x.openPool setup call.contract call.code).2.registry = x.registry :=
    (openPool_frame hx call.contract call.code).2.1
  unfold begin
  split
  · exact .ended nofun hx rfl
  · generalize x.openPool setup call.contract call.code = opened at hy hopened ⊢
    obtain ⟨result, y⟩ := opened
    cases result with
    | error e => exact .ended nofun hy (congrArg Registry.contexts hopened)
    | ok id =>
      have htended : Tended y (y.obtain setup call.depth id).2 :=
        tended_obtain setup hy call.depth id
      dsimp only
      generalize y.obtain setup call.depth id = obtained at htended ⊢
      obtain ⟨taken, z⟩ := obtained
      have hz : z.Orderly := hy.tended htended
      have hcontexts : z.registry.contexts = x.registry.contexts :=
        congrArg Registry.contexts (htended.registry.trans hopened)
      cases taken with
      | refused e => exact .ended nofun hz hcontexts
      | waiting ticket => exact .ended nofun (hz.congr rfl rfl rfl) hcontexts
      | «instance» i => exact (beginning_beginOn setup call hz id i).congr hcontexts

/-- **A call begins in one of these ways**, whether it is made now or has waited. -/
theorem beginning_enter (setup : HostSetup) (e : Entry) (hx : x.Orderly) :
    Beginning x (x.enter setup e) := by
  cases e with
  | new call => exact beginning_begin setup call hx
  | waited q =>
    unfold enter rejoin
    dsimp only
    cases hclaim : (x.dequeue q).claim q.pool q.ticket with
    | mk answer y =>
      obtain ⟨htended, hy⟩ := tended_dequeued hx hclaim
      have hcontexts : y.registry.contexts = x.registry.contexts :=
        congrArg Registry.contexts htended.registry
      cases answer with
      | refused e => exact .ended nofun hy hcontexts
      | waiting ticket => exact .ended nofun hx rfl
      | «instance» i => exact (beginning_beginOn setup q.call hy q.pool i).congr hcontexts

/-- What a call comes to: the outcome of its invocation, unless something went wrong. -/
theorem outcome_conclude (setup : HostSetup) (id : PoolId) (c : Context)
    (result : Except CallFault Unit) (i : Instance) (x : Host τ) : ∃ o : Outcome,
    o.code = (x.current c).outcome.code ∧ o.message = (x.current c).outcome.message ∧
      o.gasUsed = UInt64.ofNat (setup.gasLimit - i.gas.toNat) ∧
      (x.conclude setup id c result i).1 =
        match reasonOf setup.config.execution.gasLimit i.gas result with
        | none => o
        | some reason => failedOutcome (LedgerAccess.txId x.ledger) reason o := by
  let o : Outcome := { (x.current c).outcome with
    gasUsed := UInt64.ofNat (setup.gasLimit - i.gas.toNat)
    txClass := if isCrash result then .normal else (x.current c).outcome.txClass }
  refine ⟨o, rfl, rfl, rfl, ?_⟩
  unfold conclude
  dsimp only
  have ho : (if isCrash result then
      { (x.current c).outcome with
        gasUsed := UInt64.ofNat (setup.config.execution.gasLimit.toNat - i.gas.toNat)
        txClass := .normal }
      else { (x.current c).outcome with
        gasUsed := UInt64.ofNat (setup.config.execution.gasLimit.toNat - i.gas.toNat) }) = o := by
    cases hcrash : isCrash result <;> simp only [o, hcrash] <;> rfl
  generalize reasonOf setup.config.execution.gasLimit i.gas result = reason
  -- a fault replaces the message and drops the events; the gas stays as it was counted
  cases reason with
  | none => exact ho
  | some reason =>
    dsimp only
    split <;> exact congrArg (failedOutcome _ _) ho

variable {base : OrderedMap Int32 Context} {c c' : Context}

/-- **A call that is concluded takes its invocation along**, and the others are as they were. -/
theorem conclude_of_underway (setup : HostSetup) (h : Underway base c x)
    (hbase : base.get? c.handle = none)
    (hhandle : c'.handle = c.handle) (id : PoolId) (result : Except CallFault Unit) (i : Instance) :
    (x.conclude setup id c' result i).2.Orderly ∧
      (x.conclude setup id c' result i).2.registry.contexts = base := by
  have hremoved : Orderly { x with registry := x.registry.remove c'.handle } :=
    h.orderly.congr rfl rfl rfl
  have hcontexts : (x.registry.remove c'.handle).contexts = base := by
    show x.registry.contexts.erase c'.handle = base
    rw [h.contexts, hhandle, OrderedMap.erase_insert hbase]
  have hgiven (i : Instance) :
      ({ x with registry := x.registry.remove c'.handle }.giveBack setup id i).Orderly ∧
      ({ x with registry := x.registry.remove c'.handle }.giveBack setup id i).registry.contexts =
        base := by
    have hback : Tended _
        ({ x with registry := x.registry.remove c'.handle }.giveBack setup id i) :=
      tended_giveBack hremoved i
    refine ⟨hremoved.tended hback, ?_⟩
    rw [hback.registry]
    exact hcontexts
  unfold conclude
  dsimp only
  split
  · exact hgiven _
  · split
    · -- a contract that could not be set up loses its pool
      obtain ⟨horderly, hgone⟩ := hgiven i
      have hclosed := refiled_closeKey setup horderly c'.contract.key
      exact ⟨hclosed.orderly, (congrArg Registry.contexts hclosed.registry).trans hgone⟩
    · exact hgiven _

end Host

end ContractHost
