import ContractHost.Proofs.Host.Leases

/-!
# Calls take leases

A call that is made asks a pool for an instance.  It is given one, or refused one, or it goes to the
end of the pool's line, and takes what the pool has for it later.  Once it has an instance it takes
a lease, unless all handles are in use.  A call that no longer waits gives up what it may have been
given by then.

## Main definitions

* `Host.Taken` — an instance was taken for a call that is not registered yet.
* `Host.Asked` — what the leases come to with the answer of a pool.
* `Host.Taking` — what becomes of the leases when a call begins.
* `Host.Leaving` — what becomes of a call that no longer waits.

## Main results

* `Host.Leased.obtain`, `Host.Leased.claim` — a call asks, and takes an answer later.
* `Host.Leased.enter` — **a call takes a lease, or none**, whether it is made now or has waited.
* `Host.Leased.leave`, `Host.Leased.leaving` — **a call that no longer waits takes no lease along.**
-/

namespace ContractHost

/-- The lease of a call whose instance is about to run. -/
def Begun.lease {τ : Type} (s : Begun τ) : Lease :=
  ⟨s.pool, s.context.handle, s.inst⟩

namespace Host

variable {τ : Type} [LedgerAccess τ] {setup : HostSetup} {gone : Set Nat} {x y : Host τ}
variable {busy : List Lease}

/-! ### Instances without a handle -/

/-- Beside the leases `busy` an instance of a pool was taken, for a call that is not registered yet.
-/
structure Taken (setup : HostSetup) (gone : Set Nat) (busy : List Lease) (id : PoolId)
    (i : Instance)
    (x : Host τ) : Prop extends Registered busy x where
  /-- The pools have lent the instances of the leases, and this one. -/
  lends : ∃ out, Lends setup gone (ticketsOf x.queued) (Function.update out id (out id ++ [i])) x ∧
    LentTo out busy

namespace Taken

variable {id : PoolId} {i : Instance} {call : Call}

theorem orderly (h : Taken setup gone busy id i x) : x.Orderly := by
  obtain ⟨out, hlends, -⟩ := h.lends
  exact hlends.orderly

/-- It is none of those in use. -/
theorem apart (h : Taken setup gone busy id i x) : ∀ l ∈ busy, l.inst.id ≠ i.id := by
  obtain ⟨out, hlends, hout⟩ := h.lends
  have hself : Function.update out id (out id ++ [i]) id = out id ++ i :: [] :=
    Function.update_self _ _ _
  obtain ⟨p, hp⟩ := hlends.exists_pool (hself ▸ List.mem_append_right _ List.mem_cons_self)
  obtain ⟨-, hothers⟩ := hlends.alone hp hself
  rw [Function.update_idem, List.append_nil, Function.update_eq_self] at hothers
  intro l hl heq
  obtain ⟨j, hj, hafter⟩ := hout.exists_mem hl
  exact hothers j hj (hafter.id.symm.trans heq)

theorem giveBack (h : Taken setup gone busy id i x) :
    Parted setup false id i x (x.giveBack setup id i) ∧
      Leased setup gone busy (x.giveBack setup id i) := by
  obtain ⟨out, hlends, hout⟩ := h.lends
  have hself : Function.update out id (out id ++ [i]) id = out id ++ i :: [] :=
    Function.update_self _ _ _
  have htended : Tended x (x.giveBack setup id i) := tended_giveBack h.orderly i
  have hback := hlends.giveBack hself ⟨rfl, rfl, rfl⟩
  rw [Function.update_idem, List.append_nil, Function.update_eq_self, ← htended.queued] at hback
  exact ⟨hlends.parted_giveBack hself ⟨rfl, rfl, rfl⟩,
    { h.toRegistered.congr htended.registry htended.queued with lends := ⟨out, hback, hout⟩ }⟩

theorem giveUp (h : Taken setup gone busy id i x) :
    Parted setup true id i x (x.giveUp setup id i) ∧
      Leased setup gone busy (x.giveUp setup id i) := by
  obtain ⟨out, hlends, hout⟩ := h.lends
  have hself : Function.update out id (out id ++ [i]) id = out id ++ i :: [] :=
    Function.update_self _ _ _
  have htended : Tended x (x.giveUp setup id i) := tended_giveUp h.orderly id i
  have hback := hlends.giveUp hself ⟨rfl, rfl, rfl⟩
  rw [Function.update_idem, List.append_nil, Function.update_eq_self, ← htended.queued] at hback
  exact ⟨hlends.parted_giveUp hself ⟨rfl, rfl, rfl⟩,
    { h.toRegistered.congr htended.registry htended.queued with lends := ⟨out, hback, hout⟩ }⟩

theorem register (h : Taken setup gone busy id i x) {c : Context} {registry : Registry}
    (hfree : x.registry.get? c.handle = none)
    (hregistry : registry.contexts = x.registry.contexts.insert c.handle c) :
    Leased setup gone (⟨id, c.handle, i.bind c.handle⟩ :: busy) { x with registry } := by
  obtain ⟨out, hlends, hout⟩ := h.lends
  have hafter : i.After (i.bind c.handle) := ⟨rfl, rfl, rfl⟩
  have hregistered : Registered (⟨id, c.handle, i.bind c.handle⟩ :: busy) { x with registry } :=
    h.toRegistered.insert rfl rfl hfree hregistry rfl
  exact { hregistered with
    lends := ⟨_, hlends.move rfl (hlends.orderly.congr rfl rfl rfl) le_rfl,
      hout.cons (l := ⟨id, c.handle, i.bind c.handle⟩) hafter⟩ }

end Taken

/-! ### Calls begin -/

/-- The calls that wait beside a call when it is carried out. -/
def queuedBeside (x : Host τ) : Entry → List Queued
  | .new _ => x.queued
  | .waited q => (x.dequeue q).queued

/-- What the leases come to with the answer to a call that has asked a pool. -/
def Asked (setup : HostSetup) (gone : Set Nat) (busy : List Lease) (id : PoolId) (call : Call) :
    Obtained → Host τ → Prop
  | .instance i, x => Taken setup gone busy id i x
  | .refused _, x => Leased setup gone busy x
  | .waiting ticket, x => call.depth = 0 ∧
    Leased setup gone busy { x with queued := x.queued ++ [⟨id, ticket, call⟩] }

/-- What becomes of the leases when a call begins. -/
inductive Taking (setup : HostSetup) (gone : Set Nat) (busy : List Lease) (x : Host τ) (e : Entry) :
    Except (Completion × Host τ) (Begun τ) → Prop
  /-- It gets no instance, and has ended. -/
  | refused {error : ExecutionError} {y : Host τ} (hleased : Leased setup gone busy y)
      (hregistry : y.registry = x.registry) (hstalled : y.stalled = x.stalled)
      (hqueued : y.queued = x.queuedBeside e) :
      Taking setup gone busy x e (.error (.finished (.error error), y))
  /-- It gets none yet, and goes to the end of a line. -/
  | waiting {q : Queued} {y : Host τ} (hentry : e = .new q.call) (hdepth : q.call.depth = 0)
      (hleased : Leased setup gone busy y)
      (hregistry : y.registry = x.registry) (hstalled : y.stalled = x.stalled)
      (hqueued : y.queued = x.queued ++ [q]) : Taking setup gone busy x e (.error (.suspended, y))
  /-- It has waited, and waits on. -/
  | still {q : Queued} (hentry : e = .waited q) :
      Taking setup gone busy x e (.error (.suspended, x))
  /-- Its instance goes back, because all handles are in use. -/
  | unregistered {error : ExecutionError} {id : PoolId} {i : Instance} {y z : Host τ}
      (hfull : x.registry.Full) (hz : z.registry = x.registry)
      (hparted : Parted setup false id i z y) (hapart : ∀ l ∈ busy, l.inst.id ≠ i.id)
      (hleased : Leased setup gone busy y)
      (hregistry : y.registry = x.registry) (hstalled : y.stalled = x.stalled)
      (hqueued : y.queued = x.queuedBeside e) :
      Taking setup gone busy x e (.error (.finished (.error error), y))
  /-- It has a lease. -/
  | taken {s : Begun τ} (hleased : Leased setup gone (s.lease :: busy) s.host)
      (hstalled : s.host.stalled = x.stalled) (hqueued : s.host.queued = x.queuedBeside e) :
      Taking setup gone busy x e (.ok s)

/-- A call that has an instance takes a lease, unless all handles are in use. -/
theorem Taken.beginOn {e : Entry} {z : Host τ} {id : PoolId} {i : Instance}
    (h : Taken setup gone busy id i z) (hregistry : z.registry = x.registry)
    (hstalled : z.stalled = x.stalled) (hqueued : z.queued = x.queuedBeside e) :
    Taking setup gone busy x e (z.beginOn setup e.call id i) := by
  unfold Host.beginOn
  cases hregister : z.registry.register (contextOf e.call i) with
  | error error =>
    obtain ⟨hparted, hleased⟩ := h.giveBack
    have htended : Tended z (z.giveBack setup id i) := tended_giveBack h.orderly i
    have hfull := (Registry.register_eq_error_iff.mp hregister).1
    rw [hregistry] at hfull
    exact .unregistered hfull hregistry hparted h.apart hleased (htended.registry.trans hregistry)
      (htended.stalled.trans hstalled) (htended.queued.trans hqueued)
  | ok registered =>
    obtain ⟨c, registry⟩ := registered
    obtain ⟨hfree, hcontexts, -⟩ := free_of_register hregister
    exact .taken (h.register hfree hcontexts) hstalled hqueued

namespace Leased

theorem closeKey (h : Leased setup gone busy x) (key : String) :
    Leased setup gone busy (x.closeKey setup key) :=
  h.pass (fun hlends => hlends.closeKey key) (refiled_closeKey setup h.orderly key).registry
    (refiled_closeKey setup h.orderly key).queued

theorem resetKey (h : Leased setup gone busy x) (key : String) :
    Leased setup gone busy (x.resetKey setup key) :=
  h.pass (fun hlends => hlends.resetKey key) (tended_resetKey h.orderly key).registry
    (tended_resetKey h.orderly key).queued

theorem openPool (h : Leased setup gone busy x) (c : ContractId) (code : Code) :
    Leased setup gone busy (x.openPool setup c code).2 := by
  obtain ⟨-, hregistry, -, hqueued, -⟩ :
      (x.openPool setup c code).2.ledger = x.ledger ∧ _ := openPool_frame h.orderly c code
  exact h.pass (fun hlends => hlends.openPool c code) hregistry hqueued

/-- An instance was taken for the call that has asked, or there is none for it, or it waits. -/
theorem obtain (h : Leased setup gone busy x) {call : Call} {id : PoolId} {p : Pool}
    {taken : Obtained} {z : Host τ} (hp : x.pools.get? id = some p)
    (hobtain : x.obtain setup call.depth id = (taken, z)) :
    Tended x z ∧ Asked setup gone busy id call taken z := by
  obtain ⟨out, hlends, hout⟩ := h.lends
  have htended := tended_obtain setup h.orderly call.depth id
  have hobtained := hlends.obtain call.depth hp
  rw [hobtain] at htended hobtained
  have hregistered := h.toRegistered.congr htended.registry htended.queued
  refine ⟨htended, ?_⟩
  cases taken with
  | «instance» i =>
    dsimp only [Obtained.taken, Obtained.tickets] at hobtained
    rw [List.append_nil, Function.update_eq_self, ← htended.queued] at hobtained
    exact { hregistered with lends := ⟨out, hobtained, hout⟩ }
  | refused e =>
    dsimp only [Obtained.taken, Obtained.tickets] at hobtained
    rw [List.append_nil, List.append_nil, Function.update_eq_self, Function.update_eq_self,
      ← htended.queued] at hobtained
    exact { hregistered with lends := ⟨out, hobtained, hout⟩ }
  | waiting ticket =>
    -- whoever is nested does not ask the pool
    have hdepth : call.depth = 0 := by
      by_contra hnested
      have hdetached := (hlends.takeDetached hp).1
      rw [Host.obtain, if_pos (UInt32.pos_iff_ne_zero.mpr hnested)] at hobtain
      rw [hobtain] at hdetached
      exact List.cons_ne_nil _ _ hdetached
    dsimp only [Obtained.taken, Obtained.tickets] at hobtained
    rw [List.append_nil, Function.update_eq_self, ← htended.queued,
      ← ticketsOf_append z.queued ⟨id, ticket, call⟩] at hobtained
    have hmoved := hobtained.move (y := { z with queued := z.queued ++ [⟨id, ticket, call⟩] }) rfl
      (hobtained.orderly.congr rfl rfl rfl) le_rfl
    have htop : ∀ q ∈ z.queued ++ [⟨id, ticket, call⟩], q.call.depth = 0 := by
      intro q hq
      rcases List.mem_append.mp hq with hq | hq
      · exact hregistered.topmost q hq
      · rw [List.mem_singleton.mp hq]
        exact hdepth
    exact ⟨hdepth, { hregistered.requeue htop with lends := ⟨out, hmoved, hout⟩ }⟩

/-- An answer was taken for a call that has waited, or there is none for it yet. -/
theorem claim (h : Leased setup gone busy x) (q : Queued) :
    (x.dequeue q).claim q.pool q.ticket = (.waiting q.ticket, x.dequeue q) ∨
      ((x.dequeue q).claim q.pool q.ticket).1.tickets = [] ∧
        Asked setup gone busy q.pool q.call ((x.dequeue q).claim q.pool q.ticket).1
          ((x.dequeue q).claim q.pool q.ticket).2 := by
  obtain ⟨out, hlends, hout⟩ := h.lends
  have hleft : Lends setup gone (ticketsOf x.queued) out (x.dequeue q) :=
    hlends.move rfl (h.orderly.congr rfl rfl rfl) le_rfl
  cases hp : (x.dequeue q).pools.get? q.pool with
  | none => exact .inl (claim_of_none hp q.ticket)
  | some p =>
    refine (hleft.claim hp q.ticket).imp And.left fun ⟨hnone, hclaimed⟩ => ⟨hnone, ?_⟩
    have htended : Tended (x.dequeue q) ((x.dequeue q).claim q.pool q.ticket).2 :=
      tended_claim hleft.orderly q.ticket
    have hregistered := (h.toRegistered.dequeue q).congr htended.registry htended.queued
    rw [← ticketsOf_dequeue, ← htended.queued] at hclaimed
    generalize (x.dequeue q).claim q.pool q.ticket = claimed at hnone hclaimed hregistered ⊢
    obtain ⟨answer, y⟩ := claimed
    -- whatever the answer is, the ticket has left the line
    cases answer with
    | waiting ticket => cases hnone
    | «instance» i => exact { hregistered with lends := ⟨out, hclaimed, hout⟩ }
    | refused e =>
      dsimp only [Obtained.taken] at hclaimed
      rw [List.append_nil, Function.update_eq_self] at hclaimed
      exact { hregistered with lends := ⟨out, hclaimed, hout⟩ }

/-- When a call is made it takes a lease, or leaves the leases as they are. -/
theorem begin (h : Leased setup gone busy x) (call : Call) :
    Taking setup gone busy x (.new call) (x.begin setup call) := by
  have hopened := h.openPool call.contract call.code
  obtain ⟨-, hregistry, hstalled, hqueued, -⟩ :
      (x.openPool setup call.contract call.code).2.ledger = x.ledger ∧ _ :=
    openPool_frame h.orderly call.contract call.code
  unfold Host.begin
  split
  · exact .refused h rfl rfl rfl
  · cases hopen : x.openPool setup call.contract call.code with
    | mk result y =>
      rw [hopen] at hopened hregistry hstalled hqueued
      cases result with
      | error e => exact .refused hopened hregistry hstalled hqueued
      | ok id =>
        obtain ⟨-, p, hp, -⟩ := openPool_eq_ok h.orderly hopen
        dsimp only
        cases hobtain : y.obtain setup call.depth id with
        | mk taken z =>
          obtain ⟨htended, hasked⟩ := hopened.obtain hp hobtain
          have hz : z.registry = x.registry := htended.registry.trans hregistry
          have hstill : z.stalled = x.stalled := htended.stalled.trans hstalled
          have hsame : z.queued = x.queued := htended.queued.trans hqueued
          -- lent, refused, or in line with a ticket of its own
          cases taken with
          | «instance» i => exact Taken.beginOn hasked hz hstill hsame
          | refused e => exact .refused hasked hz hstill hsame
          | waiting ticket =>
            exact .waiting (q := ⟨id, ticket, call⟩) rfl hasked.1 hasked.2 hz hstill
              (congrArg (· ++ _) hsame)

/-- When a call that has waited goes on it takes a lease, or leaves the leases as they are. -/
theorem rejoin (h : Leased setup gone busy x) (q : Queued) :
    Taking setup gone busy x (.waited q) (x.rejoin setup q) := by
  have hasked := h.claim q
  unfold Host.rejoin
  cases hclaim : (x.dequeue q).claim q.pool q.ticket with
  | mk answer y =>
    obtain ⟨htended, -⟩ := tended_dequeued h.orderly hclaim
    rw [hclaim] at hasked
    cases answer with
    | waiting ticket => exact .still rfl
    | «instance» i =>
      obtain ⟨-, htaken⟩ := hasked.resolve_left nofun
      exact Taken.beginOn (e := .waited q) htaken htended.registry htended.stalled htended.queued
    | refused e =>
      obtain ⟨-, hleased⟩ := hasked.resolve_left nofun
      exact .refused hleased htended.registry htended.stalled htended.queued

/-- **When a call begins it takes a lease**, or leaves the leases as they are. -/
theorem enter (h : Leased setup gone busy x) (e : Entry) :
    Taking setup gone busy x e (x.enter setup e) := by
  cases e with
  | new call => exact h.begin call
  | waited q => exact h.rejoin q

end Leased

/-! ### Calls that no longer wait -/

/-- **A call that no longer waits** takes no lease along. -/
theorem Leased.leave (h : Leased setup gone busy x) (q : Queued) :
    Leased setup gone busy (x.leave setup q) ∧ Tended (x.dequeue q) (x.leave setup q) := by
  have htended : Tended (x.dequeue q) (x.leave setup q) := tended_leave h.orderly q
  obtain ⟨out, hlends, hout⟩ := h.lends
  have hleft := hlends.leave q
  rw [← ticketsOf_dequeue, ← htended.queued] at hleft
  exact ⟨{ (h.toRegistered.dequeue q).congr htended.registry htended.queued with
    lends := ⟨out, hleft, hout⟩ }, htended⟩

end Host

end ContractHost
