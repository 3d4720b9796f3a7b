import ContractHost.Host.Invoke
import ContractHost.Proofs.Host.Idle

/-!
# What work on the pools of a host leaves alone

What a host files under a key is the label of a pool: the contract, the module and the settings that
the pool was created with.  Whatever goes on in the pools, the labels stay as they are.  Only a pool
that is opened where none was filed, and a pool that is closed, change what is filed, and they
change it under one key.

## Main definitions

* `Host.filed?` — the label of the pool that is filed under a key.
* `Host.Orderly` — what is filed are pools, and the pools are quiet.
* `Host.Tended` — the pools have been worked on, and nothing else has happened.
* `Host.Refiled` — nothing has changed but what is filed.
* `Host.Files` — something is true of everything that is filed.

## Main results

* `Host.tended_withPool`, `tended_takeReady`, `tended_giveBack`, `tended_leave` and the like — **the
  frame of all work on pools.**
* `Host.createPool_eq_ok`, `refiled_closeKey` — **what opening and closing change.**
-/

namespace ContractHost

namespace Host

variable {τ : Type}

/-- The label of the pool that is filed under a key. -/
def filed? (x : Host τ) (key : String) : Option (ContractId × Module × PoolTerms) :=
  ((x.registered.get? key).bind x.pools.get?).map Pool.label

/-- What is filed are pools of the host, and no instance in a pool serves an invocation. -/
structure Orderly (x : Host τ) : Prop where
  /-- The pools are quiet. -/
  quiet : ∀ {id p}, x.pools.get? id = some p → p.Quiet
  /-- Numbers of pools are not used before they are given out. -/
  numbered : ∀ {id p}, x.pools.get? id = some p → id < x.nextPool
  /-- What is filed is a pool. -/
  filed : ∀ {key id}, x.registered.get? key = some id → (x.pools.get? id).isSome

/-- The pools have been worked on: each has the label that it had, and nothing else has happened
besides instances coming and going. -/
structure Tended (x y : Host τ) : Prop where
  /-- The ledger is as before. -/
  ledger : y.ledger = x.ledger
  /-- The invocations under way are. -/
  registry : y.registry = x.registry
  /-- The same pools are filed. -/
  registered : y.registered = x.registered
  /-- No pool was added. -/
  nextPool : y.nextPool = x.nextPool
  /-- The pools have their labels. -/
  label : ∀ id, (y.pools.get? id).map Pool.label = (x.pools.get? id).map Pool.label
  /-- They are still quiet. -/
  quiet : ∀ {id p}, y.pools.get? id = some p → p.Quiet
  /-- No more calls are stalled. -/
  stalled : y.stalled = x.stalled
  /-- No more calls wait. -/
  queued : y.queued = x.queued
  /-- It is as late as before. -/
  uptime : y.uptime = x.uptime

namespace Orderly

variable {x y : Host τ}

theorem of_empty (ledger : τ) : ({ ledger } : Host τ).Orderly where
  quiet h := nomatch h
  numbered h := nomatch h
  filed h := nomatch h

theorem congr (h : x.Orderly) (hpools : y.pools = x.pools)
    (hregistered : y.registered = x.registered) (hnext : y.nextPool = x.nextPool) : y.Orderly where
  quiet hp := h.quiet (hpools ▸ hp)
  numbered hp := hnext ▸ h.numbered (hpools ▸ hp)
  filed hid := hpools ▸ h.filed (hregistered ▸ hid)

theorem tended (h : x.Orderly) (ht : Tended x y) : y.Orderly where
  quiet := ht.quiet
  numbered {id p} hp := by
    have hlabel := ht.label id
    rw [hp] at hlabel
    cases hold : x.pools.get? id with
    | none => simp [hold] at hlabel
    | some q =>
      rw [ht.nextPool]
      exact h.numbered hold
  filed {key id} hid := by
    rw [ht.registered] at hid
    rw [← Option.isSome_map (f := Pool.label), ht.label id, Option.isSome_map]
    exact h.filed hid

end Orderly

namespace Tended

variable {x y z : Host τ}

theorem refl (h : x.Orderly) : Tended x x :=
  ⟨rfl, rfl, rfl, rfl, fun _ => rfl, h.quiet, rfl, rfl, rfl⟩

theorem trans (h : Tended x y) (h' : Tended y z) : Tended x z :=
  ⟨h'.ledger.trans h.ledger, h'.registry.trans h.registry, h'.registered.trans h.registered,
    h'.nextPool.trans h.nextPool, fun id => (h'.label id).trans (h.label id), h'.quiet,
    h'.stalled.trans h.stalled, h'.queued.trans h.queued, h'.uptime.trans h.uptime⟩

theorem filed? (h : Tended x y) (key : String) : y.filed? key = x.filed? key := by
  unfold Host.filed?
  rw [h.registered]
  cases x.registered.get? key with
  | none => rfl
  | some id => exact h.label id

theorem of_idled (h : x.Orderly) (hi : Idled x y) : Tended x y :=
  ⟨hi.ledger, hi.registry, hi.registered, hi.nextPool, fun _ => by rw [hi.pools],
    fun hp => h.quiet (hi.pools ▸ hp), hi.stalled, hi.queued, hi.uptime⟩

theorem insert (h : x.Orderly) {id : PoolId} {p q : Pool} (hp : x.pools.get? id = some p)
    (hstays : Pool.Stays Idled p x q y) : Tended x { y with pools := y.pools.insert id q } := by
  have hidle := hstays.host
  refine ⟨hidle.ledger, hidle.registry, hidle.registered, hidle.nextPool, fun k => ?_, ?_,
    hidle.stalled, hidle.queued, hidle.uptime⟩
  · show ((y.pools.insert id q).get? k).map _ = _
    -- the pool itself keeps its label, and the others are not touched
    rw [OrderedMap.get?_insert, hidle.pools]
    split
    · rename_i hk
      rw [← Std.LawfulEqOrd.eq_of_compare hk, hp]
      exact congrArg some hstays.label
    · rfl
  · intro k r hr
    have hinsert : (y.pools.insert id q).get? k = some r := hr
    rw [OrderedMap.get?_insert, hidle.pools] at hinsert
    split at hinsert
    · cases hinsert
      exact hstays.quiet
    · exact h.quiet hinsert

end Tended

/-! ### Work on one pool -/

section

variable {x : Host τ} {id : PoolId}

/-- **Work on a pool leaves the host tended.** -/
theorem tended_withPool (h : x.Orderly) (id : PoolId) {f : Pool → Host τ → Pool × Host τ}
    (hf : ∀ p, p.Quiet → Pool.Stays Idled p x (f p x).1 (f p x).2) :
    Tended x (x.withPool id f) := by
  unfold withPool
  split
  · exact .refl h
  · rename_i p hp
    exact .insert h hp (hf p (h.quiet hp))

theorem claim_of_none (h : x.pools.get? id = none) (ticket : Ticket) :
    x.claim id ticket = (.waiting ticket, x) := by
  unfold claim
  rw [h]

theorem claim_of_some {p : Pool} (h : x.pools.get? id = some p) (ticket : Ticket) :
    x.claim id ticket =
      (match (p.claim ticket).1 with
        | some (.ok i) => .instance i
        | some (.error e) => .refused e
        | none => .waiting ticket,
      { x with pools := x.pools.insert id (p.claim ticket).2 }) := by
  unfold claim
  rw [h]
  dsimp only
  cases (p.claim ticket).1 with
  | none => rfl
  | some answer => cases answer <;> rfl

/-- **Taking an answer.** -/
theorem tended_claim (h : x.Orderly) (ticket : Ticket) : Tended x (x.claim id ticket).2 := by
  cases hp : x.pools.get? id with
  | none =>
    rw [claim_of_none hp]
    exact .refl h
  | some p =>
    rw [claim_of_some hp]
    exact .insert h hp ⟨rfl, (h.quiet hp).claim ticket, Idled.refl x⟩

/-- The answer that a call has waited for is taken while nothing else happens. -/
theorem tended_dequeued (hx : x.Orderly) {q : Queued} {answer : Obtained} {y : Host τ}
    (hclaim : (x.dequeue q).claim q.pool q.ticket = (answer, y)) :
    Tended (x.dequeue q) y ∧ y.Orderly := by
  have hleft : (x.dequeue q).Orderly := hx.congr rfl rfl rfl
  have htended : Tended (x.dequeue q) ((x.dequeue q).claim q.pool q.ticket).2 :=
    tended_claim hleft q.ticket
  rw [hclaim] at htended
  exact ⟨htended, hleft.tended htended⟩

variable [LedgerAccess τ] {setup : HostSetup}

theorem tended_settlePool (h : x.Orderly) : Tended x (x.settlePool setup id) :=
  tended_withPool h id fun _ hp => Pool.stays_settle (within_supply setup) hp x

/-- **Giving an instance back.** -/
theorem tended_giveBack (h : x.Orderly) (i : Instance) : Tended x (x.giveBack setup id i) := by
  unfold giveBack
  split
  · exact .of_idled h ((within_supply setup).teardown x rfl)
  · have hback := tended_withPool h id
      fun _ hp => Pool.stays_release (within_supply setup) hp i x
    exact hback.trans (tended_settlePool (h.tended hback))

/-- A call leaves the line, and the instance that it may have been given is given up. -/
theorem leave_cases (setup : HostSetup) (x : Host τ) (q : Queued) :
    ∃ taken y, (x.dequeue q).claim q.pool q.ticket = (taken, y) ∧
      ((∃ i, taken = .instance i ∧ x.leave setup q =
          (y.withPool q.pool fun p z => p.discard (supply setup) i z).settlePool setup q.pool) ∨
        (∀ i, taken ≠ .instance i) ∧ x.leave setup q =
          (y.withPool q.pool fun p z => (p.cancel q.ticket, z)).settlePool setup q.pool) := by
  unfold leave
  cases (x.dequeue q).claim q.pool q.ticket with
  | mk taken y =>
    refine ⟨taken, y, rfl, ?_⟩
    cases taken with
    | «instance» i => exact .inl ⟨i, rfl, rfl⟩
    | refused e => exact .inr ⟨nofun, rfl⟩
    | waiting ticket => exact .inr ⟨nofun, rfl⟩

theorem tended_leave (h : x.Orderly) (q : Queued) : Tended (x.dequeue q) (x.leave setup q) := by
  obtain ⟨taken, y, hclaim, hleave⟩ := leave_cases setup x q
  obtain ⟨htended, hy⟩ := tended_dequeued h hclaim
  obtain ⟨i, -, heq⟩ | ⟨-, heq⟩ := hleave
  · have hdiscard := tended_withPool hy q.pool fun p hp =>
      Pool.stays_discard (within_supply setup) hp i y
    rw [heq]
    exact (htended.trans hdiscard).trans (tended_settlePool (hy.tended hdiscard))
  · have hcancel : Tended y (y.withPool q.pool fun p z => (p.cancel q.ticket, z)) :=
      tended_withPool hy q.pool fun p hp => ⟨Pool.label_cancel p _, hp.cancel _, Idled.refl y⟩
    rw [heq]
    exact (htended.trans hcancel).trans (tended_settlePool (hy.tended hcancel))

/-- **What leaving a line keeps**, leaving any lines keeps. -/
theorem foldl_leave {P : Host τ → Prop} (hdequeue : ∀ {y q}, P y → P (y.dequeue q))
    (htended : ∀ {y z}, Tended y z → P y → P z) :
    ∀ (l : List Queued) {y : Host τ}, y.Orderly → P y → P (l.foldl (leave setup) y) := by
  intro l
  induction l with
  | nil => exact fun _ h => h
  | cons q l ih =>
    intro y hy h
    have hleft : (y.dequeue q).Orderly := hy.congr rfl rfl rfl
    have hleave : Tended (y.dequeue q) (y.leave setup q) := tended_leave hy q
    exact ih (hleft.tended hleave) (htended hleave (hdequeue h))

/-- What a pool comes to when a caller asks for an instance. -/
def asked (setup : HostSetup) (p : Pool) (x : Host τ) : Pool × Host τ :=
  p.acquire.2.settle (supply setup) x

theorem takeReady_of_none (h : x.pools.get? id = none) :
    x.takeReady setup id = (.waiting 0, x) := by
  unfold takeReady
  rw [h]

theorem takeReady_of_some {p : Pool} (h : x.pools.get? id = some p) :
    x.takeReady setup id =
      { (asked setup p x).2 with
        pools := (asked setup p x).2.pools.insert id
          (asked setup p x).1 }.claim id p.acquire.1 := by
  unfold takeReady asked
  rw [h]

theorem stays_asked {p : Pool} (hp : p.Quiet) (x : Host τ) :
    Pool.Stays Idled p x (asked setup p x).1 (asked setup p x).2 := by
  have hsettle := Pool.stays_settle (within_supply setup) hp.acquire x
  exact ⟨hsettle.label.trans (Pool.label_acquire p), hsettle.quiet, hsettle.host⟩

/-- **Asking for a ready instance.** -/
theorem tended_takeReady (h : x.Orderly) : Tended x (x.takeReady setup id).2 := by
  cases hp : x.pools.get? id with
  | none =>
    rw [takeReady_of_none hp]
    exact .refl h
  | some p =>
    have hasked : Pool.Stays Idled p x (asked setup p x).1 (asked setup p x).2 :=
      stays_asked (h.quiet hp) x
    have htended := Tended.insert h hp hasked
    rw [takeReady_of_some hp]
    exact htended.trans (tended_claim (h.tended htended) p.acquire.1)

theorem takeDetached_of_none (h : x.pools.get? id = none) :
    x.takeDetached setup id = (.waiting 0, x) := by
  unfold takeDetached
  rw [h]

theorem takeDetached_of_some {p : Pool} (h : x.pools.get? id = some p) :
    x.takeDetached setup id =
      match createInstance setup p.program x with
      | (.ok i, y) => (.instance { i with detached := true }, y)
      | (.error e, y) => (.refused e, y) := by
  unfold takeDetached Pool.createDetached
  rw [h]
  simp only [supply]
  cases createInstance setup p.program x with
  | mk result y => cases result <;> rfl

/-- **Making an instance outside a pool.** -/
theorem tended_takeDetached (h : x.Orderly) : Tended x (x.takeDetached setup id).2 := by
  cases hp : x.pools.get? id with
  | none =>
    rw [takeDetached_of_none hp]
    exact .refl h
  | some p =>
    have hcreate : Idled x (createInstance setup p.program x).2 :=
      (within_supply setup).create p.program x
    rw [takeDetached_of_some hp]
    generalize createInstance setup p.program x = a at hcreate ⊢
    obtain ⟨result, y⟩ := a
    cases result with
    | ok i => exact .of_idled h hcreate
    | error e => exact .of_idled h hcreate

end

/-! ### Opening and closing -/

/-- Only what is filed has changed: `files` tells the label under every key. -/
structure Refiled (x y : Host τ) (files : String → Option (ContractId × Module × PoolTerms)) :
    Prop where
  /-- The ledger is as before. -/
  ledger : y.ledger = x.ledger
  /-- The invocations under way are. -/
  registry : y.registry = x.registry
  /-- What is filed are quiet pools. -/
  orderly : y.Orderly
  /-- This is filed. -/
  filed : ∀ key, y.filed? key = files key
  /-- No more calls are stalled. -/
  stalled : y.stalled = x.stalled
  /-- No more calls wait. -/
  queued : y.queued = x.queued
  /-- It is as late as before. -/
  uptime : y.uptime = x.uptime

theorem Tended.refiled {x y : Host τ} (ht : Tended x y) (h : x.Orderly) :
    Refiled x y x.filed? :=
  ⟨ht.ledger, ht.registry, h.tended ht, ht.filed?, ht.stalled, ht.queued, ht.uptime⟩

/-- A host that files one more label. -/
def filing (x : Host τ) (key : String) (label : ContractId × Module × PoolTerms) (k : String) :
    Option (ContractId × Module × PoolTerms) :=
  if key = k then some label else x.filed? k

/-- A host that files nothing under a key. -/
def unfiling (x : Host τ) (key k : String) : Option (ContractId × Module × PoolTerms) :=
  if key = k then none else x.filed? k

section

variable {x : Host τ}

theorem Refiled.insert (h : x.Orderly) {y : Host τ} (hi : Idled x y) {p : Pool} (hp : p.Quiet)
    (key : String) :
    Refiled x { y with
        pools := y.pools.insert y.nextPool p
        registered := y.registered.insert key y.nextPool
        nextPool := y.nextPool + 1 } (x.filing key p.label) where
  ledger := hi.ledger
  registry := hi.registry
  stalled := hi.stalled
  queued := hi.queued
  uptime := hi.uptime
  orderly := {
    quiet := fun {id q} hq => by
      have hinsert : (y.pools.insert y.nextPool p).get? id = some q := hq
      rw [OrderedMap.get?_insert, hi.pools] at hinsert
      split at hinsert
      · cases hinsert
        exact hp
      · exact h.quiet hinsert
    numbered := fun {id q} hq => by
      have hinsert : (y.pools.insert y.nextPool p).get? id = some q := hq
      show id < y.nextPool + 1
      rw [OrderedMap.get?_insert, hi.pools] at hinsert
      split at hinsert
      · rename_i hid
        rw [← Std.LawfulEqOrd.eq_of_compare hid]
        exact Nat.lt_succ_self _
      · rw [hi.nextPool]
        exact Nat.lt_succ_of_lt (h.numbered hinsert)
    filed := fun {k id} hid => by
      have hinsert : (y.registered.insert key y.nextPool).get? k = some id := hid
      show ((y.pools.insert y.nextPool p).get? id).isSome
      rw [OrderedMap.get?_insert, hi.registered] at hinsert
      rw [OrderedMap.get?_insert, hi.pools]
      split
      · rfl
      · rename_i hne
        split at hinsert
        · cases hinsert
          exact absurd Std.ReflCmp.compare_self hne
        · exact h.filed hinsert }
  filed k := by
    show (((y.registered.insert key y.nextPool).get? k).bind
      (y.pools.insert y.nextPool p).get?).map Pool.label = x.filing key p.label k
    unfold filing filed?
    rw [OrderedMap.get?_insert, hi.registered]
    simp only [Std.compare_eq_iff_eq]
    split
    · simp
    · cases hid : x.registered.get? k with
      | none => rfl
      | some id =>
        -- a filed pool has a smaller number than the new one
        obtain ⟨q, hq⟩ := Option.isSome_iff_exists.mp (h.filed hid)
        have hlt : id < y.nextPool := hi.nextPool ▸ h.numbered hq
        have hne : y.nextPool ≠ id := hlt.ne'
        simp only [Option.bind_some, OrderedMap.get?_insert, Std.compare_eq_iff_eq, if_neg hne,
          hi.pools]

/-- The host that no longer files anything under a key. -/
def unfiled (x : Host τ) (key : String) : Host τ :=
  { x with registered := x.registered.erase key }

theorem filed?_unfiled (x : Host τ) (key k : String) :
    (x.unfiled key).filed? k = x.unfiling key k := by
  unfold unfiling
  show (((x.registered.erase key).get? k).bind x.pools.get?).map Pool.label = _
  simp only [OrderedMap.get?_erase, Std.compare_eq_iff_eq]
  split <;> rfl

theorem Orderly.unfiled (h : x.Orderly) (key : String) : (x.unfiled key).Orderly where
  quiet := h.quiet
  numbered := h.numbered
  filed {k id} hid := by
    have herase : (x.registered.erase key).get? k = some id := hid
    rw [OrderedMap.get?_erase] at herase
    split at herase
    · cases herase
    · exact h.filed herase

theorem unfiling_of_none {key : String} (h : x.filed? key = none) : x.unfiling key = x.filed? := by
  funext k
  unfold unfiling
  split
  · rename_i hk
    rw [← hk, h]
  · rfl

variable [LedgerAccess τ] {setup : HostSetup}

/-- **Closing a pool.** -/
theorem refiled_closeKey (setup : HostSetup) (h : x.Orderly) (key : String) :
    Refiled x (x.closeKey setup key) (x.unfiling key) := by
  cases hid : x.registered.get? key with
  | none =>
    have hnone : x.filed? key = none := by
      unfold filed?
      rw [hid]
      rfl
    unfold closeKey
    rw [hid, unfiling_of_none hnone]
    exact (Tended.refl h).refiled h
  | some id =>
    -- the pool is no longer filed when its instances end
    have htended := tended_withPool (h.unfiled key) id
      fun _ hp => Pool.stays_shutdown (within_supply setup) hp (x.unfiled key)
    unfold closeKey
    rw [hid]
    refine ⟨htended.ledger, htended.registry, (h.unfiled key).tended htended, fun k => ?_,
      htended.stalled, htended.queued, htended.uptime⟩
    exact (htended.filed? k).trans (filed?_unfiled x key k)

/-- **Resetting a pool.** -/
theorem tended_resetKey (h : x.Orderly) (key : String) : Tended x (x.resetKey setup key) := by
  unfold resetKey
  split
  · exact .refl h
  · exact tended_withPool h _
      fun _ hp => Pool.stays_reset (within_supply setup) hp x

/-- The module that the code of a contract gives, if it gives one. -/
def making (setup : HostSetup) (c : ContractId) (code : Code) : Except ExecutionError Module :=
  if !c.isComplete then
    .error (.invalidContract s!"contract name or version missing: {c.describe}")
  else if code.isEmpty then .error (.invalidContract s!"no bytecode for contract {c.key}")
  else Module.ofCode setup.config.engine code

theorem making_eq_ok {c : ContractId} {code : Code} {m : Module}
    (h : making setup c code = .ok m) :
    c.isComplete = true ∧ Module.ofCode setup.config.engine code = .ok m := by
  unfold making at h
  split at h
  · cases h
  · rename_i hcomplete
    split at h
    · cases h
    · exact ⟨by simpa using hcomplete, h⟩

/-- The terms of a pool that is created now. -/
def terms (setup : HostSetup) (x : Host τ) : PoolTerms :=
  { setup.config.pool with started := x.uptime }

/-- A pool is created of the module that the code gives. -/
theorem createPool_eq (x : Host τ) (c : ContractId) (code : Code) :
    x.createPool setup c code =
      match making setup c code with
      | .error e => (.error e, x)
      | .ok m =>
        match Pool.create (supply setup) c m (x.terms setup) x with
        | (.error e, y) => (.error e, y)
        | (.ok p, y) =>
          (.ok y.nextPool, { y with
            pools := y.pools.insert y.nextPool p
            registered := y.registered.insert c.key y.nextPool
            nextPool := y.nextPool + 1 }) := by
  unfold createPool making
  split
  · rfl
  · split
    · rfl
    · cases Module.ofCode setup.config.engine code <;> rfl

/-- **A pool that was created** has the contract and the module that it was created with, and is
filed under the key of the contract. -/
theorem createPool_eq_ok (h : x.Orderly) {c : ContractId} {code : Code} {id : PoolId} {y : Host τ}
    (hcreate : x.createPool setup c code = (.ok id, y)) :
    ∃ m, making setup c code = .ok m ∧ y.registered.get? c.key = some id ∧
      (∃ trial z, createInstance setup m x = (.ok trial, z)) ∧
      Refiled x y (x.filing c.key (c, m, x.terms setup)) := by
  rw [createPool_eq] at hcreate
  -- first the code is validated and compiled, then an instance is made on trial
  split at hcreate
  · cases hcreate
  · rename_i m hm
    obtain ⟨hidle, hok⟩ := Pool.stays_create (within_supply setup) c m
      (x.terms setup) x
    split at hcreate
    · cases hcreate
    · rename_i p z hp
      obtain ⟨trial, x', htrial, -, -⟩ := Pool.create_eq_ok hp
      rw [hp] at hidle hok
      obtain ⟨hlabel, hquiet⟩ := hok p rfl
      cases hcreate
      refine ⟨m, hm, OrderedMap.get?_insert_self _ _ _, ⟨trial, x', htrial⟩, ?_⟩
      have hinsert := Refiled.insert h hidle hquiet c.key
      rw [hlabel] at hinsert
      exact hinsert

theorem createPool_eq_error (h : x.Orderly) {c : ContractId} {code : Code} {e : ExecutionError}
    {y : Host τ} (hcreate : x.createPool setup c code = (.error e, y)) : Tended x y := by
  rw [createPool_eq] at hcreate
  split at hcreate
  · cases hcreate
    exact .refl h
  · rename_i m _
    obtain ⟨hidle, -⟩ := Pool.stays_create (within_supply setup) c m
      (x.terms setup) x
    split at hcreate
    · rename_i e' z hp
      rw [hp] at hidle
      cases hcreate
      exact .of_idled h hidle
    · cases hcreate

/-- Opening a pool concerns neither the ledger nor the calls under way. -/
theorem openPool_frame (h : x.Orderly) (c : ContractId) (code : Code) :
    (x.openPool setup c code).2.ledger = x.ledger ∧
      (x.openPool setup c code).2.registry = x.registry ∧
      (x.openPool setup c code).2.stalled = x.stalled ∧
      (x.openPool setup c code).2.queued = x.queued ∧
      (x.openPool setup c code).2.uptime = x.uptime := by
  unfold openPool
  split
  · exact ⟨rfl, rfl, rfl, rfl, rfl⟩
  · cases hcreate : x.createPool setup c code with
    | mk result y =>
      cases result with
      | error e =>
        have htended := createPool_eq_error h hcreate
        exact ⟨htended.ledger, htended.registry, htended.stalled, htended.queued, htended.uptime⟩
      | ok id =>
        obtain ⟨m, -, -, -, hfiles⟩ := createPool_eq_ok h hcreate
        exact ⟨hfiles.ledger, hfiles.registry, hfiles.stalled, hfiles.queued, hfiles.uptime⟩

/-- The pool that answers is filed under the key that was asked for. -/
theorem openPool_eq_ok (h : x.Orderly) {c : ContractId} {code : Code} {id : PoolId} {y : Host τ}
    (hopen : x.openPool setup c code = (.ok id, y)) :
    y.registered.get? c.key = some id ∧
      ∃ p, y.pools.get? id = some p ∧ y.filed? c.key = some p.label := by
  have hfound {z : Host τ} (hz : z.Orderly) (hid : z.registered.get? c.key = some id) :
      z.registered.get? c.key = some id ∧
        ∃ p, z.pools.get? id = some p ∧ z.filed? c.key = some p.label := by
    obtain ⟨p, hp⟩ := Option.isSome_iff_exists.mp (hz.filed hid)
    refine ⟨hid, p, hp, ?_⟩
    unfold filed?
    rw [hid, Option.bind_some, hp]
    rfl
  unfold openPool at hopen
  -- the pool was there already, or it has been filed just now
  split at hopen
  · rename_i hid
    cases hopen
    exact hfound h hid
  · obtain ⟨m, -, hid, -, hfiles⟩ := createPool_eq_ok h hopen
    exact hfound hfiles.orderly hid

end

/-! ### What is true of everything that is filed -/

/-- Everything that is filed is true to `P`: the key, the contract and the module. -/
structure Files (P : String → ContractId → Module → Prop) (x : Host τ) : Prop where
  /-- What is filed are quiet pools. -/
  orderly : x.Orderly
  /-- Each is true to `P`. -/
  each : ∀ {key c m settings}, x.filed? key = some (c, m, settings) → P key c m

namespace Files

variable {P Q : String → ContractId → Module → Prop} {x y : Host τ}

theorem of_empty (ledger : τ) : ({ ledger } : Host τ).Files P :=
  ⟨.of_empty ledger, (nomatch ·)⟩

theorem mono (h : x.Files P) (hPQ : ∀ {key c m}, P key c m → Q key c m) : x.Files Q :=
  ⟨h.orderly, fun hfiled => hPQ (h.each hfiled)⟩

theorem of_refiled (h : x.Files P) {files} (hfiles : Refiled x y files)
    (hless : ∀ key, files key = none ∨ files key = x.filed? key) : y.Files P := by
  refine ⟨hfiles.orderly, fun {key c m settings} hfiled => ?_⟩
  rw [hfiles.filed] at hfiled
  rcases hless key with hnone | hsame
  · rw [hnone] at hfiled
    cases hfiled
  · exact h.each (hsame ▸ hfiled)

theorem congr (h : x.Files P) (hpools : y.pools = x.pools)
    (hregistered : y.registered = x.registered) (hnext : y.nextPool = x.nextPool) : y.Files P where
  orderly := {
    quiet := fun hp => h.orderly.quiet (hpools ▸ hp)
    numbered := fun hp => hnext ▸ h.orderly.numbered (hpools ▸ hp)
    filed := fun hid => hpools ▸ h.orderly.filed (hregistered ▸ hid) }
  each {key c m settings} hfiled := by
    unfold filed? at hfiled
    rw [hpools, hregistered] at hfiled
    exact h.each hfiled

theorem tended (h : x.Files P) (ht : Tended x y) : y.Files P :=
  h.of_refiled (ht.refiled h.orderly) fun _ => .inr rfl

theorem foldl {f : Host τ → String → Host τ} (hf : ∀ {y} key, y.Files P → (f y key).Files P) :
    ∀ (keys : List String) {y}, y.Files P → (keys.foldl f y).Files P := by
  intro keys
  induction keys with
  | nil => exact id
  | cons key keys ih => exact fun h => ih (hf key h)

variable [LedgerAccess τ] {setup : HostSetup}

theorem closeKey (h : x.Files P) (key : String) : (x.closeKey setup key).Files P := by
  refine h.of_refiled (refiled_closeKey setup h.orderly key) fun k => ?_
  unfold unfiling
  split
  · exact .inl rfl
  · exact .inr rfl

theorem resetKey (h : x.Files P) (key : String) : (x.resetKey setup key).Files P :=
  h.tended (tended_resetKey h.orderly key)

/-- **Opening leaves everything true**, if it is true of a module that the code gives and that can
be instantiated. -/
theorem openPool (h : x.Files P) {c : ContractId} {code : Code}
    (hP : ∀ {m trial z}, making setup c code = .ok m → createInstance setup m x = (.ok trial, z) →
      P c.key c m) : (x.openPool setup c code).2.Files P := by
  unfold Host.openPool
  split
  · exact h
  · cases hcreate : x.createPool setup c code with
    | mk result y =>
      cases result with
      | error e => exact h.tended (createPool_eq_error h.orderly hcreate)
      | ok id =>
        obtain ⟨m, hm, -, ⟨trial, z, htrial⟩, hfiles⟩ := createPool_eq_ok h.orderly hcreate
        refine ⟨hfiles.orderly, fun {key d m' settings} hfiled => ?_⟩
        -- what is filed now is the new pool or was filed before
        rw [hfiles.filed] at hfiled
        unfold filing at hfiled
        split at hfiled
        · rename_i hkey
          cases hfiled
          exact hkey ▸ hP hm htrial
        · exact h.each hfiled

end Files

end Host

end ContractHost
