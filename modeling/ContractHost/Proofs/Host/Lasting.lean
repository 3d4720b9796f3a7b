import ContractHost.Proofs.Host.Cleanup
import ContractHost.Proofs.Host.Nesting

/-!
# What lasts on a host

Whatever happens on a host, three things alone concern which pools there are: pools are worked on,
which opens none and shuts none down; a pool is opened where none is filed; and a pool that is filed
is closed.  What survives these three survives every call, whatever its instance does and however it
ends, and everything else that happens.

## Main definitions

* `Host.Unmoved` — pools were worked on, and none was opened or shut down.
* `Host.Lasting` — properties that survive work on pools, opening and closing.

## Main results

* `Host.Lasting.request`, `Host.Lasting.perform` — what lasts survives requests and calls.
* `Host.Lasting.of_run` — **what lasts survives whatever happens on a host.**
-/

namespace ContractHost

/-- The label of a pool, and whether it is shut down. -/
def Pool.standing (p : Pool) : (ContractId × Module × PoolTerms) × Bool :=
  (p.label, p.closed)

namespace Host

/-! ### Work on pools -/

section

variable {τ : Type} {x y z : Host τ} {id : PoolId} {p q : Pool}

/-- The pools have been worked on, but none was opened or shut down, and the same are filed. -/
structure Unmoved (x y : Host τ) : Prop where
  /-- The same pools are filed. -/
  registered : y.registered = x.registered
  /-- No pool was added. -/
  nextPool : y.nextPool = x.nextPool
  /-- The pools have their labels, and the same are shut down. -/
  standing : ∀ id, (y.pools.get? id).map Pool.standing = (x.pools.get? id).map Pool.standing
  /-- They are quiet. -/
  quiet : ∀ {id p}, y.pools.get? id = some p → p.Quiet

namespace Unmoved

theorem of_same (hx : x.Orderly) (hpools : y.pools = x.pools)
    (hregistered : y.registered = x.registered) (hnext : y.nextPool = x.nextPool) : Unmoved x y :=
  ⟨hregistered, hnext, fun _ => by rw [hpools], fun hp => hx.quiet (hpools ▸ hp)⟩

theorem of_idled (hx : x.Orderly) (h : Idled x y) : Unmoved x y :=
  .of_same hx h.pools h.registered h.nextPool

theorem trans (h : Unmoved x y) (h' : Unmoved y z) : Unmoved x z :=
  ⟨h'.registered.trans h.registered, h'.nextPool.trans h.nextPool,
    fun id => (h'.standing id).trans (h.standing id), h'.quiet⟩

theorem exists_after (h : Unmoved x y) (hp : x.pools.get? id = some p) :
    ∃ q, y.pools.get? id = some q ∧ q.label = p.label ∧ q.closed = p.closed := by
  have hstanding := h.standing id
  rw [hp] at hstanding
  obtain ⟨q, hq, hsame⟩ := Option.map_eq_some_iff.mp hstanding
  exact ⟨q, hq, congrArg (·.1) hsame, congrArg (·.2) hsame⟩

theorem exists_before (h : Unmoved x y) (hq : y.pools.get? id = some q) :
    ∃ p, x.pools.get? id = some p ∧ q.label = p.label ∧ q.closed = p.closed := by
  have hstanding := h.standing id
  rw [hq] at hstanding
  obtain ⟨p, hp, hsame⟩ := Option.map_eq_some_iff.mp hstanding.symm
  exact ⟨p, hp, congrArg (·.1) hsame.symm, congrArg (·.2) hsame.symm⟩

theorem orderly (h : Unmoved x y) (hx : x.Orderly) : y.Orderly where
  quiet := h.quiet
  numbered hq := by
    obtain ⟨p, hp, -⟩ := h.exists_before hq
    exact h.nextPool ▸ hx.numbered hp
  filed hid := by
    obtain ⟨p, hp⟩ := Option.isSome_iff_exists.mp (hx.filed (h.registered ▸ hid))
    obtain ⟨q, hq, -⟩ := h.exists_after hp
    exact Option.isSome_of_eq_some hq

theorem insert (hx : x.Orderly) (hp : x.pools.get? id = some p)
    (hstays : Pool.Stays Idled p x q y) (hclosed : q.closed = p.closed) :
    Unmoved x { y with pools := y.pools.insert id q } := by
  have htended := Tended.insert hx hp hstays
  refine ⟨htended.registered, htended.nextPool, fun k => ?_, htended.quiet⟩
  show ((y.pools.insert id q).get? k).map _ = _
  rw [OrderedMap.get?_insert_ite, hstays.host.pools]
  split
  · rename_i hk
    rw [← hk, hp]
    exact congrArg some (Prod.ext hstays.label hclosed)
  · rfl

end Unmoved

/-- **Work on a pool that neither opens it nor shuts it down.** -/
theorem unmoved_withPool (hx : x.Orderly) (id : PoolId) {f : Pool → Host τ → Pool × Host τ}
    (hstays : ∀ p, p.Quiet → Pool.Stays Idled p x (f p x).1 (f p x).2)
    (hclosed : ∀ p, (f p x).1.closed = p.closed) : Unmoved x (x.withPool id f) := by
  unfold withPool
  split
  · exact .of_same hx rfl rfl rfl
  · rename_i p hp
    exact .insert hx hp (hstays p (hx.quiet hp)) (hclosed p)

theorem unmoved_claim (hx : x.Orderly) (id : PoolId) (ticket : Ticket) :
    Unmoved x (x.claim id ticket).2 := by
  cases hp : x.pools.get? id with
  | none =>
    rw [claim_of_none hp]
    exact .of_same hx rfl rfl rfl
  | some p =>
    rw [claim_of_some hp]
    exact .insert hx hp ⟨rfl, (hx.quiet hp).claim ticket, Idled.refl x⟩ rfl

variable [LedgerAccess τ] {setup : HostSetup}

theorem unmoved_tell (setup : HostSetup) (hx : x.Orderly) (id : PoolId) {told : Pool → Pool}
    (hquiet : ∀ p, p.Quiet → (told p).Quiet) (hlabel : ∀ p, (told p).label = p.label)
    (hclosed : ∀ p, (told p).closed = p.closed) :
    Unmoved x (x.withPool id fun p y => (told p).settle (supply setup) y) := by
  refine unmoved_withPool hx id (fun p hp => ?_) fun p => ?_
  · have hstays := Pool.stays_settle (within_supply setup) (hquiet p hp) x
    exact ⟨hstays.label.trans (hlabel p), hstays.quiet, hstays.host⟩
  · exact (Pool.closed_of_settle (supply setup) (told p) x).trans (hclosed p)

theorem unmoved_settlePool (setup : HostSetup) (hx : x.Orderly) (id : PoolId) :
    Unmoved x (x.settlePool setup id) :=
  unmoved_tell setup hx id (fun _ hp => hp) (fun _ => rfl) fun _ => rfl

theorem unmoved_giveBack (setup : HostSetup) (hx : x.Orderly) (id : PoolId) (i : Instance) :
    Unmoved x (x.giveBack setup id i) := by
  unfold giveBack
  split
  · exact .of_idled hx ((within_supply setup).teardown x rfl)
  · have hback : Unmoved x (x.withPool id fun p h => p.release (supply setup) i h) :=
      unmoved_withPool hx id (fun _ hp => Pool.stays_release (within_supply setup) hp i x)
        fun p => Pool.closed_of_release (supply setup) p i x
    exact hback.trans (unmoved_settlePool setup (hback.orderly hx) id)

theorem unmoved_obtain (setup : HostSetup) (hx : x.Orderly) (depth : UInt32) (id : PoolId) :
    Unmoved x (x.obtain setup depth id).2 := by
  unfold obtain
  -- a nested call gets an instance of its own, the pool is not asked
  split
  · exact .of_same hx (takeDetached_frame setup x id).1 (takeDetached_frame setup x id).2.1
      (tended_takeDetached hx).nextPool
  · cases hp : x.pools.get? id with
    | none =>
      rw [takeReady_of_none hp]
      exact .of_same hx rfl rfl rfl
    | some p =>
      have hclosed : (asked setup p x).1.closed = p.closed :=
        (Pool.closed_of_settle (supply setup) p.acquire.2 x).trans
          (Pool.control_closed_acquire p).2
      have hstays : Pool.Stays Idled p x (asked setup p x).1 (asked setup p x).2 :=
        stays_asked (hx.quiet hp) x
      have hmoved := Unmoved.insert hx hp hstays hclosed
      rw [takeReady_of_some hp]
      exact hmoved.trans (unmoved_claim (hmoved.orderly hx) id p.acquire.1)

theorem unmoved_leave (setup : HostSetup) (hx : x.Orderly) (q : Queued) :
    Unmoved x (x.leave setup q) := by
  have hleft : Unmoved x (x.dequeue q) := .of_same hx rfl rfl rfl
  have hclaimed := hleft.trans (unmoved_claim (hleft.orderly hx) q.pool q.ticket)
  obtain ⟨taken, y, hclaim, hleave⟩ := leave_cases setup x q
  rw [hclaim] at hclaimed
  have hy := hclaimed.orderly hx
  -- an instance that was already set aside for the caller is discarded
  obtain ⟨i, -, heq⟩ | ⟨-, heq⟩ := hleave
  · have hgone := hclaimed.trans (unmoved_withPool hy q.pool
      (fun _ hp => Pool.stays_discard (within_supply setup) hp i y)
      fun p => Pool.closed_of_discard (supply setup) p i y)
    rw [heq]
    exact hgone.trans (unmoved_settlePool setup (hgone.orderly hx) q.pool)
  · have hgone := hclaimed.trans (unmoved_withPool hy q.pool
      (f := fun p z => (p.cancel q.ticket, z))
      (fun p hp => ⟨Pool.label_cancel p _, hp.cancel _, Idled.refl y⟩)
      fun p => Pool.closed_of_cancel p q.ticket)
    rw [heq]
    exact hgone.trans (unmoved_settlePool setup (hgone.orderly hx) q.pool)

theorem unmoved_abandonLease (setup : HostSetup) (hx : x.Orderly) (l : Lease) :
    Unmoved x (x.abandonLease setup l) := by
  have hremoved : Unmoved x { x with registry := x.registry.remove l.handle } :=
    .of_same hx rfl rfl rfl
  have hgone := unmoved_withPool (hremoved.orderly hx) l.pool
    (fun _ hp => Pool.stays_discard (within_supply setup) hp l.inst
      { x with registry := x.registry.remove l.handle })
    fun p => Pool.closed_of_discard (supply setup) p l.inst _
  have hboth := hremoved.trans hgone
  exact hboth.trans (unmoved_settlePool setup (hboth.orderly hx) l.pool)

theorem unmoved_resetKey (setup : HostSetup) (hx : x.Orderly) (key : String) :
    Unmoved x (x.resetKey setup key) := by
  unfold resetKey
  split
  · exact .of_same hx rfl rfl rfl
  · exact unmoved_tell setup hx _ (fun _ hp => hp.requestReset) Pool.label_requestReset
      fun p => Pool.closed_signal p _

end

/-! ### Properties that last -/

variable {τ : Type} [LedgerAccess τ] {setup : HostSetup} {P : Host τ → Prop} {x y : Host τ}
variable {invoke : Invoker τ}

/-- A property of orderly hosts that survives work on pools, opening a pool, and closing one. -/
structure Lasting (setup : HostSetup) (P : Host τ → Prop) : Prop where
  /-- The host is orderly. -/
  orderly : ∀ {x}, P x → x.Orderly
  /-- The property survives work on pools. -/
  work : ∀ {x y}, P x → Unmoved x y → P y
  /-- It survives the opening of a pool. -/
  openPool : ∀ {x}, P x → ∀ c code, P (x.openPool setup c code).2
  /-- It survives the closing of one. -/
  closeKey : ∀ {x}, P x → ∀ key, P (x.closeKey setup key)

/-- Whoever carries out calls leaves the property. -/
def Invoker.Leaves (P : Host τ → Prop) (invoke : Invoker τ) : Prop :=
  ∀ {call : Call} {x : Host τ}, P x → P (invoke call x).2

namespace Lasting

theorem elsewhere (h : Lasting setup P) (hx : P x) (hpools : y.pools = x.pools)
    (hregistered : y.registered = x.registered) (hnext : y.nextPool = x.nextPool) : P y :=
  h.work hx (.of_same (h.orderly hx) hpools hregistered hnext)

omit [LedgerAccess τ] in
theorem foldl {f : Host τ → String → Host τ} (hf : ∀ {y} key, P y → P (f y key)) :
    ∀ (keys : List String) {y : Host τ}, P y → P (keys.foldl f y) := by
  intro keys
  induction keys with
  | nil => exact id
  | cons key keys ih => exact fun hy => ih (hf key hy)

/-- **It survives orders.** -/
theorem carryOut (h : Lasting setup P) (hx : P x) (order : Order) : P (x.carryOut setup order) := by
  have hreset {y : Host τ} (key : String) (hy : P y) : P (y.resetKey setup key) :=
    h.work hy (unmoved_resetKey setup (h.orderly hy) key)
  cases order with
  | «open» c code => exact h.openPool hx c code
  | close c => exact h.closeKey hx c.key
  | closeAll => exact foldl (P := P) (fun key hy => h.closeKey hy key) x.poolKeys hx
  | reset c => exact hreset c.key hx
  | resetAll => exact foldl (P := P) hreset x.poolKeys hx

/-! ### Requests -/

theorem log (h : Lasting setup P) (linkage : Linkage) (ptr len : Int32) (m : Memory) (hx : P x) :
    P (x.log linkage ptr len m) := by
  obtain ⟨registry, journal, heq⟩ := annotated_log linkage ptr len m x
  rw [heq]
  exact h.elsewhere hx rfl rfl rfl

theorem answer (h : Lasting setup P) (linkage : Linkage) (c : Context) (served : Served)
    (caller : Caller) (hx : P x) : P (x.answer linkage c served caller).2.2 := by
  have hrecorded (e : SyscallError) : P (x.record c e) := h.elsewhere hx rfl rfl rfl
  unfold Host.answer
  split
  · exact hx
  · exact hx
  · exact hrecorded _
  · split
    · exact hx
    · exact hrecorded _

theorem serveOn (h : Lasting setup P) {α : Type} (c : Context) (r : Serving τ α) (hx : P x) :
    P (x.serveOn c r).2 :=
  h.elsewhere hx rfl rfl rfl

theorem serveCall (h : Lasting setup P) (hinvoke : Invoker.Leaves P invoke) (c : Context)
    (body : Bytes) (caller : Caller) (hx : P x) :
    P (x.serveCall setup invoke c body caller).2.2 := by
  have hserved := h.serveOn c (callOf setup caller.gas body) hx
  unfold Host.serveCall
  generalize x.serveOn c (callOf setup caller.gas body) = asked at hserved ⊢
  obtain ⟨result, y⟩ := asked
  -- before, during and after the nested call
  cases result with
  | error e => exact hserved
  | ok found =>
    obtain ⟨ptr, call⟩ := found
    have hcalled : P (invoke call y).2 := hinvoke hserved
    dsimp only
    generalize invoke call y = ended at hcalled ⊢
    obtain ⟨completion, z⟩ := ended
    cases completion with
    | suspended => exact hcalled
    | finished result =>
      cases result with
      | error e => exact hcalled
      | ok o => exact h.serveOn (z.current c) (absorb ptr o) hcalled

/-- **It survives requests**, whoever makes them and however they end. -/
theorem request (h : Lasting setup P) (hinvoke : Invoker.Leaves P invoke) (linkage : Linkage)
    (regions : Regions) (caller : Caller) (hx : P x) :
    P (x.request setup invoke linkage regions caller).2.2 := by
  unfold Host.request
  split
  · exact hx
  · rename_i c name body _
    have hserved : P (x.serveRequest setup invoke c name body caller).2.2 := by
      unfold serveRequest
      split
      · exact h.serveCall hinvoke c body caller hx
      · exact h.serveOn c (serve setup.crypto name body) hx
    exact h.answer linkage c _ _ hserved

/-! ### Calls -/

theorem course (h : Lasting setup P) (hinvoke : Invoker.Leaves P invoke) {linkage : Linkage}
    {start m : Machine (Host τ)} {visits : List (Visit (Host τ))}
    (hcourse : Course (hostCalls setup invoke) linkage start visits m) (hstart : P start.world) :
    P m.world :=
  hcourse.keeps (fun ptr len m _ hx => h.log linkage ptr len m hx)
    (fun regions caller _ hx => h.request hinvoke linkage regions caller hx) hstart

theorem callGuest (h : Lasting setup P) (hinvoke : Invoker.Leaves P invoke) (breaksOff : Bool)
    (c : Context) (budget : UInt64) (i : Instance) (hx : P x) :
    P (callGuest setup.guest (hostCalls setup invoke) breaksOff c budget i x).2.2 := by
  have hfollows := follows_callGuest setup.guest (hostCalls setup invoke) breaksOff c budget i x
  by_cases hends : (Host.callGuest setup.guest (hostCalls setup invoke) breaksOff c budget i x).1 =
      .error .suspended
  · exact (hfollows.broken hends).keeps (fun ptr len m _ hx => h.log _ ptr len m hx)
      (fun regions caller _ hx => h.request hinvoke _ regions caller hx) hx
  · obtain ⟨visits, hcourse⟩ := hfollows.course hends
    exact h.course hinvoke hcourse hx

theorem admits (h : Lasting setup P) : Admits setup P fun _ _ _ => True where
  openPool := h.openPool
  obtain hx depth id := ⟨h.work hx (unmoved_obtain setup (h.orderly hx) depth id),
    fun _ _ => trivial⟩
  claim hx id ticket := ⟨h.work hx (unmoved_claim (h.orderly hx) id ticket), fun _ _ => trivial⟩
  queued hx _ := h.elsewhere hx rfl rfl rfl
  giveBack hx _ := h.work hx (unmoved_giveBack setup (h.orderly hx) _ _)

theorem enter (h : Lasting setup P) (e : Entry) (hx : P x) :
    (∀ ended, x.enter setup e = .error ended → P ended.2) ∧
      ∀ s, x.enter setup e = .ok s → P s.host := by
  have hadmitted := h.admits.enter e hx
  constructor
  · rintro ended henter
    rw [henter] at hadmitted
    exact hadmitted
  · rintro s henter
    rw [henter] at hadmitted
    obtain ⟨i, y, registry, hy, -, -, hhost⟩ := hadmitted
    rw [hhost]
    exact h.elsewhere hy rfl rfl rfl

theorem conclude (h : Lasting setup P) (id : PoolId) (c : Context) (ended : Except CallFault Unit)
    (i : Instance) (hx : P x) : P (x.conclude setup id c ended i).2 := by
  have hremoved : P { x with registry := x.registry.remove c.handle } :=
    h.elsewhere hx rfl rfl rfl
  have hback := h.work hremoved
    (unmoved_giveBack setup (h.orderly hremoved) id (noted setup c ended i))
  obtain ⟨-, heq⟩ | ⟨-, heq⟩ := snd_conclude setup x id c ended i
  · rw [heq]
    exact hback
  · rw [heq]
    exact h.closeKey hback c.contract.key

theorem perform_succ (h : Lasting setup P) {breaksOff : Bool} {levels : Nat}
    (hinner : Invoker.Leaves P (invokeWithin setup breaksOff levels)) (e : Entry) (hx : P x) :
    P (x.perform setup breaksOff (levels + 1) e).2 := by
  have hcarried := carried_perform setup breaksOff levels e x
  obtain ⟨hearly, hbegun⟩ := h.enter e hx
  have hran {s : Begun τ} (henter : x.enter setup e = .ok s) :
      P (Host.callGuest setup.guest (hostCalls setup (Host.invokeWithin setup breaksOff levels))
        breaksOff s.context (budgetOf setup e.call) s.inst s.host).2.2 :=
    h.callGuest hinner breaksOff s.context (budgetOf setup e.call) s.inst (hbegun s henter)
  generalize x.perform setup breaksOff (levels + 1) e = ended at hcarried ⊢
  -- on entry, along the course of the guest, and at the conclusion
  cases hcarried with
  | early henter => exact hearly _ henter
  | brokenOff henter hguest =>
    have hz := hran henter
    rw [hguest] at hz
    exact h.elsewhere hz rfl rfl rfl
  | @concluded s ended i z henter hguest hends =>
    have hz := hran henter
    rw [hguest] at hz
    exact h.conclude s.pool s.context ended i hz

theorem invokeWithin (h : Lasting setup P) (breaksOff : Bool) (levels : Nat) :
    Invoker.Leaves P (invokeWithin setup breaksOff levels) := by
  induction levels with
  | zero => exact fun hx => hx
  | succ levels ih => exact fun {call _} hx => h.perform_succ ih (.new call) hx

/-- **It survives calls**, however many levels are nested, whether they have waited or not, and even
if they are broken off. -/
theorem perform (h : Lasting setup P) (breaksOff : Bool) (levels : Nat) (e : Entry) (hx : P x) :
    P (x.perform setup breaksOff (levels + 1) e).2 :=
  h.perform_succ (h.invokeWithin breaksOff levels) e hx

/-! ### Whatever happens -/

/-- **It survives whatever happens on a host.** -/
theorem happens (h : Lasting setup P) {u v : Tenancy τ} (hhappens : Happens setup u v)
    (hu : P u.host) : P v.host := by
  have horderly := h.orderly hu
  -- step by step, as each is one of the ways the property lasts through
  cases hhappens with
  | move busy x ledger journal stalled uptime => exact h.elsewhere hu rfl rfl rfl
  | order busy x order => exact h.carryOut hu order
  | wait busy x id milliseconds =>
    exact h.work hu (unmoved_tell setup horderly id (fun _ hp => hp) (fun _ => rfl) fun _ => rfl)
  | advance busy x id seconds =>
    exact h.work hu (unmoved_tell setup horderly id (fun _ hp => hp) (fun _ => rfl) fun _ => rfl)
  | @serve busy x y breaksOff levels e result hperform =>
    have hy := h.perform breaksOff levels e hu
    rw [hperform] at hy
    exact hy
  | @suspend busy left x y breaksOff levels e hperform hleft =>
    have hy := h.perform breaksOff levels e hu
    rw [hperform] at hy
    exact hy
  | leave busy x q => exact h.work hu (unmoved_leave setup horderly q)
  | @enter busy x e s henter => exact (h.enter e hu).2 s henter
  | run hl hlinked hcourse hran => exact h.course (h.invokeWithin _ _) hcourse hu
  | rewrite hl hrewritten =>
    obtain ⟨c, -, heq⟩ := hrewritten
    rw [heq]
    exact h.elsewhere hu rfl rfl rfl
  | conclude hl hc ended => exact h.conclude _ _ ended _ hu
  | abandon hl => exact h.work hu (unmoved_abandonLease setup horderly _)

theorem of_run (h : Lasting setup P) {u v : Tenancy τ}
    (hrun : Relation.ReflTransGen (Happens setup) u v) (hu : P u.host) : P v.host := by
  induction hrun with
  | refl => exact hu
  | tail _ hhappens ih => exact h.happens hhappens ih

end Lasting

end Host

end ContractHost
