import ContractHost.Proofs.Host.Alike
import ContractHost.Proofs.Invocation.Handles
import Mathlib.Algebra.Group.Nat.Defs

/-!
# Nested calls

A nested call makes its instance of the module that is filed, and gives it up at the end.  So on two
hosts that are alike it comes to the same, however many levels are nested in it, and leaves the
hosts alike.  It always comes to an end: it waits for no pool, and a loop without end uses up its
gas.

## Main results

* `Host.alike_callGuest`, `alike_conclude` — the steps on the instance, and the outcome.
* `Host.alike_runOn` — **on instances that match, a call comes to the same.**
* `Host.settles_invokeWithin` — **nested calls come to the same, and to an end.**
-/

namespace ContractHost

namespace Host

variable {τ : Type} [LedgerAccess τ] {D : ContractId → Code → Prop} {setup : HostSetup}
variable {L : Listing τ D} {keys : List Int32} {x x' : Host τ} {handle : Int32} {c c' : Context}

namespace Alike

theorem remove (h : Alike setup L keys x x') (handle : Int32) :
    Alike setup L (keys.filter fun k => compare k handle != .eq)
      { x with registry := x.registry.remove handle }
      { x' with registry := x'.registry.remove handle } where
  ledger := h.ledger
  lists := h.lists
  last := h.last
  contexts := h.contexts.erase handle
  keys := by
    show (x.registry.contexts.erase handle).keys = _
    rw [OrderedMap.keys_erase, h.keys]
  made := h.made.congr rfl rfl rfl
  made' := h.made'.congr rfl rfl rfl

theorem closeKey (h : Alike setup L keys x x') (key : String) :
    Alike setup L keys (x.closeKey setup key) (x'.closeKey setup key) := by
  have hclosed := refiled_closeKey setup h.made.orderly key
  have hclosed' := refiled_closeKey setup h.made'.orderly key
  exact h.around ⟨hclosed.ledger, hclosed.registry⟩ ⟨hclosed'.ledger, hclosed'.registry⟩
    (Files.closeKey h.made key) (Files.closeKey h.made' key)

theorem openPool (hslots : setup.config.engine.poolingAllocator = false)
    (h : Alike setup L keys x x') {c : ContractId} {code : Code} (hc : D c code) :
    Alike setup L keys (x.openPool setup c code).2 (x'.openPool setup c code).2 := by
  obtain ⟨hledger, hregistry, -⟩ := openPool_frame h.made.orderly c code
  obtain ⟨hledger', hregistry', -⟩ := openPool_frame h.made'.orderly c code
  exact h.around ⟨hledger, hregistry⟩ ⟨hledger', hregistry'⟩
    (Made.openPool hslots h.made hc) (Made.openPool hslots h.made' hc)

/-- **Both find a pool of one module**, or none for the same reason, and are alike afterwards. -/
theorem opened (hslots : setup.config.engine.poolingAllocator = false) (hD : Unambiguous setup D)
    (h : Alike setup L keys x x') {c : ContractId} {code : Code} (hc : D c code) :
    Agree (fun id id' => ∃ m, (x.openPool setup c code).2.Gives id m ∧
        (x'.openPool setup c code).2.Gives id' m)
      (x.openPool setup c code).1 (x'.openPool setup c code).1 ∧
      Alike setup L keys (x.openPool setup c code).2 (x'.openPool setup c code).2 :=
  ⟨(agree_openPool hslots hD h.made hc).join (agree_openPool hslots hD h.made' hc),
    h.openPool hslots hc⟩

theorem takeDetached (h : Alike setup L keys x x') (id id' : PoolId) :
    Alike setup L keys (x.takeDetached setup id).2 (x'.takeDetached setup id').2 :=
  h.tended (tended_takeDetached h.made.orderly) (tended_takeDetached h.made'.orderly)

theorem takeReady (h : Alike setup L keys x x') (id id' : PoolId) :
    Alike setup L keys (x.takeReady setup id).2 (x'.takeReady setup id').2 :=
  h.tended (tended_takeReady h.made.orderly) (tended_takeReady h.made'.orderly)

/-- **An invocation is registered under the same handle in both**, and when it is removed the same
invocations are under way as before. -/
theorem register (h : Alike setup L keys x x') (hc : ∃ n, c' = { c with instanceId := n }) :
    Agree (fun a b => Context.Alike a.1.handle a.1 b.1 ∧
        ∃ more : List Int32, more.filter (fun k => compare k a.1.handle != .eq) = keys ∧
          a.1.handle ∈ more ∧
          Alike setup L more { x with registry := a.2 } { x' with registry := b.2 })
      (x.registry.register c) (x'.registry.register c') := by
  have hfree := Registry.freeAfter_congr h.contexts.contains
    (min handleLimit (x.registry.contexts.size + 1)) x.registry.last
  unfold Registry.register
  rw [← h.last, ← h.contexts.size, ← hfree]
  cases hn : Registry.freeAfter x.registry.contexts
      (min handleLimit (x.registry.contexts.size + 1)) x.registry.last with
  | none => exact .error _
  | some n =>
    obtain ⟨number, rfl⟩ := hc
    have hcontext : Context.Alike (Int32.ofNat n) { c with handle := Int32.ofNat n }
        { c with handle := Int32.ofNat n, instanceId := number } := ⟨⟨number, rfl⟩, rfl⟩
    -- the handle was free, so the invocations without it are those of before
    have hnone : x.registry.contexts.get? (Int32.ofNat n) = none :=
      Option.isSome_eq_false_iff.mp (Registry.contains_freeAfter hn) |> Option.isNone_iff_eq_none.mp
    refine .ok ⟨hcontext, _, ?_, ?_, h.ledger, h.lists, rfl, h.contexts.insert hcontext, rfl,
      h.made.congr rfl rfl rfl, h.made'.congr rfl rfl rfl⟩
    · rw [← OrderedMap.keys_erase, OrderedMap.erase_insert hnone, h.keys]
    · exact OrderedMap.mem_keys_of_get? (OrderedMap.get?_insert_self _ _ _)

end Alike

/-! ### Steps of a call -/

/-- **The steps on the instance come to the same.** -/
theorem alike_callGuest {calls : HostCalls (Host τ)}
    (hcalls : ∀ linkage : Linkage, linkage.breaksOff = false →
      HostCalls.Alike (Alike setup L keys) linkage calls calls)
    (h : Alike setup L keys x x') (hc : Context.Alike handle c c') (budget : UInt64)
    {i i' : Instance} (hi : (i.setGas budget).Same (i'.setGas budget)) :
    Instance.Ends (Alike setup L keys) (.error .suspended)
      (callGuest setup.guest calls false c budget i x)
      (callGuest setup.guest calls false c' budget i' x') := by
  obtain ⟨⟨n, rfl⟩, -⟩ := hc
  have hfits : i.Fits i' := ⟨hi.script, hi.pageLimit, hi.bound⟩
  have hbond := (hcalls (i.linkage false) rfl).bond
  exact (Instance.linked_callGuest setup.guest hbond hfits c budget (hi.machine h)).ends

theorem Alike.giveBack (h : Alike setup L keys x x') (id id' : PoolId) (i i' : Instance) :
    Alike setup L keys (x.giveBack setup id i) (x'.giveBack setup id' i') :=
  h.tended (tended_giveBack h.made.orderly i) (tended_giveBack h.made'.orderly i')

/-- **The outcome is the same, and the invocation is no longer under way.** -/
theorem alike_conclude (h : Alike setup L keys x x') (hc : Context.Alike handle c c')
    (result : Except CallFault Unit) {i i' : Instance} (hgas : i.gas = i'.gas) (id id' : PoolId) :
    (x.conclude setup id c result i).1 = (x'.conclude setup id' c' result i').1 ∧
      Alike setup L (keys.filter fun k => compare k handle != .eq)
        (x.conclude setup id c result i).2 (x'.conclude setup id' c' result i').2 := by
  have hremoved := h.remove handle
  have houtcome := (h.current hc).outcome
  have htx : LedgerAccess.txId x.ledger = LedgerAccess.txId x'.ledger :=
    congrArg LedgerAccess.txId h.ledger
  unfold conclude
  rw [← houtcome, ← hgas, hc.handle, hc.handle_eq]
  obtain ⟨⟨n, rfl⟩, -⟩ := hc
  dsimp only
  split
  · exact ⟨rfl, hremoved.giveBack id id' _ _⟩
  · rw [htx]
    split
    · exact ⟨rfl, (hremoved.giveBack id id' i i').closeKey c.contract.key⟩
    · exact ⟨rfl, hremoved.giveBack id id' _ _⟩

/-! ### Calls -/

/-- A call that was not broken off is concluded. -/
theorem runOn_of_register {calls : HostCalls (Host τ)} {call : Call} {id : PoolId} {i j : Instance}
    {registry : Registry} {result : Except CallFault Unit} {y : Host τ}
    (hregister : x.registry.register (contextOf call i) = .ok (c, registry))
    (hguest : callGuest setup.guest calls false c
      (UInt64.ofNat (setup.gasLimit - call.gasUsed.toNat)) (i.bind c.handle)
      { x with registry } = (result, j, y))
    (hends : result ≠ .error .suspended) :
    x.runOn setup calls false call id i =
      (.finished (.ok (y.conclude setup id c result j).1), (y.conclude setup id c result j).2) := by
  unfold runOn
  rw [hregister]
  dsimp only
  rw [hguest]
  cases result with
  | ok u => rfl
  | error e =>
    cases e with
    | suspended => exact absurd rfl hends
    | error e => rfl
    | crashed message => rfl

/-- **On instances that match, a call comes to the same, and to an end.** -/
theorem alike_runOn {invoke : Invoker τ} (hinvoke : Settles setup L invoke)
    (h : Alike setup L keys x x') (call : Call) {i i' : Instance}
    (hi : i.Matches i') (id id' : PoolId) :
    ∃ result,
      (x.runOn setup (hostCalls setup invoke) false call id i).1 = .finished result ∧
      (x'.runOn setup (hostCalls setup invoke) false call id' i').1 = .finished result ∧
      Alike setup L keys (x.runOn setup (hostCalls setup invoke) false call id i).2
        (x'.runOn setup (hostCalls setup invoke) false call id' i').2 := by
  -- either both calls are registered, under one handle, or neither is
  let budget := UInt64.ofNat (setup.gasLimit - call.gasUsed.toNat)
  have hcontext : ∃ n, contextOf call i' = { contextOf call i with instanceId := n } := ⟨_, rfl⟩
  have hregister := h.register hcontext
  cases hr : x.registry.register (contextOf call i) with
  | error e =>
    cases hr' : x'.registry.register (contextOf call i') with
    | ok b =>
      rw [hr, hr'] at hregister
      cases hregister
    | error e' =>
      rw [hr, hr'] at hregister
      cases hregister
      unfold runOn
      rw [hr, hr']
      exact ⟨_, rfl, rfl, h.giveBack id id' i i'⟩
  | ok a =>
    cases hr' : x'.registry.register (contextOf call i') with
    | error e =>
      rw [hr, hr'] at hregister
      cases hregister
    | ok b =>
      rw [hr, hr'] at hregister
      obtain ⟨c, registry⟩ := a
      obtain ⟨c', registry'⟩ := b
      cases hregister with
      | ok hab =>
        obtain ⟨hc, more, hmore, -, hboth⟩ := hab
        have hstart : ((i.bind c.handle).setGas budget).Same
            ((i'.bind c'.handle).setGas budget) := by
          rw [hc.handle_eq]
          exact hi.start c.handle budget
        have hguest := alike_callGuest (fun _ hsteady => alike_hostCalls hinvoke hsteady) hboth hc
          budget hstart
        cases hg : callGuest setup.guest (hostCalls setup invoke) false c budget (i.bind c.handle)
            { x with registry } with
        | mk result rest =>
          cases hg' : callGuest setup.guest (hostCalls setup invoke) false c' budget
              (i'.bind c'.handle) { x' with registry := registry' } with
          | mk result' rest' =>
            obtain ⟨j, y⟩ := rest
            obtain ⟨j', y'⟩ := rest'
            rw [hg, hg'] at hguest
            obtain ⟨hresult, hends, hj, hy⟩ := hguest
            cases hresult
            obtain ⟨houtcome, hend⟩ := alike_conclude hy hc result hj.gas id id'
            rw [runOn_of_register hr hg hends, runOn_of_register hr' hg' hends]
            exact ⟨_, rfl, by rw [houtcome], hmore ▸ hend⟩

/-- **Nested calls come to the same, and to an end**, however many levels there are. -/
theorem settles_invokeWithin (hslots : setup.config.engine.poolingAllocator = false)
    (hD : Unambiguous setup D) (L : Listing τ D) :
    ∀ levels : Nat, Settles setup L (invokeWithin setup false levels) := by
  intro levels
  induction levels with
  | zero =>
    -- no level is left, and the call is refused
    intro keys call x x' _ _ h
    exact ⟨_, rfl, rfl, h⟩
  | succ levels ih =>
    intro keys call x x' hnested hcall h
    unfold invokeWithin
    dsimp only
    split
    · exact ⟨_, rfl, rfl, h⟩
    · obtain ⟨hgives, hopened⟩ := h.opened hslots hD hcall
      generalize x.openPool setup call.contract call.code = a at hgives hopened ⊢
      generalize x'.openPool setup call.contract call.code = a' at hgives hopened ⊢
      obtain ⟨opened, y⟩ := a
      obtain ⟨opened', y'⟩ := a'
      cases hgives with
      | error e => exact ⟨_, rfl, rfl, hopened⟩
      | @ok id id' hids =>
        obtain ⟨m, hid, hid'⟩ := hids
        obtain ⟨htaken, hhere⟩ := alike_takeDetached hslots hid hid'
        have hafter := hopened.takeDetached id id'
        -- a nested call makes an instance of its own, so what the pools hold does not show
        simp only [Host.obtain, if_pos hnested]
        generalize y.takeDetached setup id = b at htaken hhere hafter ⊢
        generalize y'.takeDetached setup id' = b' at htaken hafter ⊢
        obtain ⟨taken, z⟩ := b
        obtain ⟨taken', z'⟩ := b'
        cases htaken with
        | refused e => exact ⟨_, rfl, rfl, hafter⟩
        | waiting ticket ticket' => exact absurd rfl (hhere ticket)
        | «instance» hi => exact alike_runOn ih hafter call hi id id'

end Host

end ContractHost
