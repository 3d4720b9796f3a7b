import ContractHost.Proofs.Host.CallTree
import ContractHost.Proofs.Host.History
import ContractHost.Proofs.Host.Letters

/-!
# Failures spread upwards

When a call fails, an error is recorded in the invocation that asked for it, and no request takes
the mark of a failure away again.  So no script can hide that a call below it has failed: whatever
it does afterwards, its own outcome is a failure.  What the failed call has written is then never
part of a transaction that is reported as successful.

## Main definitions

* `Host.root` — a topmost call as the top of its tree.

## Main results

* `Host.isSuccess_conclude` — an invocation that is marked as failed has failed at its end.
* `Attempt.Ended.failed` — **a call fails if one below it does.**
* `Host.failure_spreads` — **a failure anywhere in a tree reaches everything above it.**
-/

namespace ContractHost

variable {τ : Type} [LedgerAccess τ] {setup : HostSetup}

namespace Host

/-- A topmost call, which may have waited, with the tree of calls below it. -/
def root (setup : HostSetup) (e : Entry) (x : Host τ) : Attempt τ :=
  ⟨setup.gasLimit + 1, e, x⟩

theorem result_root (setup : HostSetup) (call : Call) (x : Host τ) :
    (x.root setup (.new call)).result setup = (x.invoke setup call).1 :=
  (withdraw_fst x _).symm

/-- What a call comes to succeeds only if the invocation was not marked as failed. -/
theorem isSuccess_conclude {x : Host τ} {id : PoolId} {c : Context} {result : Except CallFault Unit}
    {i : Instance} (h : (x.conclude setup id c result i).1.isSuccess = true) :
    (x.current c).outcome.isSuccess = true := by
  obtain ⟨o, hcode, -, -, houtcome⟩ := outcome_conclude setup id c result i x
  rw [houtcome] at h
  split at h
  · -- nothing went wrong, and the code is that of the invocation
    unfold Outcome.isSuccess at h ⊢
    rw [← hcode]
    exact h
  · cases h

end Host

namespace Attempt

variable {a : Attempt τ}

/-- **A call fails if one below it does.** -/
theorem Ended.failed (ha : a.Ended setup) :
    ∀ d ∈ a.below setup, (d.result setup).Failed →
      ∃ o, a.result setup = .finished (.ok o) ∧ o.isSuccess = false := by
  refine induct (P := fun a => a.Ended setup → ∀ d ∈ a.below setup, (d.result setup).Failed →
    ∃ o, a.result setup = .finished (.ok o) ∧ o.isSuccess = false) setup ?_ a ha
  intro a ih ha d hd hfailed
  obtain ⟨b, hb, hd⟩ := mem_below.mp hd
  -- the call nested in this one has failed, by itself or for what is below it
  have hnested : (b.result setup).Failed := by
    rw [family_eq] at hd
    rcases List.mem_cons.mp hd with rfl | hd
    · exact hfailed
    · obtain ⟨o, hresult, ho⟩ := ih b hb (ha.nested hb) d hd hfailed
      rw [hresult]
      exact ho
  -- so the invocation of this one is marked, and its outcome with it
  obtain ⟨s, result, i, y, c, hran, hresult, v, -, -, hsequel⟩ := ha.sequel hb
  refine ⟨_, hresult, Bool.eq_false_iff.mpr fun hsuccess => ?_⟩
  have hcurrent := Host.isSuccess_conclude hsuccess
  rw [hran.underway.current hran.advances.handle.symm, hsequel.failed hnested] at hcurrent
  cases hcurrent

end Attempt

/-- **A failure anywhere in a tree of calls reaches everything above it**: whatever call fails, with
an outcome or without one, every call above it has an outcome with a code other than zero.  So if
the topmost call reports success, every call that was attempted below it has succeeded.  That call
may have waited for its instance, and the host may be any one that is orderly, as every host in
service is. -/
theorem Host.failure_spreads {x : Host τ} {e : Entry} {result : Except ExecutionError Outcome}
    (hx : x.Orderly) (hended : (x.root setup e).result setup = .finished result) :
    (∀ t ∈ (x.root setup e).family setup, ∀ d ∈ t.below setup, (d.result setup).Failed →
      ∃ o, t.result setup = .finished (.ok o) ∧ o.code ≠ 0) ∧
    (∀ o, result = .ok o → o.code = 0 → ∀ d ∈ (x.root setup e).below setup,
      ∃ o', d.result setup = .finished (.ok o') ∧ o'.code = 0) := by
  have hroot : (x.root setup e).Ended setup := ⟨hx, result, hended⟩
  constructor
  · intro t ht d hd hfailed
    obtain ⟨o, hresult, ho⟩ := (hroot.family t ht).failed d hd hfailed
    exact ⟨o, hresult, of_decide_eq_false ho⟩
  · rintro o rfl hcode d hd
    have hended' : (d.Ended setup) := by
      refine hroot.family d ?_
      rw [Attempt.family_eq]
      exact List.mem_cons_of_mem _ hd
    obtain ⟨result, hresult⟩ := hended'.finished
    -- if anything below had failed, the root would have failed too
    have hsucceeded : ¬ (d.result setup).Failed := by
      intro hfailed
      obtain ⟨o', hroot', ho⟩ := hroot.failed d hd hfailed
      have hsame : o' = o := by
        have := hroot'.symm.trans hended
        cases this
        rfl
      rw [hsame] at ho
      exact of_decide_eq_false ho hcode
    rw [hresult] at hsucceeded ⊢
    cases result with
    | error e => exact absurd trivial hsucceeded
    | ok o' => exact ⟨o', rfl, of_decide_eq_true ((Bool.not_eq_false _).mp hsucceeded)⟩

namespace Host

/-! ### A failure below a call -/

/-- The code of the outcome of a call. -/
def code? : Completion → Option UInt32
  | .finished (.ok o) => some o.code
  | _ => none

theorem exists_of_code? {result : Completion} {code : UInt32} (h : code? result = some code) :
    ∃ o, result = .finished (.ok o) ∧ o.code = code := by
  cases result with
  | suspended => cases h
  | finished result =>
    cases result with
    | error e => cases h
    | ok o => exact ⟨o, rfl, Option.some.inj h⟩

/-- A host with a contract that traps. -/
def trappedHost : Host Session :=
  let trapping : Script := { methods := [("run", { body := [.trap] })] }
  { ledger := ⟨Ledger.deploy {} ⟨"trapping", "1"⟩ ⟨[1], some trapping⟩, default⟩ }

theorem orderly_trappedHost : trappedHost.Orderly :=
  .of_empty trappedHost.ledger

/-- A call of a contract that calls the contract that traps, and does nothing else. -/
def relaying : Call :=
  let header := headerOf 1 .callContractLen
  let body := Packet.encode ⟨[⟨.user, "contract_name", .text "trapping"⟩,
    ⟨.user, "method", .text "run"⟩, ⟨.user, "value_ptr", .int32 0⟩]⟩
  let request : Action := .request 1024 (Int32.ofNat header.length)
    (Int32.ofNat (1024 + header.length)) (Int32.ofNat body.length)
  let script : Script :=
    { data := [(1024, header ++ body)], methods := [("run", { body := [request] })] }
  { contract := ⟨"relaying", "1"⟩, code := ⟨[1], some script⟩, method := "run" }

theorem code?_relaying : code? (trappedHost.invoke singleSetup relaying).1 = some 1 := by
  decide +kernel

/-- The contract that traps fails, and so does the one that has called it. -/
theorem failure_spreads_relaying :
    ∃ d ∈ (trappedHost.root singleSetup (.new relaying)).below singleSetup,
      (d.result singleSetup).Failed ∧
        ∃ o, (trappedHost.invoke singleSetup relaying).1 = .finished (.ok o) ∧ o.code ≠ 0 := by
  have hcodes : ((trappedHost.root singleSetup (.new relaying)).below singleSetup).map
      (fun d => code? (d.result singleSetup)) = [some 1] := by decide +kernel
  obtain ⟨d, rest, hbelow, hd, -⟩ := List.map_eq_cons_iff.mp hcodes
  obtain ⟨inner, hinner, hone⟩ := exists_of_code? hd
  obtain ⟨outer, houter, -⟩ := exists_of_code? code?_relaying
  have hfailed : (d.result singleSetup).Failed := by
    rw [hinner]
    show inner.isSuccess = false
    unfold Outcome.isSuccess
    rw [hone]
    rfl
  have hmem : d ∈ (trappedHost.root singleSetup (.new relaying)).below singleSetup := by
    rw [hbelow]
    exact List.mem_cons_self
  have hroot : trappedHost.root singleSetup (.new relaying) ∈
      (trappedHost.root singleSetup (.new relaying)).family singleSetup := by
    rw [Attempt.family_eq]
    exact List.mem_cons_self
  have hspreads := (failure_spreads orderly_trappedHost
    ((result_root singleSetup relaying trappedHost).trans houter)).1 _ hroot d hmem hfailed
  rw [result_root] at hspreads
  exact ⟨d, hmem, hfailed, hspreads⟩

end Host

end ContractHost
