import ContractHost.Proofs.Host.Propagation

/-!
# The gas of a tree of calls

A topmost call and all calls below it share one limit.  A nested call begins with what its caller
has left, and the caller goes on with what the call has left.  So what the outcome of a call reports
is what the callers above have used, and what all scripts of its tree have used by themselves.

A call that has used up the limit has failed, and says so.  Then nothing is left for its caller
either, and every call above it ends in the same way.

## Main definitions

* `HostSetup.RanOut` — the outcome of a call that has used up all gas.
* `Attempt.total` — the gas that all scripts of a tree have used by themselves.
* `Attempt.Accounted` — the books of a call are in order.

## Main results

* `Host.ranOut_conclude` — **a call says that it has run out of gas exactly if it has.**
* `Attempt.Ended.accounted` — **the books of every call are in order.**
* `Host.gas_conserved` — **the law for whole trees.**
-/

namespace ContractHost

variable {τ : Type} [LedgerAccess τ] {setup : HostSetup}

/-- The outcome says that all gas is used up. -/
def HostSetup.RanOut (setup : HostSetup) (o : Outcome) : Prop :=
  let limit := setup.config.execution.gasLimit
  ∃ txId before, o = Host.failedOutcome txId (ExecutionError.outOfGas limit limit).message before

/-! ### What stops a script -/

/-- The fault is laid on the gas. -/
def CallFault.blamesGas : CallFault → Bool
  | .error e => e.isOutOfGas
  | _ => false

section

variable {σ α : Type} {i : Instance} {x : σ} {e : CallFault}

/-- No run ends with a fault that is laid on the gas: exhaustion is a trap like others. -/
theorem Instance.blamesGas_of_call {r : Run σ α} (h : (i.call r x).1 = .error e) :
    e.blamesGas = false := by
  unfold call at h
  dsimp only at h
  cases hrun : (i.run r x).1 with
  | ok a =>
    rw [hrun] at h
    cases h
  | error halt =>
    rw [hrun] at h
    cases h
    cases halt <;> rfl

theorem Instance.blamesGas_of_notExported {name : String}
    (h : (i.notExported (α := α) name x).1 = .error e) : e.blamesGas = false := by
  cases h
  rfl

variable {guest : Guest} {host : HostCalls σ} {breaksOff : Bool}

theorem Instance.blamesGas_of_runtimeType
    (h : (i.runtimeType host breaksOff x guest).1 = .error e) : e.blamesGas = false := by
  unfold runtimeType at h
  split at h
  · exact blamesGas_of_call h
  · exact blamesGas_of_notExported h

theorem Instance.blamesGas_of_writeParams {params : Bytes}
    (h : (i.writeParams host breaksOff params x guest).1 = .error e) : e.blamesGas = false := by
  unfold writeParams at h
  -- of the ways to fail only the call of the allocator runs guest code
  split at h
  · exact blamesGas_of_notExported h
  · split at h
    · rename_i hcall
      cases h
      exact blamesGas_of_call (congrArg Prod.fst hcall)
    · dsimp only at h
      split at h
      · cases h
        rfl
      · split at h
        · exact blamesGas_of_notExported h
        · split at h
          · cases h
            rfl
          · cases h

theorem Instance.blamesGas_of_callMethod {name : String}
    (h : (i.callMethod host breaksOff name x guest).1 = .error e) : e.blamesGas = false := by
  unfold callMethod at h
  split at h
  · exact blamesGas_of_notExported h
  · split at h
    · cases h
      rfl
    · exact blamesGas_of_call h

/-- **No step of a call lays its fault on the gas.** -/
theorem Host.blamesGas_of_callGuest {c : Context} {budget : UInt64}
    (h : (callGuest guest host breaksOff c budget i x).1 = .error e) : e.blamesGas = false := by
  unfold callGuest at h
  split at h
  · rename_i hkind
    cases h
    exact Instance.blamesGas_of_runtimeType (congrArg Prod.fst hkind)
  · split at h
    · cases h
      rfl
    · dsimp only at h
      split at h
      · rename_i hparams
        cases h
        exact Instance.blamesGas_of_writeParams (congrArg Prod.fst hparams)
      · exact Instance.blamesGas_of_callMethod h

end

/-! ### Wordings -/

theorem ExecutionError.head_message {e : ExecutionError} (h : e.isOutOfGas = false)
    (rest : List Char) : (e.message.toList ++ rest).head? ≠ some 'o' := by
  cases e with
  | outOfGas used limit => cases h
  | _ =>
    unfold message
    dsimp only
    simp only [String.toList_append, List.append_assoc, List.head?_append]
    exact fun h => absurd (Option.some.inj h) (by decide)

theorem Host.head_faultText {e : CallFault} (h : e.blamesGas = false) (rest : List Char) :
    ((faultText e).toList ++ rest).head? ≠ some 'o' := by
  cases e with
  | error e => exact e.head_message h rest
  | crashed message =>
    unfold faultText
    simp only [String.toList_append, List.append_assoc, List.head?_append]
    exact fun h => absurd (Option.some.inj h) (by decide)
  | suspended => exact fun h => absurd (Option.some.inj h) (by decide)

/-! ### Outcomes -/

namespace Host

/-- How the message of a call begins in which something went wrong. -/
def failureLabel : String :=
  "contract invoke failed, "

/-- The message of a call in which something went wrong names the reason first. -/
theorem message_failedOutcome (txId reason : String) (o : Outcome) :
    ∃ rest, (failedOutcome txId reason o).message.toList =
      failureLabel.toList ++ (reason.toList ++ rest) := by
  refine ⟨", tx: ".toList ++ txId.toList, ?_⟩
  unfold failedOutcome failureLabel
  simp only [String.toList_append, List.append_assoc]
  rfl

theorem not_worded_failedOutcome (txId reason : String) (o : Outcome) :
    ¬ Worded (failedOutcome txId reason o).message := by
  obtain ⟨rest, hmessage⟩ := message_failedOutcome txId reason o
  unfold Worded
  rintro (hempty | ⟨label, hlabel, hbegins⟩)
  · rw [hempty] at hmessage
    exact absurd (congrArg List.length hmessage) (by simp [failureLabel])
  · rw [hmessage] at hbegins
    -- two beginnings of one text agree as far as both go
    have hagree := List.prefix_or_prefix_of_prefix hbegins (List.prefix_append _ _)
    have hnone : ∀ label ∈ entryLabels, ¬ (label.toList <+: failureLabel.toList ∨
        failureLabel.toList <+: label.toList) := by decide
    exact hnone label hlabel hagree

variable {x : Host τ} {id : PoolId} {c : Context} {result : Except CallFault Unit} {i : Instance}

/-- What the outcome of a call reports is what its instance has not left. -/
theorem gasUsed_conclude : (x.conclude setup id c result i).1.gasUsed =
    UInt64.ofNat (setup.gasLimit - i.gas.toNat) := by
  obtain ⟨o, -, -, hgas, houtcome⟩ := outcome_conclude setup id c result i x
  rw [houtcome]
  split
  · exact hgas
  · exact hgas

/-- **A call says that it has run out of gas exactly if it has.** -/
theorem ranOut_conclude (hworded : Worded (x.current c).outcome.message)
    (hfault : ∀ e, result = .error e → e.blamesGas = false) :
    setup.RanOut (x.conclude setup id c result i).1 ↔ i.gas = 0 := by
  obtain ⟨o, -, hmessage, -, houtcome⟩ := outcome_conclude setup id c result i x
  rw [houtcome]
  unfold reasonOf
  by_cases hgas : i.gas = 0
  · simp only [hgas, if_true, iff_true]
    exact ⟨_, o, rfl⟩
  · simp only [hgas, if_false, iff_false]
    rintro ⟨txId, before, hsame⟩
    cases result with
    | ok u =>
      dsimp only at hsame
      rw [← hmessage, hsame] at hworded
      exact not_worded_failedOutcome _ _ _ hworded
    | error e =>
      dsimp only at hsame
      have htext := congrArg Outcome.message hsame
      obtain ⟨rest, hrest⟩ := message_failedOutcome (LedgerAccess.txId x.ledger) (faultText e) o
      obtain ⟨rest', hrest'⟩ := message_failedOutcome txId (ExecutionError.outOfGas
        setup.config.execution.gasLimit setup.config.execution.gasLimit).message before
      have hreason := List.append_cancel_left ((hrest.symm.trans
        (congrArg String.toList htext)).trans hrest')
      -- the reason would begin as the one about gas does
      refine head_faultText (hfault e rfl) rest ?_
      rw [hreason]
      unfold ExecutionError.message
      simp only [String.toList_append, List.append_assoc, List.head?_append]
      rfl

end Host

/-! ### The books of a call -/

namespace Attempt

/-- The gas that all scripts of a tree have used by themselves. -/
def total (setup : HostSetup) (a : Attempt τ) : Nat :=
  ((a.family setup).map (own setup)).sum

/-- What a request costs: what the call that is nested in it uses, if there is one. -/
def cost (setup : HostSetup) (a : Attempt τ) (v : Visit (Host τ)) : Nat :=
  (a.nestedIn setup v).elim 0 (total setup)

/-- The call ended with an outcome that says that all gas is used up. -/
def RanOut (setup : HostSetup) (a : Attempt τ) : Prop :=
  ∃ o, a.result setup = .finished (.ok o) ∧ setup.RanOut o

/-- The books of a call are in order. -/
structure Accounted (setup : HostSetup) (a : Attempt τ) : Prop where
  /-- What is reported is what the callers and all scripts of the tree have used. -/
  reported : ∀ o, a.result setup = .finished (.ok o) →
    o.gasUsed.toNat = min a.call.gasUsed.toNat setup.gasLimit + a.total setup
  /-- It is within the limit. -/
  bounded : ∀ o, a.result setup = .finished (.ok o) → o.gasUsed.toNat ≤ setup.gasLimit
  /-- It is the limit exactly if that is said. -/
  told : ∀ o, a.result setup = .finished (.ok o) →
    (o.gasUsed.toNat = setup.gasLimit ↔ setup.RanOut o)
  /-- A call without an outcome has used nothing. -/
  refused : ∀ e, a.result setup = .finished (.error e) → a.total setup = 0
  /-- The instance goes on with what its requests have left. -/
  visits : ∀ v ∈ a.visits setup, v.before.gas = v.after.gas + a.cost setup v
  /-- Where nothing is left for a nested call, nothing is left for the call. -/
  upwards : ∀ b ∈ a.nested setup, b.RanOut setup → a.RanOut setup

variable {a : Attempt τ}

theorem total_eq (setup : HostSetup) (a : Attempt τ) :
    a.total setup = a.own setup + ((a.nested setup).map (total setup)).sum := by
  unfold total
  rw [family_eq, List.map_cons, List.sum_cons]
  unfold below
  rw [List.map_flatMap, List.flatMap, List.sum_flatten, List.map_map]
  rfl

theorem cost_of_none {v : Visit (Host τ)} (h : a.nestedIn setup v = none) :
    a.cost setup v = 0 := by
  unfold cost
  rw [h]
  rfl

theorem cost_of_some {v : Visit (Host τ)} {b : Attempt τ} (h : a.nestedIn setup v = some b) :
    a.cost setup v = b.total setup := by
  unfold cost
  rw [h]
  rfl

/-- The nested calls cost what the requests cost. -/
theorem sum_cost (setup : HostSetup) (a : Attempt τ) :
    ((a.visits setup).map (a.cost setup)).sum = ((a.nested setup).map (total setup)).sum := by
  unfold nested
  induction a.visits setup with
  | nil => rfl
  | cons v visits ih =>
    rw [List.map_cons, List.sum_cons, ih]
    cases hv : a.nestedIn setup v with
    | none => rw [List.filterMap_cons_none hv, cost_of_none hv, Nat.zero_add]
    | some b => rw [List.filterMap_cons_some hv, cost_of_some hv, List.map_cons, List.sum_cons]

omit [LedgerAccess τ] in
theorem toNat_ofNat_of_le {n : Nat} (h : n ≤ setup.gasLimit) : (UInt64.ofNat n).toNat = n := by
  have hlimit : setup.gasLimit < 2 ^ 64 := setup.config.execution.gasLimit.toNat_lt
  rw [UInt64.toNat_ofNat']
  exact Nat.mod_eq_of_lt (by omega)

theorem accounted_of_not_begun (hbegun : a.begun? setup = none) {e : ExecutionError}
    (hresult : a.result setup = .finished (.error e)) : a.Accounted setup := by
  have hnone := nested_of_not_begun hbegun
  have hown : a.own setup = 0 := by
    unfold own
    rw [hbegun]
  have herror {o : Outcome} (h : a.result setup = .finished (.ok o)) : False := by
    rw [hresult] at h
    cases h
  -- no outcome, no requests and no nested calls: only the sum is left, and it is zero
  constructor
  · exact fun o h => (herror h).elim
  · exact fun o h => (herror h).elim
  · exact fun o h => (herror h).elim
  · intro e _
    rw [total_eq, hnone, hown]
    rfl
  · intro v hv
    rw [visits_of_not_begun hbegun] at hv
    cases hv
  · intro b hb
    rw [hnone] at hb
    cases hb

namespace Ran

variable {s : Begun τ} {result : Except CallFault Unit} {i : Instance} {y : Host τ} {c : Context}

/-- The gas that a call begins with is what its callers have left. -/
theorem budget (setup : HostSetup) (call : Call) :
    (budgetOf setup call).toNat = setup.gasLimit - call.gasUsed.toNat :=
  toNat_ofNat_of_le (Nat.sub_le _ _)

/-- **What a request leaves**: never more than it found, and exactly what the call nested in it has
not used. -/
theorem gas_of_visit (h : a.Ran setup s result i y c) {v : Visit (Host τ)}
    (hv : v ∈ a.visits setup) (hnested : ∀ b, a.nestedIn setup v = some b → b.Accounted setup) :
    v.after.gas ≤ v.before.gas ∧
      (v.before.gas ≤ setup.gasLimit → v.before.gas = v.after.gas + a.cost setup v) := by
  have hin := nestedIn_eq h.begun v
  obtain ⟨c₁, c₂, hunderway, hexchange, -⟩ := h.exchanged v hv
  have hgas := hexchange.gas
  cases hasked : v.nested? setup (s.inst.linkage false) with
  | none =>
    rw [hasked] at hin hgas
    rw [cost_of_none hin]
    dsimp only at hgas
    exact ⟨Nat.le_of_eq hgas, fun _ => hgas.symm⟩
  | some asked =>
    obtain ⟨call, z⟩ := asked
    rw [hasked] at hin hgas
    rw [Option.map_some] at hin
    dsimp only at hin
    have hbooks := hnested _ hin
    have hsequel := h.sequel hv hin
    obtain ⟨ended, hended⟩ := hsequel.ended.finished
    have hinvoke : (a.inner setup call z).1 = .finished ended := hended
    rw [cost_of_some hin]
    simp only [hinvoke] at hgas
    cases ended with
    | error e =>
      -- the call was not carried out, so nothing was used
      have hnothing := hbooks.refused e hended
      dsimp only at hgas hnothing
      omega
    | ok o =>
      have hreported := hbooks.reported o hended
      have hbounded := hbooks.bounded o hended
      rw [hsequel.gasUsed, toNat_ofNat_of_le (Nat.sub_le _ _)] at hreported
      dsimp only at hgas hreported
      omega

theorem gas_le (h : a.Ran setup s result i y c)
    (hnested : ∀ b ∈ a.nested setup, b.Accounted setup) :
    i.gas.toNat ≤ (budgetOf setup a.call).toNat ∧ ∀ v ∈ a.visits setup,
      v.before.gas ≤ (budgetOf setup a.call).toNat ∧ i.gas.toNat ≤ v.after.gas :=
  h.course.gas_le fun _ hv =>
    (h.gas_of_visit hv fun b hb => hnested b (List.mem_filterMap.mpr ⟨_, hv, hb⟩)).1

theorem gas_eq_cost (h : a.Ran setup s result i y c)
    (hnested : ∀ b ∈ a.nested setup, b.Accounted setup) :
    ∀ v ∈ a.visits setup, v.before.gas = v.after.gas + a.cost setup v := by
  intro v hv
  have hvisit := h.gas_of_visit hv fun b hb => hnested b (List.mem_filterMap.mpr ⟨_, hv, hb⟩)
  have hbefore := ((h.gas_le hnested).2 v hv).1
  rw [budget] at hbefore
  exact hvisit.2 (Nat.le_trans hbefore (Nat.sub_le _ _))

/-- **What a call began with is what its instance has left and what its tree has used.** -/
theorem gas_eq (h : a.Ran setup s result i y c)
    (hnested : ∀ b ∈ a.nested setup, b.Accounted setup) :
    setup.gasLimit - a.call.gasUsed.toNat = i.gas.toNat + a.total setup := by
  have hsum : (budgetOf setup a.call).toNat = i.gas.toNat +
      usedAlone (budgetOf setup a.call).toNat (a.visits setup) i.gas.toNat +
      ((a.visits setup).map (a.cost setup)).sum :=
    h.course.gas_eq (a.cost setup) (h.gas_eq_cost hnested)
  have hown : a.own setup = usedAlone (budgetOf setup a.call).toNat (a.visits setup)
      i.gas.toNat := by
    unfold own
    rw [h.begun]
    dsimp only
    rw [h.run]
  rw [← budget, total_eq, hown, ← sum_cost, ← Nat.add_assoc]
  exact hsum

theorem gasUsed (_ : a.Ran setup s result i y c) :
    (y.conclude setup s.pool s.context result i).1.gasUsed.toNat =
      setup.gasLimit - i.gas.toNat := by
  rw [Host.gasUsed_conclude]
  exact toNat_ofNat_of_le (Nat.sub_le _ _)

/-- **A call that was carried out says that it has run out of gas exactly if it has.** -/
theorem ranOut_iff (h : a.Ran setup s result i y c) :
    setup.RanOut (y.conclude setup s.pool s.context result i).1 ↔ i.gas.toNat = 0 := by
  have hzero : i.gas = 0 ↔ i.gas.toNat = 0 := by
    rw [← UInt64.toNat_inj]
    rfl
  rw [← hzero]
  refine Host.ranOut_conclude ?_ fun e he => ?_
  · rw [h.underway.current h.advances.handle.symm]
    refine h.advances.worded ?_
    rw [h.outcome]
    exact .inl rfl
  · have hfault : (a.run setup s).1 = .error e := by rw [h.run, he]
    unfold Attempt.run at hfault
    exact Host.blamesGas_of_callGuest hfault

/-- **Where nothing is left for a nested call, nothing is left for its caller.** -/
theorem upwards (h : a.Ran setup s result i y c)
    (hnested : ∀ b ∈ a.nested setup, b.Accounted setup) {b : Attempt τ} {v : Visit (Host τ)}
    (hv : v ∈ a.visits setup) (hin : a.nestedIn setup v = some b) (hran : b.RanOut setup) :
    i.gas.toNat = 0 := by
  obtain ⟨o, ho, hout⟩ := hran
  have hbooks := hnested b (List.mem_filterMap.mpr ⟨v, hv, hin⟩)
  have hreported := hbooks.reported o ho
  have hlimit := (hbooks.told o ho).mpr hout
  have hused := h.gas_eq_cost hnested v hv
  obtain ⟨hbefore, hafter⟩ := (h.gas_le hnested).2 v hv
  rw [cost_of_some hin] at hused
  rw [(h.sequel hv hin).gasUsed, toNat_ofNat_of_le (Nat.sub_le _ _)] at hreported
  rw [budget] at hbefore
  omega

/-- The books of a call that was carried out are in order, if those of the calls nested in it
are. -/
theorem accounted (h : a.Ran setup s result i y c)
    (hresult : a.result setup = .finished (.ok (y.conclude setup s.pool s.context result i).1))
    (hnested : ∀ b ∈ a.nested setup, b.Accounted setup) : a.Accounted setup := by
  have hsame {o : Outcome} (ho : a.result setup = .finished (.ok o)) :
      o = (y.conclude setup s.pool s.context result i).1 := by
    rw [hresult] at ho
    cases ho
    rfl
  have hused := h.gasUsed
  -- what the guest used itself and what its callees used add up to what is gone
  have htotal := h.gas_eq hnested
  constructor
  · rintro o ho
    rw [hsame ho]
    omega
  · intro o ho
    rw [hsame ho]
    omega
  · intro o ho
    rw [hsame ho, h.ranOut_iff]
    omega
  · intro e he
    rw [hresult] at he
    cases he
  · exact h.gas_eq_cost hnested
  · intro b hb hran
    obtain ⟨v, hv, hin⟩ := List.mem_filterMap.mp hb
    exact ⟨_, hresult, h.ranOut_iff.mpr (h.upwards hnested hv hin hran)⟩

end Ran

/-- **The books of every call are in order.** -/
theorem Ended.accounted (ha : a.Ended setup) : a.Accounted setup := by
  refine induct (P := fun a => a.Ended setup → a.Accounted setup) setup ?_ a ha
  intro a ih ha
  obtain ⟨finished, hfinished⟩ := ha.finished
  have htrial := trial setup ha.orderly
  rw [hfinished] at htrial
  cases htrial with
  | refused e hbegun => exact accounted_of_not_begun hbegun hfinished
  | concluded h => exact h.accounted hfinished fun b hb => ih b hb (ha.nested hb)

/-- **If a call runs out of gas, so does every call above it.** -/
theorem Ended.ranOut (ha : a.Ended setup) :
    ∀ d ∈ a.family setup, d.RanOut setup → a.RanOut setup := by
  refine induct (P := fun a => a.Ended setup → ∀ d ∈ a.family setup, d.RanOut setup →
    a.RanOut setup) setup ?_ a ha
  intro a ih ha d hd hran
  rw [family_eq] at hd
  rcases List.mem_cons.mp hd with rfl | hd
  · exact hran
  · obtain ⟨b, hb, hd⟩ := mem_below.mp hd
    exact ha.accounted.upwards b hb (ih b hb (ha.nested hb) d hd hran)

end Attempt

/-- **The law of gas for whole trees of calls.**  What the outcome of a call reports is the gas that
its callers have used, as far as the limit goes, and what all scripts of its tree have used by
themselves.  It is within the limit, and it is the limit exactly if the outcome says that the gas is
used up.  No request leaves its script with more gas than it had.  And if a call of the tree runs
out of gas, so does every call above it.  The topmost call may have waited for its instance, and the
host may be any one that is orderly, as every host in service is. -/
theorem Host.gas_conserved {x : Host τ} {e : Entry} {o : Outcome} (hx : x.Orderly)
    (hended : (x.root setup e).result setup = .finished (.ok o)) :
    o.gasUsed.toNat = min e.call.gasUsed.toNat setup.gasLimit +
        (((x.root setup e).family setup).map (Attempt.own setup)).sum ∧
      o.gasUsed.toNat ≤ setup.gasLimit ∧
      (o.gasUsed.toNat = setup.gasLimit ↔ setup.RanOut o) ∧
      (∀ t ∈ (x.root setup e).family setup, ∀ v ∈ t.visits setup,
        v.after.gas ≤ v.before.gas) ∧
      (∀ t ∈ (x.root setup e).family setup, ∀ d ∈ t.family setup,
        d.RanOut setup → t.RanOut setup) := by
  have hroot : (x.root setup e).Ended setup := ⟨hx, _, hended⟩
  have hbooks := hroot.accounted
  refine ⟨hbooks.reported o hended, hbooks.bounded o hended, hbooks.told o hended, ?_, ?_⟩
  · intro t ht v hv
    have hvisit := (hroot.family t ht).accounted.visits v hv
    omega
  · exact fun t ht => (hroot.family t ht).ranOut

/-- The calling contract has used 63 units by itself, the one that it has called 52. -/
theorem Host.gas_conserved_relaying :
    ∃ o, (trappedHost.invoke singleSetup relaying).1 = .finished (.ok o) ∧
      ((trappedHost.root singleSetup (.new relaying)).family singleSetup).map
        (Attempt.own singleSetup) = [63, 52] ∧
      o.gasUsed.toNat = 63 + 52 ∧ ¬ singleSetup.RanOut o := by
  have hown : ((trappedHost.root singleSetup (.new relaying)).family singleSetup).map
      (Attempt.own singleSetup) = [63, 52] := by decide +kernel
  obtain ⟨o, hended, -⟩ := exists_of_code? code?_relaying
  obtain ⟨hused, -, htold, -⟩ := gas_conserved orderly_trappedHost
    ((result_root singleSetup relaying trappedHost).trans hended)
  have hgas : o.gasUsed.toNat = 63 + 52 := by
    rw [hused, hown]
    rfl
  refine ⟨o, hended, hown, hgas, fun hran => ?_⟩
  have hlimit := htold.mpr hran
  rw [hgas] at hlimit
  revert hlimit
  decide

end ContractHost
