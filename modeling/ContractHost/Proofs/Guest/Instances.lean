import ContractHost.Host.Invoke
import ContractHost.Proofs.Guest.Linked

/-!
# Instances that nothing tells apart

Two instances of one script, with memories of the same contents and the same gas, take the same
course whatever is asked of them.  Their numbers, their generations and their counts of failures do
not matter: no script can ask for them.

A new instance is determined by its module, as long as instances are not made in reserved slots.

## Main definitions

* `Instance.Linked` — runs on instances that come to the same end, with machines in some relation.
* `Instance.Same` — instances that nothing tells apart.
* `Instance.Matches` — the same of idle ones, whose gas is still to be set.
* `Instance.Ran` — what a run changes of an instance: its memory and its gas.
* `Agree` — two attempts that both fail for the same reason, or both give something.

## Main results

* `Instance.linked_runtimeType`, `linked_writeParams`, `linked_callMethod` — **what is asked of an
  instance.**
* `Instance.linked_callGuest` — **the steps of a call on an instance.**
* `Instance.agree_create` — **new instances of one module are the same.**
-/

namespace ContractHost

/-- Two attempts that both fail for the same reason, or both give something, in the relation `S`. -/
inductive Agree {ε α β : Type} (S : α → β → Prop) : Except ε α → Except ε β → Prop
  /-- Both give something. -/
  | ok {a : α} {b : β} (h : S a b) : Agree S (.ok a) (.ok b)
  /-- Both fail. -/
  | error (e : ε) : Agree S (.error e) (.error e)

/-- Two attempts agree with each other if they agree with a third one. -/
theorem Agree.join {ε α β γ : Type} {S : α → γ → Prop} {S' : β → γ → Prop} {a : Except ε α}
    {b : Except ε β} {o : Except ε γ} (h : Agree S a o) (h' : Agree S' b o) :
    Agree (fun i j => ∃ m, S i m ∧ S' j m) a b := by
  cases h with
  | ok h =>
    cases h' with
    | ok h' => exact .ok ⟨_, h, h'⟩
  | error e =>
    cases h'
    exact .error e

namespace Instance

variable {σ σ' α : Type}

/-- Two instances that nothing tells apart. -/
structure Same (i i' : Instance) : Prop where
  /-- They do the same. -/
  script : i.script = i'.script
  /-- They may grow as far. -/
  pageLimit : i.pageLimit = i'.pageLimit
  /-- They have the same contents. -/
  memory : i.memory.Same i'.memory
  /-- They have as much gas. -/
  gas : i.gas = i'.gas
  /-- They serve the same invocation. -/
  bound : i.bound = i'.bound

namespace Same

variable {i i' : Instance}

theorem refl (i : Instance) : i.Same i :=
  ⟨rfl, rfl, .refl i.memory, rfl, rfl⟩

theorem symm (h : i.Same i') : i'.Same i :=
  ⟨h.script.symm, h.pageLimit.symm, h.memory.symm, h.gas.symm, h.bound.symm⟩

theorem trans {i'' : Instance} (h : i.Same i') (h' : i'.Same i'') : i.Same i'' :=
  ⟨h.script.trans h'.script, h.pageLimit.trans h'.pageLimit, h.memory.trans h'.memory,
    h.gas.trans h'.gas, h.bound.trans h'.bound⟩

theorem linkage (h : i.Same i') (breaksOff : Bool) :
    i.linkage breaksOff = i'.linkage breaksOff := by
  unfold Instance.linkage
  rw [h.script, h.bound, h.pageLimit]

theorem setGas (h : i.Same i') (gas : UInt64) : (i.setGas gas).Same (i'.setGas gas) :=
  ⟨h.script, h.pageLimit, h.memory, rfl, h.bound⟩

end Same

/-- Two idle instances that nothing tells apart, once their gas is set. -/
def Matches (i i' : Instance) : Prop :=
  (i.setGas 0).Same (i'.setGas 0)

theorem Same.toMatches {i i' : Instance} (h : i.Same i') : i.Matches i' :=
  h.setGas 0

theorem Matches.start {i i' : Instance} (h : i.Matches i') (handle : Int32) (gas : UInt64) :
    ((i.bind handle).setGas gas).Same ((i'.bind handle).setGas gas) :=
  ⟨h.script, h.pageLimit, h.memory, rfl, rfl⟩

/-- What a run changes of an instance: its memory and its gas. -/
def Ran (i i' : Instance) : Prop :=
  ∃ memory gas, i' = { i with memory, gas }

namespace Ran

theorem refl (i : Instance) : i.Ran i :=
  ⟨i.memory, i.gas, rfl⟩

theorem trans {i j k : Instance} (h : i.Ran j) (h' : j.Ran k) : i.Ran k := by
  obtain ⟨memory, gas, rfl⟩ := h
  obtain ⟨memory', gas', rfl⟩ := h'
  exact ⟨memory', gas', rfl⟩

end Ran

theorem ran_run (i : Instance) (r : Run σ α) (x : σ) : i.Ran (i.run r x).2.1 :=
  ⟨_, _, rfl⟩

theorem ran_call (i : Instance) (r : Run σ α) (x : σ) : i.Ran (i.call r x).2.1 :=
  ⟨_, _, rfl⟩

/-- Two instances that do the same with what they hold. -/
structure Fits (i i' : Instance) : Prop where
  /-- They have one script. -/
  script : i.script = i'.script
  /-- They may grow as far. -/
  pageLimit : i.pageLimit = i'.pageLimit
  /-- They serve the same invocation. -/
  bound : i.bound = i'.bound

theorem Same.fits {i i' : Instance} (h : i.Same i') : i.Fits i' :=
  ⟨h.script, h.pageLimit, h.bound⟩

theorem Fits.refl (i : Instance) : i.Fits i :=
  ⟨rfl, rfl, rfl⟩

theorem Fits.linkage {i i' : Instance} (h : i.Fits i') (breaksOff : Bool) :
    i.linkage breaksOff = i'.linkage breaksOff := by
  unfold Instance.linkage
  rw [h.script, h.bound, h.pageLimit]

theorem Ran.linkage {i i' : Instance} (h : i.Ran i') (breaksOff : Bool) :
    i'.linkage breaksOff = i.linkage breaksOff := by
  obtain ⟨memory, gas, rfl⟩ := h
  rfl

/-- The machine on which an instance begins a run. -/
def machine (i : Instance) (x : σ) : Machine σ :=
  ⟨⟨i.memory, i.gas.toNat⟩, x⟩

/-- Two runs on instances have come to the same end, and left machines in the relation unless the
end is the one that stands for none. -/
structure Linked (Q : Machine σ → Machine σ' → Prop) (B : Prop) (stop : α) (a : α × Instance × σ)
    (b : α × Instance × σ') : Prop where
  /-- They have the same result. -/
  result : a.1 = b.1
  /-- Only where it may be were they broken off. -/
  breaks : a.1 = stop → B
  /-- The instances do the same. -/
  fits : a.2.1.Fits b.2.1
  /-- The machines are in the relation. -/
  machine : a.1 ≠ stop → Q (a.2.1.machine a.2.2) (b.2.1.machine b.2.2)

/-- Two runs on instances have come to the same end, and not to the one that stands for none. -/
structure Ends (R : σ → σ' → Prop) (stop : α) (a : α × Instance × σ) (b : α × Instance × σ') :
    Prop where
  /-- They have the same result. -/
  result : a.1 = b.1
  /-- They were not broken off. -/
  ends : a.1 ≠ stop
  /-- Nothing tells the instances apart. -/
  inst : a.2.1.Same b.2.1
  /-- The states of the hosts are related. -/
  world : R a.2.2 b.2.2

theorem Same.machine {R : σ → σ' → Prop} {i i' : Instance} {x : σ} {x' : σ'} (h : i.Same i')
    (hx : R x x') : Machine.Alike R (i.machine x) (i'.machine x') :=
  ⟨⟨h.memory, congrArg UInt64.toNat h.gas⟩, hx⟩

theorem Linked.ends {R : σ → σ' → Prop} {stop : α} {a : α × Instance × σ} {b : α × Instance × σ'}
    (h : Linked (Machine.Alike R) False stop a b) : Ends R stop a b := by
  obtain ⟨hmemory, hgas⟩ := (h.machine h.breaks).caller
  exact ⟨h.result, h.breaks, ⟨h.fits.script, h.fits.pageLimit, hmemory, UInt64.toNat.inj hgas,
    h.fits.bound⟩, (h.machine h.breaks).world⟩

/-! ### What is asked of an instance -/

section

variable {Q : Machine σ → Machine σ' → Prop} {B : Prop} {host : HostCalls σ} {host' : HostCalls σ'}
variable {i i' : Instance} {x : σ} {x' : σ'} {breaksOff : Bool} {guest : Guest}

/-- A run may be done on both instances.  The gas that is left is noted as a number of 64 bits. -/
theorem linked_run {linkage : Linkage} (hQ : HostCalls.Bond Q B linkage host host')
    {r : Run σ α} {r' : Run σ' α} (hr : Run.Linked Q B r r') (hi : i.Fits i')
    (hm : Q (i.machine x) (i'.machine x')) :
    Linked Q B (.error .suspended) (i.run r x) (i'.run r' x') := by
  obtain ⟨hresult, hbreaks, hmachine⟩ := hr.fromAny hm
  refine ⟨hresult, hbreaks, ⟨hi.script, hi.pageLimit, hi.bound⟩, fun hends => ?_⟩
  have hend := hmachine hends
  have hround {m : Machine σ} {m' : Machine σ'} (h : Q m m') :
      Q ⟨⟨m.memory, (UInt64.ofNat m.gas).toNat⟩, m.world⟩
        ⟨⟨m'.memory, (UInt64.ofNat m'.gas).toNat⟩, m'.world⟩ := by
    have hspent := hQ.spend (m.gas - m.gas % 2 ^ 64) h
    rw [← (hQ.same h).gas, Nat.sub_sub_self (Nat.mod_le _ _)] at hspent
    rw [← (hQ.same h).gas, UInt64.toNat_ofNat']
    exact hspent
  exact hround hend

/-- Only a run that was broken off is reported so. -/
theorem eq_suspended_of_mapError {result : Except Halt α}
    (h : result.mapError Halt.toCallFault = .error .suspended) : result = .error .suspended := by
  cases result with
  | ok a => cases h
  | error halt =>
    cases halt with
    | suspended => rfl
    | trap cause => cases h
    | exited code => cases h
    | crashed message => cases h

theorem linked_call {linkage : Linkage} (hQ : HostCalls.Bond Q B linkage host host')
    {r : Run σ α} {r' : Run σ' α} (hr : Run.Linked Q B r r') (hi : i.Fits i')
    (hm : Q (i.machine x) (i'.machine x')) :
    Linked Q B (.error .suspended) (i.call r x) (i'.call r' x') := by
  obtain ⟨hresult, hbreaks, hfits, hmachine⟩ := linked_run hQ hr hi hm
  refine ⟨congrArg (Except.mapError Halt.toCallFault) hresult, fun hstop => hbreaks ?_, hfits,
    fun hends => hmachine fun hstop => hends ?_⟩
  · exact eq_suspended_of_mapError hstop
  · exact congrArg (Except.mapError Halt.toCallFault) hstop

theorem linked_refused {e : CallFault} (he : e ≠ .suspended) (hi : i.Fits i')
    (hm : Q (i.machine x) (i'.machine x')) :
    Linked (α := Except CallFault α) Q B (.error .suspended) (.error e, i, x) (.error e, i', x') :=
  ⟨rfl, fun hstop => absurd (Except.error.inj hstop) he, hi, fun _ => hm⟩

theorem linked_notExported (hi : i.Fits i') (hm : Q (i.machine x) (i'.machine x'))
    (name : String) :
    Linked (α := Except CallFault α) Q B (.error .suspended) (i.notExported name x)
      (i'.notExported name x') :=
  linked_refused nofun hi hm

theorem ran_notExported (i : Instance) (name : String) (x : σ) :
    i.Ran (i.notExported (α := α) name x).2.1 :=
  .refl i

/-- **The kind of host.** -/
theorem linked_runtimeType (guest : Guest)
    (hQ : HostCalls.Bond Q B (i.linkage breaksOff) host host') (hi : i.Fits i')
    (hm : Q (i.machine x) (i'.machine x')) :
    Linked Q B (.error .suspended) (i.runtimeType host breaksOff x guest)
      (i'.runtimeType host' breaksOff x' guest) := by
  unfold runtimeType
  rw [← hi.script]
  split
  · rename_i f _
    rw [← hi.linkage]
    exact linked_call hQ ((guest.call 0 f).linked hQ) hi hm
  · exact linked_notExported hi hm _

theorem ran_runtimeType (guest : Guest) (i : Instance) (host : HostCalls σ) (breaksOff : Bool)
    (x : σ) : i.Ran (i.runtimeType host breaksOff x guest).2.1 := by
  unfold runtimeType
  split
  · exact ran_call i _ x
  · exact ran_notExported i _ x

/-- What is done with the place that a contract gives for parameters. -/
def placeParams (params : Bytes) :
    Except CallFault Int32 × Instance × σ → Except CallFault Int32 × Instance × σ
  | (.error e, i, world) => (.error e, i, world)
  | (.ok ptr, i, world) =>
    if ptr.toInt < 0 then
      (.error (.error (.trap s!"allocate returned negative pointer {ptr.toInt}")), i, world)
    else if !i.script.exportsMemory then i.notExported exportNames.memory world
    else match i.memory.write? ptr.toInt.toNat params with
      | none =>
        (.error (.error (.trap
          s!"write parameters at {ptr.toInt}: out of bounds memory access")), i, world)
      | some memory => (.ok ptr, { i with memory }, world)

theorem writeParams_of_typed {f : Export}
    (hf : i.script.typed? exportNames.allocate 1 1 = some f) (params : Bytes) :
    i.writeParams host breaksOff params x guest =
      placeParams params
        (i.call ((guest.call params.lengthWord.toInt32 f).run host (i.linkage breaksOff)) x) := by
  unfold writeParams
  rw [hf]
  rfl

theorem writeParams_of_none (hf : i.script.typed? exportNames.allocate 1 1 = none)
    (params : Bytes) :
    i.writeParams host breaksOff params x guest = i.notExported exportNames.allocate x := by
  unfold writeParams
  rw [hf]

theorem Linked.placeParams {linkage : Linkage} (hQ : HostCalls.Bond Q B linkage host host')
    {a : Except CallFault Int32 × Instance × σ} {a' : Except CallFault Int32 × Instance × σ'}
    (h : Linked Q B (.error .suspended) a a') (params : Bytes) :
    Linked Q B (.error .suspended) (placeParams params a) (placeParams params a') := by
  obtain ⟨result, j, y⟩ := a
  obtain ⟨result', j', y'⟩ := a'
  obtain ⟨hresult, hbreaks, hj, hm⟩ := h
  cases hresult
  cases result with
  | error e => exact ⟨rfl, hbreaks, hj, hm⟩
  | ok ptr =>
    have hm := hm nofun
    have hscript : j.script = j'.script := hj.script
    -- the place that was given is the same in both, so both can be written or neither
    have hwrite := hQ.write ptr.toInt.toNat params hm
    simp only [Instance.placeParams, ← hscript]
    split
    · exact linked_refused nofun hj hm
    · split
      · exact linked_notExported hj hm _
      · unfold Instance.machine at hwrite
        dsimp only at hwrite
        generalize j.memory.write? ptr.toInt.toNat params = o at hwrite ⊢
        generalize j'.memory.write? ptr.toInt.toNat params = o' at hwrite ⊢
        cases hwrite with
        | none => exact linked_refused nofun hj hm
        | some hmemory => exact ⟨rfl, nofun, ⟨rfl, hj.pageLimit, hj.bound⟩, fun _ => hmemory⟩

theorem ran_placeParams (params : Bytes) (a : Except CallFault Int32 × Instance × σ) :
    a.2.1.Ran (placeParams params a).2.1 := by
  obtain ⟨result, j, y⟩ := a
  cases result with
  | error e => exact .refl j
  | ok ptr =>
    simp only [placeParams]
    split
    · exact .refl j
    · split
      · exact ran_notExported j _ y
      · split
        · exact .refl j
        · rename_i memory _
          exact ⟨memory, j.gas, rfl⟩

/-- **The parameters.** -/
theorem linked_writeParams (guest : Guest)
    (hQ : HostCalls.Bond Q B (i.linkage breaksOff) host host') (hi : i.Fits i')
    (hm : Q (i.machine x) (i'.machine x')) (params : Bytes) :
    Linked Q B (.error .suspended) (i.writeParams host breaksOff params x guest)
      (i'.writeParams host' breaksOff params x' guest) := by
  cases hf : i.script.typed? exportNames.allocate 1 1 with
  | none =>
    rw [writeParams_of_none hf, writeParams_of_none (hi.script ▸ hf)]
    exact linked_notExported hi hm _
  | some f =>
    rw [writeParams_of_typed hf, writeParams_of_typed (hi.script ▸ hf), ← hi.linkage]
    have hgiven := (guest.call params.lengthWord.toInt32 f).linked hQ
    exact (linked_call hQ hgiven hi hm).placeParams hQ params

theorem ran_writeParams (guest : Guest) (i : Instance) (host : HostCalls σ) (breaksOff : Bool)
    (params : Bytes) (x : σ) : i.Ran (i.writeParams host breaksOff params x guest).2.1 := by
  cases hf : i.script.typed? exportNames.allocate 1 1 with
  | none =>
    rw [writeParams_of_none hf]
    exact ran_notExported i _ x
  | some f =>
    rw [writeParams_of_typed hf]
    exact (ran_call i _ x).trans (ran_placeParams params _)

/-- **The method.** -/
theorem linked_callMethod (guest : Guest) (hQ : HostCalls.Bond Q B (i.linkage breaksOff) host host')
    (hi : i.Fits i') (hm : Q (i.machine x) (i'.machine x')) (name : String) :
    Linked Q B (.error .suspended) (i.callMethod host breaksOff name x guest)
      (i'.callMethod host' breaksOff name x' guest) := by
  unfold callMethod
  rw [← hi.script]
  split
  · exact linked_notExported hi hm _
  · rename_i f _
    split
    · exact linked_refused nofun hi hm
    · rw [← hi.linkage]
      exact linked_call hQ (((guest.call 0 f).linked hQ).bind fun _ => Run.linked_pure _) hi hm

theorem ran_callMethod (guest : Guest) (i : Instance) (host : HostCalls σ) (breaksOff : Bool)
    (name : String) (x : σ) : i.Ran (i.callMethod host breaksOff name x guest).2.1 := by
  unfold callMethod
  split
  · exact ran_notExported i _ x
  · split
    · exact .refl i
    · exact ran_call i _ x

/-- **The steps of a call on an instance.** -/
theorem linked_callGuest (guest : Guest) (hQ : HostCalls.Bond Q B (i.linkage breaksOff) host host')
    (hi : i.Fits i') (c : Context) (budget : UInt64)
    (hm : Q ((i.setGas budget).machine x) ((i'.setGas budget).machine x')) :
    Linked Q B (.error .suspended) (Host.callGuest guest host breaksOff c budget i x)
      (Host.callGuest guest host' breaksOff c budget i' x') := by
  have hfits : (i.setGas budget).Fits (i'.setGas budget) := ⟨hi.script, hi.pageLimit, hi.bound⟩
  have hkind := linked_runtimeType (i := i.setGas budget) guest hQ hfits hm
  have hran := ran_runtimeType guest (i.setGas budget) host breaksOff x
  -- step by step: each has the same result in both, and leaves instances that fit
  unfold Host.callGuest
  generalize (i.setGas budget).runtimeType host breaksOff x guest = a at hkind hran ⊢
  generalize (i'.setGas budget).runtimeType host' breaksOff x' guest = a' at hkind ⊢
  obtain ⟨result, j, y⟩ := a
  obtain ⟨result', j', y'⟩ := a'
  obtain ⟨hresult, hbreaks, hj, hy⟩ := hkind
  cases hresult
  cases result with
  | error e =>
    exact ⟨rfl, fun hstop => hbreaks (congrArg Except.error (Except.error.inj hstop)), hj,
      fun hends => hy fun hstop => hends (congrArg Except.error (Except.error.inj hstop))⟩
  | ok kind =>
    have hy := hy nofun
    have hlinkage : j.linkage breaksOff = i.linkage breaksOff := hran.linkage breaksOff
    dsimp only
    split
    · exact linked_refused nofun hj hy
    · generalize (Packet.ofParams handleParam c.handle c.params).encode = params
      have hparams := linked_writeParams guest (hlinkage ▸ hQ) hj hy params
      have hran := ran_writeParams guest j host breaksOff params y
      dsimp only at hparams hran
      generalize j.writeParams host breaksOff params y guest = b at hparams hran ⊢
      generalize j'.writeParams host' breaksOff params y' guest = b' at hparams ⊢
      obtain ⟨written, k, z⟩ := b
      obtain ⟨written', k', z'⟩ := b'
      obtain ⟨hwritten, hbreaks, hk, hz⟩ := hparams
      cases hwritten
      cases written with
      | error e =>
        exact ⟨rfl, fun hstop => hbreaks (congrArg Except.error (Except.error.inj hstop)), hk,
          fun hends => hz fun hstop => hends (congrArg Except.error (Except.error.inj hstop))⟩
      | ok ptr =>
        have hlinkage : k.linkage breaksOff = i.linkage breaksOff :=
          (hran.linkage breaksOff).trans hlinkage
        exact linked_callMethod guest (hlinkage ▸ hQ) hk (hz nofun) c.method

/-- **A call changes the memory and the gas of its instance.** -/
theorem ran_callGuest (guest : Guest) (host : HostCalls σ) (breaksOff : Bool) (c : Context)
    (budget : UInt64) (i : Instance) (x : σ) :
    i.Ran (Host.callGuest guest host breaksOff c budget i x).2.1 := by
  have hset : i.Ran (i.setGas budget) := ⟨i.memory, budget, rfl⟩
  have hran := hset.trans (ran_runtimeType guest (i.setGas budget) host breaksOff x)
  -- each step changes the memory and the gas of what the one before has left
  unfold Host.callGuest
  generalize (i.setGas budget).runtimeType host breaksOff x guest = a at hran ⊢
  obtain ⟨result, j, y⟩ := a
  cases result with
  | error e => exact hran
  | ok kind =>
    dsimp only at hran ⊢
    split
    · exact hran
    · generalize (Packet.ofParams handleParam c.handle c.params).encode = params
      have hwritten := hran.trans (ran_writeParams guest j host breaksOff params y)
      generalize j.writeParams host breaksOff params y guest = b at hwritten ⊢
      obtain ⟨written, k, z⟩ := b
      cases written with
      | error e => exact hwritten
      | ok ptr => exact hwritten.trans (ran_callMethod guest k host breaksOff c.method z)

end

section

variable {R : σ → σ' → Prop} {host : HostCalls σ} {host' : HostCalls σ'} {i i' : Instance}
variable {x : σ} {x' : σ'} {guest : Guest}

theorem alike_teardown (h : HostCalls.Alike R (i.linkage false) host host') (hi : i.Same i')
    (hx : R x x') : R (i.teardown host x guest) (i'.teardown host' x' guest) := by
  unfold teardown
  rw [← hi.script]
  split
  · exact hx
  · rename_i f _
    -- the gas for the last actions is the same, whatever was left
    have hstart := hi.setGas teardownGas
    have hlinkage : (i'.setGas teardownGas).linkage false = (i.setGas teardownGas).linkage false :=
      (hstart.linkage false).symm
    dsimp only
    rw [hlinkage]
    have hlast := (guest.call 0 f).linked h.bond
    exact (linked_run h.bond hlast hstart.fits (hstart.machine hx)).ends.world

end

/-! ### New instances -/

section

variable {R : σ → σ' → Prop} {host : HostCalls σ} {host' : HostCalls σ'} {engine : EngineConfig}
variable {execution : ExecutionConfig} {x : σ} {x' : σ'} {guest : Guest}

/-- Two creations have come to the same end: both fail for the same reason, or both give a new
instance, and the new instances are the same. -/
structure Creations (R : σ → σ' → Prop) (a : Except ExecutionError Instance × σ)
    (b : Except ExecutionError Instance × σ') : Prop where
  /-- Nothing tells the new instances apart. -/
  result : Agree Same a.1 b.1
  /-- The states of the hosts are related. -/
  world : R a.2 b.2

/-- The instance that a module begins with. -/
def initial (engine : EngineConfig) (execution : ExecutionConfig) (m : Module) (id : Nat)
    (memory : Memory) : Instance :=
  { id, script := m.script, pageLimit := pageLimitOf engine execution, memory,
    gas := execution.gasLimit }

/-- The first actions of an instance. -/
def started (guest : Guest) (host : HostCalls σ) (i : Instance) (x : σ) :
    Except ExecutionError Instance × σ :=
  match i.script.start with
  | none => (.ok i, x)
  | some actions =>
    match i.run ((guest.start actions).run host (i.linkage false)) x with
    | (.ok (), i, x) => (.ok i, x)
    | (.error h, _, x) => (.error h.toSetupError, x)

/-- **The first actions take the same course.** -/
theorem alike_started {i i' : Instance} (h : HostCalls.Alike R (i.linkage false) host host')
    (hi : i.Same i') (hx : R x x') :
    Creations R (started guest host i x) (started guest host' i' x') := by
  unfold started
  rw [← hi.script, ← hi.linkage]
  cases i.script.start with
  | none => exact ⟨.ok hi, hx⟩
  | some actions =>
    have hfirst := (guest.start actions).linked h.bond
    have hrun := (linked_run h.bond hfirst hi.fits (hi.machine hx)).ends
    dsimp only
    generalize i.run ((guest.start actions).run host (i.linkage false)) x = a at hrun ⊢
    generalize i'.run ((guest.start actions).run host' (i.linkage false)) x' = a' at hrun ⊢
    obtain ⟨result, j, y⟩ := a
    obtain ⟨result', j', y'⟩ := a'
    obtain ⟨hresult, -, hj, hy⟩ := hrun
    cases hresult
    cases result with
    | ok u => exact ⟨.ok hj, hy⟩
    | error e => exact ⟨.error _, hy⟩

/-- An instance after its first actions is the instance before them, but for its memory and its
gas. -/
theorem ran_started {i j : Instance} {y : σ} (h : started guest host i x = (.ok j, y)) :
    i.Ran j := by
  unfold started at h
  cases hstart : i.script.start with
  | none =>
    rw [hstart] at h
    cases h
    exact .refl i
  | some actions =>
    rw [hstart] at h
    have hran := ran_run i ((guest.start actions).run host (i.linkage false)) x
    dsimp only at h
    generalize i.run ((guest.start actions).run host (i.linkage false)) x = a at hran h
    obtain ⟨result, k, z⟩ := a
    cases result with
    | ok u => cases h; exact hran
    | error e => cases h

/-- Creation, in its steps: the slots, what can be known of the module, and the first actions. -/
theorem create_eq (m : Module) (id live : Nat) :
    create guest host engine execution m id live x =
      match importFault? m.script.imports with
      | some reason => (.error (.instantiationFailed reason), x)
      | none =>
        if engine.poolingAllocator && engine.maxInstances.toNat ≤ live then
          (.error (.instantiationFailed
            s!"maximum concurrent limit of {engine.maxInstances} for core instances reached"), x)
        else if execution.maxMemoryBytes < m.script.pages * pageSize then
          (.error (.instantiationFailed
            s!"memory minimum size of {m.script.pages} pages exceeds memory limits"), x)
        else match initialMemory? m.script with
          | none => (.error (.instantiationFailed TrapCause.outOfBounds.reason), x)
          | some memory => started guest host (initial engine execution m id memory) x := rfl

/-- An instance is told no more than its module at first, and there is a slot for it or none is
needed. -/
theorem alike_create (hcalls : ∀ linkage : Linkage, linkage.bound = none →
      linkage.breaksOff = false → HostCalls.Alike R linkage host host') (hx : R x x') (m : Module)
    (id id' : Nat) {live live' : Nat} (hslots : engine.poolingAllocator = true →
      (engine.maxInstances.toNat ≤ live ↔ engine.maxInstances.toNat ≤ live')) :
    Creations R (create guest host engine execution m id live x)
      (create guest host' engine execution m id' live' x') := by
  -- only where slots are reserved does it matter how many instances there are
  have hfull : (engine.poolingAllocator && decide (engine.maxInstances.toNat ≤ live)) =
      (engine.poolingAllocator && decide (engine.maxInstances.toNat ≤ live')) := by
    cases hpooling : engine.poolingAllocator with
    | false => rfl
    | true => simp only [Bool.true_and, hslots hpooling]
  rw [create_eq, create_eq, hfull]
  split
  · exact ⟨.error _, hx⟩
  · split
    · exact ⟨.error _, hx⟩
    · split
      · exact ⟨.error _, hx⟩
      · split
        · exact ⟨.error _, hx⟩
        · rename_i memory _
          have hsame : (initial engine execution m id memory).Same
              (initial engine execution m id' memory) :=
            ⟨rfl, rfl, .refl memory, rfl, rfl⟩
          exact alike_started (hcalls _ rfl rfl) hsame hx

/-- A new instance is what its module says it is at first, but for its memory and its gas. -/
theorem ran_of_create {m : Module} {id live : Nat} {i : Instance} {y : σ}
    (h : create guest host engine execution m id live x = (.ok i, y)) :
    ∃ memory, (initial engine execution m id memory).Ran i := by
  rw [create_eq] at h
  split at h
  · cases h
  · split at h
    · cases h
    · split at h
      · cases h
      · split at h
        · cases h
        · exact ⟨_, ran_started h⟩

/-- A new instance serves no invocation, belongs to a pool or is not said not to, has not failed,
and has the number that it was made with. -/
theorem create_eq_ok {m : Module} {id live : Nat} {i : Instance} {y : σ}
    (h : create guest host engine execution m id live x = (.ok i, y)) :
    i.id = id ∧ i.bound = none ∧ i.detached = false ∧ i.errors = 0 := by
  obtain ⟨_, memory, gas, rfl⟩ := ran_of_create h
  exact ⟨rfl, rfl, rfl, rfl⟩

/-- Where slots are reserved, one was free for a new instance. -/
theorem slot_of_create {m : Module} {id live : Nat} {i : Instance} {y : σ}
    (h : create guest host engine execution m id live x = (.ok i, y))
    (hpooling : engine.poolingAllocator = true) : live < engine.maxInstances.toNat := by
  rw [create_eq, hpooling] at h
  split at h
  · cases h
  · split at h
    · cases h
    · rename_i hfree
      exact Nat.not_le.mp (by simpa using hfree)

theorem create_blank (guest : Guest) (host : HostCalls σ) (execution : ExecutionConfig) {m : Module}
    (hm : m.script = .blank) (id : Nat) {live : Nat}
    (hslot : engine.poolingAllocator = true → live < engine.maxInstances.toNat) (x : σ) :
    create guest host engine execution m id live x =
      (.ok (initial engine execution m id ⟨0, ∅⟩), x) := by
  have hfree : (engine.poolingAllocator && decide (engine.maxInstances.toNat ≤ live)) = false := by
    cases hpooling : engine.poolingAllocator with
    | false => rfl
    | true => simpa using hslot hpooling
  have himports : importFault? m.script.imports = none := by
    rw [hm]
    rfl
  have hsmall : ¬ execution.maxMemoryBytes < m.script.pages * pageSize := by
    rw [hm]
    exact Nat.not_lt_zero _
  have hmemory : initialMemory? m.script = some ⟨0, ∅⟩ := by
    rw [hm]
    rfl
  rw [create_eq, himports, hfree, hmemory]
  simp only [Bool.false_eq_true, if_false, if_neg hsmall]
  unfold started initial
  rw [hm]
  rfl

end

end Instance

end ContractHost
