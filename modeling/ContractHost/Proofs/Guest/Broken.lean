import ContractHost.Proofs.Guest.Course

/-!
# Runs that are broken off

A run is broken off in an endless loop, or inside a request that is itself broken off.  Up to there
it has taken a course like any other run.  So what is known of courses tells what state the host is
in when a run is broken off: either that in which the contract has left it, or that in which the
request has.

## Main definitions

* `Instance.Follows` — what is done with an instance goes on with a course.

## Main results

* `follows_callGuest` — **a call goes on with its course, or it is broken off.**
* `reached_callGuest` — **to every request that was written down a course has led.**
-/

namespace ContractHost

variable {σ α β : Type}

/-! ### Calls -/

namespace Instance

/-- What is done with an instance goes on with a course: it leads to where the instance and the host
are left, or it is broken off. -/
structure Follows (host : HostCalls σ) (linkage : Linkage) (start : Machine σ)
    (a : Except CallFault α × Instance × σ) : Prop where
  /-- A course leads there. -/
  course : a.1 ≠ .error .suspended →
    ∃ visits, Course host linkage start visits (a.2.1.machine a.2.2)
  /-- Or it is broken off. -/
  broken : a.1 = .error .suspended → Course.Broken host linkage start a.2.2

variable {host : HostCalls σ} {linkage : Linkage} {start : Machine σ} {i : Instance} {x : σ}
variable {visits : List (Visit σ)} {breaksOff : Bool}

theorem follows_call {r : Run σ α} (hr : Run.Follows host linkage start r)
    (h : Course host linkage start visits (i.machine x)) :
    Follows host linkage start (i.call r x) := by
  obtain ⟨hcourse, hbroken⟩ := hr.fromAny h
  constructor
  · intro hends
    obtain ⟨visits, hcourse⟩ := hcourse fun heq =>
      hends (congrArg (·.mapError Halt.toCallFault) heq)
    -- the gas that is left is noted as a number of 64 bits
    have hgas : (UInt64.ofNat (r.exec (i.machine x)).2.gas).toNat ≤
        (r.exec (i.machine x)).2.gas := by
      rw [UInt64.toNat_ofNat']
      exact Nat.mod_le _ _
    exact ⟨visits, hcourse.work _ hgas⟩
  · exact fun heq => hbroken (eq_suspended_of_mapError heq)

theorem follows_refused (h : Course host linkage start visits (i.machine x)) (e : ExecutionError) :
    Follows (α := α) host linkage start (.error (.error e), i, x) :=
  ⟨fun _ => ⟨visits, h⟩, nofun⟩

theorem follows_notExported (h : Course host linkage start visits (i.machine x)) (name : String) :
    Follows (α := α) host linkage start (i.notExported name x) :=
  follows_refused h _

theorem Follows.of_error {e : CallFault} {j : Instance} {y : σ}
    (h : Follows (α := α) host linkage start (.error e, j, y)) :
    Follows (α := β) host linkage start (.error e, j, y) :=
  ⟨fun hends => h.course fun heq => hends (congrArg _ (Except.error.inj heq)),
    fun heq => h.broken (congrArg _ (Except.error.inj heq))⟩

theorem Follows.of_ok {a : α} {j : Instance} {y : σ}
    (h : Follows host linkage start (.ok a, j, y)) :
    ∃ visits, Course host linkage start visits (j.machine y) :=
  h.course nofun

theorem follows_ok (h : Course host linkage start visits (i.machine x)) (a : α) :
    Follows host linkage start (.ok a, i, x) :=
  ⟨fun _ => ⟨visits, h⟩, nofun⟩

theorem follows_runtimeType (guest : Guest) (hlinkage : i.linkage breaksOff = linkage)
    (h : Course host linkage start visits (i.machine x)) :
    Follows host linkage start (i.runtimeType host breaksOff x guest) := by
  unfold runtimeType
  rw [hlinkage]
  split
  · rename_i f _
    exact follows_call ((guest.call 0 f).follows host linkage start) h
  · exact follows_notExported h _

theorem Follows.placeParams {a : Except CallFault Int32 × Instance × σ}
    (h : Follows host linkage start a) (params : Bytes) :
    Follows host linkage start (placeParams params a) := by
  obtain ⟨result, j, y⟩ := a
  cases result with
  | error e => exact h
  | ok ptr =>
    obtain ⟨visits, hcourse⟩ := h.of_ok
    simp only [Instance.placeParams]
    split
    · exact follows_refused hcourse _
    · split
      · exact follows_notExported hcourse _
      · split
        · exact follows_refused hcourse _
        · rename_i memory _
          exact follows_ok (hcourse.work memory (Nat.le_refl _)) _

theorem follows_writeParams (guest : Guest) (hlinkage : i.linkage breaksOff = linkage)
    (h : Course host linkage start visits (i.machine x)) (params : Bytes) :
    Follows host linkage start (i.writeParams host breaksOff params x guest) := by
  cases hf : i.script.typed? exportNames.allocate 1 1 with
  | none =>
    rw [writeParams_of_none hf]
    exact follows_notExported h _
  | some f =>
    rw [writeParams_of_typed hf, hlinkage]
    have hgiven := (guest.call params.lengthWord.toInt32 f).follows host linkage start
    exact (follows_call hgiven h).placeParams params

theorem follows_callMethod (guest : Guest) (hlinkage : i.linkage breaksOff = linkage)
    (h : Course host linkage start visits (i.machine x)) (name : String) :
    Follows host linkage start (i.callMethod host breaksOff name x guest) := by
  unfold callMethod
  rw [hlinkage]
  split
  · exact follows_notExported h _
  · rename_i f _
    split
    · exact follows_refused h _
    · have hcall := (guest.call 0 f).follows host linkage start
      exact follows_call (hcall.bind fun _ => (Run.works_pure _).follows) h

end Instance

/-- **A call goes on with its course, or it is broken off.** -/
theorem follows_callGuest (guest : Guest) (host : HostCalls σ) (breaksOff : Bool) (c : Context)
    (budget : UInt64) (i : Instance) (x : σ) :
    Instance.Follows host (i.linkage breaksOff) ((i.setGas budget).machine x)
      (Host.callGuest guest host breaksOff c budget i x) := by
  have hstart : Course host (i.linkage breaksOff) ((i.setGas budget).machine x) []
      ((i.setGas budget).machine x) := .rest
  have hkind : Instance.Follows host (i.linkage breaksOff) ((i.setGas budget).machine x)
      ((i.setGas budget).runtimeType host breaksOff x guest) :=
    Instance.follows_runtimeType guest rfl hstart
  have hran := Instance.ran_runtimeType guest (i.setGas budget) host breaksOff x
  -- step by step: each goes on from where the one before has led, on an instance with the same
  -- linkage
  unfold Host.callGuest
  generalize (i.setGas budget).runtimeType host breaksOff x guest = a at hkind hran ⊢
  obtain ⟨result, j, y⟩ := a
  cases result with
  | error e => exact hkind.of_error
  | ok kind =>
    obtain ⟨visits, hcourse⟩ := hkind.of_ok
    have hlinkage : j.linkage breaksOff = i.linkage breaksOff := hran.linkage breaksOff
    dsimp only
    split
    · exact Instance.follows_refused hcourse _
    · generalize (Packet.ofParams handleParam c.handle c.params).encode = params
      have hparams := Instance.follows_writeParams guest hlinkage hcourse params
      have hran := Instance.ran_writeParams guest j host breaksOff params y
      generalize j.writeParams host breaksOff params y guest = b at hparams hran ⊢
      obtain ⟨written, k, z⟩ := b
      cases written with
      | error e => exact hparams.of_error
      | ok ptr =>
        obtain ⟨visits, hcourse⟩ := hparams.of_ok
        have hlinkage : k.linkage breaksOff = i.linkage breaksOff :=
          (hran.linkage breaksOff).trans hlinkage
        exact Instance.follows_callMethod guest hlinkage hcourse c.method

/-! ### Requests written down -/

/-- A course over a host that writes down the requests is a course over the host itself, with the
requests that were written down. -/
theorem Course.of_recording {host : HostCalls σ} {linkage : Linkage} {start : Machine σ}
    {visits : List (Visit (σ × List (Visit σ)))} {m : Machine (σ × List (Visit σ))}
    (h : Course (recording host) linkage ⟨start.toCaller, start.world, []⟩ visits m) :
    Course host linkage start m.world.2 ⟨m.toCaller, m.world.1⟩ := by
  induction h with
  | rest => exact .rest
  | work _ memory hgas ih => exact ih.work memory hgas
  | log _ ptr len ih => exact ih.log ptr len
  | visit _ regions hserved hanswer ih =>
    cases hserved
    exact ih.visit regions rfl hanswer

/-- **To every request that was written down a course has led**, even if the call was broken off,
be it in this very request. -/
theorem reached_callGuest (guest : Guest) (host : HostCalls σ) (breaksOff : Bool) (c : Context)
    (budget : UInt64) (i : Instance) (x : σ) :
    ∀ v ∈ (Host.callGuest guest (recording host) breaksOff c budget i (x, [])).2.2.2,
      ∃ visits,
        Course host (i.linkage breaksOff) ((i.setGas budget).machine x) visits v.before := by
  have hfollows := follows_callGuest guest (recording host) breaksOff c budget i (x, [])
  generalize Host.callGuest guest (recording host) breaksOff c budget i (x, [])
    = ended at hfollows ⊢
  obtain ⟨result, j, y⟩ := ended
  -- if the call was broken off, what was written down belongs to the course up to there
  by_cases hends : result = .error .suspended
  · cases hfollows.broken hends with
    | looping h hbreaksOff => exact fun v hv => h.of_recording.reaches hv
    | inside h regions hserved =>
      have hrecorded := congrArg (fun served => served.2.2.2) hserved
      intro v hv
      rcases List.mem_append.mp (hrecorded.symm ▸ hv) with hv | hv
      · exact h.of_recording.reaches hv
      · -- it is the request that was broken off
        rw [List.mem_singleton.mp hv]
        exact ⟨_, h.of_recording⟩
  · obtain ⟨visits, hcourse⟩ := hfollows.course hends
    exact fun v hv => hcourse.of_recording.reaches hv

end ContractHost
