import ContractHost.Proofs.Guest.Instances
import Mathlib.Algebra.GroupWithZero.Nat
import Mathlib.Data.List.Induction

/-!
# The course of a run

Contract code works by itself, and now and then asks its host for something.  So a run is known, as
far as its host is concerned, by the requests that it makes: what each of them found, and what it
left.

The requests of a run are written down by the host.  A host that does so answers as it would
otherwise, so the run takes the same course, and what was written down is that course.

## Main definitions

* `recording` — a host that writes down every request.
* `meter` — the gas that a contract has used by itself.
* `recorded?` — the requests of a call, written down.

## Main results

* `Course.invariant` — **what every request and every log line keeps, a run keeps.**
* `Course.reaches` — **to each of its requests a course has led.**
* `Course.gas_eq` — **gas is used by the contract itself or by what it asks for.**
* `course_callGuest` — **what is written down of a call is the course that it takes.**
-/

namespace ContractHost

variable {σ : Type}

/-! ### Requests written down -/

/-- A host that writes down every request, and answers as another does. -/
def recording (host : HostCalls σ) : HostCalls (σ × List (Visit σ)) where
  request linkage regions caller x :=
    let (answer, after, world) := host.request linkage regions caller x.1
    (answer, after, world, x.2 ++ [⟨regions, ⟨caller, x.1⟩, answer, ⟨after, world⟩⟩])
  log linkage ptr len m x := (host.log linkage ptr len m x.1, x.2)

namespace Course

variable {host : HostCalls σ} {linkage : Linkage} {start m : Machine σ} {visits : List (Visit σ)}

/-- **What every request and every log line keeps, a run keeps.**  The invariant is about the state
of the host and the requests so far. -/
theorem invariant {P : List (Visit σ) → σ → Prop} (h : Course host linkage start visits m)
    (hstart : P [] start.world)
    (hlog : ∀ {visits} {m : Machine σ} (ptr len : Int32), P visits m.world →
      P visits (host.log linkage ptr len m.memory m.world))
    (hvisit : ∀ {visits : List (Visit σ)} {m : Machine σ} (regions : Regions) {answer caller world},
      Course host linkage start visits m →
      host.request linkage regions m.toCaller m.world = (answer, caller, world) →
      answer ≠ .suspended → P visits m.world →
      P (visits ++ [⟨regions, m, answer, ⟨caller, world⟩⟩]) world) : P visits m.world := by
  induction h with
  | rest => exact hstart
  | work _ memory _ ih => exact ih
  | log _ ptr len ih => exact hlog ptr len ih
  | visit h regions hserved hanswer ih => exact hvisit regions h hserved hanswer ih

/-- The course up to the last request, and that request. -/
theorem before {v : Visit σ} (h : Course host linkage start (visits ++ [v]) m) :
    Course host linkage start visits v.before ∧
      host.request linkage v.regions v.before.toCaller v.before.world =
        (v.answer, v.after.toCaller, v.after.world) ∧ v.answer ≠ .suspended := by
  generalize hvisits : visits ++ [v] = all at h
  induction h with
  | rest => exact absurd hvisits (by simp)
  | work _ memory _ ih => exact ih hvisits
  | log _ ptr len ih => exact ih hvisits
  | visit h regions hserved hanswer ih =>
    obtain ⟨rfl, hlast⟩ := List.append_inj' hvisits rfl
    cases hlast
    exact ⟨h, hserved, hanswer⟩

/-- The course up to one of the requests, with that request. -/
theorem upTo {before after : List (Visit σ)} {v : Visit σ}
    (h : Course host linkage start (before ++ v :: after) m) :
    Course host linkage start (before ++ [v]) v.after := by
  induction after using List.reverseRecOn generalizing m with
  | nil =>
    obtain ⟨hbefore, hserved, hanswer⟩ := h.before
    exact hbefore.visit v.regions hserved hanswer
  | append_singleton after last ih =>
    rw [← List.cons_append, ← List.append_assoc] at h
    exact ih h.before.1

/-- **To each of its requests a course has led.** -/
theorem reaches {v : Visit σ} (h : Course host linkage start visits m) (hv : v ∈ visits) :
    ∃ earlier, Course host linkage start earlier v.before := by
  obtain ⟨earlier, later, rfl⟩ := List.append_of_mem hv
  exact ⟨earlier, h.upTo.before.1⟩

end Course

/-! ### Gas on the way -/

/-- What a meter shows that runs while the contract works by itself, and the gas with which it last
went on, after some requests. -/
def meter (gas : Nat) (visits : List (Visit σ)) : Nat × Nat :=
  visits.foldl (fun shown v => (shown.1 + (shown.2 - v.before.gas), v.after.gas)) (0, gas)

/-- The gas that a contract has used by itself, from the beginning up to a point. -/
def usedAlone (gas : Nat) (visits : List (Visit σ)) (left : Nat) : Nat :=
  (meter gas visits).1 + ((meter gas visits).2 - left)

theorem meter_append (gas : Nat) (visits : List (Visit σ)) (v : Visit σ) :
    meter gas (visits ++ [v]) =
      ((meter gas visits).1 + ((meter gas visits).2 - v.before.gas), v.after.gas) := by
  unfold meter
  rw [List.foldl_append]
  rfl

namespace Course

variable {host : HostCalls σ} {linkage : Linkage} {start m : Machine σ} {visits : List (Visit σ)}

theorem gas_le_meter (h : Course host linkage start visits m) :
    m.gas ≤ (meter start.gas visits).2 := by
  induction h with
  | rest => exact Nat.le_refl _
  | work _ memory hgas ih => exact Nat.le_trans hgas ih
  | log _ ptr len ih => exact ih
  | visit _ regions hserved hanswer ih => exact Nat.le_of_eq (by rw [meter_append])

/-- **Gas is used by the contract itself or by what it asks for**: if every request uses what `cost`
says, then all that was used is what the contract has used by itself and these costs. -/
theorem gas_eq (h : Course host linkage start visits m) (cost : Visit σ → Nat)
    (hcost : ∀ v ∈ visits, v.before.gas = v.after.gas + cost v) :
    start.gas = m.gas + usedAlone start.gas visits m.gas + (visits.map cost).sum := by
  -- what the meter shows accounts for everything up to the last request
  have hmeter : start.gas = (meter start.gas visits).1 + (meter start.gas visits).2 +
      (visits.map cost).sum := by
    induction h with
    | rest => simp [meter]
    | work _ memory hgas ih => exact ih hcost
    | log _ ptr len ih => exact ih hcost
    | @visit visits n hcourse regions answer caller world hserved hanswer ih =>
      have hbefore := ih fun v hv => hcost v (List.mem_append_left _ hv)
      have hlast := hcost ⟨regions, n, answer, ⟨caller, world⟩⟩ (by simp)
      have hle := hcourse.gas_le_meter
      rw [meter_append, List.map_append, List.sum_append]
      simp only [List.map_cons, List.map_nil, List.sum_cons, List.sum_nil] at hlast ⊢
      omega
  have hle := h.gas_le_meter
  unfold usedAlone
  omega

/-- Gas never grows, if no request gives any. -/
theorem gas_le (h : Course host linkage start visits m)
    (hvisits : ∀ v ∈ visits, v.after.gas ≤ v.before.gas) :
    m.gas ≤ start.gas ∧ ∀ v ∈ visits, v.before.gas ≤ start.gas ∧ m.gas ≤ v.after.gas := by
  -- along the course: work and requests only take gas away
  induction h with
  | rest =>
    refine ⟨Nat.le_refl _, ?_⟩
    intro v hv
    cases hv
  | work _ memory hgas ih =>
    obtain ⟨hle, hall⟩ := ih hvisits
    exact ⟨Nat.le_trans hgas hle, fun v hv => ⟨(hall v hv).1, Nat.le_trans hgas (hall v hv).2⟩⟩
  | log _ ptr len ih => exact ih hvisits
  | visit _ regions hserved hanswer ih =>
    obtain ⟨hle, hall⟩ := ih fun v hv => hvisits v (List.mem_append_left _ hv)
    have hlast := hvisits _ (List.mem_append_right _ (List.mem_singleton_self _))
    refine ⟨Nat.le_trans hlast hle, ?_⟩
    intro v hv
    rcases List.mem_append.mp hv with hv | hv
    · exact ⟨(hall v hv).1, Nat.le_trans hlast (hall v hv).2⟩
    · rw [List.mem_singleton.mp hv]
      exact ⟨hle, Nat.le_refl _⟩

end Course

/-! ### The course of a call -/

/-- A machine over a host, and the same machine over one that writes down the requests, which are
those of a course that has led there. -/
def Recorded (host : HostCalls σ) (linkage : Linkage) (start m : Machine σ)
    (m' : Machine (σ × List (Visit σ))) : Prop :=
  ∃ visits, m' = ⟨m.toCaller, m.world, visits⟩ ∧ Course host linkage start visits m

theorem Recorded.replace {host : HostCalls σ} {linkage : Linkage} {start m : Machine σ}
    {visits : List (Visit σ)} (h : Course host linkage start visits m) (o : Option Memory) :
    Option.Rel (fun n n' => Recorded host linkage start { m with memory := n }
      { toCaller := ⟨n', m.gas⟩, world := (m.world, visits) }) o o := by
  cases o with
  | none => exact .none
  | some memory => exact .some ⟨visits, rfl, h.work memory (Nat.le_refl _)⟩

/-- **A host that writes down requests answers as it would otherwise.** -/
theorem bond_recording (host : HostCalls σ) (linkage : Linkage) (start : Machine σ) :
    HostCalls.Bond (Recorded host linkage start) True linkage host (recording host) where
  same := by
    rintro m _ ⟨visits, rfl, -⟩
    exact ⟨.refl _, rfl⟩
  spend := by
    rintro m _ n ⟨visits, rfl, h⟩
    exact ⟨visits, rfl, h.work m.memory (Nat.sub_le _ _)⟩
  write := by
    rintro m _ a b ⟨visits, rfl, h⟩
    exact Recorded.replace h _
  grow := by
    rintro m _ more limit ⟨visits, rfl, h⟩
    exact Recorded.replace h _
  answer := by
    rintro m _ regions ⟨visits, rfl, -⟩
    rfl
  breaks _ _ _ := trivial
  request := by
    rintro m _ regions ⟨visits, rfl, h⟩ hanswer
    exact ⟨_, rfl, h.visit regions rfl hanswer⟩
  log := by
    rintro m _ ptr len ⟨visits, rfl, h⟩
    exact ⟨visits, rfl, h.log ptr len⟩
  steady _ := trivial

/-- **What is written down of a call is the course that it takes**, and it comes to the same. -/
theorem course_callGuest (guest : Guest) (calls : HostCalls σ) (breaksOff : Bool) (c : Context)
    (budget : UInt64) (i : Instance) (x : σ) :
    (Host.callGuest guest (recording calls) breaksOff c budget i (x, [])).1 =
        (Host.callGuest guest calls breaksOff c budget i x).1 ∧
      ((Host.callGuest guest calls breaksOff c budget i x).1 ≠ .error .suspended →
        Course calls (i.linkage breaksOff) ((i.setGas budget).machine x)
          (Host.callGuest guest (recording calls) breaksOff c budget i (x, [])).2.2.2
          ((Host.callGuest guest calls breaksOff c budget i x).2.1.machine
            (Host.callGuest guest calls breaksOff c budget i x).2.2)) := by
  have hstart : Recorded calls (i.linkage breaksOff) ((i.setGas budget).machine x)
      ((i.setGas budget).machine x) ((i.setGas budget).machine (x, [])) := ⟨[], rfl, .rest⟩
  have hlinked := Instance.linked_callGuest guest (bond_recording calls (i.linkage breaksOff) _)
    (.refl i) c budget hstart
  refine ⟨hlinked.result.symm, ?_⟩
  intro hends
  obtain ⟨visits, hmachine, hcourse⟩ := hlinked.machine hends
  have hvisits := congrArg (fun m => m.world.2) hmachine
  simp only [Instance.machine] at hvisits
  rw [hvisits]
  exact hcourse

/-- The requests of a call that comes to its end. -/
def recorded? (guest : Guest) (calls : HostCalls σ) (breaksOff : Bool) (c : Context)
    (budget : UInt64) (i : Instance) (x : σ) : Option (List (Visit σ)) :=
  let (result, _, _, visits) := Host.callGuest guest (recording calls) breaksOff c budget i (x, [])
  result.toOption.map fun () => visits

theorem course_of_recorded? {guest : Guest} {calls : HostCalls σ} {breaksOff : Bool} {c : Context}
    {budget : UInt64} {i : Instance} {x : σ} {visits : List (Visit σ)}
    (h : recorded? guest calls breaksOff c budget i x = some visits) :
    ∃ m, Course calls (i.linkage breaksOff) ((i.setGas budget).machine x) visits m := by
  obtain ⟨hsame, hcourse⟩ := course_callGuest guest calls breaksOff c budget i x
  unfold recorded? at h
  generalize Host.callGuest guest (recording calls) breaksOff c budget i (x, [])
    = ended at hsame hcourse h
  obtain ⟨result, i', x', made⟩ := ended
  obtain ⟨⟨⟩, hended, rfl⟩ := Option.map_eq_some_iff.mp h
  refine ⟨_, hcourse fun hsuspended => ?_⟩
  rw [← hsame] at hsuspended
  cases hsuspended
  cases hended

end ContractHost
