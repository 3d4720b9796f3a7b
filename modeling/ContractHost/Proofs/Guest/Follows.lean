import ContractHost.Guest.Conduct

/-!
# Scripts and courses

A script works by itself, and now and then asks its host for something.  What it does by itself
leaves the host alone and uses gas.  So wherever a course has led, a script goes on with it, unless
it is broken off.

## Main definitions

* `Run.Works` — runs that only work.

## Main results

* `Run.Follows.bind` — **runs may be taken apart.**
* `Action.follows_perform`, `Export.follows_call` — **every script goes on with its course.**
-/

namespace ContractHost

variable {σ α β : Type}

namespace Run

/-! ### Runs that only work -/

/-- The run only works: it leaves the host alone, it uses gas, and it is not broken off. -/
structure Works (r : Run σ α) : Prop where
  /-- It is not broken off. -/
  ends : ∀ m, (r.exec m).1 ≠ .error .suspended
  /-- The host stays as it is. -/
  world : ∀ m, (r.exec m).2.world = m.world
  /-- No gas is gained. -/
  gas : ∀ m, (r.exec m).2.gas ≤ m.gas

theorem works_pure (a : α) : Works (pure a : Run σ α) :=
  ⟨fun _ => nofun, fun _ => rfl, fun _ => Nat.le_refl _⟩

theorem works_throw {h : Halt} (hh : h ≠ .suspended) : Works (throw h : Run σ α) :=
  ⟨fun _ heq => hh (Except.error.inj heq), fun _ => rfl, fun _ => Nat.le_refl _⟩

theorem works_get_bind {f : Machine σ → Run σ α} (hf : ∀ m, Works (f m)) : Works (get >>= f) :=
  ⟨fun m => (hf m).ends m, fun m => (hf m).world m, fun m => (hf m).gas m⟩

theorem Works.bind {r : Run σ α} {f : α → Run σ β} (hr : Works r) (hf : ∀ a, Works (f a)) :
    Works (r >>= f) := by
  -- the first run ends, and the second one goes on with no more gas, or the first one stops early
  have hexec (m : Machine σ) :
      ((r >>= f).exec m).1 ≠ .error .suspended ∧ ((r >>= f).exec m).2.world = m.world ∧
        ((r >>= f).exec m).2.gas ≤ m.gas := by
    have hends := hr.ends m
    have hworld := hr.world m
    have hgas := hr.gas m
    rw [exec_bind]
    cases hm : r.exec m with
    | mk result n =>
      rw [hm] at hends hworld hgas
      cases result with
      | ok a =>
        exact ⟨(hf a).ends n, ((hf a).world n).trans hworld, Nat.le_trans ((hf a).gas n) hgas⟩
      | error h => exact ⟨fun heq => hends (congrArg _ (Except.error.inj heq)), hworld, hgas⟩
  exact ⟨fun m => (hexec m).1, fun m => (hexec m).2.1, fun m => (hexec m).2.2⟩

theorem works_spend (n : Nat) : Works (spend n : Run σ Unit) :=
  ⟨fun _ => nofun, fun _ => rfl, fun _ => Nat.sub_le _ _⟩

theorem works_halt (n : Nat) {h : Halt} (hh : h ≠ .suspended) : Works (halt n h : Run σ α) :=
  (works_spend n).bind fun _ => works_throw hh

theorem works_trap (n : Nat) (cause : TrapCause) : Works (halt n (.trap cause) : Run σ α) :=
  works_halt n nofun

theorem works_need (n : Nat) : Works (need n : Run σ Unit) := by
  refine works_get_bind fun m => ?_
  split
  · exact works_trap _ _
  · exact works_pure _

theorem works_orFault (n : Nat) (o : Option α) : Works (orFault n o : Run σ α) := by
  cases o with
  | some a => exact works_pure a
  | none => exact works_trap n _

theorem works_loadWord (n : Nat) (address : UInt32) : Works (loadWord n address : Run σ UInt32) :=
  works_get_bind fun _ => works_orFault n _

theorem works_storeWord (n : Nat) (address w : UInt32) :
    Works (storeWord n address w : Run σ Unit) :=
  works_get_bind fun _ => (works_orFault n _).bind fun _ =>
    ⟨fun _ => nofun, fun _ => rfl, fun _ => Nat.le_refl _⟩

theorem works_readHandle : Works (readHandle : Run σ Nat) := by
  refine (works_need 3).bind fun _ => (works_loadWord 2 _).bind fun start => ?_
  refine (works_loadWord 2 _).bind fun digits => works_get_bind fun m => ?_
  refine (works_need _).bind fun _ => ?_
  dsimp only
  split
  · exact (works_trap 2 _).bind fun _ => (works_storeWord 2 _ _).bind fun _ => works_pure _
  · exact (works_storeWord 2 _ _).bind fun _ => works_pure _

/-! ### Runs that go on with a course -/

variable {host : HostCalls σ} {linkage : Linkage} {start : Machine σ}

theorem Works.follows {r : Run σ α} (hr : Works r) : Follows host linkage start r := by
  refine ⟨fun {visits m} h => ⟨fun _ => ⟨visits, ?_⟩, fun heq => absurd heq (hr.ends m)⟩⟩
  have hwork := h.work (r.exec m).2.memory (hr.gas m)
  rw [← hr.world m] at hwork
  exact hwork

/-- **Runs may be taken apart**, at any point that they have reached. -/
theorem FollowsFrom.bind {r : Run σ α} {f : α → Run σ β} {m : Machine σ}
    (hr : FollowsFrom host linkage start m r) (hf : ∀ a, Follows host linkage start (f a)) :
    FollowsFrom host linkage start m (r >>= f) := by
  obtain ⟨hcourse, hbroken⟩ := hr
  cases hm : r.exec m with
  | mk result n =>
    rw [hm] at hcourse hbroken
    cases result with
    | ok a =>
      obtain ⟨visits, h⟩ := hcourse nofun
      obtain ⟨hcourse, hbroken⟩ := (hf a).fromAny h
      constructor <;> simp only [exec_bind, hm] <;> assumption
    | error h =>
      constructor <;> simp only [exec_bind, hm]
      · exact fun hne => hcourse fun heq => hne (congrArg _ (Except.error.inj heq))
      · exact fun heq => hbroken (congrArg _ (Except.error.inj heq))

/-- **Runs may be taken apart.** -/
theorem Follows.bind {r : Run σ α} {f : α → Run σ β} (hr : Follows host linkage start r)
    (hf : ∀ a, Follows host linkage start (f a)) : Follows host linkage start (r >>= f) :=
  ⟨fun h => (hr.fromAny h).bind hf⟩

theorem follows_get_bind {f : Machine σ → Run σ α}
    (hf : ∀ {visits m}, Course host linkage start visits m →
      FollowsFrom host linkage start m (f m)) : Follows host linkage start (get >>= f) := by
  refine ⟨fun {visits m} h => ?_⟩
  obtain ⟨hcourse, hbroken⟩ := hf h
  constructor <;> simp only [exec_bind] <;> assumption

theorem followsFrom_set {m n : Machine σ} {visits : List (Visit σ)}
    (h : Course host linkage start visits n) : FollowsFrom host linkage start m (set n) :=
  ⟨fun _ => ⟨visits, h⟩, nofun⟩

end Run

namespace Action

variable {host : HostCalls σ} {linkage : Linkage} {start : Machine σ}

open Run

/-- A request is part of the course, unless it is broken off. -/
theorem follows_serve (regions : Regions) :
    Follows host linkage start (serve host linkage regions) := by
  refine follows_get_bind fun {visits m} h => ?_
  cases hserved : host.request linkage regions m.toCaller m.world with
  | mk answer rest =>
    obtain ⟨caller, world⟩ := rest
    cases answer with
    | signal n =>
      have hvisit := h.visit regions hserved nofun
      exact (followsFrom_set hvisit).bind fun _ => (works_storeWord 0 _ _).follows
    | crashed message =>
      have hvisit := h.visit regions hserved nofun
      exact (followsFrom_set hvisit).bind fun _ =>
        (works_throw (h := .crashed message) nofun).follows
    | suspended => exact ⟨fun hends => absurd rfl hends, fun _ => .inside h regions hserved⟩

/-- **Every action goes on with the course.** -/
theorem follows_perform (action : Action) :
    Follows host linkage start (perform host linkage action) := by
  -- all is work but for the requests, the log lines and the endless loop
  cases action with
  | request headerPtr headerLen bodyPtr bodyLen =>
    refine (works_need 6).follows.bind fun _ => (works_spend 12).follows.bind fun _ => ?_
    exact (follows_serve _).bind fun _ => (works_spend 1).follows
  | requestAt headerPtr headerLen bodyPtrAt bodyLenAt =>
    refine (works_need 6).follows.bind fun _ => (works_loadWord 5 _).follows.bind fun _ => ?_
    refine (works_loadWord 5 _).follows.bind fun _ => (works_spend 14).follows.bind fun _ => ?_
    exact (follows_serve _).bind fun _ => (works_spend 1).follows
  | patch address delta =>
    refine Works.follows ((works_need 4).bind fun _ => (works_loadWord 3 _).bind fun _ => ?_)
    exact (works_storeWord 3 _ _).bind fun _ => works_spend 10
  | store address value =>
    exact Works.follows ((works_need 4).bind fun _ => (works_storeWord 3 _ _).bind fun _ =>
      works_spend 7)
  | log ptr len =>
    refine (works_need 4).follows.bind fun _ => (works_spend 7).follows.bind fun _ => ?_
    exact ⟨fun h => ⟨fun _ => ⟨_, h.log ptr len⟩, nofun⟩⟩
  | grow pages address =>
    refine (works_need 4).follows.bind fun _ => follows_get_bind fun {visits m} h => ?_
    dsimp only
    split
    · rename_i memory _
      have hwork := h.work memory (Nat.le_refl m.gas)
      exact (followsFrom_set hwork).bind fun _ =>
        Works.follows ((works_storeWord 3 _ _).bind fun _ => works_spend 8)
    · exact (Works.follows ((works_storeWord 3 _ _).bind fun _ => works_spend 8)).fromAny h
  | divide divisor =>
    refine (works_need 3).follows.bind fun _ => ?_
    dsimp only
    split
    · exact Works.follows ((works_trap 2 _).bind fun _ => works_spend 6)
    · exact (works_spend 6).follows
  | burn counter => exact Works.follows ((works_need _).bind fun _ => works_spend _)
  | spin =>
    have hend : Works (get >>= fun m : Machine σ => (halt m.gas (.trap .outOfFuel) : Run σ Unit)) :=
      works_get_bind fun _ => works_trap _ _
    refine (works_need 2).follows.bind fun _ => ?_
    dsimp only
    split
    · -- the loop is broken off where it is
      rename_i hbreaksOff
      refine Follows.bind ?_ fun _ => hend.follows
      exact ⟨fun h => ⟨fun hends => absurd rfl hends, fun _ => .looping h hbreaksOff⟩⟩
    · exact hend.follows
  | trap => exact Works.follows ((works_need 2).bind fun _ => works_trap 2 _)
  | exit code => exact Works.follows ((works_need 3).bind fun _ => works_halt 5 nofun)
  | file address =>
    exact Works.follows ((works_need 3).bind fun _ => (works_storeWord 9 _ _).bind fun _ =>
      works_spend 10)

theorem follows_performAll (actions : List Action) :
    Follows host linkage start (performAll host linkage actions) := by
  unfold performAll
  induction actions with
  | nil => exact (works_pure _).follows
  | cons action actions ih => exact (follows_perform action).bind fun _ => ih

end Action

/-! ### Exported functions -/

section

variable {host : HostCalls σ} {linkage : Linkage} {start : Machine σ}

open Run

theorem Function.follows_call (f : Function) :
    Follows host linkage start (f.call host linkage) := by
  refine (works_need 1).follows.bind fun _ => works_readHandle.follows.bind fun digits => ?_
  refine (works_spend _).follows.bind fun _ => (Action.follows_performAll f.body).bind fun _ => ?_
  exact (works_spend _).follows

theorem RuntimeTypeExport.follows_call (f : RuntimeTypeExport) :
    Follows host linkage start (f.call host linkage) := by
  refine (works_need 1).follows.bind fun _ => (works_spend 1).follows.bind fun _ => ?_
  refine (Action.follows_performAll f.body).bind fun _ => ?_
  exact Works.follows ((works_spend 1).bind fun _ => works_pure _)

theorem AllocateExport.follows_call (f : AllocateExport) (len : Int32) :
    Follows host linkage start (f.call host linkage len) := by
  refine (works_need 1).follows.bind fun _ => (works_storeWord 0 _ _).follows.bind fun _ => ?_
  refine (works_storeWord 0 _ _).follows.bind fun _ => (works_spend 7).follows.bind fun _ => ?_
  refine (Action.follows_performAll f.body).bind fun _ => ?_
  exact Works.follows ((works_spend 1).bind fun _ => works_pure _)

theorem follows_callPlain (body : List Action) :
    Follows host linkage start (callPlain host linkage body) :=
  (works_need 1).follows.bind fun _ => (works_spend 1).follows.bind fun _ =>
    Action.follows_performAll body

/-- **An exported function goes on with the course.** -/
theorem Export.follows_call (argument : Int32) (f : Export) :
    Follows host linkage start (f.call host linkage argument) := by
  cases f with
  | runtimeType f => exact f.follows_call
  | allocate f =>
    unfold Export.call
    dsimp only
    split
    · exact f.follows_call argument
    · exact (follows_callPlain []).bind fun _ =>
        Works.follows ((works_spend 1).bind fun _ => works_pure _)
  | deallocate body => exact (follows_callPlain body).bind fun _ => (works_pure _).follows
  | method f => exact f.follows_call.bind fun _ => (works_pure _).follows

end

end ContractHost
