import ContractHost.Proofs.Guest.Follows
import ContractHost.Proofs.Guest.Linked

/-!
# Scripts as guests

Scripts keep to the rules of contract code.

## Main definitions

* `Guest.scripts` — exported functions do what their scripts say.
-/

namespace ContractHost

variable {σ α : Type}

/-! ### Scripts without gas -/

/-- Where no more gas is left than is needed, a run ends, and no gas is left. -/
theorem Run.exec_need_bind {n : Nat} {m : Machine σ} (h : m.gas ≤ n) (f : Unit → Run σ α) :
    (Run.need n >>= f).exec m = (.error (.trap .outOfFuel), { m with gas := 0 }) := by
  rw [Run.exec_bind]
  have hneed : (Run.need n : Run σ Unit).exec m =
      (.error (.trap .outOfFuel), { m with gas := m.gas - m.gas }) := by
    unfold Run.need
    rw [Run.exec_bind]
    show Run.exec (if m.gas ≤ n then _ else _) m = _
    rw [if_pos h]
    rfl
  rw [hneed, Nat.sub_self]

section

variable {m : Machine σ} (h : m.gas = 0) (host : HostCalls σ) (linkage : Linkage)

include h

theorem Run.exec_need_bind_of_no_gas (f : Unit → Run σ α) :
    (Run.need 1 >>= f).exec m = (.error (.trap .outOfFuel), m) := by
  rw [Run.exec_need_bind (by omega), ← h]

theorem exec_callPlain (body : List Action) :
    (callPlain host linkage body).exec m = (.error (.trap .outOfFuel), m) :=
  Run.exec_need_bind_of_no_gas h _

/-- **Without gas an exported function does nothing.** -/
theorem Export.exec_call (argument : Int32) (f : Export) :
    (f.call host linkage argument).exec m = (.error (.trap .outOfFuel), m) := by
  cases f with
  | runtimeType f => exact Run.exec_need_bind_of_no_gas h _
  | allocate f =>
    unfold Export.call
    dsimp only
    split
    · exact Run.exec_need_bind_of_no_gas h _
    · rw [Run.exec_bind, exec_callPlain h]
  | deallocate body =>
    unfold Export.call
    dsimp only
    rw [Run.exec_bind, exec_callPlain h]
  | method f =>
    have hmethod : (f.call host linkage).exec m = (.error (.trap .outOfFuel), m) :=
      Run.exec_need_bind_of_no_gas h _
    unfold Export.call
    dsimp only
    rw [Run.exec_bind, hmethod]

end

/-! ### The guest -/

/-- Exported functions do what their scripts say. -/
def Guest.scripts : Guest where
  call argument f :=
    { run := fun host linkage => f.call host linkage argument
      linked := fun hQ => f.linked_call hQ argument
      follows := fun _ _ _ => f.follows_call argument
      needsGas := fun h host linkage => f.exec_call h host linkage argument }
  start actions :=
    { run := fun host linkage => callPlain host linkage actions
      linked := fun hQ => linked_callPlain hQ actions
      follows := fun _ _ _ => follows_callPlain actions
      needsGas := fun h host linkage => exec_callPlain h host linkage actions }

end ContractHost
