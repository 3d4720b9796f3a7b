import ContractHost.Invocation.Context

/-!
# The registry of invocations

Every invocation under way is registered under a handle.  Handles are given out in cyclic order;
one that is in use is passed over.

## Main definitions

* `Registry` — the invocations under way and the handle given out last.
* `Registry.register`, `get?`, `remove` — the life of a handle.
-/

namespace ContractHost

/-- The number of handles. -/
def handleLimit : Nat := 100000000

/-- The invocations under way. -/
structure Registry where
  /-- The invocations by their handles. -/
  contexts : OrderedMap Int32 Context := ∅
  /-- The handle given out last. -/
  last : Nat := 0
  deriving Inhabited

namespace Registry

/-- No invocation is under way, and the first handle will follow `last`. -/
def startingAfter (last : Int32) : Registry :=
  { last := (last.toInt.emod handleLimit).toNat }

/-- The first handle after `last` that is not in use, trying at most `tries`. -/
def freeAfter (contexts : OrderedMap Int32 Context) : (tries last : Nat) → Option Nat
  | 0, _ => none
  | tries + 1, last =>
    let candidate := (last + 1) % handleLimit
    if contexts.contains (Int32.ofNat candidate) then freeAfter contexts tries candidate
    else some candidate

/-- Registers an invocation under the first free handle.  One more try than there are invocations
finds it, unless all handles are in use. -/
def register (r : Registry) (c : Context) : Except ExecutionError (Context × Registry) :=
  match freeAfter r.contexts (min handleLimit (r.contexts.size + 1)) r.last with
  | none => .error (.trap "no free invocation handle")
  | some handle =>
    let c := { c with handle := Int32.ofNat handle }
    .ok (c, { contexts := r.contexts.insert c.handle c, last := handle })

/-- The invocation with a handle. -/
def get? (r : Registry) (handle : Int32) : Option Context :=
  r.contexts.get? handle

/-- Replaces the invocation with the handle of the one given. -/
def update (r : Registry) (c : Context) : Registry :=
  { r with contexts := r.contexts.insert c.handle c }

/-- Removes an invocation. -/
def remove (r : Registry) (handle : Int32) : Registry :=
  { r with contexts := r.contexts.erase handle }

/-- The number of invocations under way. -/
def size (r : Registry) : Nat :=
  r.contexts.size

end Registry

end ContractHost
