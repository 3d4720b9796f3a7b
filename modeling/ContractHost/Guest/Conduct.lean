import ContractHost.Guest.Machine

/-!
# What contract code can do

Contract code works by itself, and now and then asks its host for something.  What it does by itself
changes its memory and uses up gas; nothing else.  It learns of its host only what the host's
answers tell it.  And without gas it does nothing.

Whatever keeps to these rules may stand for contract code.  A guest gives every exported function
such a conduct, and every list of first actions.

## Main definitions

* `Memory.Same`, `Caller.Same` — memories and callers that no contract tells apart.
* `HostCalls.Bond`, `Run.Linked` — a relation between machines that every single step keeps, and
  runs that take the same course under it.
* `Visit`, `Course`, `Course.Broken` — a run as the requests that it makes, with work and log lines
  in between, and where it may be broken off.
* `Run.Follows` — runs that go on with a course.
* `Conduct`, `Guest` — what contract code does, and how exported functions are understood.
-/

namespace ContractHost

variable {σ σ' α β : Type}

/-! ### Runs that are told the same -/

/-- Two memories of the same size and with the same bytes.  How the bytes came there does not
matter. -/
structure Memory.Same (m m' : Memory) : Prop where
  /-- The pages are as many. -/
  pages : m.pages = m'.pages
  /-- The bytes are the same. -/
  byte : ∀ a, m.byte a = m'.byte a

/-- The host sees the same of two runs. -/
structure Caller.Same (c c' : Caller) : Prop where
  /-- The memories have the same contents. -/
  memory : c.memory.Same c'.memory
  /-- As much gas is left. -/
  gas : c.gas = c'.gas

/-- A relation `Q` between the machines of two runs, over two hosts and for one linkage, that every
single step of the two runs keeps.  If one of them is broken off, then so is the other, and `B`
holds. -/
structure HostCalls.Bond (Q : Machine σ → Machine σ' → Prop) (B : Prop) (linkage : Linkage)
    (host : HostCalls σ) (host' : HostCalls σ') : Prop where
  /-- No contract tells the machines apart. -/
  same : ∀ {m m'}, Q m m' → m.toCaller.Same m'.toCaller
  /-- Gas may be spent in both. -/
  spend : ∀ {m m'} (n : Nat), Q m m' → Q { m with gas := m.gas - n } { m' with gas := m'.gas - n }
  /-- A region may be overwritten in both. -/
  write : ∀ {m m'} (a : Nat) (b : Bytes), Q m m' →
    Option.Rel (fun n n' => Q { m with memory := n } { m' with memory := n' })
      (m.memory.write? a b) (m'.memory.write? a b)
  /-- The memory may grow in both. -/
  grow : ∀ {m m'} (more limit : Nat), Q m m' →
    Option.Rel (fun n n' => Q { m with memory := n } { m' with memory := n' })
      (m.memory.grow? more limit) (m'.memory.grow? more limit)
  /-- Requests are answered in the same way. -/
  answer : ∀ {m m'} (regions : Regions), Q m m' →
    (host.request linkage regions m.toCaller m.world).1 =
      (host'.request linkage regions m'.toCaller m'.world).1
  /-- Only where it may be is a request broken off. -/
  breaks : ∀ {m m'} (regions : Regions), Q m m' →
    (host.request linkage regions m.toCaller m.world).1 = .suspended → B
  /-- Requests that are answered may be made in both. -/
  request : ∀ {m m'} (regions : Regions), Q m m' →
    (host.request linkage regions m.toCaller m.world).1 ≠ .suspended →
    Q ⟨(host.request linkage regions m.toCaller m.world).2.1,
        (host.request linkage regions m.toCaller m.world).2.2⟩
      ⟨(host'.request linkage regions m'.toCaller m'.world).2.1,
        (host'.request linkage regions m'.toCaller m'.world).2.2⟩
  /-- Both may log. -/
  log : ∀ {m m'} (ptr len : Int32), Q m m' →
    Q { m with world := host.log linkage ptr len m.memory m.world }
      { m' with world := host'.log linkage ptr len m'.memory m'.world }
  /-- Only where it may be is an endless loop broken off. -/
  steady : linkage.breaksOff = true → B

namespace Run

/-- What a run comes to. -/
def exec (r : Run σ α) (m : Machine σ) : Except Halt α × Machine σ :=
  StateT.run (ExceptT.run r) m

theorem exec_bind (r : Run σ α) (f : α → Run σ β) (m : Machine σ) :
    (r >>= f).exec m =
      match r.exec m with
      | (.ok a, m) => (f a).exec m
      | (.error h, m) => (.error h, m) := by
  show StateT.run (ExceptT.run (r >>= f)) m = _
  unfold exec
  rw [ExceptT.run_bind, StateT.run_bind]
  cases StateT.run (ExceptT.run r) m with
  | mk result m' => cases result <;> rfl

/-- Two runs that take the same course from two machines: they come to the same end, and leave
machines in the relation unless they were broken off. -/
structure LinkedFrom (Q : Machine σ → Machine σ' → Prop) (B : Prop) (m : Machine σ)
    (m' : Machine σ') (r : Run σ α) (r' : Run σ' α) : Prop where
  /-- They come to the same end. -/
  result : (r.exec m).1 = (r'.exec m').1
  /-- Only where it may be are they broken off. -/
  breaks : (r.exec m).1 = .error .suspended → B
  /-- The machines are in the relation. -/
  machine : (r.exec m).1 ≠ .error .suspended → Q (r.exec m).2 (r'.exec m').2

/-- Two runs that take the same course, from any two machines in the relation. -/
structure Linked (Q : Machine σ → Machine σ' → Prop) (B : Prop) (r : Run σ α) (r' : Run σ' α) :
    Prop where
  /-- They do from these. -/
  fromAny : ∀ {m m'}, Q m m' → LinkedFrom Q B m m' r r'

end Run

/-! ### Courses -/

/-- A request that was made, with what it found and what it left. -/
structure Visit (σ : Type) where
  /-- The regions of its header and of its body. -/
  regions : Regions
  /-- What it found. -/
  before : Machine σ
  /-- How it was answered. -/
  answer : Answer
  /-- What it left. -/
  after : Machine σ

/-- The course of a run from a machine to another one, with the requests that were made on it.  A
request that was not answered ends a run, and is not part of a course. -/
inductive Course (host : HostCalls σ) (linkage : Linkage) (start : Machine σ) :
    List (Visit σ) → Machine σ → Prop
  /-- Nothing is done. -/
  | rest : Course host linkage start [] start
  /-- The contract works: it changes its memory and uses gas. -/
  | work {visits : List (Visit σ)} {m : Machine σ} (h : Course host linkage start visits m)
      (memory : Memory) {gas : Nat} (hgas : gas ≤ m.gas) :
      Course host linkage start visits { m with memory, gas }
  /-- The contract logs a text. -/
  | log {visits : List (Visit σ)} {m : Machine σ} (h : Course host linkage start visits m)
      (ptr len : Int32) :
      Course host linkage start visits
        { m with world := host.log linkage ptr len m.memory m.world }
  /-- The contract makes a request. -/
  | visit {visits : List (Visit σ)} {m : Machine σ} (h : Course host linkage start visits m)
      (regions : Regions) {answer : Answer} {caller : Caller} {world : σ}
      (hserved : host.request linkage regions m.toCaller m.world = (answer, caller, world))
      (hanswer : answer ≠ .suspended) :
      Course host linkage start (visits ++ [⟨regions, m, answer, ⟨caller, world⟩⟩])
        ⟨caller, world⟩

/-- The states of the host in which a run from a machine may be broken off. -/
inductive Course.Broken (host : HostCalls σ) (linkage : Linkage) (start : Machine σ) : σ → Prop
  /-- The contract is in an endless loop. -/
  | looping {visits : List (Visit σ)} {m : Machine σ} (h : Course host linkage start visits m)
      (hbreaksOff : linkage.breaksOff = true) : Broken host linkage start m.world
  /-- A request of the contract is broken off. -/
  | inside {visits : List (Visit σ)} {m : Machine σ} (h : Course host linkage start visits m)
      (regions : Regions) {caller : Caller} {world : σ}
      (hserved : host.request linkage regions m.toCaller m.world = (.suspended, caller, world)) :
      Broken host linkage start world

namespace Run

variable (host : HostCalls σ) (linkage : Linkage) (start : Machine σ)

/-- From one machine on, the run goes on with the course that has led there. -/
structure FollowsFrom (m : Machine σ) (r : Run σ α) : Prop where
  /-- It leaves a machine to which a course leads. -/
  course : (r.exec m).1 ≠ .error .suspended →
    ∃ visits, Course host linkage start visits (r.exec m).2
  /-- Or it is broken off. -/
  broken : (r.exec m).1 = .error .suspended → Course.Broken host linkage start (r.exec m).2.world

/-- The run goes on with every course. -/
structure Follows (r : Run σ α) : Prop where
  /-- It does from wherever a course leads. -/
  fromAny : ∀ {visits m}, Course host linkage start visits m → FollowsFrom host linkage start m r

end Run

/-! ### Conducts -/

/-- What contract code does, on whatever state the host keeps. -/
structure Conduct (α : Type) where
  /-- The run. -/
  run : ∀ {σ : Type}, HostCalls σ → Linkage → Run σ α
  /-- It learns of its host only what the answers tell. -/
  linked : ∀ {σ σ' : Type} {Q : Machine σ → Machine σ' → Prop} {B : Prop} {linkage : Linkage}
    {host : HostCalls σ} {host' : HostCalls σ'}, HostCalls.Bond Q B linkage host host' →
    Run.Linked Q B (run host linkage) (run host' linkage)
  /-- It works by itself, or asks its host. -/
  follows : ∀ {σ : Type} (host : HostCalls σ) (linkage : Linkage) (start : Machine σ),
    Run.Follows host linkage start (run host linkage)
  /-- Without gas it does nothing. -/
  needsGas : ∀ {σ : Type} {m : Machine σ}, m.gas = 0 → ∀ (host : HostCalls σ) (linkage : Linkage),
    (run host linkage).exec m = (.error (.trap .outOfFuel), m)

/-- How exported functions are understood. -/
structure Guest where
  /-- A call of an exported function.  Of the arguments only one ever matters. -/
  call : (argument : Int32) → Export → Conduct Int32
  /-- The first actions of an instance. -/
  start : List Action → Conduct Unit

end ContractHost
