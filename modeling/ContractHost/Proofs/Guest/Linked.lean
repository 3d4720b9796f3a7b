import ContractHost.Guest.Conduct

/-!
# Linked runs

A script learns of its host only what the host's answers tell it.  So two runs of one script over
two hosts that answer alike take the same course.  What the two runs have in common on the way is
left open: it is a relation between their machines that every single step keeps.  It has to see to
it that the script finds the same memory contents and the same gas in both.

A run may be broken off, and then nothing is said of the machines.  Whether that may happen at all
is left open as well.

With one host in both places, and a relation that says how its state may change, the same rules say
what a run leaves alone.

## Main definitions

* `Machine.Alike`, `HostCalls.Alike` — machines that nothing tells apart, over hosts that answer
  alike.

## Main results

* `Run.Linked.bind` — **runs may be taken apart.**
* `Action.linked_perform`, `Export.linked_call` — **what every step keeps, a script keeps.**
* `HostCalls.Alike.bond` — **hosts that answer alike keep machines alike.**
-/

namespace ContractHost

/-! ### Memories -/

namespace Memory.Same

variable {m m' : Memory}

theorem refl (m : Memory) : m.Same m :=
  ⟨rfl, fun _ => rfl⟩

theorem symm (h : m.Same m') : m'.Same m :=
  ⟨h.pages.symm, fun a => (h.byte a).symm⟩

theorem trans {m'' : Memory} (h : m.Same m') (h' : m'.Same m'') : m.Same m'' :=
  ⟨h.pages.trans h'.pages, fun a => (h.byte a).trans (h'.byte a)⟩

theorem size (h : m.Same m') : m.size = m'.size := by
  unfold Memory.size
  rw [h.pages]

theorem bytesFrom (h : m.Same m') (a len : Nat) : m.bytesFrom a len = m'.bytesFrom a len := by
  unfold Memory.bytesFrom
  exact List.map_congr_left fun i _ => h.byte (a + i)

theorem readWord? (h : m.Same m') (a : Nat) : m.readWord? a = m'.readWord? a := by
  unfold Memory.readWord? Memory.read?
  rw [h.size, h.bytesFrom]

theorem put (h : m.Same m') (a : Nat) (b : Bytes) : (m.put a b).Same (m'.put a b) := by
  refine ⟨h.pages, fun i => ?_⟩
  rw [byte_put, byte_put, h.byte]

theorem write? (h : m.Same m') (a : Nat) (b : Bytes) :
    Option.Rel Memory.Same (m.write? a b) (m'.write? a b) := by
  unfold Memory.write?
  rw [h.size]
  split
  · exact .some (h.put a b)
  · exact .none

theorem grow? (h : m.Same m') (more limit : Nat) :
    Option.Rel Memory.Same (m.grow? more limit) (m'.grow? more limit) := by
  unfold Memory.grow?
  rw [h.pages]
  split
  · exact .some ⟨rfl, h.byte⟩
  · exact .none

end Memory.Same

variable {σ σ' α β : Type}

namespace Run

variable {Q : Machine σ → Machine σ' → Prop} {B : Prop} {r : Run σ α} {r' : Run σ' α}
variable {f : α → Run σ β} {f' : α → Run σ' β}

/-- **Runs may be taken apart**, at any point that they have reached together. -/
theorem LinkedFrom.bind {m : Machine σ} {m' : Machine σ'} (hr : LinkedFrom Q B m m' r r')
    (hf : ∀ a, Linked Q B (f a) (f' a)) : LinkedFrom Q B m m' (r >>= f) (r' >>= f') := by
  obtain ⟨hresult, hbreaks, hmachine⟩ := hr
  -- both runs are carried out up to the point where they are taken apart
  cases hm : r.exec m with
  | mk result n =>
    cases hm' : r'.exec m' with
    | mk result' n' =>
      rw [hm] at hresult hbreaks hmachine
      rw [hm'] at hresult hmachine
      cases hresult
      cases result with
      | ok a =>
        obtain ⟨hresult, hbreaks, hmachine⟩ := (hf a).fromAny (hmachine nofun)
        constructor <;> simp only [exec_bind, hm, hm'] <;> assumption
      | error h =>
        constructor <;> simp only [exec_bind, hm, hm']
        · exact fun heq => hbreaks (congrArg Except.error (Except.error.inj heq))
        · exact fun hne => hmachine fun heq => hne (congrArg Except.error (Except.error.inj heq))

/-- **Runs may be taken apart.** -/
theorem Linked.bind (hr : Linked Q B r r') (hf : ∀ a, Linked Q B (f a) (f' a)) :
    Linked Q B (r >>= f) (r' >>= f') :=
  ⟨fun h => (hr.fromAny h).bind hf⟩

theorem linked_pure (a : α) : Linked Q B (pure a) (pure a) :=
  ⟨fun h => ⟨rfl, nofun, fun _ => h⟩⟩

theorem linked_throw {h : Halt} (hh : h = .suspended → B) :
    Linked (α := α) Q B (throw h) (throw h) :=
  ⟨fun hm => ⟨rfl, fun heq => hh (Except.error.inj heq), fun _ => hm⟩⟩

theorem linked_get_bind {f : Machine σ → Run σ β} {f' : Machine σ' → Run σ' β}
    (hf : ∀ {m m'}, Q m m' → LinkedFrom Q B m m' (f m) (f' m')) :
    Linked Q B (get >>= f) (get >>= f') := by
  refine ⟨fun {m m'} h => ?_⟩
  obtain ⟨hresult, hbreaks, hmachine⟩ := hf h
  constructor <;> simp only [exec_bind] <;> assumption

theorem linkedFrom_set {m n : Machine σ} {m' n' : Machine σ'} (h : Q n n') :
    LinkedFrom Q B m m' (set n) (set n') :=
  ⟨rfl, nofun, fun _ => h⟩

theorem linked_modify {g : Machine σ → Machine σ} {g' : Machine σ' → Machine σ'}
    (hg : ∀ {m m'}, Q m m' → Q (g m) (g' m')) : Linked Q B (modify g) (modify g') :=
  ⟨fun h => ⟨rfl, nofun, fun _ => hg h⟩⟩

section

variable {linkage : Linkage} {host : HostCalls σ} {host' : HostCalls σ'}
variable (hQ : HostCalls.Bond Q B linkage host host')

include hQ

theorem linked_spend (n : Nat) : Linked Q B (spend n) (spend n) :=
  linked_modify (hQ.spend n)

theorem linked_halt (n : Nat) {h : Halt} (hh : h ≠ .suspended) :
    Linked (α := α) Q B (halt n h) (halt n h) :=
  (linked_spend hQ n).bind fun _ => linked_throw fun heq => absurd heq hh

theorem linked_trap (n : Nat) (cause : TrapCause) :
    Linked (α := α) Q B (halt n (.trap cause)) (halt n (.trap cause)) :=
  linked_halt hQ n nofun

theorem linked_need (n : Nat) : Linked Q B (need n) (need n) := by
  refine linked_get_bind fun {m m'} h => ?_
  rw [(hQ.same h).gas]
  split
  · exact (linked_trap hQ _ _).fromAny h
  · exact (linked_pure _).fromAny h

theorem linked_orFault (n : Nat) (o : Option α) : Linked Q B (orFault n o) (orFault n o) := by
  cases o with
  | some a => exact linked_pure a
  | none => exact linked_trap hQ n _

theorem linked_loadWord (n : Nat) (address : UInt32) :
    Linked Q B (loadWord n address) (loadWord n address) := by
  refine linked_get_bind fun {m m'} h => ?_
  rw [(hQ.same h).memory.readWord?]
  exact (linked_orFault hQ n _).fromAny h

theorem linked_storeWord (n : Nat) (address w : UInt32) :
    Linked Q B (storeWord n address w) (storeWord n address w) := by
  refine linked_get_bind fun {m m'} h => ?_
  have hwrite := hQ.write address.toNat (Bytes.ofWord w) h
  unfold Memory.writeWord?
  generalize m.memory.write? address.toNat (Bytes.ofWord w) = o at hwrite ⊢
  generalize m'.memory.write? address.toNat (Bytes.ofWord w) = o' at hwrite ⊢
  -- the word can be stored in both memories, or in none
  cases hwrite with
  | none => exact ⟨rfl, nofun, fun _ => hQ.spend n h⟩
  | some hmemory => exact ⟨rfl, nofun, fun _ => hmemory⟩

end

end Run

namespace Action

variable {Q : Machine σ → Machine σ' → Prop} {B : Prop} {linkage : Linkage}
variable {host : HostCalls σ} {host' : HostCalls σ'}

open Run

theorem linked_serve (hQ : HostCalls.Bond Q B linkage host host') (regions : Regions) :
    Linked Q B (serve host linkage regions) (serve host' linkage regions) := by
  refine linked_get_bind fun {m m'} hm => ?_
  have hanswer := hQ.answer regions hm
  have hbreaks := hQ.breaks regions hm
  have hrequest := hQ.request regions hm
  generalize host.request linkage regions m.toCaller m.world = served at *
  generalize host'.request linkage regions m'.toCaller m'.world = served' at *
  obtain ⟨answer, caller, world⟩ := served
  obtain ⟨answer', caller', world'⟩ := served'
  -- the answers are the same, so only one of them has to be looked at
  cases hanswer
  cases answer with
  | signal n =>
    exact (linkedFrom_set (hrequest nofun)).bind fun _ => linked_storeWord hQ 0 _ _
  | crashed message => exact (linkedFrom_set (hrequest nofun)).bind fun _ => linked_throw nofun
  | suspended => exact ⟨rfl, fun _ => hbreaks rfl, fun hends => absurd rfl hends⟩

/-- **An action takes the same course.** -/
theorem linked_perform (hQ : HostCalls.Bond Q B linkage host host') (action : Action) :
    Linked Q B (perform host linkage action) (perform host' linkage action) := by
  cases action with
  | request headerPtr headerLen bodyPtr bodyLen =>
    refine (linked_need hQ 6).bind fun _ => (linked_spend hQ 12).bind fun _ => ?_
    exact (linked_serve hQ _).bind fun _ => linked_spend hQ 1
  | requestAt headerPtr headerLen bodyPtrAt bodyLenAt =>
    refine (linked_need hQ 6).bind fun _ => (linked_loadWord hQ 5 _).bind fun _ => ?_
    refine (linked_loadWord hQ 5 _).bind fun _ => (linked_spend hQ 14).bind fun _ => ?_
    exact (linked_serve hQ _).bind fun _ => linked_spend hQ 1
  | patch address delta =>
    refine (linked_need hQ 4).bind fun _ => (linked_loadWord hQ 3 _).bind fun _ => ?_
    exact (linked_storeWord hQ 3 _ _).bind fun _ => linked_spend hQ 10
  | store address value =>
    refine (linked_need hQ 4).bind fun _ => (linked_storeWord hQ 3 _ _).bind fun _ => ?_
    exact linked_spend hQ 7
  | log ptr len =>
    refine (linked_need hQ 4).bind fun _ => (linked_spend hQ 7).bind fun _ => ?_
    exact linked_modify (hQ.log ptr len)
  | grow pages address =>
    refine (linked_need hQ 4).bind fun _ => linked_get_bind fun {m m'} hm => ?_
    -- either both memories can grow or neither can
    have hgrow := hQ.grow pages.toUInt32.toNat linkage.pageLimit hm
    dsimp only
    generalize m.memory.grow? pages.toUInt32.toNat linkage.pageLimit = o at hgrow ⊢
    generalize m'.memory.grow? pages.toUInt32.toNat linkage.pageLimit = o' at hgrow ⊢
    cases hgrow with
    | none => exact ((linked_storeWord hQ 3 _ _).bind fun _ => linked_spend hQ 8).fromAny hm
    | some hmemory =>
      rw [(hQ.same hm).memory.pages]
      refine (linkedFrom_set hmemory).bind fun _ => ?_
      exact (linked_storeWord hQ 3 _ _).bind fun _ => linked_spend hQ 8
  | divide divisor =>
    refine (linked_need hQ 3).bind fun _ => ?_
    dsimp only
    split
    · exact (linked_trap hQ 2 _).bind fun _ => linked_spend hQ 6
    · exact linked_spend hQ 6
  | burn counter => exact (linked_need hQ _).bind fun _ => linked_spend hQ _
  | spin =>
    have hend : Linked Q B
        (get >>= fun m : Machine σ => (halt m.gas (.trap .outOfFuel) : Run σ Unit))
        (get >>= fun m : Machine σ' => halt m.gas (.trap .outOfFuel)) := by
      refine linked_get_bind fun {m m'} hm => ?_
      rw [(hQ.same hm).gas]
      exact (linked_trap hQ _ _).fromAny hm
    refine (linked_need hQ 2).bind fun _ => ?_
    -- the loop is broken off in both, or both use up the gas that they have left
    cases hbreaksOff : linkage.breaksOff with
    | false => exact hend
    | true => exact (linked_throw fun _ => hQ.steady hbreaksOff).bind fun _ => hend
  | trap => exact (linked_need hQ 2).bind fun _ => linked_trap hQ 2 _
  | exit code => exact (linked_need hQ 3).bind fun _ => linked_halt hQ 5 (h := .exited code) nofun
  | file address =>
    refine (linked_need hQ 3).bind fun _ => (linked_storeWord hQ 9 _ _).bind fun _ => ?_
    exact linked_spend hQ 10

theorem linked_performAll (hQ : HostCalls.Bond Q B linkage host host') (actions : List Action) :
    Linked Q B (performAll host linkage actions) (performAll host' linkage actions) := by
  unfold performAll
  induction actions with
  | nil => exact linked_pure _
  | cons action actions ih => exact (linked_perform hQ action).bind fun _ => ih

end Action

/-! ### Exported functions -/

section

variable {Q : Machine σ → Machine σ' → Prop} {B : Prop} {linkage : Linkage}
variable {host : HostCalls σ} {host' : HostCalls σ'}
variable (hQ : HostCalls.Bond Q B linkage host host')

open Run

include hQ

theorem linked_readHandle : Linked Q B (readHandle : Run σ Nat) (readHandle : Run σ' Nat) := by
  refine (linked_need hQ 3).bind fun _ => (linked_loadWord hQ 2 _).bind fun start => ?_
  refine (linked_loadWord hQ 2 _).bind fun digits => linked_get_bind fun {m m'} hm => ?_
  dsimp only
  -- what is readable depends on the size of the memory, and the digits on its contents
  rw [(hQ.same hm).memory.size, (hQ.same hm).memory.bytesFrom]
  refine LinkedFrom.bind ((linked_need hQ _).fromAny hm) fun _ => ?_
  split
  · refine (linked_trap hQ 2 _).bind fun _ => (linked_storeWord hQ 2 _ _).bind fun _ => ?_
    exact linked_pure _
  · exact (linked_storeWord hQ 2 _ _).bind fun _ => linked_pure _

theorem Function.linked_call (f : Function) :
    Linked Q B (f.call host linkage) (f.call host' linkage) := by
  refine (linked_need hQ 1).bind fun _ => (linked_readHandle hQ).bind fun digits => ?_
  refine (linked_spend hQ _).bind fun _ => (Action.linked_performAll hQ f.body).bind fun _ => ?_
  exact linked_spend hQ _

theorem RuntimeTypeExport.linked_call (f : RuntimeTypeExport) :
    Linked Q B (f.call host linkage) (f.call host' linkage) := by
  refine (linked_need hQ 1).bind fun _ => (linked_spend hQ 1).bind fun _ => ?_
  refine (Action.linked_performAll hQ f.body).bind fun _ => (linked_spend hQ 1).bind fun _ => ?_
  exact linked_pure _

theorem AllocateExport.linked_call (f : AllocateExport) (len : Int32) :
    Linked Q B (f.call host linkage len) (f.call host' linkage len) := by
  refine (linked_need hQ 1).bind fun _ => (linked_storeWord hQ 0 _ _).bind fun _ => ?_
  refine (linked_storeWord hQ 0 _ _).bind fun _ => (linked_spend hQ 7).bind fun _ => ?_
  refine (Action.linked_performAll hQ f.body).bind fun _ => (linked_spend hQ 1).bind fun _ => ?_
  exact linked_pure _

theorem linked_callPlain (body : List Action) :
    Linked Q B (callPlain host linkage body) (callPlain host' linkage body) :=
  (linked_need hQ 1).bind fun _ => (linked_spend hQ 1).bind fun _ =>
    Action.linked_performAll hQ body

/-- **An exported function takes the same course.** -/
theorem Export.linked_call (argument : Int32) (f : Export) :
    Linked Q B (f.call host linkage argument) (f.call host' linkage argument) := by
  cases f with
  | runtimeType f => exact f.linked_call hQ
  | allocate f =>
    unfold Export.call
    dsimp only
    split
    · exact f.linked_call hQ argument
    · exact (linked_callPlain hQ []).bind fun _ => (linked_spend hQ 1).bind fun _ => linked_pure _
  | deallocate body => exact (linked_callPlain hQ body).bind fun _ => linked_pure _
  | method f => exact (f.linked_call hQ).bind fun _ => linked_pure _

end

/-! ### Hosts that answer alike -/

/-- Two machines that nothing tells apart, over hosts in related states. -/
structure Machine.Alike (R : σ → σ' → Prop) (m : Machine σ) (m' : Machine σ') : Prop where
  /-- Nothing tells the machines apart. -/
  caller : m.toCaller.Same m'.toCaller
  /-- The states of the hosts are related. -/
  world : R m.world m'.world

/-- For a linkage, two hosts answer alike, and stay in related states. -/
structure HostCalls.Alike (R : σ → σ' → Prop) (linkage : Linkage) (host : HostCalls σ)
    (host' : HostCalls σ') : Prop where
  /-- Endless loops use up the gas. -/
  steady : linkage.breaksOff = false
  /-- Requests are answered. -/
  answers : ∀ {c c' x x'} (regions : Regions), c.Same c' → R x x' →
    (host.request linkage regions c x).1 ≠ .suspended
  /-- They answer requests alike. -/
  request : ∀ {c c' x x'} (regions : Regions), c.Same c' → R x x' →
    (host.request linkage regions c x).1 = (host'.request linkage regions c' x').1 ∧
    (host.request linkage regions c x).2.1.Same (host'.request linkage regions c' x').2.1 ∧
    R (host.request linkage regions c x).2.2 (host'.request linkage regions c' x').2.2
  /-- They log alike. -/
  log : ∀ {m m' x x'} (ptr len : Int32), m.Same m' → R x x' →
    R (host.log linkage ptr len m x) (host'.log linkage ptr len m' x')

theorem Machine.Alike.replace {R : σ → σ' → Prop} {m : Machine σ} {m' : Machine σ'}
    (h : Machine.Alike R m m') {o o' : Option Memory} (ho : Option.Rel Memory.Same o o') :
    Option.Rel (fun n n' => Machine.Alike R { m with memory := n }
      { m' with memory := n' }) o o' := by
  cases ho with
  | none => exact .none
  | some hmemory => exact .some ⟨⟨hmemory, h.caller.gas⟩, h.world⟩

/-- **Hosts that answer alike keep machines alike**, and no run is broken off. -/
theorem HostCalls.Alike.bond {R : σ → σ' → Prop} {linkage : Linkage} {host : HostCalls σ}
    {host' : HostCalls σ'} (h : HostCalls.Alike R linkage host host') :
    HostCalls.Bond (Machine.Alike R) False linkage host host' where
  same hm := hm.caller
  spend n hm := ⟨⟨hm.caller.memory, congrArg (· - n) hm.caller.gas⟩, hm.world⟩
  write a b hm := hm.replace (hm.caller.memory.write? a b)
  grow more limit hm := hm.replace (hm.caller.memory.grow? more limit)
  answer regions hm := (h.request regions hm.caller hm.world).1
  breaks regions hm hstop := h.answers regions hm.caller hm.world hstop
  request regions hm _ := (h.request regions hm.caller hm.world).2.elim fun hcaller hworld =>
    ⟨hcaller, hworld⟩
  log ptr len hm := ⟨hm.caller, h.log ptr len hm.caller.memory hm.world⟩
  steady hbreaksOff := by
    rw [h.steady] at hbreaksOff
    cases hbreaksOff

end ContractHost
