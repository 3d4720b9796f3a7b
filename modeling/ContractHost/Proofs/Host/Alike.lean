import ContractHost.Proofs.Host.Opening
import ContractHost.Proofs.OrderedMap
import ContractHost.Proofs.Request.Alike

/-!
# Hosts that answer alike

Two hosts over one ledger, with the same invocations under way, answer every request alike, whatever
their pools hold and whatever they have logged.  What they answer depends on their pools at one
point only: a call of another contract takes its instance from the module that is filed.  That such
calls come to the same on both is assumed here.

## Main definitions

* `Host.Alike` — two hosts over one ledger with the same invocations under way.
* `Host.Settles` — nested calls come to the same, and to an end.

## Main results

* `Host.alike_serveRequest`, `alike_answer` — **requests are served and answered alike.**
* `Host.alike_hostCalls` — **the host calls of both are alike.**
-/

namespace ContractHost

/-! ### What a contract names -/

namespace Memory.Same

variable {m m' : Memory}

theorem region (h : m.Same m') (ptr len : Int32) : m.region ptr len = m'.region ptr len := by
  unfold Memory.region
  rw [h.size]

theorem readRegion (h : m.Same m') (ptr len : Int32) :
    m.readRegion ptr len = m'.readRegion ptr len := by
  unfold Memory.readRegion
  rw [h.region]
  cases m'.region ptr len with
  | error e => rfl
  | ok place => exact congrArg Except.ok (h.bytesFrom _ _)

theorem readRequest (h : m.Same m') (linkage : Linkage) (r : Regions) :
    ContractHost.readRequest linkage m r = ContractHost.readRequest linkage m' r := by
  unfold ContractHost.readRequest exportedMemory
  cases linkage.exportsMemory with
  | false => rfl
  | true =>
    show (do
      let header ← m.readRegion r.headerPtr r.headerLen
      let body ← m.readRegion r.bodyPtr r.bodyLen
      pure (header, body)) = (do
      let header ← m'.readRegion r.headerPtr r.headerLen
      let body ← m'.readRegion r.bodyPtr r.bodyLen
      pure (header, body))
    rw [h.readRegion, h.readRegion]

theorem readText? (h : m.Same m') (linkage : Linkage) (ptr len : Int32) :
    ContractHost.readText? linkage m ptr len = ContractHost.readText? linkage m' ptr len := by
  unfold ContractHost.readText?
  simp only [h.size, h.bytesFrom]

theorem writeRegion (h : m.Same m') (ptr : Int32) (b : Bytes) :
    Agree Memory.Same (m.writeRegion ptr b) (m'.writeRegion ptr b) := by
  unfold Memory.writeRegion
  dsimp only
  rw [h.region]
  cases m'.region ptr (if b.length < 0x80000000 then Int32.ofNat b.length else Int32.maxValue) with
  | error e => exact .error e
  | ok place => exact .ok (h.put place.1 b)

end Memory.Same

/-- What a reply asks for is done for both callers, or for none. -/
theorem Caller.Same.applyReply {c c' : Caller} (h : c.Same c') (linkage : Linkage) (reply : Reply) :
    Agree (fun a b => a.1 = b.1 ∧ a.2.Same b.2) (ContractHost.applyReply linkage c reply)
      (ContractHost.applyReply linkage c' reply) := by
  cases reply with
  | done => exact .ok ⟨rfl, h⟩
  | rejected => exact .ok ⟨rfl, h⟩
  | write ptr bytes =>
    unfold ContractHost.applyReply exportedMemory
    cases linkage.exportsMemory with
    | false => exact .error _
    | true =>
      have hwrite := h.memory.writeRegion ptr bytes
      simp only [if_true, bind, Except.bind]
      generalize c.memory.writeRegion ptr bytes = a at hwrite ⊢
      generalize c'.memory.writeRegion ptr bytes = a' at hwrite ⊢
      cases hwrite with
      | error e => exact .error e
      | ok hmemory => exact .ok ⟨rfl, hmemory, h.gas⟩

namespace Host

variable {τ : Type} [LedgerAccess τ] {D : ContractId → Code → Prop}

/-- Two hosts over one ledger, with the same invocations under way: those with the handles `keys`.
Everything that they file was made of a code that may come up. -/
structure Alike (setup : HostSetup) (L : Listing τ D) (keys : List Int32) (x x' : Host τ) :
    Prop where
  /-- They have one ledger. -/
  ledger : x.ledger = x'.ledger
  /-- It lists contracts of the set. -/
  lists : L.Holds x.ledger
  /-- They have given out the same handle last. -/
  last : x.registry.last = x'.registry.last
  /-- The same invocations are under way. -/
  contexts : x.registry.contexts.Rel Context.Alike x'.registry.contexts
  /-- They have these handles. -/
  keys : x.registry.contexts.keys = keys
  /-- What the first files may come up. -/
  made : Made setup D x
  /-- What the second files may come up. -/
  made' : Made setup D x'

namespace Alike

variable {setup : HostSetup} {L : Listing τ D} {keys : List Int32} {x x' y y' : Host τ}
variable {handle : Int32} {c c' : Context}

theorem around (h : Alike setup L keys x x') (hx : y.ledger = x.ledger ∧ y.registry = x.registry)
    (hx' : y'.ledger = x'.ledger ∧ y'.registry = x'.registry) (hmade : Made setup D y)
    (hmade' : Made setup D y') : Alike setup L keys y y' where
  ledger := by rw [hx.1, hx'.1, h.ledger]
  lists := hx.1 ▸ h.lists
  last := by rw [hx.2, hx'.2, h.last]
  contexts := by
    rw [hx.2, hx'.2]
    exact h.contexts
  keys := by rw [hx.2, h.keys]
  made := hmade
  made' := hmade'

theorem tended (h : Alike setup L keys x x') (ht : Tended x y) (ht' : Tended x' y') :
    Alike setup L keys y y' :=
  h.around ⟨ht.ledger, ht.registry⟩ ⟨ht'.ledger, ht'.registry⟩ (Files.tended h.made ht)
    (Files.tended h.made' ht')

theorem logged (h : Alike setup L keys x x') (j j' : List LogLine) :
    Alike setup L keys { x with journal := j } { x' with journal := j' } :=
  ⟨h.ledger, h.lists, h.last, h.contexts, h.keys, h.made.congr rfl rfl rfl,
    h.made'.congr rfl rfl rfl⟩

theorem desk (h : Alike setup L keys x x') (hc : Context.Alike handle c c') :
    Desk.Alike L handle (x.desk c) (x'.desk c') :=
  ⟨hc, h.ledger, h.lists⟩

theorem clear (h : Alike setup L keys x x') (hhandle : handle ∈ keys) {d d' : Desk τ}
    (hd : Desk.Alike L handle d d') : Alike setup L keys (x.clear d) (x'.clear d') where
  ledger := hd.ledger
  lists := hd.lists
  last := h.last
  contexts := by
    show OrderedMap.Rel Context.Alike
      (x.registry.contexts.insert d.context.handle d.context)
      (x'.registry.contexts.insert d'.context.handle d'.context)
    rw [hd.context.handle, hd.context.handle_eq]
    exact h.contexts.insert hd.context
  keys := by
    show (x.registry.contexts.insert d.context.handle d.context).keys = keys
    rw [hd.context.handle, OrderedMap.keys_insert_of_mem (h.keys ▸ hhandle), h.keys]
  made := h.made.congr rfl rfl rfl
  made' := h.made'.congr rfl rfl rfl

theorem current (h : Alike setup L keys x x') (hc : Context.Alike handle c c') :
    Context.Alike handle (x.current c) (x'.current c') := by
  have hget := h.contexts.get? handle
  unfold Host.current Registry.get?
  rw [hc.handle, hc.handle_eq]
  generalize x.registry.contexts.get? handle = o at hget ⊢
  generalize x'.registry.contexts.get? handle = o' at hget ⊢
  cases hget with
  | none => exact hc
  | some hnow => exact hnow

theorem record (h : Alike setup L keys x x') (hhandle : handle ∈ keys)
    (hc : Context.Alike handle c c') (e : SyscallError) :
    Alike setup L keys (x.record c e) (x'.record c' e) := by
  have hnow : Context.Alike handle ((x.current c).recordError e.message)
      ((x'.current c').recordError e.message) :=
    (h.current hc).inner (f := (·.recordError e.message))
      ⟨fun _ _ => rfl, fun _ => rfl, fun _ => rfl⟩
  exact h.clear hhandle (h.desk hnow)

/-- Both know the same handles, and the invocations under one of them are alike. -/
theorem registered (h : Alike setup L keys x x') (handle : Int32) :
    Option.Rel (fun c c' => handle ∈ keys ∧ Context.Alike handle c c') (x.registry.get? handle)
      (x'.registry.get? handle) := by
  have hget := h.contexts.get? handle
  unfold Registry.get?
  cases hc : x.registry.contexts.get? handle with
  | none =>
    rw [hc] at hget
    generalize x'.registry.contexts.get? handle = o' at hget ⊢
    cases hget
    exact .none
  | some c =>
    rw [hc] at hget
    generalize x'.registry.contexts.get? handle = o' at hget ⊢
    cases hget with
    | some hcontext => exact .some ⟨h.keys ▸ OrderedMap.mem_keys_of_get? hc, hcontext⟩

end Alike

section

variable {setup : HostSetup} {L : Listing τ D} {keys : List Int32} {x x' : Host τ}
variable {handle : Int32} {c c' : Context}

/-! ### Serving -/

theorem alike_serveOn (h : Alike setup L keys x x') (hhandle : handle ∈ keys)
    (hc : Context.Alike handle c c') {α β : Type} {V : α → β → Prop} {r : Serving τ α}
    {r' : Serving τ β} (hr : Serving.Alike L handle V r r') :
    Agree V (x.serveOn c r).1 (x'.serveOn c' r').1 ∧
      Alike setup L keys (x.serveOn c r).2 (x'.serveOn c' r').2 := by
  obtain ⟨hresult, hdesk⟩ := hr.fromAny (h.desk hc)
  exact ⟨hresult, h.clear hhandle hdesk⟩

open Serving

/-- A call with everything known but its contract and its depth. -/
def callListed (gasUsed : UInt64) (ptr : Int32) (name method : String)
    (params : OrderedMap String Bytes) : Serving τ (Int32 × Call) := do
  let t ← Serving.ledger
  let listed ← ofLedger (LedgerAccess.getContract t name)
  let c ← context
  let depth ← deeper c.depth
  pure (ptr, { contract := listed.1, code := listed.2, method, params, depth, gasUsed })

/-- The contract of a call is one that the ledger lists, and the call is a nested one. -/
theorem alike_callListed (gasUsed : UInt64) (ptr : Int32) (name method : String)
    (params : OrderedMap String Bytes) :
    Serving.Alike L handle (fun a b => a = b ∧ 0 < a.2.depth ∧ D a.2.contract a.2.code)
      (callListed gasUsed ptr name method params : Serving τ (Int32 × Call))
      (callListed gasUsed ptr name method params) := by
  refine alike_ledger.bind fun {t t'} ht => ?_
  obtain ⟨rfl, ht⟩ := ht
  have hlisted : Serving.Alike L handle (fun a b => a = b ∧ D a.1 a.2)
      (ofLedger (LedgerAccess.getContract t name) : Serving τ (ContractId × Code))
      (ofLedger (LedgerAccess.getContract t name)) :=
    alike_ofLedger fun ha => ⟨rfl, L.contract ht ha⟩
  refine hlisted.bind fun {a b} hab => alike_context.bind fun {c c'} hc => ?_
  obtain ⟨rfl, hD⟩ := hab
  rw [← hc.depth]
  refine (alike_deeper c.depth).bind fun {depth depth'} hdepth => ?_
  obtain ⟨rfl, hdeep⟩ := hdepth
  exact alike_pure ⟨rfl, hdeep, hD⟩

/-- The call that a contract asks for is a nested one, of a contract that the ledger lists. -/
theorem alike_callOf (setup : HostSetup) (gas : Nat) (body : Bytes) :
    Serving.Alike L handle (fun a b => a = b ∧ 0 < a.2.depth ∧ D a.2.contract a.2.code)
      (callOf setup gas body : Serving τ (Int32 × Call)) (callOf setup gas body) := by
  refine (alike_ofPacket _).bind_eq fun body => (alike_place body).bind_eq fun ptr => ?_
  refine (alike_ofPacket _).bind_eq fun name => (alike_ofPacket _).bind_eq fun method => ?_
  dsimp only
  split
  · exact alike_fail_bind _
  · split
    · refine (alike_ofPacket _).bind_eq fun blob => (alike_ofPacket _).bind_eq fun packet => ?_
      exact (alike_pure rfl).bind_eq fun params => alike_callListed _ ptr name method params
    · exact (alike_pure rfl).bind_eq fun params => alike_callListed _ ptr name method params

theorem alike_absorb (ptr : Int32) (o : Outcome) :
    Serving.Alike L handle Eq (absorb ptr o : Serving τ Reply) (absorb ptr o) := by
  have hupdate {f : Context → Context} (hf : Context.Inner f) :
      Serving.Alike L handle Eq (update f : Serving τ Unit) (update f) :=
    alike_update_inner hf
  refine (hupdate (f := (·.mergeTxClass o.txClass))
    ⟨fun _ _ => rfl, fun _ => rfl, fun _ => rfl⟩).bind_eq fun _ => ?_
  dsimp only
  split
  · refine (hupdate (f := Context.clearCache)
      ⟨fun _ _ => rfl, fun _ => rfl, fun _ => rfl⟩).bind_eq fun _ => alike_fail_bind _
  · refine (hupdate (f := (·.pushEvents o.events))
      ⟨fun _ _ => rfl, fun _ => rfl, fun _ => rfl⟩).bind_eq fun _ => ?_
    refine (alike_updateGet ⟨⟨fun _ _ => rfl, fun _ => rfl, fun _ => rfl⟩, fun _ => rfl⟩
      fun _ _ => rfl).bind_eq fun _ => ?_
    exact alike_pure rfl

/-- Nested calls of contracts that may come up come to the same, and to an end. -/
def Settles (setup : HostSetup) (L : Listing τ D) (invoke : Invoker τ) : Prop :=
  ∀ {keys : List Int32} {call : Call} {x x' : Host τ}, 0 < call.depth →
    D call.contract call.code → Alike setup L keys x x' →
    ∃ result, (invoke call x).1 = .finished result ∧ (invoke call x').1 = .finished result ∧
      Alike setup L keys (invoke call x).2 (invoke call x').2

/-- Two replies that are the same and not `stop`, to callers whom nothing tells apart. -/
structure Replies {α : Type} (setup : HostSetup) (L : Listing τ D) (keys : List Int32) (stop : α)
    (a b : α × Caller × Host τ) : Prop where
  /-- They are the same. -/
  result : a.1 = b.1
  /-- They are not this one. -/
  ends : a.1 ≠ stop
  /-- Nothing tells the callers apart. -/
  caller : a.2.1.Same b.2.1
  /-- The hosts are alike. -/
  host : Alike setup L keys a.2.2 b.2.2

variable {caller caller' : Caller} {invoke : Invoker τ}

/-- **Calls of other contracts are served alike.** -/
theorem alike_serveCall (hinvoke : Settles setup L invoke) (h : Alike setup L keys x x')
    (hhandle : handle ∈ keys) (hc : Context.Alike handle c c') (hcaller : caller.Same caller')
    (body : Bytes) :
    Replies setup L keys .suspended (x.serveCall setup invoke c body caller)
      (x'.serveCall setup invoke c' body caller') := by
  obtain ⟨hresult, hhost⟩ := alike_serveOn h hhandle hc (alike_callOf setup caller.gas body)
  unfold serveCall
  rw [← hcaller.gas]
  generalize x.serveOn c (callOf setup caller.gas body) = a at hresult hhost ⊢
  generalize x'.serveOn c' (callOf setup caller.gas body) = a' at hresult hhost ⊢
  obtain ⟨result, y⟩ := a
  obtain ⟨result', y'⟩ := a'
  cases hresult with
  | error e => exact ⟨rfl, nofun, hcaller, hhost⟩
  | @ok asked asked' hasked =>
    obtain ⟨ptr, call⟩ := asked
    obtain ⟨rfl, hdepth, hD⟩ := hasked
    -- the nested call comes to the same in both hosts, and it comes to an end
    obtain ⟨outcome, hfirst, hsecond, hafter⟩ := hinvoke hdepth hD hhost
    dsimp only
    generalize invoke call y = b at hfirst hafter ⊢
    generalize invoke call y' = b' at hsecond hafter ⊢
    obtain ⟨_, z⟩ := b
    obtain ⟨_, z'⟩ := b'
    cases hfirst
    cases hsecond
    cases outcome with
    | error e => exact ⟨rfl, nofun, hcaller, hafter⟩
    | ok o =>
      obtain ⟨htaken, hend⟩ := alike_serveOn hafter hhandle (hafter.current hc)
        (alike_absorb (L := L) ptr o)
      dsimp only
      generalize z.serveOn (z.current c) (absorb ptr o) = d at htaken hend ⊢
      generalize z'.serveOn (z'.current c') (absorb ptr o) = d' at htaken hend ⊢
      obtain ⟨taken, w⟩ := d
      obtain ⟨taken', w'⟩ := d'
      -- the caller goes on with what the nested call has left of the gas
      have hgas : Caller.Same { caller with gas := setup.gasLimit - o.gasUsed.toNat }
          { caller' with gas := setup.gasLimit - o.gasUsed.toNat } := ⟨hcaller.memory, rfl⟩
      cases htaken with
      | error e => exact ⟨rfl, nofun, hgas, hend⟩
      | ok hreply => exact ⟨congrArg (Served.finished ∘ Except.ok) hreply, nofun, hgas, hend⟩

/-- **Requests are served alike.** -/
theorem alike_serveRequest (hinvoke : Settles setup L invoke) (h : Alike setup L keys x x')
    (hhandle : handle ∈ keys) (hc : Context.Alike handle c c') (hcaller : caller.Same caller')
    (name : String) (body : Bytes) :
    Replies setup L keys .suspended (x.serveRequest setup invoke c name body caller)
      (x'.serveRequest setup invoke c' name body caller') := by
  unfold serveRequest
  split
  · exact alike_serveCall hinvoke h hhandle hc hcaller body
  · obtain ⟨hresult, hhost⟩ := alike_serveOn h hhandle hc
      (Serving.alike_serve (L := L) setup.crypto name body)
    generalize x.serveOn c (serve setup.crypto name body) = a at hresult hhost ⊢
    generalize x'.serveOn c' (serve setup.crypto name body) = a' at hresult hhost ⊢
    obtain ⟨result, y⟩ := a
    obtain ⟨result', y'⟩ := a'
    cases hresult with
    | error e => exact ⟨rfl, nofun, hcaller, hhost⟩
    | ok hreply => exact ⟨congrArg (Served.finished ∘ Except.ok) hreply, nofun, hcaller, hhost⟩

/-- **Requests are answered alike.** -/
theorem alike_answer (h : Alike setup L keys x x') (hhandle : handle ∈ keys)
    (hc : Context.Alike handle c c') (hcaller : caller.Same caller') (linkage : Linkage)
    {served : Served} (hserved : served ≠ .suspended) :
    Replies setup L keys .suspended (answer linkage c served caller x)
      (answer linkage c' served caller' x') := by
  cases served with
  | suspended => exact absurd rfl hserved
  | finished result =>
    cases result with
    | error fault =>
      cases fault with
      | crashed message => exact ⟨rfl, nofun, hcaller, h⟩
      | failed e => exact ⟨rfl, nofun, hcaller, h.record hhandle hc e⟩
    | ok reply =>
      -- writing the reply back may fail, and then it fails in both
      have hreply := hcaller.applyReply linkage reply
      unfold answer
      dsimp only
      generalize applyReply linkage caller reply = a at hreply ⊢
      generalize applyReply linkage caller' reply = a' at hreply ⊢
      cases hreply with
      | error e => exact ⟨rfl, nofun, hcaller, h.record hhandle hc e⟩
      | @ok done done' hdone =>
        obtain ⟨hsignal, hafter⟩ := hdone
        exact ⟨congrArg Answer.signal hsignal, nofun, hafter, h⟩

/-- Whom a request is for, and what it asks, is the same in two hosts that are alike. -/
theorem alike_addressee? (h : Alike setup L keys x x') {m m' : Memory} (hm : m.Same m')
    (linkage : Linkage) (r : Regions) :
    Option.Rel (fun a b => ∃ handle ∈ keys, Context.Alike handle a.1 b.1 ∧ a.2 = b.2)
      (x.addressee? linkage r m) (x'.addressee? linkage r m') := by
  unfold addressee?
  rw [← hm.readRequest]
  split
  · exact .none
  · cases (readRequest linkage m r).toOption with
    | none => exact .none
    | some request =>
      obtain ⟨header, body⟩ := request
      simp only [Option.bind_eq_bind, Option.bind_some]
      cases (readHeader header).toOption with
      | none => exact .none
      | some named =>
        obtain ⟨handle, name⟩ := named
        simp only [Option.bind_some]
        split
        · have hfound := h.registered handle
          generalize x.registry.get? handle = o at hfound ⊢
          generalize x'.registry.get? handle = o' at hfound ⊢
          cases hfound with
          | none => exact .none
          | some hfound =>
            obtain ⟨hhandle, hcontext⟩ := hfound
            exact .some ⟨handle, hhandle, hcontext, rfl⟩
        · exact .none

theorem alike_log (h : Alike setup L keys x x') {m m' : Memory} (hm : m.Same m')
    (linkage : Linkage) (ptr len : Int32) :
    Alike setup L keys (x.log linkage ptr len m) (x'.log linkage ptr len m') := by
  unfold Host.log
  rw [← hm.readText?]
  split
  · exact h
  · rename_i line _
    -- the line goes to a context only if the instance is bound to one that is registered
    cases linkage.bound with
    | none => exact h.logged _ _
    | some handle =>
      have hfound := h.registered handle
      rw [Option.bind_some, Option.bind_some]
      generalize x.registry.get? handle = o at hfound ⊢
      generalize x'.registry.get? handle = o' at hfound ⊢
      cases hfound with
      | none => exact h.logged _ _
      | some hfound =>
        obtain ⟨hhandle, hcontext⟩ := hfound
        exact h.clear hhandle ((h.desk hcontext).log _)

/-- **The host calls of both are alike.** -/
theorem alike_hostCalls (hinvoke : Settles setup L invoke) {linkage : Linkage}
    (hsteady : linkage.breaksOff = false) :
    HostCalls.Alike (Alike setup L keys) linkage (hostCalls setup invoke)
      (hostCalls setup invoke) := by
  have hrequest {c c' : Caller} {x x' : Host τ} (regions : Regions) (hc : c.Same c')
      (hx : Alike setup L keys x x') :
      Replies setup L keys .suspended (x.request setup invoke linkage regions c)
        (x'.request setup invoke linkage regions c') := by
    -- what is asked of whom is read from memory that is the same in both
    have hfor := alike_addressee? hx hc.memory linkage regions
    unfold Host.request
    generalize x.addressee? linkage regions c.memory = o at hfor ⊢
    generalize x'.addressee? linkage regions c'.memory = o' at hfor ⊢
    cases hfor with
    | none => exact ⟨rfl, nofun, hc, hx⟩
    | @some a b hab =>
      obtain ⟨context, name, body⟩ := a
      obtain ⟨context', name', body'⟩ := b
      obtain ⟨handle, hhandle, hcontext, hask⟩ := hab
      cases hask
      have hserved := alike_serveRequest hinvoke hx hhandle hcontext hc name body
      dsimp only
      generalize x.serveRequest setup invoke context name body c = d at hserved ⊢
      generalize x'.serveRequest setup invoke context' name body c' = d' at hserved ⊢
      obtain ⟨served, caller, y⟩ := d
      obtain ⟨served', caller', y'⟩ := d'
      obtain ⟨hresult, hends, hcaller, hhost⟩ := hserved
      cases hresult
      exact alike_answer hhost hhandle hcontext hcaller linkage hends
  exact {
    steady := hsteady
    answers := fun regions hc hx => (hrequest regions hc hx).ends
    request := fun regions hc hx =>
      have hreplies := hrequest regions hc hx
      ⟨hreplies.result, hreplies.caller, hreplies.host⟩
    log := fun ptr len hm hx => alike_log hx hm linkage ptr len }

end

end Host

end ContractHost
