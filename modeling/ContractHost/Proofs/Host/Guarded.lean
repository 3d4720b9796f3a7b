import ContractHost.Proofs.Host.Nesting
import ContractHost.Proofs.Host.Probes
import ContractHost.Proofs.Host.Regions
import ContractHost.Proofs.Request.Robust

/-!
# Memories of contracts

Whatever a contract names in a request, the request reads nothing but header and body, and only if
both lie inside memory.  A request that fails leaves the memory alone.  One that succeeds writes at
most its reply, to one region inside memory.

As long as the ledger and the provider of cryptography do not crash, a single kind of request makes
the host crash.  It asks for a call of another contract, of which everything can be had but its
depth: the invocation that makes the request has the greatest depth there is.  Every other request
is answered with one of the two signals.  A call that is nested in it waits for nothing, and so it
ends.

## Main definitions

* `Serving.Asking` — what a request for a call comes to, from one depth to another.
* `Answer.Signals` — an answer that is one of the two signals.
* `Host.Overreaches` — a request for a call whose depth cannot be counted.
* `Host.Guarded` — what a request does to the memory of its contract, and what it reads there.

## Main results

* `Host.serveRequest_crashed_iff` — **which requests crash.**
* `Host.serveRequest_suspended` — **only a call that is nested keeps a request from its end.**
* `Host.requests_guarded` — **every request is guarded**, and is answered with a signal unless it
  overreaches.
-/

namespace ContractHost

open Memory Serving

variable {τ : Type} [LedgerAccess τ]

/-! ### Requests that crash -/

/-- The desk of an invocation at another depth. -/
def Desk.atDepth {τ : Type} (d : Desk τ) (depth : UInt32) : Desk τ :=
  { d with context := { d.context with depth } }

namespace Serving

variable {α β : Type} {d : Desk τ}

/-- What a request for a call comes to, from one depth to another. -/
inductive Asking (d : Desk τ) (r : Serving τ (Int32 × Call)) : Prop
  /-- It fails, at every depth alike. -/
  | failed (e : SyscallError) (h : ∀ depth, ((d.atDepth depth).run r).1 = .error (.failed e))
  /-- It asks for a call one level deeper, and crashes if there is no such depth. -/
  | asked (ptr : Int32) (call : Call) (message : String)
      (h : ∀ depth, ((d.atDepth depth).run r).1 =
        if depth + 1 = 0 then .error (.crashed message)
        else .ok (ptr, { call with depth := depth + 1 }))

/-- Something is looked up that does not depend on the depth, without a crash. -/
def Shallow (d : Desk τ) (r : Serving τ α) : Prop :=
  ∃ result, (∀ message, result ≠ .error (.crashed message)) ∧
    ∀ depth, (d.atDepth depth).run r = (result, d.atDepth depth)

omit [LedgerAccess τ] in
theorem shallow_ofPacket (x : Except PacketError α) (d : Desk τ) :
    Shallow d (ofPacket x : Serving τ α) := by
  cases x with
  | ok a => exact ⟨.ok a, nofun, fun _ => rfl⟩
  | error e =>
    refine ⟨_, ?_, fun _ => rfl⟩
    exact nofun

omit [LedgerAccess τ] in
theorem shallow_ofLedger {x : Except LedgerFault α} (hx : LedgerFault.Spared x) (d : Desk τ) :
    Shallow d (ofLedger x : Serving τ α) := by
  cases x with
  | ok a => exact ⟨.ok a, nofun, fun _ => rfl⟩
  | error e =>
    cases e with
    | refused e =>
      refine ⟨_, ?_, fun _ => rfl⟩
      exact nofun
    | crashed message => exact absurd rfl (hx message)

omit [LedgerAccess τ] in
/-- Whatever is looked up before a call is asked for, the depth matters only for the call. -/
theorem Shallow.asking_bind {r : Serving τ α} {f : α → Serving τ (Int32 × Call)} (hr : Shallow d r)
    (hf : ∀ a, Asking d (f a)) : Asking d (r >>= f) := by
  obtain ⟨result, hspared, hrun⟩ := hr
  -- what comes first does not look at the depth, so the two runs part only after it
  cases result with
  | error e =>
    cases e with
    | failed e =>
      refine .failed e fun depth => ?_
      rw [run_bind, hrun]
    | crashed message => exact absurd rfl (hspared message)
  | ok a =>
    have hbind (depth : UInt32) :
        (d.atDepth depth).run (r >>= f) = (d.atDepth depth).run (f a) := by
      rw [run_bind, hrun]
    cases hf a with
    | failed e h => exact .failed e fun depth => (congrArg Prod.fst (hbind depth)).trans (h depth)
    | asked ptr call message h =>
      exact .asked ptr call message fun depth => (congrArg Prod.fst (hbind depth)).trans (h depth)

theorem asking_callListed (hledger : LedgerAccess.Robust τ) (gasUsed : UInt64) (ptr : Int32)
    (name method : String) (params : OrderedMap String Bytes) (d : Desk τ) :
    Asking d (Host.callListed gasUsed ptr name method params) := by
  have hstart : Shallow d (ledger : Serving τ τ) := ⟨.ok d.ledger, nofun, fun _ => rfl⟩
  refine hstart.asking_bind fun t => ?_
  refine (shallow_ofLedger (hledger.getContract t name) d).asking_bind fun listed => ?_
  refine .asked ptr
    { contract := listed.1, code := listed.2, method, params, depth := 0, gasUsed }
    "attempt to add with overflow" fun depth => ?_
  show ((d.atDepth depth).run (deeper depth >>= _)).1 = _
  unfold deeper
  split <;> rfl

/-- **A request for a call fails, or it asks for one that is one level deeper.** -/
theorem asking_callOf (hledger : LedgerAccess.Robust τ) (setup : HostSetup) (gas : Nat)
    (body : Bytes) (d : Desk τ) : Asking d (callOf setup gas body) := by
  refine (shallow_ofPacket _ d).asking_bind fun body => ?_
  refine (shallow_ofPacket _ d).asking_bind fun ptr => ?_
  refine (shallow_ofPacket _ d).asking_bind fun name => ?_
  refine (shallow_ofPacket _ d).asking_bind fun method => ?_
  dsimp only
  split
  · exact .failed _ fun _ => rfl
  · split
    · refine (shallow_ofPacket _ d).asking_bind fun blob => ?_
      refine (shallow_ofPacket _ d).asking_bind fun packet => ?_
      exact asking_callListed hledger _ ptr name method _ d
    · exact asking_callListed hledger _ ptr name method _ d

end Serving

namespace Host

variable {setup : HostSetup} {invoke : Invoker τ} {linkage : Linkage} {r : Regions}
variable {caller : Caller} {x y : Host τ} {c : Context} {name : String} {body : Bytes}

/-- A request for a call can be served but for the depth of the call, which cannot be counted. -/
def CallsTooDeep (setup : HostSetup) (x : Host τ) (c : Context) (gas : Nat) (body : Bytes) : Prop :=
  c.depth + 1 = 0 ∧ ∃ ptr call,
    ((x.desk { c with depth := 0 }).run (callOf setup gas body)).1 = .ok (ptr, call)

/-- **A request for a call crashes exactly if the depth of the call cannot be counted.** -/
theorem crashed_callOf_iff (hledger : LedgerAccess.Robust τ) {gas : Nat} :
    (∃ message, ((x.desk c).run (callOf setup gas body)).1 = .error (.crashed message)) ↔
      x.CallsTooDeep setup c gas body := by
  unfold CallsTooDeep
  cases asking_callOf hledger setup gas body (x.desk c) with
  | failed e h =>
    have hhere : ((x.desk c).run (callOf setup gas body)).1 = _ := h c.depth
    have htop : ((x.desk { c with depth := 0 }).run (callOf setup gas body)).1 = _ := h 0
    rw [hhere, htop]
    exact ⟨fun ⟨_, hcrashed⟩ => (nomatch hcrashed), fun ⟨_, _, _, hasked⟩ => (nomatch hasked)⟩
  | asked ptr call message h =>
    have hhere : ((x.desk c).run (callOf setup gas body)).1 = _ := h c.depth
    have htop : ((x.desk { c with depth := 0 }).run (callOf setup gas body)).1 = _ := h 0
    rw [hhere, htop, if_neg (show ¬ (0 : UInt32) + 1 = 0 by decide)]
    -- the depth is increased last, after everything else has been read
    by_cases hdepth : c.depth + 1 = 0
    · rw [if_pos hdepth]
      exact ⟨fun _ => ⟨hdepth, ptr, _, rfl⟩, fun _ => ⟨message, rfl⟩⟩
    · rw [if_neg hdepth]
      exact ⟨fun ⟨_, hcrashed⟩ => (nomatch hcrashed), fun ⟨hgreatest, _⟩ => absurd hgreatest hdepth⟩

/-- A call of another contract crashes its caller only where it is asked for. -/
theorem serveCall_crashed_iff {message : String} :
    (x.serveCall setup invoke c body caller).1 = .finished (.error (.crashed message)) ↔
      ((x.desk c).run (callOf setup caller.gas body)).1 = .error (.crashed message) := by
  unfold serveCall serveOn
  generalize (x.desk c).run (callOf setup caller.gas body) = ran
  obtain ⟨asked, d⟩ := ran
  cases asked with
  | error e => exact ⟨fun h => congrArg Except.error (Except.error.inj (Served.finished.inj h)),
      fun h => congrArg Served.finished (congrArg Except.error (Except.error.inj h))⟩
  | ok asked =>
    obtain ⟨ptr, call⟩ := asked
    dsimp only
    generalize invoke call (x.clear d) = ended
    obtain ⟨completion, y⟩ := ended
    -- once the nested call is made nothing crashes any more: a failed callee is reported
    cases completion with
    | suspended => exact ⟨nofun, nofun⟩
    | finished result =>
      cases result with
      | error e => exact ⟨nofun, nofun⟩
      | ok o =>
        dsimp only
        rw [run_absorb]
        split
        · exact ⟨nofun, nofun⟩
        · exact ⟨nofun, nofun⟩

/-- **A request crashes exactly if it asks for a call whose depth cannot be counted.** -/
theorem serveRequest_crashed_iff (hledger : LedgerAccess.Robust τ) (hcrypto : setup.crypto.Robust) :
    (∃ message, (x.serveRequest setup invoke c name body caller).1 =
        .finished (.error (.crashed message))) ↔
      name = Method.callContractLen.name ∧ x.CallsTooDeep setup c caller.gas body := by
  rw [← crashed_callOf_iff hledger]
  unfold serveRequest
  split
  · rename_i hname
    simp only [serveCall_crashed_iff, hname, true_and]
  · rename_i hname
    refine ⟨fun ⟨message, hcrashed⟩ => ?_, fun ⟨hcalls, _⟩ => absurd hcalls hname⟩
    exact absurd (Served.finished.inj hcrashed)
      (sound_serve hledger hcrypto name body (x.desk c) message)

/-- **Only a call that is nested keeps a request from its end.** -/
theorem serveRequest_suspended
    (h : (x.serveRequest setup invoke c name body caller).1 = .suspended) :
    name = Method.callContractLen.name ∧ ∃ call y,
      x.callAsked? setup c caller.gas body = some (call, y) ∧ (invoke call y).1 = .suspended := by
  unfold serveRequest at h
  -- only the request for a nested call hands control to anybody
  split at h
  · rename_i hname
    refine ⟨hname, ?_⟩
    unfold serveCall at h
    unfold callAsked?
    generalize x.serveOn c (callOf setup caller.gas body) = asked at h ⊢
    obtain ⟨result, y⟩ := asked
    cases result with
    | error e => cases h
    | ok asked =>
      obtain ⟨ptr, call⟩ := asked
      refine ⟨call, y, rfl, ?_⟩
      dsimp only at h
      generalize invoke call y = ended at h ⊢
      obtain ⟨completion, z⟩ := ended
      cases completion with
      | suspended => rfl
      | finished result =>
        cases result with
        | error e => cases h
        | ok o => cases h
  · cases h

/-! ### What is answered, and what is written -/

/-- How a request is answered that was served, for a memory of some size: the answer, what is
written, and the host. -/
inductive Settlement (size : Nat) (y : Host τ) :
    Served → Answer × Option (Int32 × Bytes) × Host τ → Prop
  /-- It is not answered, and nothing is written. -/
  | suspended : Settlement size y .suspended (.suspended, none, y)
  /-- Serving it has crashed. -/
  | crashed (message : String) :
      Settlement size y (.finished (.error (.crashed message))) (.crashed message, none, y)
  /-- It has failed, and nothing is written. -/
  | failed {result : Except RequestFault Reply}
      (hspared : ∀ message, result ≠ .error (.crashed message)) (z : Host τ) :
      Settlement size y (.finished result) (.signal signals.failure, none, z)
  /-- There was nothing to write. -/
  | done : Settlement size y (.finished (.ok .done)) (.signal signals.success, none, y)
  /-- The reply fits, and is written. -/
  | written {ptr : Int32} {b : Bytes} (hfits : Memory.Fits size ptr b) :
      Settlement size y (.finished (.ok (.write ptr b))) (.signal signals.success, some (ptr, b), y)

omit [LedgerAccess τ] in
theorem settlement_settled (linkage : Linkage) (c : Context) (size : Nat) (served : Served)
    (y : Host τ) : Settlement size y served (y.settled linkage c size served) := by
  unfold settled
  cases served with
  | suspended => exact .suspended
  | finished result =>
    cases result with
    | error e =>
      cases e with
      | failed e =>
        refine .failed ?_ _
        exact fun _ => nofun
      | crashed message => exact .crashed message
    | ok reply =>
      cases reply with
      | done => exact .done
      | rejected =>
        refine .failed ?_ y
        exact fun _ => nofun
      | write ptr b =>
        dsimp only
        unfold Reply.signalled
        by_cases hexports : linkage.exportsMemory = false
        · simp only [hexports, if_true]
          refine .failed ?_ _
          exact fun _ => nofun
        · -- the reply is written whole or not at all
          by_cases hfits : Memory.Fits size ptr b
          · simp only [hexports, hfits, if_true]
            exact .written hfits
          · simp only [hexports, hfits, if_false]
            refine .failed ?_ _
            exact fun _ => nofun

/-- **What comes of a request**: it is not heard, or it is served and answered. -/
theorem request_settlement
    (h : ∀ reply, x.reply? setup invoke linkage r caller = some reply → reply.Short) :
    (x.addressee? linkage r caller.memory = none ∧
      x.request setup invoke linkage r caller = (.signal signals.failure, caller, x)) ∨
    ∃ c name body y t gas, x.addressee? linkage r caller.memory = some (c, name, body) ∧
      Settlement caller.memory.size y (x.serveRequest setup invoke c name body caller).1 t ∧
      x.request setup invoke linkage r caller =
        (t.1, ⟨caller.memory.changed t.2.1, gas⟩, t.2.2) := by
  have hrequest := request_eq h
  unfold requestBlind at hrequest
  cases hasked : x.addressee? linkage r caller.memory with
  | none =>
    rw [hasked] at hrequest
    exact .inl ⟨rfl, hrequest⟩
  | some asked =>
    obtain ⟨c, name, body⟩ := asked
    have hmemory := serveRequest_memory setup invoke c name body { pages := 0 } caller x
    rw [hasked] at hrequest
    dsimp only at hrequest
    rw [hmemory] at hrequest
    exact .inr ⟨c, name, body, _, _, _, rfl, settlement_settled linkage c _ _ _, hrequest⟩

end Host

/-- An answer that is one of the two signals. -/
def Answer.Signals (a : Answer) : Prop :=
  a = .signal signals.success ∨ a = .signal signals.failure

/-- A contract requests a call whose depth cannot be counted, and nothing else is in its way. -/
def Host.Overreaches (setup : HostSetup) (linkage : Linkage) (r : Regions) (caller : Caller)
    (x : Host τ) : Prop :=
  ∃ c body, x.addressee? linkage r caller.memory = some (c, Method.callContractLen.name, body) ∧
    x.CallsTooDeep setup c caller.gas body

/-- **What a request does to the memory of its contract, and what it reads there.** -/
structure Host.Guarded (setup : HostSetup) (invoke : Invoker τ) (linkage : Linkage) (r : Regions)
    (caller : Caller) (x : Host τ) : Prop where
  /-- It crashes exactly if it overreaches. -/
  crashed : (∃ message, (x.request setup invoke linkage r caller).1 = .crashed message) ↔
    x.Overreaches setup linkage r caller
  /-- Otherwise it is answered with a signal, unless it has a call nested in it that does not
  end. -/
  answered : ¬ x.Overreaches setup linkage r caller →
    (x.request setup invoke linkage r caller).1.Signals ∨
    (x.request setup invoke linkage r caller).1 = .suspended ∧
      ∃ c body call y,
        x.addressee? linkage r caller.memory = some (c, Method.callContractLen.name, body) ∧
        x.callAsked? setup c caller.gas body = some (call, y) ∧ (invoke call y).1 = .suspended
  /-- If header and body do not both lie inside memory, it fails, and nothing comes of it. -/
  refused : ¬ r.Inside linkage caller.memory →
    x.request setup invoke linkage r caller = (.signal signals.failure, caller, x)
  /-- It reads nothing but header and body: the same comes of it with any other memory of that size
  that holds the same header and body, and the same is written to that one. -/
  reads : ∀ m, r.SameIn caller.memory m → ∃ change,
    (x.request setup invoke linkage r caller).2.1.memory = caller.memory.changed change ∧
    x.request setup invoke linkage r { caller with memory := m } =
      ((x.request setup invoke linkage r caller).1,
        { (x.request setup invoke linkage r caller).2.1 with memory := m.changed change },
        (x.request setup invoke linkage r caller).2.2)
  /-- If it does not succeed, the memory is left alone. -/
  kept : (x.request setup invoke linkage r caller).1 ≠ .signal signals.success →
    (x.request setup invoke linkage r caller).2.1.memory = caller.memory
  /-- If it succeeds, the memory holds the reply in one region that lies inside, and is otherwise
  as it was; or there was nothing to write. -/
  written : (x.request setup invoke linkage r caller).1 = .signal signals.success →
    (x.reply? setup invoke linkage r caller = some .done ∧
      (x.request setup invoke linkage r caller).2.1.memory = caller.memory) ∨
    ∃ ptr b, x.reply? setup invoke linkage r caller = some (.write ptr b) ∧
      caller.memory.Written (x.request setup invoke linkage r caller).2.1.memory ptr b
  /-- A text is logged exactly if its region is one that a request could name. -/
  logged : ∀ ptr len,
    if (exportedMemory linkage caller.memory >>= fun m => m.region ptr len).isOk then
      ∃ line, (x.log linkage ptr len caller.memory).journal = x.journal ++ [line]
    else x.log linkage ptr len caller.memory = x

namespace Host

variable {setup : HostSetup} {invoke : Invoker τ} {linkage : Linkage} {r : Regions}
variable {caller : Caller} {x y : Host τ} {c : Context} {name : String} {body : Bytes}

omit [LedgerAccess τ] in
/-- A request whose header or body does not lie inside memory is not heard. -/
theorem addressee?_of_not_inside {m : Memory} (h : ¬ r.Inside linkage m) (x : Host τ) :
    x.addressee? linkage r m = none := by
  unfold addressee?
  rw [readRequest_of_not_inside h]
  split
  · rfl
  · rfl

omit [LedgerAccess τ] in
/-- What is asked of whom is read off header and body. -/
theorem addressee?_congr {m m' : Memory} (h : r.SameIn m m') (linkage : Linkage) (x : Host τ) :
    x.addressee? linkage r m' = x.addressee? linkage r m := by
  unfold addressee?
  rw [readRequest_congr linkage h]

/-- A text is logged if its region lies inside memory. -/
theorem log_guarded (linkage : Linkage) (m : Memory) (x : Host τ) (ptr len : Int32) :
    if (exportedMemory linkage m >>= fun m => m.region ptr len).isOk then
      ∃ line, (x.log linkage ptr len m).journal = x.journal ++ [line]
    else x.log linkage ptr len m = x := by
  -- the text is decoded with replacements, so only the region can be wrong
  have haccepted : (readText? linkage m ptr len).isSome =
      (exportedMemory linkage m >>= fun m => m.region ptr len).isOk := by
    rw [readText?_eq]
    unfold exportedMemory
    cases linkage.exportsMemory with
    | false => rfl
    | true =>
      show (((m.readRegion ptr len).toOption).map Utf8.decodeLossy).isSome =
        (m.region ptr len).isOk
      rw [readRegion_eq, region_eq]
      split
      · rfl
      · rfl
  rw [← haccepted]
  unfold log
  cases readText? linkage m ptr len with
  | none => exact rfl
  | some line =>
    dsimp only
    cases linkage.bound.bind x.registry.get? with
    | some c => exact ⟨_, rfl⟩
    | none => exact ⟨_, rfl⟩

/-- **A request crashes its contract exactly if it overreaches.** -/
theorem request_crashed_iff (hledger : LedgerAccess.Robust τ) (hcrypto : setup.crypto.Robust)
    (h : ∀ reply, x.reply? setup invoke linkage r caller = some reply → reply.Short) :
    (∃ message, (x.request setup invoke linkage r caller).1 = .crashed message) ↔
      x.Overreaches setup linkage r caller := by
  unfold Overreaches
  obtain ⟨hasked, hrequest⟩ | ⟨c, name, body, y, t, gas, hasked, hsettled, hrequest⟩ :=
    request_settlement h
  · rw [hrequest, hasked]
    exact ⟨fun ⟨_, hcrashed⟩ => (nomatch hcrashed), fun ⟨_, _, hasked, _⟩ => (nomatch hasked)⟩
  · have hserve : (∃ message, (x.serveRequest setup invoke c name body caller).1 =
        .finished (.error (.crashed message))) ↔ _ := serveRequest_crashed_iff hledger hcrypto
    rw [hrequest]
    constructor
    · rintro ⟨message, hcrashed⟩
      -- a crash is reported as one, and no other result turns into one
      generalize (x.serveRequest setup invoke c name body caller).1 = served at hsettled hserve
      cases hsettled with
      | crashed message =>
        obtain ⟨rfl, hdeep⟩ := hserve.mp ⟨message, rfl⟩
        exact ⟨c, body, hasked, hdeep⟩
      | suspended => cases hcrashed
      | failed z => cases hcrashed
      | done => cases hcrashed
      | written hfits => cases hcrashed
    · rintro ⟨c', body', hasked', hdeep⟩
      cases hasked.symm.trans hasked'
      obtain ⟨message, hcrashed⟩ := hserve.mpr ⟨rfl, hdeep⟩
      rw [hcrashed] at hsettled
      cases hsettled with
      | crashed => exact ⟨message, rfl⟩
      | failed hspared => exact absurd rfl (hspared message)

/-- **Every request is guarded.** -/
theorem guarded_of_robust (hledger : LedgerAccess.Robust τ) (hcrypto : setup.crypto.Robust)
    (h : ∀ reply, x.reply? setup invoke linkage r caller = some reply → reply.Short) :
    x.Guarded setup invoke linkage r caller where
  crashed := request_crashed_iff hledger hcrypto h
  answered hreaches := by
    have hsound := mt (request_crashed_iff hledger hcrypto h).mp hreaches
    obtain ⟨-, hrequest⟩ | ⟨c, name, body, y, t, gas, hasked, hsettled, hrequest⟩ :=
      request_settlement h
    · rw [hrequest]
      exact .inl (.inr rfl)
    · rw [hrequest] at hsound ⊢
      generalize hserved : (x.serveRequest setup invoke c name body caller).1 = served
        at hsettled
      -- crashes are excluded by assumption, and what is suspended is a nested call
      cases hsettled with
      | suspended =>
        obtain ⟨rfl, call, y, hcall, hinvoke⟩ := serveRequest_suspended hserved
        exact .inr ⟨rfl, c, body, call, y, hasked, hcall, hinvoke⟩
      | crashed message => exact absurd ⟨message, rfl⟩ hsound
      | failed z => exact .inl (.inr rfl)
      | done => exact .inl (.inl rfl)
      | written hfits => exact .inl (.inl rfl)
  refused hinside := by
    have hasked := addressee?_of_not_inside hinside x
    unfold request
    rw [hasked]
  reads m hsame := by
    -- outside the regions the memory is not looked at, neither for the request nor for the reply
    have hreply : x.reply? setup invoke linkage r { caller with memory := m } =
        x.reply? setup invoke linkage r caller := by
      unfold reply?
      rw [addressee?_congr hsame]
      split
      · rfl
      · rw [serveRequest_memory]
    have hother : ∀ reply,
        x.reply? setup invoke linkage r { caller with memory := m } = some reply → reply.Short := by
      rw [hreply]
      exact h
    rw [request_eq h, request_eq hother, addressee?_congr hsame, hsame.size]
    exact ⟨_, rfl, rfl⟩
  kept hanswer := by
    obtain ⟨-, hrequest⟩ | ⟨c, name, body, y, t, gas, hasked, hsettled, hrequest⟩ :=
      request_settlement h
    · rw [hrequest]
    · rw [hrequest] at hanswer ⊢
      generalize (x.serveRequest setup invoke c name body caller).1 = served at hsettled
      cases hsettled with
      | suspended => rfl
      | crashed message => rfl
      | failed z => rfl
      | done => rfl
      | written hfits => exact absurd rfl hanswer
  written hanswer := by
    obtain ⟨-, hrequest⟩ | ⟨c, name, body, y, t, gas, hasked, hsettled, hrequest⟩ :=
      request_settlement h
    · rw [hrequest] at hanswer
      cases hanswer
    · unfold reply?
      rw [hrequest] at hanswer ⊢
      rw [hasked]
      dsimp only
      generalize (x.serveRequest setup invoke c name body caller).1 = served at hsettled ⊢
      cases hsettled with
      | suspended => cases hanswer
      | crashed message => cases hanswer
      | failed z => cases hanswer
      | done => exact .inl ⟨rfl, rfl⟩
      | written hfits => exact .inr ⟨_, _, rfl, written_put hfits⟩
  logged := log_guarded linkage caller.memory x

theorem orderly_callAsked {gas : Nat} {call : Call} (hx : x.Orderly)
    (hasked : x.callAsked? setup c gas body = some (call, y)) : y.Orderly := by
  unfold callAsked? serveOn at hasked
  generalize (x.desk c).run (callOf setup gas body) = ran at hasked
  obtain ⟨asked, d⟩ := ran
  cases asked with
  | error e => cases hasked
  | ok asked =>
    cases hasked
    exact hx.congr rfl rfl rfl

/-- **Every request is guarded, and is answered with a signal unless it overreaches.**  Whatever the
memory holds, whatever four numbers a contract gives, and whoever carries calls out: a request reads
header and body and nothing else, and writes its reply or nothing.  On a host in service the calls
that are nested in it end. -/
theorem requests_guarded (hledger : LedgerAccess.Robust τ) {setup : HostSetup}
    (hcrypto : setup.crypto.Robust) (linkage : Linkage) (r : Regions) (caller : Caller)
    (x : Host τ) :
    (∀ invoke : Invoker τ,
      (∀ reply, x.reply? setup invoke linkage r caller = some reply → reply.Short) →
      x.Guarded setup invoke linkage r caller) ∧
    ∀ levels, x.Orderly →
      (∀ reply, x.reply? setup (invokeWithin setup false levels) linkage r caller = some reply →
        reply.Short) →
      ((x.request setup (invokeWithin setup false levels) linkage r caller).1.Signals ↔
        ¬ x.Overreaches setup linkage r caller) := by
  refine ⟨fun invoke hshort => guarded_of_robust hledger hcrypto hshort, ?_⟩
  intro levels hx hshort
  have hguarded := guarded_of_robust (r := r) hledger hcrypto hshort
  constructor
  · intro hsignals hreaches
    obtain ⟨message, hcrashed⟩ := hguarded.crashed.mpr hreaches
    rw [hcrashed] at hsignals
    exact hsignals.elim nofun nofun
  · intro hreaches
    obtain hsignals | ⟨-, c, body, call, y, hasked, hcall, hsuspended⟩ :=
      hguarded.answered hreaches
    · exact hsignals
    · -- the nested call is deeper, and so it has ended
      have hdeeper : 0 < call.depth := UInt32.pos_iff_ne_zero.mpr (depth_callAsked_ne_zero hcall)
      exact absurd hsuspended (ends_invokeWithin setup levels (orderly_callAsked hx hcall) hdeeper)

/-! ### Two requests -/

/-- An instance that serves the first invocation. -/
def firstLinkage : Linkage :=
  { exportsMemory := true, bound := some 1, pageLimit := 1 }

/-- A host with one invocation under way, at some depth. -/
def inFlight (depth : UInt32) (x : Host Session) : Host Session :=
  { x with
    registry := (x.registry.register
      { contract := creeping.contract, method := "run", depth }).toOption.elim x.registry (·.2) }

/-- A caller with a request of the first invocation in its memory. -/
def requester (m : Method) (body : Bytes) : Caller :=
  ⟨letter (headerOf 1 m) body, 1000⟩

/-- Where header and body of the request stand. -/
def requestAt (m : Method) (body : Bytes) : Regions :=
  letterRegions (headerOf 1 m) body

/-- The body of a request for the length of a value. -/
def lengthBody : Bytes :=
  Packet.encode ⟨[⟨.user, "key", .text "k"⟩, ⟨.user, "value_ptr", .int32 4096⟩]⟩

/-- A value is there, and its length is written to the place that is asked for. -/
theorem requests_guarded_length :
    (inFlight 0 heldHost).reply? singleSetup (invokeWithin singleSetup false 1) firstLinkage
        (requestAt .getStateLen lengthBody) (requester .getStateLen lengthBody) =
        some (.write 4096 [1, 0, 0, 0]) ∧
      (inFlight 0 heldHost).Guarded singleSetup (invokeWithin singleSetup false 1) firstLinkage
        (requestAt .getStateLen lengthBody) (requester .getStateLen lengthBody) ∧
      ((inFlight 0 heldHost).request singleSetup (invokeWithin singleSetup false 1) firstLinkage
        (requestAt .getStateLen lengthBody) (requester .getStateLen lengthBody)).1.Signals := by
  have hreply : (inFlight 0 heldHost).reply? singleSetup (invokeWithin singleSetup false 1)
      firstLinkage (requestAt .getStateLen lengthBody) (requester .getStateLen lengthBody) =
        some (.write 4096 [1, 0, 0, 0]) := by decide +kernel
  have hdepth : ((inFlight 0 heldHost).addressee? firstLinkage (requestAt .getStateLen lengthBody)
      (requester .getStateLen lengthBody).memory).map (·.1.depth) = some 0 := by decide +kernel
  have horderly : (inFlight 0 heldHost).Orderly := orderly_heldHost.congr rfl rfl rfl
  have hcrypto : singleSetup.crypto.Robust := CryptoProvider.robust_absent
  obtain ⟨hguarded, hsignals⟩ := requests_guarded robust_session hcrypto firstLinkage
    (requestAt .getStateLen lengthBody) (requester .getStateLen lengthBody) (inFlight 0 heldHost)
  have hshort (reply : Reply) (h : (inFlight 0 heldHost).reply? singleSetup
      (invokeWithin singleSetup false 1) firstLinkage (requestAt .getStateLen lengthBody)
      (requester .getStateLen lengthBody) = some reply) : reply.Short := by
    obtain rfl := Option.some.inj (hreply.symm.trans h)
    show 4 < 0x80000000
    omega
  refine ⟨hreply, hguarded _ hshort, (hsignals 1 horderly hshort).mpr ?_⟩
  -- the caller is at depth zero, so the depth is not the greatest
  rintro ⟨c, body, hasked, hgreatest, -⟩
  rw [hasked] at hdepth
  have hzero : c.depth = 0 := Option.some.inj hdepth
  rw [hzero] at hgreatest
  exact absurd hgreatest (by decide)

/-- Settings that allow all depths. -/
def boundlessSetup : HostSetup :=
  { singleSetup with
    config := { singleSetup.config with execution := { maxCallDepth := 0xFFFFFFFF } } }

/-- The body of a request for a call of a contract that does nothing. -/
def restingBody : Bytes :=
  Packet.encode ⟨[⟨.user, "contract_name", .text "resting"⟩, ⟨.user, "method", .text "run"⟩,
    ⟨.user, "value_ptr", .int32 0⟩]⟩

/-- **A request crashes.**  An invocation at the greatest depth calls another contract, and the
depth of that call cannot be counted. -/
theorem request_crashes :
    boundlessSetup.config.validate.isOk = true ∧
    (inFlight 0xFFFFFFFF (restingHost boundlessSetup)).Orderly ∧
    ¬ ((inFlight 0xFFFFFFFF (restingHost boundlessSetup)).request boundlessSetup
        (invokeWithin boundlessSetup false boundlessSetup.gasLimit) firstLinkage
        (requestAt .callContractLen restingBody)
        (requester .callContractLen restingBody)).1.Signals := by
  have hanswer : ((inFlight 0xFFFFFFFF (restingHost boundlessSetup)).request boundlessSetup
      (invokeWithin boundlessSetup false boundlessSetup.gasLimit) firstLinkage
      (requestAt .callContractLen restingBody) (requester .callContractLen restingBody)).1 =
        .crashed "attempt to add with overflow" := by decide +kernel
  refine ⟨by decide, (orderly_restingHost boundlessSetup).congr rfl rfl rfl, ?_⟩
  rw [hanswer]
  rintro (h | h)
  · cases h
  · cases h

end Host

end ContractHost
