import ContractHost.Proofs.Host.Probes
import ContractHost.Proofs.Host.Reach
import ContractHost.Proofs.Host.Regions
import ContractHost.Proofs.Request.Scheduling
import Mathlib.Data.List.TakeWhile

/-!
# What a result is put together from

Three things make up the result of an invocation: payloads that its contract sets, words of its own
for what went wrong, and the errors of requests that have failed.  The host writes the last two into
one message, and the contract does so by a request.  Whoever writes first begins the message, and
each entry is set off from the one before.

Once there is an entry the invocation has failed, and no payload is set any more.

## Main definitions

* `Remark` — what a request adds to the result.
* `entriesOf`, `payloadOf` — the entries that remarks make, and the payload that they leave.
* `Outcome.Records` — a result that was put together from remarks.
* `Visit.remark?` — the remark of a request.

## Main results

* `Outcome.Records.remarked` — one more remark.
* `Host.Underway.remarked` — **what a request adds to the result of its invocation.**
* `Host.result_recorded` — **a result is what its remarks make, in their order.**
-/

namespace ContractHost

/-! ### Remarks -/

/-- What a request adds to the result of its invocation. -/
inductive Remark
  /-- A payload. -/
  | payload (b : Bytes)
  /-- The contract's own words for what went wrong. -/
  | complaint (text : String)
  /-- The error of a request that has failed. -/
  | failure (e : SyscallError)
  deriving Repr, DecidableEq

namespace Remark

/-- The entry in the message. -/
def part? : Remark → Option String
  | .payload _ => none
  | .complaint text => some ("contract message: " ++ text)
  | .failure e => some ("error message: " ++ e.message)

/-- The payload. -/
def payload? : Remark → Option Bytes
  | .payload b => some b
  | _ => none

end Remark

/-- The entries that remarks make, in their order. -/
def entriesOf (remarks : List Remark) : List String :=
  remarks.filterMap Remark.part?

/-- The last payload before the first entry, nothing if there is none. -/
def payloadOf (remarks : List Remark) : Bytes :=
  ((remarks.takeWhile (·.part?.isNone)).filterMap Remark.payload?).getLast?.getD []

theorem entriesOf_concat (remarks : List Remark) (r : Remark) :
    entriesOf (remarks ++ [r]) = entriesOf remarks ++ r.part?.toList := by
  unfold entriesOf
  rw [List.filterMap_append]
  congr 1

/-- As long as there is no entry, all payloads count. -/
theorem takeWhile_of_entriesOf {remarks : List Remark} (h : entriesOf remarks = []) :
    remarks.takeWhile (·.part?.isNone) = remarks := by
  rw [List.takeWhile_eq_self_iff]
  intro r hr
  rw [List.filterMap_eq_nil_iff.mp h r hr]
  rfl

theorem payloadOf_concat_of_entriesOf {remarks : List Remark} (h : entriesOf remarks ≠ [])
    (r : Remark) : payloadOf (remarks ++ [r]) = payloadOf remarks := by
  have hentry : ¬ ∀ r ∈ remarks, r.part?.isNone = true := by
    intro hall
    exact h (List.filterMap_eq_nil_iff.mpr fun r hr => Option.isNone_iff_eq_none.mp (hall r hr))
  unfold payloadOf
  rw [List.takeWhile_append, if_neg]
  intro hlength
  apply hentry
  rw [← List.takeWhile_eq_self_iff]
  exact (List.takeWhile_prefix _).eq_of_length hlength

/-- A payload counts as long as there is no entry. -/
theorem payloadOf_concat_payload {remarks : List Remark} (h : entriesOf remarks = [])
    (b : Bytes) : payloadOf (remarks ++ [.payload b]) = b := by
  have hnone : entriesOf (remarks ++ [.payload b]) = [] := by
    rw [entriesOf_concat, h]
    rfl
  unfold payloadOf
  rw [takeWhile_of_entriesOf hnone, List.filterMap_append]
  simp [Remark.payload?]

theorem payloadOf_concat_entry {remarks : List Remark} {r : Remark} (hr : r.payload? = none) :
    payloadOf (remarks ++ [r]) = payloadOf remarks := by
  by_cases h : entriesOf remarks = []
  · unfold payloadOf
    have hwhole : remarks.takeWhile (·.part?.isNone) = remarks := takeWhile_of_entriesOf h
    rw [List.takeWhile_append, if_pos (by rw [hwhole]), List.filterMap_append, hwhole]
    have hlast : ([r].takeWhile (·.part?.isNone)).filterMap Remark.payload? = [] := by
      cases r with
      | payload b => cases hr
      | complaint text => rfl
      | failure e => rfl
    rw [hlast, List.append_nil]
  · exact payloadOf_concat_of_entriesOf h r

/-! ### Results -/

namespace Outcome

/-- Two outcomes with one result; they may differ in their gas, their events and their class. -/
structure SameResult (o o' : Outcome) : Prop where
  /-- The code is the same. -/
  code : o'.code = o.code
  /-- So is the payload. -/
  payload : o'.payload = o.payload
  /-- So is the message. -/
  message : o'.message = o.message

/-- A result that was put together from remarks. -/
structure Records (remarks : List Remark) (o : Outcome) : Prop where
  /-- It is a failure exactly if there are entries. -/
  code : o.code = if entriesOf remarks = [] then success else failure
  /-- The message is the entries, one behind the other. -/
  message : o.message = ". ".intercalate (entriesOf remarks)
  /-- The payload is the last one before the first entry. -/
  payload : o.payload = payloadOf remarks

variable {o o' : Outcome} {remarks : List Remark}

theorem SameResult.refl (o : Outcome) : o.SameResult o :=
  ⟨rfl, rfl, rfl⟩

theorem SameResult.recordError (h : o.SameResult o') (text : String) :
    (o.recordError text).SameResult (o'.recordError text) := by
  unfold Outcome.recordError
  exact ⟨rfl, h.payload, by rw [h.message]⟩

theorem Records.congr (h : o.Records remarks) (hsame : o.SameResult o') : o'.Records remarks :=
  ⟨hsame.code.trans h.code, hsame.message.trans h.message, hsame.payload.trans h.payload⟩

theorem records_nil : Records [] {} :=
  ⟨rfl, rfl, rfl⟩

/-- The message is empty exactly if there are no entries: no entry is empty. -/
theorem Records.message_eq_empty_iff (h : o.Records remarks) :
    o.message = "" ↔ entriesOf remarks = [] := by
  rw [h.message]
  constructor
  · intro hempty
    cases hentries : entriesOf remarks with
    | nil => rfl
    | cons first rest =>
      -- an entry begins with its label
      have hmem : first ∈ entriesOf remarks := by
        rw [hentries]
        exact List.mem_cons_self
      obtain ⟨r, -, hr⟩ := List.mem_filterMap.mp hmem
      have hfirst : first ≠ "" := by
        rintro rfl
        cases r with
        | payload b => cases hr
        | complaint text => exact absurd (Option.some.inj hr) (by simp)
        | failure e => exact absurd (Option.some.inj hr) (by simp)
      rw [hentries] at hempty
      cases rest with
      | nil => exact absurd (String.intercalate_singleton.symm.trans hempty) hfirst
      | cons second rest =>
        rw [String.intercalate_cons_cons] at hempty
        simp at hempty
  · intro hentries
    rw [hentries]
    rfl

theorem Records.addEntry (h : o.Records remarks) {label text : String} {r : Remark}
    (hr : r.part? = some (label ++ text)) :
    Outcome.addEntry o.message label text = ". ".intercalate (entriesOf (remarks ++ [r])) := by
  rw [entriesOf_concat, hr, Option.toList_some]
  unfold Outcome.addEntry
  by_cases hentries : entriesOf remarks = []
  · rw [hentries, List.nil_append, String.intercalate_singleton]
    rw [if_pos (String.isEmpty_iff.mpr (h.message_eq_empty_iff.mpr hentries))]
  · have hmessage : ¬ o.message.isEmpty = true := by
      rw [String.isEmpty_iff]
      exact fun hempty => hentries (h.message_eq_empty_iff.mp hempty)
    rw [if_neg hmessage, String.intercalate_append_of_ne_nil hentries (List.cons_ne_nil _ _),
      String.intercalate_singleton, ← h.message]
    simp only [String.append_assoc]

/-- The result is a success exactly if there are no entries. -/
theorem Records.isSuccess (h : o.Records remarks) :
    o.isSuccess = true ↔ entriesOf remarks = [] := by
  unfold Outcome.isSuccess
  rw [h.code, decide_eq_true_iff]
  by_cases hentries : entriesOf remarks = []
  · rw [if_pos hentries]
    exact ⟨fun _ => hentries, fun _ => rfl⟩
  · rw [if_neg hentries]
    exact ⟨nofun, fun hnil => absurd hnil hentries⟩

end Outcome

namespace Context

/-- The invocation with one more remark in its result. -/
def remarked (c : Context) : Remark → Context
  | .payload b => (c.setSuccess b).2
  | .complaint text => c.setError text
  | .failure e => c.recordError e.message

/-- **One more remark.** -/
theorem records_remarked {c : Context} {remarks : List Remark} (h : c.outcome.Records remarks)
    (r : Remark) : (c.remarked r).outcome.Records (remarks ++ [r]) := by
  have hfailed {o : Outcome} {r : Remark} (hne : r.part? ≠ none)
      (hcode : o.code = Outcome.failure) :
      o.code = if entriesOf (remarks ++ [r]) = [] then Outcome.success else Outcome.failure := by
    rw [if_neg, hcode]
    rw [entriesOf_concat]
    intro hnil
    exact hne (Option.toList_eq_nil_iff.mp (List.append_eq_nil_iff.mp hnil).2)
  cases r with
  | payload b =>
    have hentries : entriesOf (remarks ++ [.payload b]) = entriesOf remarks := by
      rw [entriesOf_concat]
      exact List.append_nil _
    show (c.setSuccess b).2.outcome.Records _
    unfold setSuccess
    -- a payload counts only as long as nothing has been entered
    by_cases hnone : entriesOf remarks = []
    · rw [if_pos (h.isSuccess.mpr hnone)]
      refine ⟨?_, ?_, ?_⟩
      · rw [hentries]
        exact h.code
      · rw [hentries]
        exact h.message
      · rw [payloadOf_concat_payload hnone]
    · rw [if_neg fun hsuccess => hnone (h.isSuccess.mp hsuccess)]
      refine ⟨?_, ?_, ?_⟩
      · rw [hentries]
        exact h.code
      · rw [hentries]
        exact h.message
      · rw [payloadOf_concat_of_entriesOf hnone]
        exact h.payload
  | complaint text =>
    refine ⟨hfailed nofun rfl, h.addEntry rfl, ?_⟩
    rw [payloadOf_concat_entry rfl]
    exact h.payload
  | failure e =>
    refine ⟨hfailed nofun rfl, h.addEntry rfl, ?_⟩
    rw [payloadOf_concat_entry rfl]
    exact h.payload

end Context

/-! ### The remark of a request -/

/-- The error that is recorded for a request that was served: it has failed, or its reply cannot be
written. -/
def Served.fault? (linkage : Linkage) (caller : Caller) : Served → Option SyscallError
  | .finished (.error (.failed e)) => some e
  | .finished (.ok reply) =>
    match applyReply linkage caller reply with
    | .error e => some e
    | .ok _ => none
  | _ => none

/-- What a request says about the result. -/
def wordOf? (name : String) (body : Bytes) : Option Remark :=
  match Method.ofName? name with
  | some .successResult => some (.payload body)
  | some .errorResult => some (.complaint (Utf8.decodeLossy body))
  | _ => none

theorem Served.fault?_congr {linkage : Linkage} {caller caller' : Caller}
    (h : caller'.memory = caller.memory) (served : Served) :
    served.fault? linkage caller' = served.fault? linkage caller := by
  cases served with
  | suspended => rfl
  | finished result =>
    cases result with
    | error e => cases e <;> rfl
    | ok reply =>
      cases reply with
      | done => rfl
      | rejected => rfl
      | write ptr bytes =>
        unfold Served.fault? applyReply
        rw [h]
        cases exportedMemory linkage caller.memory with
        | error e => rfl
        | ok memory =>
          simp only [bind, Except.bind]
          cases memory.writeRegion ptr bytes <;> rfl

variable {τ : Type} [LedgerAccess τ]

/-- What a request adds to the result of its invocation: the error that is recorded for it, or what
it says. -/
def Visit.remark? (setup : HostSetup) (invoke : Invoker τ) (linkage : Linkage)
    (v : Visit (Host τ)) : Option Remark := do
  let asked ← v.asked? linkage
  let served ← v.served? setup invoke linkage
  match served.fault? linkage v.before.toCaller with
  | some e => some (.failure e)
  | none => wordOf? asked.2.1 asked.2.2

/-- What the requests of a run add. -/
def remarksOf (setup : HostSetup) (invoke : Invoker τ) (linkage : Linkage)
    (visits : List (Visit (Host τ))) : List Remark :=
  visits.filterMap (Visit.remark? setup invoke linkage)

/-- The invocation behind a request that may have added a remark. -/
def Context.remarked? (c : Context) (r? : Option Remark) : Context :=
  r?.elim c c.remarked

/-- A request that says something about the result does not fail. -/
theorem fault?_of_word {name : String} {body : Bytes} {r : Remark}
    (hword : wordOf? name body = some r) (crypto : CryptoProvider) (d : Desk τ)
    (linkage : Linkage) (caller : Caller) :
    (Served.finished (d.run (serve crypto name body)).1).fault? linkage caller = none := by
  unfold wordOf? at hword
  split at hword
  · rename_i hname
    unfold serve
    rw [hname]
    show (Served.finished (.ok (if (d.context.setSuccess body).1 then .done else .rejected))).fault?
      linkage caller = none
    split <;> rfl
  · rename_i hname
    unfold serve
    rw [hname]
    rfl
  · cases hword

/-- What a request that has not failed makes of the result is what it says. -/
theorem sameResult_after (c : Context) (txId name : String) (body : Bytes) :
    (c.remarked? (wordOf? name body)).outcome.SameResult (c.after txId name body).outcome := by
  unfold wordOf? Context.after
  cases Method.ofName? name with
  | none => exact .refl _
  | some m =>
    cases m with
    | kvIterator | kvPreIterator =>
      dsimp only
      split <;> exact ⟨rfl, rfl, rfl⟩
    | _ => exact ⟨rfl, rfl, rfl⟩

theorem Context.advances_noted (c : Context) (fault? : Option SyscallError) :
    c.Advances (fault?.elim c fun e => c.recordError e.message) := by
  cases fault? with
  | none => exact .refl c
  | some e => exact (c.onward_recordError e.message).toAdvances

theorem Visit.remark?_of_unheard {linkage : Linkage} {v : Visit (Host τ)} (setup : HostSetup)
    (invoke : Invoker τ) (hasked : v.asked? linkage = none) :
    v.remark? setup invoke linkage = none := by
  unfold Visit.remark?
  rw [hasked]
  rfl

/-- The remark of a request is its error, or what it says if it has none. -/
theorem Visit.remark?_of_served {setup : HostSetup} {invoke : Invoker τ} {linkage : Linkage}
    {v : Visit (Host τ)} {c : Context} {name : String} {body : Bytes} {served : Served}
    (hasked : v.asked? linkage = some (c, name, body))
    (hserved : v.served? setup invoke linkage = some served) :
    v.remark? setup invoke linkage =
      ((served.fault? linkage v.before.toCaller).map Remark.failure).or (wordOf? name body) := by
  unfold Visit.remark?
  rw [hasked, hserved]
  simp only [bind, Option.bind]
  cases served.fault? linkage v.before.toCaller with
  | none => rfl
  | some e => rfl

namespace Host

variable {setup : HostSetup} {invoke : Invoker τ} {linkage : Linkage}
variable {base : OrderedMap Int32 Context} {c c₀ : Context} {x : Host τ} {v : Visit (Host τ)}
variable {start m : Machine (Host τ)} {visits : List (Visit (Host τ))}

omit [LedgerAccess τ] in
/-- **A request that was served is answered, and its error is recorded**, if there is one. -/
theorem Underway.noted (h : Underway base c x) (hhandle : c₀.handle = c.handle)
    (served : Served) (caller : Caller) :
    Underway base
      ((served.fault? linkage caller).elim c fun e => c.recordError e.message)
      (x.answer linkage c₀ served caller).2.2 := by
  unfold Host.answer Served.fault?
  cases served with
  | suspended => exact h
  | finished result =>
    cases result with
    | error e =>
      cases e with
      | failed e => exact h.record hhandle e
      | crashed message => exact h
    | ok reply =>
      dsimp only
      cases applyReply linkage caller reply with
      | error e => exact h.record hhandle e
      | ok applied => exact h

omit [LedgerAccess τ] in
/-- A call of another contract does not change the result of its caller, until it is answered. -/
theorem sameResult_called {gas gas' : Nat} {asked : Option (Call × Host τ)} {served : Served}
    {c c' : Context} (h : Called setup invoke c gas asked served gas' c') :
    c.outcome.SameResult c'.outcome := by
  cases h with
  | refused e => exact .refl _
  | broken hinvoke => exact .refl _
  | failed hinvoke ho => exact ⟨rfl, rfl, rfl⟩
  | returned hinvoke ho ptr => exact ⟨rfl, rfl, rfl⟩

/-- A call of another contract adds its error, if there is one. -/
theorem Underway.remarked_of_call {body : Bytes} (h : Underway base c v.before.world)
    (htidy : invoke.Tidy) (hasked : v.asked? linkage = some (c, Method.callContractLen.name, body))
    (hrequest : (hostCalls setup invoke).request linkage v.regions v.before.toCaller
      v.before.world = (v.answer, v.after.toCaller, v.after.world))
    (hanswer : v.answer ≠ .suspended) :
    ∃ c', Underway base c' v.after.world ∧ c.Advances c' ∧
      (c.remarked? (v.remark? setup invoke linkage)).outcome.SameResult c'.outcome := by
  have hserved : v.served? setup invoke linkage =
      some (v.before.world.serveCall setup invoke c body v.before.toCaller).1 :=
    Visit.served?_of_other hasked
  rw [request_of_other hasked] at hrequest
  have hends : (v.before.world.serveCall setup invoke c body v.before.toCaller).1 ≠
      .suspended := by
    intro hsuspended
    rw [hsuspended] at hrequest
    exact hanswer (congrArg Prod.fst hrequest).symm
  obtain ⟨c₁, hy, hcalled⟩ := h.called htidy body v.before.toCaller hends
  have hmemory : (v.before.world.serveCall setup invoke c body v.before.toCaller).2.1.memory =
      v.before.memory :=
    congrArg (fun t => t.2.1.memory)
      (serveCall_memory setup invoke c body v.before.memory v.before.toCaller v.before.world)
  generalize v.before.world.serveCall setup invoke c body v.before.toCaller = t
    at hy hcalled hrequest hserved hmemory
  obtain ⟨served, caller, y⟩ := t
  have hnoted : Underway base _ (y.answer linkage c served caller).2.2 :=
    hy.noted hcalled.advances.handle.symm served caller
  rw [hrequest, Served.fault?_congr hmemory] at hnoted
  refine ⟨_, hnoted, hcalled.advances.trans (Context.advances_noted _ _), ?_⟩
  -- what the callee reports is entered first, then the fault of the reply, if any
  have hsame := sameResult_called hcalled
  rw [Visit.remark?_of_served hasked hserved]
  cases served.fault? linkage v.before.toCaller with
  | none => exact hsame
  | some e => exact hsame.recordError e.message

/-- Any other request adds its error, or what it says. -/
theorem Underway.remarked_of_own {name : String} {body : Bytes}
    (h : Underway base c v.before.world) (hasked : v.asked? linkage = some (c, name, body))
    (hname : name ≠ Method.callContractLen.name)
    (hrequest : (hostCalls setup invoke).request linkage v.regions v.before.toCaller
      v.before.world = (v.answer, v.after.toCaller, v.after.world)) :
    ∃ c', Underway base c' v.after.world ∧ c.Advances c' ∧
      (c.remarked? (v.remark? setup invoke linkage)).outcome.SameResult c'.outcome := by
  have hserved : v.served? setup invoke linkage =
      some (.finished ((v.before.world.desk c).run (serve setup.crypto name body)).1) :=
    Visit.served?_of_own hasked hname
  rw [request_of_own hasked hname] at hrequest
  have heffect := effect_serve setup.crypto name body (v.before.world.desk c)
  have hstands := stands_serve setup.crypto name body (v.before.world.desk c)
  have hquiet {r : Remark} (hword : wordOf? name body = some r) :=
    fault?_of_word hword setup.crypto (v.before.world.desk c) linkage v.before.toCaller
  unfold Serving.ComesTo at heffect
  generalize (v.before.world.desk c).run (serve setup.crypto name body) = t
    at heffect hstands hquiet hrequest hserved
  obtain ⟨result, d⟩ := t
  have hhandle := heffect.advances.handle
  have hnoted : Underway base _ ((v.before.world.clear d).answer linkage c
      (.finished result) v.before.toCaller).2.2 :=
    (h.clear hhandle).noted hhandle.symm (.finished result) v.before.toCaller
  dsimp only at hnoted hrequest
  rw [hrequest] at hnoted
  refine ⟨_, hnoted, heffect.advances.trans (Context.advances_noted _ _), ?_⟩
  have hsame := sameResult_after c (LedgerAccess.txId v.before.world.ledger) name body
  have houtcome : d.context.outcome =
      (c.after (LedgerAccess.txId v.before.world.ledger) name body).outcome :=
    Context.outcome_of_standing hstands.standing
  rw [← houtcome] at hsame
  rw [Visit.remark?_of_served hasked hserved]
  cases hfault : (Served.finished result).fault? linkage v.before.toCaller with
  | none => exact hsame
  | some e =>
    -- a request that has failed has said nothing
    have hsilent : wordOf? name body = none := by
      cases hword : wordOf? name body with
      | none => rfl
      | some r => exact nomatch (hquiet hword).symm.trans hfault
    rw [hsilent] at hsame
    exact hsame.recordError e.message

/-- **What a request adds to the result of its invocation** is its remark. -/
theorem Underway.remarked (h : Underway base c v.before.world) (htidy : invoke.Tidy)
    (hbound : linkage.bound = some c.handle)
    (hrequest : (hostCalls setup invoke).request linkage v.regions v.before.toCaller
      v.before.world = (v.answer, v.after.toCaller, v.after.world))
    (hanswer : v.answer ≠ .suspended) :
    ∃ c', Underway base c' v.after.world ∧ c.Advances c' ∧
      (c.remarked? (v.remark? setup invoke linkage)).outcome.SameResult c'.outcome := by
  cases hasked : v.asked? linkage with
  | none =>
    rw [request_of_unheard hasked] at hrequest
    have hworld : v.before.world = v.after.world := congrArg (fun t => t.2.2) hrequest
    rw [Visit.remark?_of_unheard setup invoke hasked]
    exact ⟨c, hworld ▸ h, .refl c, .refl _⟩
  | some asked =>
    obtain ⟨c₀, name, body⟩ := asked
    obtain rfl : c₀ = c := h.addressee hbound hasked
    by_cases hname : name = Method.callContractLen.name
    · obtain rfl := hname
      exact h.remarked_of_call htidy hasked hrequest hanswer
    · exact h.remarked_of_own hasked hname hrequest

/-- **At any time a result is what the remarks so far have made.** -/
theorem Underway.recorded (h : Underway base c start.world) (htidy : invoke.Tidy)
    (hbound : linkage.bound = some c.handle) (hnew : c.outcome.Records [])
    (hcourse : Course (hostCalls setup invoke) linkage start visits m) :
    ∃ c', Underway base c' m.world ∧ c.Advances c' ∧
      c'.outcome.Records (remarksOf setup invoke linkage visits) := by
  -- along the course: the outcome records the remarks of the requests so far
  refine hcourse.invariant (P := fun visits x => ∃ c', Underway base c' x ∧ c.Advances c' ∧
    c'.outcome.Records (remarksOf setup invoke linkage visits)) ⟨c, h, .refl c, hnew⟩ ?_ ?_
  · rintro visits n ptr len ⟨a, ha, hadvances, hrecords⟩
    obtain ⟨b, hb, rfl | ⟨line, rfl⟩⟩ := ha.logged (hadvances.handle ▸ hbound) ptr len n.memory
    · exact ⟨b, hb, hadvances, hrecords⟩
    · have honward : a.Onward (a.pushLog line) := .of_eq rfl rfl rfl
      exact ⟨_, hb, hadvances.trans honward.toAdvances, hrecords⟩
  · rintro visits n regions answer caller world - hrequest hanswer ⟨a, ha, hadvances, hrecords⟩
    let v : Visit (Host τ) := ⟨regions, n, answer, ⟨caller, world⟩⟩
    obtain ⟨b, hb, hadvances', hsame⟩ := ha.remarked (v := v) htidy (hadvances.handle ▸ hbound)
      hrequest hanswer
    refine ⟨b, hb, hadvances.trans hadvances', Outcome.Records.congr ?_ hsame⟩
    unfold remarksOf
    rw [List.filterMap_append]
    cases hremark : v.remark? setup invoke linkage with
    | none =>
      rw [List.filterMap_cons_none hremark, List.filterMap_nil, List.append_nil]
      exact hrecords
    | some r =>
      rw [List.filterMap_cons_some hremark, List.filterMap_nil]
      exact Context.records_remarked hrecords r

/-- **Once an invocation has failed, a payload is refused, and nothing changes.** -/
theorem Underway.refused (h : Underway base c v.before.world)
    (hbound : linkage.bound = some c.handle) (hfailed : c.outcome.isSuccess = false)
    (hmethod : v.method? linkage = some .successResult)
    (hrequest : (hostCalls setup invoke).request linkage v.regions v.before.toCaller
      v.before.world = (v.answer, v.after.toCaller, v.after.world)) :
    v.answer = .signal signals.failure ∧ v.after = v.before := by
  unfold Visit.method? at hmethod
  obtain ⟨⟨c₀, name, body⟩, hasked, hname⟩ := Option.bind_eq_some_iff.mp hmethod
  obtain rfl : c₀ = c := h.addressee hbound hasked
  obtain rfl : Method.successResult.name = name := Method.name_of_ofName? hname
  rw [request_of_own hasked (by decide)] at hrequest
  -- the payload is refused, and nothing but the signal shows it
  have hserve : (v.before.world.desk c₀).run
      (serve setup.crypto Method.successResult.name body) =
        (.ok .rejected, v.before.world.desk c₀) := by
    have hrefuse : c₀.setSuccess body = (false, c₀) := by
      unfold Context.setSuccess
      rw [hfailed]
      rfl
    unfold serve
    rw [hname]
    show (Except.ok (if (c₀.setSuccess body).1 then Reply.done else .rejected),
      { v.before.world.desk c₀ with context := (c₀.setSuccess body).2 }) = _
    rw [hrefuse]
    rfl
  rw [hserve, clear_desk h.get?] at hrequest
  have hsignalled : (Answer.signal signals.failure, v.before.toCaller, v.before.world) =
      (v.answer, v.after.toCaller, v.after.world) := hrequest
  obtain ⟨hanswer, hcaller, hworld⟩ : Answer.signal signals.failure = v.answer ∧
      v.before.toCaller = v.after.toCaller ∧ v.before.world = v.after.world := by
    simpa only [Prod.mk.injEq] using hsignalled
  refine ⟨hanswer.symm, ?_⟩
  generalize v.before = before at hcaller hworld
  generalize v.after = after at hcaller hworld
  obtain ⟨⟨memory, gas⟩, world⟩ := before
  obtain ⟨⟨memory', gas'⟩, world'⟩ := after
  cases hcaller
  cases hworld
  rfl

end Host

/-! ### Results of calls -/

/-- **A result is what its remarks make, in their order.**  Whatever the script of a call does, and
however many calls are nested in it: the code is that of a failure exactly if there is an entry; the
message is the entries, one behind the other; the payload is the last one that was set before the
first entry; and once there is an entry, a payload is refused, and nothing changes. -/
theorem Host.result_recorded {setup : HostSetup} {x : Host τ} {call : Call} {s : Begun τ}
    (hx : x.Orderly) (hbegin : x.begin setup call = .ok s) (breaksOff : Bool) (levels : Nat)
    {visits : List (Visit (Host τ))} {m : Machine (Host τ)}
    (hcourse : Course (hostCalls setup (Host.invokeWithin setup breaksOff levels))
      (s.inst.linkage breaksOff) ((s.inst.setGas (budgetOf setup call)).machine s.host) visits m) :
    (∃ c, m.world.registry.get? s.context.handle = some c ∧
      c.outcome.Records (remarksOf setup (Host.invokeWithin setup breaksOff levels)
        (s.inst.linkage breaksOff) visits)) ∧
    ∀ (before : List (Visit (Host τ))) (v : Visit (Host τ)) (after : List (Visit (Host τ))),
      visits = before ++ v :: after → v.method? (s.inst.linkage breaksOff) = some .successResult →
      entriesOf (remarksOf setup (Host.invokeWithin setup breaksOff levels)
        (s.inst.linkage breaksOff) before) ≠ [] →
      v.answer = .signal signals.failure ∧ v.after = v.before := by
  have htidy : Invoker.Tidy (Host.invokeWithin (τ := τ) setup breaksOff levels) :=
    Host.tidy_invokeWithin setup breaksOff levels
  have hbeginning := Host.beginning_begin setup call hx
  rw [hbegin] at hbeginning
  cases hbeginning with
  | begun hunderway hfree hbound houtcome hcached =>
    have hnew : s.context.outcome.Records [] := by
      rw [houtcome]
      exact Outcome.records_nil
    constructor
    · obtain ⟨c, hc, hadvances, hrecords⟩ := hunderway.recorded htidy hbound hnew hcourse
      exact ⟨c, hadvances.handle ▸ hc.get?, hrecords⟩
    · rintro before v after rfl hmethod hentries
      -- up to the visit something was entered, so the code has turned
      obtain ⟨hbefore, hrequest, -⟩ := hcourse.upTo.before
      obtain ⟨c, hc, hadvances, hrecords⟩ := hunderway.recorded htidy hbound hnew hbefore
      have hfailed : c.outcome.isSuccess = false :=
        Bool.eq_false_iff.mpr fun hsuccess => hentries (hrecords.isSuccess.mp hsuccess)
      exact hc.refused (hadvances.handle ▸ hbound) hfailed hmethod hrequest

namespace Host

/-- A call that sets a payload, then reports an error, and then sets another payload. -/
def remarking : Call :=
  { creeping with
    code := askingCode [(1024, headerOf 1 .successResult, [1]),
      (2048, headerOf 1 .errorResult, Utf8.encode "no"), (3072, headerOf 1 .successResult, [2])] }

/-- What its requests add to the result. -/
theorem remarks_remarking : ((heldHost.begin singleSetup remarking).toOption.bind fun s =>
      (recorded? singleSetup.guest (hostCalls singleSetup (invokeWithin singleSetup false 1)) false
        s.context (budgetOf singleSetup remarking) s.inst s.host).map fun visits =>
        visits.map fun v => (v.method? (s.inst.linkage false),
          v.remark? singleSetup (invokeWithin singleSetup false 1) (s.inst.linkage false))) =
    some [(some .successResult, some (.payload [1])), (some .errorResult, some (.complaint "no")),
      (some .successResult, some (.payload [2]))] := by decide +kernel

/-- The first payload is kept, the error is the message, and the second payload is refused. -/
theorem result_recorded_held :
    ∃ (s : Begun Session) (first second third : Visit (Host Session)) (m : Machine (Host Session))
      (c : Context), heldHost.begin singleSetup remarking = .ok s ∧
      Course (hostCalls singleSetup (invokeWithin singleSetup false 1)) (s.inst.linkage false)
        ((s.inst.setGas (budgetOf singleSetup remarking)).machine s.host) [first, second, third] m ∧
      m.world.registry.get? s.context.handle = some c ∧
      c.outcome.Records [.payload [1], .complaint "no", .payload [2]] ∧
      third.answer = .signal signals.failure ∧ third.after = third.before := by
  obtain ⟨s, hbegin, hremarks⟩ := Option.bind_eq_some_iff.mp remarks_remarking
  obtain ⟨visits, hvisits, hremarks⟩ := Option.map_eq_some_iff.mp hremarks
  obtain ⟨first, rest, rfl, hfirst, hrest⟩ := List.map_eq_cons_iff.mp hremarks
  obtain ⟨second, rest, rfl, hsecond, hrest⟩ := List.map_eq_cons_iff.mp hrest
  obtain ⟨third, rfl, hthird⟩ := List.map_eq_singleton_iff.mp hrest
  simp only [Prod.mk.injEq] at hfirst hsecond hthird
  have hbegin := eq_ok_of_toOption hbegin
  obtain ⟨m, hcourse⟩ := course_of_recorded? hvisits
  obtain ⟨⟨c, hc, hrecords⟩, hrefused⟩ := result_recorded orderly_heldHost hbegin false 1 hcourse
  have hbefore : remarksOf singleSetup (invokeWithin singleSetup false 1) (s.inst.linkage false)
      [first, second] = [.payload [1], .complaint "no"] := by
    simp only [remarksOf, List.filterMap_cons, List.filterMap_nil, hfirst.2, hsecond.2]
  have hall : remarksOf singleSetup (invokeWithin singleSetup false 1) (s.inst.linkage false)
      [first, second, third] = [.payload [1], .complaint "no", .payload [2]] := by
    simp only [remarksOf, List.filterMap_cons, List.filterMap_nil, hfirst.2, hsecond.2, hthird.2]
  rw [hall] at hrecords
  obtain ⟨hanswer, hafter⟩ := hrefused [first, second] third [] rfl hthird.1 (by
    rw [hbefore]
    decide)
  exact ⟨s, first, second, third, m, c, hbegin, hcourse, hc, hrecords, hanswer, hafter⟩

end Host

end ContractHost
