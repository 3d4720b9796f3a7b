import ContractHost.Proofs.Host.CallTree
import ContractHost.Proofs.Host.History
import ContractHost.Proofs.Host.Letters

/-!
# Probes and fetches

A probe keeps the bytes that it finds and tells their length.  A fetch gives out the bytes that are
kept, whatever they are.  A script that makes room for as many bytes as it was told last trusts that
these are the bytes it will be given.

It is right as long as every probe that keeps bytes also tells their length.  But a probe keeps its
bytes before it asks for the place of their length, and before the length is written there.  If the
place is missing, or lies outside of memory, the request fails, and the bytes stay.  They are given
out by the next fetch, although the script was never told of them.

## Main definitions

* `Visit.tells`, `Visit.fetches`, `Visit.reply?` — requests as probes and fetches.
* `Announced` — the bytes whose length was told last, as long as no bytes were fetched since.
* `Visit.Unannounced` — a probe that has failed, and has kept bytes that were not announced.
* `Visit.Trusted` — a fetch that gives out what was announced, or nothing.

## Main results

* `Exchange.handover` — what a request does to the bytes that wait.
* `Host.fetchesAnnounced_iff` — **fetches can be trusted exactly if no probe fails after it has kept
  bytes.**
-/

namespace ContractHost

variable {τ : Type} [LedgerAccess τ]

/-! ### Requests as probes and fetches -/

/-- The bytes that wait in an invocation. -/
def Host.waiting (x : Host τ) (handle : Int32) : Option Bytes :=
  (x.registry.get? handle).bind Context.cached

omit [LedgerAccess τ] in
theorem Host.Underway.waiting {base : OrderedMap Int32 Context} {c : Context} {x : Host τ}
    (h : Underway base c x) {handle : Int32} (hhandle : handle = c.handle) :
    x.waiting handle = c.cached := by
  unfold Host.waiting
  rw [hhandle, h.get?]
  rfl

/-- The reply to a request that was served. -/
def Served.reply? : Served → Option Reply
  | .finished (.ok reply) => some reply
  | _ => none

namespace Visit

/-- The request is a probe. -/
def tells (linkage : Linkage) (v : Visit (Host τ)) : Prop :=
  ∃ m, v.method? linkage = some m ∧ m.tells = true

/-- The request is a fetch. -/
def fetches (linkage : Linkage) (v : Visit (Host τ)) : Prop :=
  ∃ m, v.method? linkage = some m ∧ m.fetches = true

/-- The request was answered with the signal of success. -/
def succeeded (v : Visit (Host τ)) : Prop :=
  v.answer = .signal signals.success

/-- The reply to the request, if it does not fail. -/
def reply? (setup : HostSetup) (invoke : Invoker τ) (linkage : Linkage) (v : Visit (Host τ)) :
    Option Reply :=
  (v.served? setup invoke linkage).bind Served.reply?

end Visit

variable (setup : HostSetup) (invoke : Invoker τ) (linkage : Linkage) (handle : Int32)

/-- The bytes whose length the script was told last: a probe has succeeded that told their length
and left them waiting, and since then neither another probe nor a fetch has succeeded. -/
def Announced (visits : List (Visit (Host τ))) (b : Bytes) : Prop :=
  ∃ before v after ptr, visits = before ++ v :: after ∧
    v.tells linkage ∧ v.succeeded ∧ v.reply? setup invoke linkage = some (.length ptr b.length) ∧
    v.after.world.waiting handle = some b ∧
    ∀ w ∈ after, w.succeeded → ¬ w.tells linkage ∧ ¬ w.fetches linkage

/-- A probe has failed, but it leaves bytes waiting that were not announced before. -/
def Visit.Unannounced (v : Visit (Host τ)) (before : List (Visit (Host τ))) : Prop :=
  v.tells linkage ∧ ¬ v.succeeded ∧
    ∃ b ≠ [], v.after.world.waiting handle = some b ∧
      ¬ Announced setup invoke linkage handle before b

/-- If the request is a fetch, it gives out what was announced before, or nothing. -/
def Visit.Trusted (v : Visit (Host τ)) (before : List (Visit (Host τ))) : Prop :=
  v.fetches linkage → ∀ (ptr : Int32) (b : Bytes),
    v.reply? setup invoke linkage = some (.write ptr b) → b ≠ [] →
    Announced setup invoke linkage handle before b

/-- No probe among the requests has failed that left bytes waiting which were not announced. -/
def Announcing (visits : List (Visit (Host τ))) : Prop :=
  ∀ (before : List (Visit (Host τ))) (v : Visit (Host τ)) (after : List (Visit (Host τ))),
    visits = before ++ v :: after → ¬ v.Unannounced setup invoke linkage handle before

/-- Whatever the script does, a fetch gives out what was announced, or nothing. -/
def FetchesAnnounced (start : Machine (Host τ)) : Prop :=
  ∀ (visits : List (Visit (Host τ))) (v : Visit (Host τ)) (m : Machine (Host τ)),
    Course (hostCalls setup invoke) linkage start (visits ++ [v]) m →
    v.Trusted setup invoke linkage handle visits

/-- Whatever the script does, no probe fails that leaves bytes waiting which were not announced. -/
def ProbesAnnounce (start : Machine (Host τ)) : Prop :=
  ∀ (visits : List (Visit (Host τ))) (v : Visit (Host τ)) (m : Machine (Host τ)),
    Course (hostCalls setup invoke) linkage start (visits ++ [v]) m →
    ¬ v.Unannounced setup invoke linkage handle visits

variable {setup invoke linkage handle} {visits : List (Visit (Host τ))} {v : Visit (Host τ)}
variable {b : Bytes}

/-- Only a probe or a fetch that succeeds changes what is announced. -/
theorem announced_append_iff (hv : v.succeeded → ¬ v.tells linkage ∧ ¬ v.fetches linkage) :
    Announced setup invoke linkage handle (visits ++ [v]) b ↔
      Announced setup invoke linkage handle visits b := by
  constructor
  · rintro ⟨before, w, after, ptr, hvisits, htells, hsucceeded, hreply, hwaiting, hafter⟩
    -- the announcement is not the last visit, for that one announces nothing
    rcases List.eq_nil_or_concat after with rfl | ⟨init, last, rfl⟩
    · obtain ⟨-, hlast⟩ := List.append_inj' hvisits rfl
      cases hlast
      exact absurd htells (hv hsucceeded).1
    · rw [List.concat_eq_append, ← List.cons_append, ← List.append_assoc] at hvisits
      obtain ⟨hinit, -⟩ := List.append_inj' hvisits rfl
      refine ⟨before, w, init, ptr, hinit, htells, hsucceeded, hreply, hwaiting, fun u hu => ?_⟩
      exact hafter u (by simp [hu])
  · rintro ⟨before, w, after, ptr, rfl, htells, hsucceeded, hreply, hwaiting, hafter⟩
    refine ⟨before, w, after ++ [v], ptr, by simp, htells, hsucceeded, hreply, hwaiting, ?_⟩
    intro u hu
    rcases List.mem_append.mp hu with hu | hu
    · exact hafter u hu
    · rw [List.mem_singleton.mp hu]
      exact hv

/-! ### The bytes that wait -/

/-- What a request does to the bytes that wait. -/
inductive Handover (setup : HostSetup) (invoke : Invoker τ) (linkage : Linkage)
    (v : Visit (Host τ)) (c c' : Context) : Prop
  /-- The same bytes wait.  If the request is a probe or a fetch, it has failed. -/
  | kept (hcached : c'.cached = c.cached)
      (hanswer : v.succeeded → ¬ v.tells linkage ∧ ¬ v.fetches linkage)
      (hreply : v.fetches linkage → v.reply? setup invoke linkage = none)
  /-- A probe has kept its bytes and told their length. -/
  | told {b : Bytes} {ptr : Int32} (htells : v.tells linkage) (hcached : c'.cached = some b)
      (hreply : v.reply? setup invoke linkage = some (.length ptr b.length))
      (hanswer : v.succeeded)
  /-- A probe has failed. -/
  | missed (htells : v.tells linkage) (hanswer : ¬ v.succeeded)
  /-- The bytes that waited were given out. -/
  | given {ptr : Int32} (hfetches : v.fetches linkage) (hcached : c'.cached = none)
      (hreply : v.reply? setup invoke linkage = some (.write ptr (c.cached.getD [])))

theorem Handover.of_kept {c c' : Context} {ptr : Int32} (htells : v.tells linkage)
    (hcached : c'.cached = some b)
    (hreply : v.reply? setup invoke linkage = some (.length ptr b.length)) :
    Handover setup invoke linkage v c c' := by
  by_cases hanswer : v.succeeded
  · exact .told htells hcached hreply hanswer
  · exact .missed htells hanswer

omit [LedgerAccess τ] in
/-- No request is both a probe and a fetch. -/
theorem Visit.not_fetches_of_tells (h : v.tells linkage) : ¬ v.fetches linkage := by
  rintro ⟨m', hm', hfetches⟩
  obtain ⟨m, hm, htells⟩ := h
  obtain rfl : m = m' := Option.some.inj (hm.symm.trans hm')
  cases m <;> first | (cases htells; done) | cases hfetches

/-- What a request of its own invocation does to the bytes that wait. -/
theorem Effect.handover {c c' : Context} {name : String} {body : Bytes}
    {result : Except RequestFault Reply} {d : Desk τ}
    (heffect : Effect setup.crypto name body (v.before.world.desk c) result d)
    (hmethod : v.method? linkage = Method.ofName? name)
    (hserved : v.served? setup invoke linkage = some (.finished result))
    (hanswered : Answered d.context (.finished result) v.answer c') :
    Handover setup invoke linkage v c c' := by
  have hcached := hanswered.onward.cached
  have hreply : v.reply? setup invoke linkage = Served.reply? (.finished result) := by
    unfold Visit.reply?
    rw [hserved]
    rfl
  -- only probes put something aside and only fetches take it away
  cases heffect with
  | plain h hquiet =>
    refine .kept (hcached.trans h.onward.cached) ?_ ?_
    · intro hsucceeded
      rcases hquiet with ⟨e, rfl⟩ | hquiet
      · exact absurd hsucceeded hanswered.of_error
      · rw [← hmethod] at hquiet
        constructor
        · rintro ⟨m, hm, htells⟩
          exact absurd ((hquiet m hm).1.symm.trans htells) nofun
        · rintro ⟨m, hm, hfetches⟩
          exact absurd ((hquiet m hm).2.symm.trans hfetches) nofun
    · rintro ⟨m, hm, hfetches⟩
      rcases hquiet with ⟨e, rfl⟩ | hquiet
      · exact hreply
      · rw [hmethod] at hm
        exact absurd ((hquiet m hm).2.symm.trans hfetches) nofun
  | @unplaced m packet r b d' e hname hdecode hprobe hfound hplace =>
    exact .missed ⟨m, hmethod.trans hname, tells_of_probe hprobe⟩ hanswered.of_error
  | @told m packet r b d' hname hprobe hfound ptr =>
    exact .of_kept ⟨m, hmethod.trans hname, tells_of_probe hprobe⟩ hcached hreply
  | @fetched m hname hfetches ptr =>
    exact .given ⟨m, hmethod.trans hname, hfetches⟩ hcached hreply

/-- What a call of another contract does to the bytes that wait in its caller's invocation. -/
theorem Called.handover {c c₁ c' : Context} {served : Served} {gas gas' : Nat}
    {asked : Option (Call × Host τ)} (hcalled : Called setup invoke c gas asked served gas' c₁)
    (htells : v.tells linkage) (hserved : v.served? setup invoke linkage = some served)
    (hanswered : Answered c₁ served v.answer c') : Handover setup invoke linkage v c c' := by
  have hcached := hanswered.onward.cached
  cases hcalled with
  | refused e => exact .missed htells hanswered.of_error
  | broken hinvoke => exact .missed htells hanswered.of_error
  | failed hinvoke ho => exact .missed htells hanswered.of_error
  | @returned call y o hinvoke ho ptr =>
    have hreply : v.reply? setup invoke linkage = some (.length ptr o.payload.length) := by
      unfold Visit.reply?
      rw [hserved]
      rfl
    exact .of_kept htells hcached hreply

/-- **What a request does to the bytes that wait.** -/
theorem Exchange.handover {c c' : Context} (h : Exchange setup invoke linkage v c c') :
    Handover setup invoke linkage v c c' := by
  cases h with
  | unheard hasked hanswer hgas =>
    have hnot {m : Method} : ¬ v.method? linkage = some m := by
      unfold Visit.method?
      rw [hasked]
      exact nofun
    exact .kept rfl (fun _ => ⟨fun ⟨m, hm, _⟩ => hnot hm, fun ⟨m, hm, _⟩ => hnot hm⟩)
      fun ⟨m, hm, _⟩ => (hnot hm).elim
  | @own name body result d c' hasked hname hserved heffect hanswered hgas =>
    have hmethod : v.method? linkage = Method.ofName? name := by
      unfold Visit.method?
      rw [hasked]
      rfl
    exact heffect.handover hmethod hserved hanswered
  -- a nested call announces what its callee has returned
  | @other body served c₁ c' hasked hserved hcalled hanswered =>
    have htells : v.tells linkage := by
      refine ⟨.callContractLen, ?_, rfl⟩
      unfold Visit.method?
      rw [hasked]
      show Method.ofName? Method.callContractLen.name = some .callContractLen
      decide
    exact hcalled.handover htells hserved hanswered

/-! ### Trust in what is told -/

namespace Host

variable {base : OrderedMap Int32 Context} {c : Context} {start m : Machine (Host τ)}

/-- **If no probe has missed, what waits was announced**, at any time. -/
theorem Underway.announced (h : Underway base c start.world) (htidy : invoke.Tidy)
    (hbound : linkage.bound = some c.handle) (hnone : c.cached = none)
    (hcourse : Course (hostCalls setup invoke) linkage start visits m)
    (hannouncing : Announcing setup invoke linkage c.handle visits) :
    ∃ c', Underway base c' m.world ∧ c.Advances c' ∧ ∀ b, c'.cached = some b → b ≠ [] →
      Announced setup invoke linkage c.handle visits b := by
  refine hcourse.invariant (P := fun visits x => Announcing setup invoke linkage c.handle visits →
    ∃ c', Underway base c' x ∧ c.Advances c' ∧ ∀ b, c'.cached = some b → b ≠ [] →
      Announced setup invoke linkage c.handle visits b) ?_ ?_ ?_ hannouncing
  · intro _
    refine ⟨c, h, .refl c, fun b hb => ?_⟩
    rw [hnone] at hb
    cases hb
  · intro visits n ptr len ih hannouncing
    obtain ⟨a, ha, hadvances, hannounced⟩ := ih hannouncing
    obtain ⟨a', ha', honward⟩ := ha.log (hadvances.handle ▸ hbound) ptr len n.memory
    exact ⟨a', ha', hadvances.trans honward.toAdvances, by rwa [honward.cached]⟩
  · intro visits n regions answer caller world _ hrequest hanswer ih hannouncing
    obtain ⟨a, ha, hadvances, hannounced⟩ := ih fun before v after hvisits =>
      hannouncing before v (after ++ [_]) (by rw [hvisits, List.append_assoc]; rfl)
    obtain ⟨a', ha', hexchange⟩ := ha.exchange (v := ⟨regions, n, answer, ⟨caller, world⟩⟩) htidy
      (hadvances.handle ▸ hbound) hrequest hanswer
    have hadvances' := hadvances.trans hexchange.advances
    have hwaiting := ha'.waiting hadvances'.handle.symm
    refine ⟨a', ha', hadvances', fun b hb hne => ?_⟩
    cases hexchange.handover with
    | kept hcached hsucceeded hreply =>
      exact (announced_append_iff hsucceeded).mpr (hannounced b (hcached ▸ hb) hne)
    | @told b' ptr htells hcached hreply hsucceeded =>
      obtain rfl : b' = b := Option.some.inj (hcached.symm.trans hb)
      exact ⟨visits, _, [], ptr, rfl, htells, hsucceeded, hreply, hwaiting.trans hb, nofun⟩
    | missed htells hfailed =>
      -- the probe has failed, so what it leaves was announced already
      refine (announced_append_iff fun h => absurd h hfailed).mpr ?_
      refine Classical.byContradiction fun hnot => ?_
      exact hannouncing visits _ [] rfl ⟨htells, hfailed, b, hne, hwaiting.trans hb, hnot⟩
    | given hfetches hcached hreply =>
      rw [hcached] at hb
      cases hb

/-- **If no probe has missed, the next fetch gives out what was announced.** -/
theorem Underway.trusted (h : Underway base c start.world) (htidy : invoke.Tidy)
    (hbound : linkage.bound = some c.handle) (hnone : c.cached = none)
    (hcourse : Course (hostCalls setup invoke) linkage start (visits ++ [v]) m)
    (hannouncing : Announcing setup invoke linkage c.handle visits) :
    v.Trusted setup invoke linkage c.handle visits := by
  intro hfetches ptr b hreply hne
  obtain ⟨hbefore, hrequest, hanswer⟩ := hcourse.before
  obtain ⟨a, ha, hadvances, hannounced⟩ := h.announced htidy hbound hnone hbefore hannouncing
  obtain ⟨a', -, hexchange⟩ := ha.exchange htidy (hadvances.handle ▸ hbound) hrequest hanswer
  -- what is fetched is what was put aside before, and that was announced
  cases hexchange.handover with
  | kept hcached hsucceeded hnothing =>
    rw [hnothing hfetches] at hreply
    cases hreply
  | told htells hcached htold hsucceeded =>
    exact absurd hfetches (Visit.not_fetches_of_tells htells)
  | missed htells hfailed => exact absurd hfetches (Visit.not_fetches_of_tells htells)
  | given _ hcached hgiven =>
    rw [hgiven] at hreply
    cases hreply
    cases hwaits : a.cached with
    | none =>
      rw [hwaits] at hne
      exact absurd rfl hne
    | some b => exact hannounced b hwaits (by rwa [hwaits] at hne)

/-- **A script may make any request**, whatever its memory has held before. -/
theorem Underway.exists_visit {x : Host τ} (h : Underway base c x)
    (hbound : linkage.bound = some c.handle) (hexports : linkage.exportsMemory = true)
    (setup : HostSetup) (invoke : Invoker τ) (method : Method)
    (hmethod : method ≠ .callContractLen) (body : Bytes) (hroom : body.length ≤ 60000) (gas : Nat) :
    ∃ (v : Visit (Host τ)) (c' : Context),
      v.before = ⟨⟨letter (headerOf c.handle method) body, gas⟩, x⟩ ∧
      (hostCalls setup invoke).request linkage v.regions v.before.toCaller v.before.world =
        (v.answer, v.after.toCaller, v.after.world) ∧
      v.method? linkage = Method.ofName? method.name ∧
      v.served? setup invoke linkage =
        some (.finished ((x.desk c).run (serve setup.crypto method.name body)).1) ∧
      Underway base c' v.after.world ∧
      Answered ((x.desk c).run (serve setup.crypto method.name body)).2.context
        (.finished ((x.desk c).run (serve setup.crypto method.name body)).1) v.answer c' := by
  -- the letter is laid out so that this context is the one that is asked
  have hasked := h.addressee_letter hbound hexports method hroom
  have hname : method.name ≠ Method.callContractLen.name := by
    cases method <;> first | exact absurd rfl hmethod | decide
  generalize letterRegions (headerOf c.handle method) body = regions at hasked
  generalize letter (headerOf c.handle method) body = memory at hasked ⊢
  have hhandle : ((x.desk c).run (serve setup.crypto method.name body)).2.context.handle =
      c.handle := (effect_serve setup.crypto method.name body (x.desk c)).advances.handle
  have hrequest : (hostCalls setup invoke).request linkage regions ⟨memory, gas⟩ x = _ :=
    request_of_own hasked hname
  let t := (hostCalls setup invoke).request linkage regions ⟨memory, gas⟩ x
  let v : Visit (Host τ) := ⟨regions, ⟨⟨memory, gas⟩, x⟩, t.1, ⟨t.2.1, t.2.2⟩⟩
  obtain ⟨c', hc', hanswered, -⟩ :=
    (h.clear hhandle).answered_visit (v := v) hhandle.symm hrequest.symm
  have hvisit : v.asked? linkage = some (c, method.name, body) := hasked
  refine ⟨v, c', rfl, rfl, ?_, Visit.served?_of_own hvisit hname, hc', hanswered⟩
  unfold Visit.method?
  rw [hvisit]
  rfl

/-- The body of a request that names a place and nothing else. -/
def placeBody : Bytes :=
  Packet.encode ⟨[⟨.user, "value_ptr", .int32 0⟩]⟩

/-- What is given out for it, if it is a fetch. -/
theorem run_serve_getState (crypto : CryptoProvider) (d : Desk τ) :
    d.run (serve crypto Method.getState.name placeBody) =
      (.ok (.write 0 (d.context.cached.getD [])),
        { d with context := d.context.takeCached.2 }) := by
  have hname : Method.ofName? Method.getState.name = some .getState := by decide
  have hdecode : Packet.decode placeBody = .ok ⟨[⟨.user, "value_ptr", .int32 0⟩]⟩ :=
    Packet.decode_encode (by decide +kernel)
  have hserve : (serve crypto Method.getState.name placeBody : Serving τ Reply) =
      serveFetch ⟨[⟨.user, "value_ptr", .int32 0⟩]⟩ := by
    unfold serve
    rw [hname, hdecode]
    rfl
  rw [hserve, run_serveFetch]
  rfl

omit [LedgerAccess τ] in
/-- A script whose requests are heard exports its memory. -/
theorem exportsMemory_of_method {method : Method} (h : v.method? linkage = some method) :
    linkage.exportsMemory = true := by
  refine Classical.byContradiction fun hnot => ?_
  unfold Visit.method? Visit.asked? addressee? readRequest exportedMemory at h
  rw [if_neg hnot] at h
  split at h
  · cases h
  · cases h

/-- **If a probe misses, a fetch may give out what was not announced**: the next one does. -/
theorem Underway.probesAnnounce (h : Underway base c start.world) (htidy : invoke.Tidy)
    (hbound : linkage.bound = some c.handle)
    (hfetches : FetchesAnnounced setup invoke linkage c.handle start) :
    ProbesAnnounce setup invoke linkage c.handle start := by
  rintro visits v m hcourse ⟨⟨method, hmethod, htells⟩, hfailed, b, hne, hwaiting, hnot⟩
  obtain ⟨hbefore, hrequest, hanswer⟩ := hcourse.before
  have hafter : Course (hostCalls setup invoke) linkage start (visits ++ [v]) v.after :=
    hbefore.visit v.regions hrequest hanswer
  obtain ⟨a, ha, hadvances, -⟩ := h.course htidy hbound hafter
  have hhandle : c.handle = a.handle := hadvances.handle.symm
  have hwaits : a.cached = some b := (ha.waiting hhandle).symm.trans hwaiting
  -- the script goes on with a fetch
  obtain ⟨w, a', hmade, hserved, hname, hreply, -, hanswered⟩ := ha.exists_visit (hhandle ▸ hbound)
    (exportsMemory_of_method hmethod) setup invoke .getState (by decide) placeBody
    (by decide +kernel) v.after.gas
  rw [run_serve_getState] at hreply hanswered
  have hlater := hafter.work (letter (headerOf a.handle .getState) placeBody) (Nat.le_refl _)
  have hmachine : w.before = { v.after with
      memory := letter (headerOf a.handle .getState) placeBody, gas := v.after.gas } := hmade
  rw [← hmachine] at hlater
  have hfetch : Course (hostCalls setup invoke) linkage start (visits ++ [v] ++ [w]) w.after :=
    hlater.visit w.regions hserved hanswered.ne_suspended
  have hgiven : w.reply? setup invoke linkage = some (.write 0 b) := by
    unfold Visit.reply?
    rw [hreply]
    show some (Reply.write 0 (a.cached.getD [])) = _
    rw [hwaits]
    rfl
  have hgetState : w.fetches linkage := ⟨.getState, hname.trans (by decide), rfl⟩
  have hannounced := hfetches _ _ _ hfetch hgetState _ _ hgiven hne
  exact hnot ((announced_append_iff fun h => absurd h hfailed).mp hannounced)

end Host

/-! ### A host with one value -/

namespace Host

/-- A ledger that holds one value of a contract. -/
def heldSession : Session :=
  (default : Session).record creeping.contract.name (StateKey.join "k" "") (some [118])

/-- A host over that ledger. -/
def heldHost : Host Session :=
  { ledger := heldSession }

theorem orderly_heldHost : heldHost.Orderly :=
  .of_empty heldSession

/-- The body of a request that names the key of that value, and no place. -/
def keyBody : Bytes :=
  Packet.encode ⟨[⟨.user, "key", .text "k"⟩]⟩

theorem eq_ok_of_toOption {ε α : Type} {x : Except ε α} {a : α} (h : x.toOption = some a) :
    x = .ok a := by
  cases x with
  | ok b => exact congrArg Except.ok (Option.some.inj h)
  | error e => cases h

/-- What a probe for the value comes to: it fails, but it has kept the value. -/
theorem begin_heldHost :
    ∃ s, heldHost.begin singleSetup creeping = .ok s ∧ s.inst.script.exportsMemory = true ∧
      (∃ e, ((s.host.desk s.context).run
        (serve singleSetup.crypto Method.getStateLen.name keyBody)).1 = .error e) ∧
      ((s.host.desk s.context).run
        (serve singleSetup.crypto Method.getStateLen.name keyBody)).2.context.cached =
          some [118] := by
  have hall : (heldHost.begin singleSetup creeping).toOption.map (fun s =>
      (s.inst.script.exportsMemory,
        ((s.host.desk s.context).run
          (serve singleSetup.crypto Method.getStateLen.name keyBody)).1.toOption,
        ((s.host.desk s.context).run
          (serve singleSetup.crypto Method.getStateLen.name keyBody)).2.context.cached)) =
      some (true, none, some [118]) := by decide +kernel
  obtain ⟨s, hbegin, hs⟩ := Option.map_eq_some_iff.mp hall
  simp only [Prod.mk.injEq] at hs
  obtain ⟨hexports, hfails, hkept⟩ := hs
  refine ⟨s, eq_ok_of_toOption hbegin, hexports, ?_, hkept⟩
  cases herror : ((s.host.desk s.context).run
    (serve singleSetup.crypto Method.getStateLen.name keyBody)).1 with
  | error e => exact ⟨e, rfl⟩
  | ok reply =>
    rw [herror] at hfails
    cases hfails

end Host

/-- **Fetches can be trusted exactly if no probe misses.**  Whatever the script of a call does, and
however many calls are nested in it: as long as no probe has failed that left bytes waiting which
were not announced, the next fetch gives out bytes whose length was told last, or nothing.  And
every fetch does so, whatever the script does, if and only if no probe can fail in this way.  The
host may be any one that is orderly, as every host in service is, with other invocations under
way or without. -/
theorem Host.fetchesAnnounced_iff {x : Host τ} {call : Call} {s : Begun τ} (hx : x.Orderly)
    (hbegin : x.begin setup call = .ok s) (breaksOff : Bool) (levels : Nat) :
    (∀ (visits : List (Visit (Host τ))) (v : Visit (Host τ)) (m : Machine (Host τ)),
      Course (hostCalls setup (Host.invokeWithin setup breaksOff levels)) (s.inst.linkage breaksOff)
          ((s.inst.setGas (budgetOf setup call)).machine s.host) (visits ++ [v]) m →
        Announcing setup (Host.invokeWithin setup breaksOff levels) (s.inst.linkage breaksOff)
          s.context.handle visits →
        v.Trusted setup (Host.invokeWithin setup breaksOff levels) (s.inst.linkage breaksOff)
          s.context.handle visits) ∧
    (FetchesAnnounced setup (Host.invokeWithin setup breaksOff levels) (s.inst.linkage breaksOff)
        s.context.handle ((s.inst.setGas (budgetOf setup call)).machine s.host) ↔
      ProbesAnnounce setup (Host.invokeWithin setup breaksOff levels) (s.inst.linkage breaksOff)
        s.context.handle ((s.inst.setGas (budgetOf setup call)).machine s.host)) := by
  have htidy : Invoker.Tidy (Host.invokeWithin (τ := τ) setup breaksOff levels) :=
    Host.tidy_invokeWithin setup breaksOff levels
  have hbeginning := Host.beginning_begin setup call hx
  rw [hbegin] at hbeginning
  cases hbeginning with
  | begun hunderway hfree hbound houtcome hcached =>
    refine ⟨fun visits v m => hunderway.trusted htidy hbound hcached, ?_, ?_⟩
    · exact hunderway.probesAnnounce htidy hbound
    · intro hprobes visits v m hcourse
      refine hunderway.trusted htidy hbound hcached hcourse fun before w after hvisits => ?_
      rw [hvisits, List.append_assoc, List.cons_append] at hcourse
      exact hprobes before w _ hcourse.upTo

namespace Host

/-- A call that asks for the length of the value, and then for the value. -/
def fetching : Call :=
  let probeBody := Packet.encode ⟨[⟨.user, "key", .text "k"⟩, ⟨.user, "value_ptr", .int32 0⟩]⟩
  { creeping with
    code := askingCode [(1024, headerOf 1 .getStateLen, probeBody),
      (2048, headerOf 1 .getState, placeBody)] }

/-- It makes two requests: the probe tells the length of the value, and the fetch gives it out. -/
theorem replies_fetching : ((heldHost.begin singleSetup fetching).toOption.bind fun s =>
      (recorded? singleSetup.guest (hostCalls singleSetup (invokeWithin singleSetup false 1)) false
        s.context (budgetOf singleSetup fetching) s.inst s.host).map fun visits =>
        visits.map fun v => (v.method? (s.inst.linkage false), v.answer,
          v.reply? singleSetup (invokeWithin singleSetup false 1) (s.inst.linkage false))) =
    some [(some .getStateLen, .signal signals.success, some (.length 0 1)),
      (some .getState, .signal signals.success, some (.write 0 [118]))] := by decide +kernel

/-- The value that a script has fetched was announced by the probe before. -/
theorem fetchesAnnounced_iff_held :
    ∃ (s : Begun Session) (probe fetch : Visit (Host Session)) (m : Machine (Host Session)),
      heldHost.begin singleSetup fetching = .ok s ∧
      Course (hostCalls singleSetup (invokeWithin singleSetup false 1)) (s.inst.linkage false)
        ((s.inst.setGas (budgetOf singleSetup fetching)).machine s.host) [probe, fetch] m ∧
      fetch.reply? singleSetup (invokeWithin singleSetup false 1) (s.inst.linkage false) =
        some (.write 0 [118]) ∧
      Announced singleSetup (invokeWithin singleSetup false 1) (s.inst.linkage false)
        s.context.handle [probe] [118] ∧
      (FetchesAnnounced singleSetup (invokeWithin singleSetup false 1) (s.inst.linkage false)
          s.context.handle ((s.inst.setGas (budgetOf singleSetup fetching)).machine s.host) ↔
        ProbesAnnounce singleSetup (invokeWithin singleSetup false 1) (s.inst.linkage false)
          s.context.handle ((s.inst.setGas (budgetOf singleSetup fetching)).machine s.host)) := by
  obtain ⟨s, hbegin, hreplies⟩ := Option.bind_eq_some_iff.mp replies_fetching
  obtain ⟨visits, hvisits, hreplies⟩ := Option.map_eq_some_iff.mp hreplies
  obtain ⟨probe, rest, rfl, hprobe, hrest⟩ := List.map_eq_cons_iff.mp hreplies
  obtain ⟨fetch, rfl, hfetch⟩ := List.map_eq_singleton_iff.mp hrest
  simp only [Prod.mk.injEq] at hprobe hfetch
  obtain ⟨-, hsucceeded, -⟩ := hprobe
  obtain ⟨hmethod, -, hreply⟩ := hfetch
  have hbegin := eq_ok_of_toOption hbegin
  obtain ⟨m, hcourse⟩ := course_of_recorded? hvisits
  obtain ⟨htrusted, hiff⟩ := fetchesAnnounced_iff orderly_heldHost hbegin false 1
  refine ⟨s, probe, fetch, m, hbegin, hcourse, hreply, ?_, hiff⟩
  -- the only request before the fetch has succeeded
  have hannouncing : Announcing singleSetup (invokeWithin singleSetup false 1)
      (s.inst.linkage false) s.context.handle [probe] := by
    rintro before v after hone ⟨-, hfailed, -⟩
    have hv : v ∈ [probe] := hone ▸ List.mem_append_right _ List.mem_cons_self
    obtain rfl := List.mem_singleton.mp hv
    exact hfailed hsucceeded
  exact htrusted [probe] fetch m hcourse hannouncing ⟨.getState, hmethod, rfl⟩ 0 [118] hreply nofun

/-- **Bytes are given out whose length was never told**: a probe for a value names no place for its
length, and fails, and the next fetch gives out the value. -/
theorem missed_probe_is_fetched :
    ¬ ∀ (setup : HostSetup) (call : Call) (x : Host Session) (s : Begun Session) (breaksOff : Bool)
      (levels : Nat), x.Orderly → x.begin setup call = .ok s →
      FetchesAnnounced setup (invokeWithin setup breaksOff levels) (s.inst.linkage breaksOff)
        s.context.handle ((s.inst.setGas (budgetOf setup call)).machine s.host) := by
  intro hall
  obtain ⟨s, hbegin, hexports, ⟨e, he⟩, hkept⟩ := begin_heldHost
  have hfetches := hall singleSetup creeping heldHost s false 1 orderly_heldHost hbegin
  have htidy : Invoker.Tidy (invokeWithin (τ := Session) singleSetup false 1) :=
    tidy_invokeWithin singleSetup false 1
  have hbeginning := beginning_begin singleSetup creeping orderly_heldHost
  rw [hbegin] at hbeginning
  cases hbeginning with
  | begun hunderway hfree hbound houtcome hcached =>
    have hprobes := Underway.probesAnnounce hunderway htidy hbound hfetches
    have hlinked : (s.inst.linkage false).bound = some s.context.handle := hbound
    obtain ⟨v, c', hmade, hrequest, hname, -, hnow, hanswered⟩ :=
      Underway.exists_visit hunderway hlinked hexports singleSetup
        (invokeWithin singleSetup false 1) .getStateLen (by decide) keyBody (by decide +kernel)
        (budgetOf singleSetup creeping).toNat
    rw [he] at hanswered
    have hfailed : ¬ v.succeeded := hanswered.of_error
    have hwaiting : v.after.world.waiting s.context.handle = some [118] := by
      have hhandle := (effect_serve singleSetup.crypto Method.getStateLen.name keyBody
        (s.host.desk s.context)).advances.handle
      refine (Underway.waiting hnow ?_).trans (hanswered.onward.cached.trans hkept)
      exact hhandle.symm.trans hanswered.onward.handle.symm
    -- the probe is the first request of the script
    have hstart : Course (hostCalls singleSetup (invokeWithin singleSetup false 1))
        (s.inst.linkage false) ((s.inst.setGas (budgetOf singleSetup creeping)).machine s.host) []
        v.before := by
      rw [hmade]
      exact Course.rest.work (letter (headerOf s.context.handle .getStateLen) keyBody)
        (Nat.le_refl _)
    have hrequest' : (hostCalls singleSetup (invokeWithin singleSetup false 1)).request
        (s.inst.linkage false) v.regions v.before.toCaller v.before.world =
        (v.answer, v.after.toCaller, v.after.world) := hrequest
    have hcourse := hstart.visit v.regions hrequest' hanswered.ne_suspended
    refine hprobes [] v _ hcourse
      ⟨⟨.getStateLen, hname.trans (by decide), rfl⟩, hfailed, [118], by decide, hwaiting, ?_⟩
    rintro ⟨before, w, after, ptr, hnil, -⟩
    exact absurd (congrArg List.length hnil) (by simp)

end Host

end ContractHost
