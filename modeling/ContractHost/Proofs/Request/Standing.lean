import ContractHost.Proofs.Request.Effects

/-!
# What a request makes of its desk

An invocation opens and closes cursors, keeps bytes that wait, and logs lines.  The rest of it is
what it is called for and what has come of it, and that is its *standing*.  Few requests touch it:
the two that report the result, the two that open a range, and the one that emits an event.

Of the ledger a request knows only the operations, and it carries out one of them at most.  Where it
writes, the key is a stored one, put together from two texts.  So whatever no such operation takes
away from a ledger, no request does.

## Main definitions

* `Context.standing` — what an invocation is, and what has come of it.
* `Worked` — what a request makes of a ledger.
* `Stable` — a property of ledgers that no operation takes away.
* `emission?` — the event that a request emits.
* `Context.after` — what a request makes of an invocation, up to its standing.

## Main results

* `stands_serveMethod` — **most requests leave the standing of their invocation.**
* `stands_serve` — **what every request makes of it, and of the ledger.**
* `run_serve_emitEvent` — a request that emits an event succeeds, and any other that asks for one
  fails.
* `Stable.serve` — **what no operation takes away from a ledger, no request does.**
-/

namespace ContractHost

/-- What an invocation is called for, and what has come of it.  Its cursors, the bytes that wait and
the lines that it has logged are left out. -/
def Context.standing (c : Context) : Context :=
  { c with
    cached := none
    pairCursors := ∅
    rowCursors := ∅
    nextCursor := 0
    logs := [] }

namespace Context

variable {c c' : Context}

theorem contract_of_standing (h : c.standing = c'.standing) : c.contract = c'.contract :=
  congrArg (·.contract) h

theorem depth_of_standing (h : c.standing = c'.standing) : c.depth = c'.depth :=
  congrArg (·.depth) h

theorem outcome_of_standing (h : c.standing = c'.standing) : c.outcome = c'.outcome :=
  congrArg (·.outcome) h

/-- Both are invocations of one contract, at one depth. -/
structure SameCall (c c' : Context) : Prop where
  /-- The contract is the same. -/
  contract : c'.contract = c.contract
  /-- The depth is. -/
  depth : c'.depth = c.depth

theorem SameCall.refl (c : Context) : c.SameCall c :=
  ⟨rfl, rfl⟩

theorem SameCall.trans {a b c : Context} (h : a.SameCall b) (h' : b.SameCall c) : a.SameCall c :=
  ⟨h'.contract.trans h.contract, h'.depth.trans h.depth⟩

end Context

/-! ### Ledgers -/

section

variable {τ : Type} [LedgerAccess τ]

/-- What a request makes of a ledger: it asks the tables, or it writes to one stored key, or it
leaves the ledger as it is. -/
inductive Worked (t : τ) : τ → Prop
  /-- At most the tables were asked. -/
  | tabled {t' : τ} (h : Tabled t t') : Worked t t'
  /-- A value was set. -/
  | put {name key field : String} {value : Bytes} {t' : τ}
      (h : LedgerAccess.put t name (StateKey.join key field) value = .ok t') : Worked t t'
  /-- A value was removed. -/
  | delete {name key field : String} {t' : τ}
      (h : LedgerAccess.delete t name (StateKey.join key field) = .ok t') : Worked t t'

theorem Worked.refl (t : τ) : Worked t t :=
  .tabled (.inl rfl)

/-- No operation takes the property away from a ledger. -/
structure Stable (S : τ → Prop) : Prop where
  /-- Setting a value does not. -/
  put : ∀ {t t' name key field value}, S t →
    LedgerAccess.put t name (StateKey.join key field) value = .ok t' → S t'
  /-- Removing one does not. -/
  delete : ∀ {t t' name key field}, S t →
    LedgerAccess.delete t name (StateKey.join key field) = .ok t' → S t'
  /-- Changing rows does not. -/
  executeUpdate : ∀ {t} name sql, S t → S (LedgerAccess.executeUpdate t name sql).2
  /-- Changing tables does not. -/
  executeDdl : ∀ {t} name sql, S t → S (LedgerAccess.executeDdl t name sql).2
  /-- Asking for rows does not. -/
  query : ∀ {t} name sql, S t → S (LedgerAccess.query t name sql).2
  /-- Asking for one row does not. -/
  queryOne : ∀ {t} name sql, S t → S (LedgerAccess.queryOne t name sql).2

/-- No request takes it away, either. -/
theorem Stable.worked {S : τ → Prop} (hS : Stable S) {t t' : τ} (h : Worked t t') (ht : S t) :
    S t' := by
  cases h with
  | tabled h =>
    obtain rfl | ⟨name, sql, rfl | rfl | rfl | rfl⟩ := h
    · exact ht
    · exact hS.executeUpdate name sql ht
    · exact hS.executeDdl name sql ht
    · exact hS.query name sql ht
    · exact hS.queryOne name sql ht
  | put h => exact hS.put ht h
  | delete h => exact hS.delete ht h

end

/-! ### Single requests -/

section

variable {τ α β : Type} [LedgerAccess τ] {d : Desk τ} {s : Context} {t : τ}

/-- The standing of the invocation is as given, and the ledger has been worked on at most. -/
structure Stands (s : Context) (t : τ) (d : Desk τ) : Prop where
  /-- The standing is as given. -/
  standing : d.context.standing = s
  /-- One operation has been done at most. -/
  ledger : Worked t d.ledger

theorem Desk.stands (d : Desk τ) : Stands d.context.standing d.ledger d :=
  ⟨rfl, .refl d.ledger⟩

/-- The invocation may go on up to its standing. -/
theorem Stands.context (h : Stands s t d) {c : Context} (hc : c.standing = d.context.standing) :
    Stands s t { d with context := c } :=
  ⟨hc.trans h.standing, h.ledger⟩

open Serving

theorem Serving.Reads.stands_bind {r : Serving τ α} {f : α → Serving τ β} (hr : Reads r)
    (hd : Stands s t d) (hf : ∀ a, ComesTo (fun _ => Stands s t) d (f a)) :
    ComesTo (fun _ => Stands s t) d (r >>= f) :=
  hr.comesTo_bind (fun _ => hd) hf

theorem stands_ofTable_bind {answer : Except LedgerFault α × τ} {f : α → Serving τ β}
    (h : Tabled d.ledger answer.2)
    (hf : ∀ a, Stands d.context.standing d.ledger { d with ledger := answer.2 } →
      ComesTo (fun _ => Stands d.context.standing d.ledger) { d with ledger := answer.2 } (f a)) :
    ComesTo (fun _ => Stands d.context.standing d.ledger) d (ofTable answer >>= f) := by
  have hasked : Stands d.context.standing d.ledger { d with ledger := answer.2 } :=
    ⟨rfl, .tabled h⟩
  unfold ofTable
  rw [bind_assoc]
  exact comesTo_putLedger_bind ((reads_ofLedger _).stands_bind hasked fun a => hf a hasked)

/-- A cursor over a range sets the class, whether it can be opened or not. -/
theorem stands_serveRange (body : Packet) {select : τ → String → Serving τ (List Pair)}
    (hselect : ∀ t contract, Reads (select t contract)) (d : Desk τ) :
    ComesTo (fun _ => Stands (d.context.mergeTxClass .iterator).standing d.ledger) d
      (serveRange body select) := by
  have hd : Stands (d.context.mergeTxClass .iterator).standing d.ledger
      { d with context := d.context.mergeTxClass .iterator } := ⟨rfl, .refl d.ledger⟩
  refine comesTo_update_bind ?_
  refine reads_ledger.stands_bind hd fun t => ?_
  refine reads_contractName.stands_bind hd fun contract => ?_
  refine (hselect t contract).stands_bind hd fun pairs => ?_
  exact (reads_place body).stands_bind hd fun ptr => comesTo_updateGet_bind (hd.context rfl)

/-- What a probe looks up leaves the standing, and so does keeping it. -/
theorem stands_of_probe {crypto : CryptoProvider} {body : Packet} {m : Method}
    {r : Serving τ Bytes} (h : probe? crypto body m = some r) (d : Desk τ) :
    ComesTo (fun _ => Stands d.context.standing d.ledger) d (serveMethod crypto body m) := by
  have hlooked := looked_probe h d
  unfold ComesTo at hlooked ⊢
  rw [serveMethod_of_probe h, run_bind]
  cases hfound : d.run r with
  | mk result d' =>
    rw [hfound] at hlooked
    obtain ⟨pairCursors, rowCursors, hcontext⟩ := hlooked.context
    have hd : Stands d.context.standing d.ledger d' := by
      refine ⟨?_, .tabled hlooked.ledger⟩
      rw [hcontext]
      rfl
    cases result with
    | error e => exact hd
    | ok b =>
      simp only [run_replyCached]
      cases body.getInt32 "value_ptr" with
      | ok ptr => exact hd.context rfl
      | error e => exact hd.context rfl

/-- **Most requests leave the standing of their invocation.** -/
theorem stands_serveMethod (crypto : CryptoProvider) (body : Packet) {m : Method}
    (hiterator : m ≠ .kvIterator) (hpre : m ≠ .kvPreIterator) (hemit : m ≠ .emitEvent)
    (d : Desk τ) :
    ComesTo (fun _ => Stands d.context.standing d.ledger) d (serveMethod crypto body m) := by
  have hd := d.stands
  have hprobe {m : Method} (htells : m.tells = true) (hcall : m ≠ .callContractLen) :
      ComesTo (fun _ => Stands d.context.standing d.ledger) d (serveMethod crypto body m) := by
    obtain ⟨r, hr⟩ := exists_probe (τ := τ) crypto body htells hcall
    exact stands_of_probe hr d
  have hfetch {m : Method} (hfetches : m.fetches = true) :
      ComesTo (fun _ => Stands d.context.standing d.ledger) d (serveMethod crypto body m) := by
    rw [serveMethod_of_fetches crypto body hfetches]
    exact (reads_place body).stands_bind hd fun ptr => comesTo_updateGet_bind (hd.context rfl)
  cases m with
  | kvIterator => exact absurd rfl hiterator
  | kvPreIterator => exact absurd rfl hpre
  | emitEvent => exact absurd rfl hemit
  | logMessage | successResult | errorResult | callContractLen => exact hd
  | getStateLen => exact hprobe rfl nofun
  | kvIteratorNextLen => exact hprobe rfl nofun
  | executeQueryOneLen => exact hprobe rfl nofun
  | rsNextLen => exact hprobe rfl nofun
  | getPaillierResultLen => exact hprobe rfl nofun
  | getBulletproofsResultLen => exact hprobe rfl nofun
  | getState => exact hfetch rfl
  | kvIteratorNext => exact hfetch rfl
  | executeQueryOne => exact hfetch rfl
  | rsNext => exact hfetch rfl
  | callContract => exact hfetch rfl
  | getPaillierResult => exact hfetch rfl
  | getBulletproofsResult => exact hfetch rfl
  | putState =>
    refine comesTo_stateKey_bind (fun _ => hd) fun key field _ _ => ?_
    refine (reads_ofPacket _).stands_bind hd fun value => comesTo_ledger_bind ?_
    refine comesTo_contractName_bind (comesTo_ofLedger_bind (fun _ => hd) fun t hput => ?_)
    exact comesTo_putLedger_bind ⟨rfl, .put hput⟩
  | deleteState =>
    refine comesTo_stateKey_bind (fun _ => hd) fun key field _ _ => comesTo_ledger_bind ?_
    refine comesTo_contractName_bind (comesTo_ofLedger_bind (fun _ => hd) fun t hdelete => ?_)
    exact comesTo_putLedger_bind ⟨rfl, .delete hdelete⟩
  | kvIteratorHasNext =>
    refine comesTo_context_bind ((reads_cursorIndex body).stands_bind hd fun index => ?_)
    refine comesTo_ofCursor_bind (fun e _ => hd) fun answer hanswer => comesTo_update_bind ?_
    obtain ⟨more, after⟩ := answer
    obtain ⟨cursor, -, -, rfl⟩ := Context.hasPair_eq_ok hanswer
    exact (reads_place body).stands_bind (hd.context rfl) fun ptr => hd.context rfl
  | rsHasNext =>
    refine comesTo_context_bind ((reads_cursorIndex body).stands_bind hd fun index => ?_)
    refine comesTo_ofCursor_bind (fun e _ => hd) fun answer hanswer => comesTo_update_bind ?_
    obtain ⟨more, after⟩ := answer
    obtain ⟨cursor, -, -, rfl⟩ := Context.hasRow_eq_ok hanswer
    exact (reads_place body).stands_bind (hd.context rfl) fun ptr => hd.context rfl
  | kvIteratorClose =>
    refine comesTo_context_bind ((reads_cursorIndex body).stands_bind hd fun index => ?_)
    refine comesTo_ofCursor_bind (fun e _ => hd) fun after hafter => comesTo_update_bind ?_
    rw [Context.closePairs_eq_ok hafter]
    exact hd.context rfl
  | rsClose =>
    refine comesTo_context_bind ((reads_cursorIndex body).stands_bind hd fun index => ?_)
    refine comesTo_ofCursor_bind (fun e _ => hd) fun after hafter => comesTo_update_bind ?_
    rw [Context.closeRows_eq_ok hafter]
    exact hd.context rfl
  | executeUpdate =>
    refine (reads_ofPacket _).stands_bind hd fun sql => comesTo_ledger_bind ?_
    refine comesTo_contractName_bind ?_
    refine stands_ofTable_bind (.inr ⟨_, sql, .inl rfl⟩) fun changed hasked => ?_
    exact (reads_place body).stands_bind hasked fun ptr => hasked
  | executeDdl =>
    refine (reads_ofPacket _).stands_bind hd fun sql => comesTo_ledger_bind ?_
    refine comesTo_contractName_bind ?_
    exact stands_ofTable_bind (.inr ⟨_, sql, .inr (.inl rfl)⟩) fun _ hasked => hasked
  | executeQuery =>
    refine (reads_ofPacket _).stands_bind hd fun sql => comesTo_ledger_bind ?_
    refine comesTo_contractName_bind ?_
    refine stands_ofTable_bind (.inr ⟨_, sql, .inr (.inr (.inl rfl))⟩) fun rows hasked => ?_
    refine (reads_place body).stands_bind hasked fun ptr => ?_
    exact comesTo_updateGet_bind (hasked.context rfl)

/-- A request that opens a range sets the class, whatever else comes of it. -/
theorem stands_kvIterator (crypto : CryptoProvider) (body : Packet) (d : Desk τ) :
    ComesTo (fun _ => Stands (d.context.mergeTxClass .iterator).standing d.ledger) d
      (serveMethod crypto body .kvIterator) := by
  refine stands_serveRange body (fun t contract => ?_) d
  exact (reads_stateKey _ _ _).bind fun _ => (reads_stateKey _ _ _).bind fun _ => reads_ofLedger _

theorem stands_kvPreIterator (crypto : CryptoProvider) (body : Packet) (d : Desk τ) :
    ComesTo (fun _ => Stands (d.context.mergeTxClass .iterator).standing d.ledger) d
      (serveMethod crypto body .kvPreIterator) := by
  refine stands_serveRange body (fun t contract => ?_) d
  exact (reads_stateKey _ _ _).bind fun _ => reads_ofLedger _

/-! ### Events -/

/-- The event that a request emits: its name asks for one, and its body describes one. -/
def emission? (contract : ContractId) (txId name : String) (body : Bytes) : Option Event :=
  if Method.ofName? name = some .emitEvent then
    (Packet.decode body).toOption.bind fun packet => (eventOf contract txId packet).toOption
  else none

theorem emission?_of_ne {contract : ContractId} {txId name : String} {body : Bytes}
    (h : Method.ofName? name ≠ some .emitEvent) : emission? contract txId name body = none :=
  if_neg h

/-- What is emitted names the contract and the transaction. -/
theorem eventOf_eq_ok {contract : ContractId} {txId : String} {body : Packet} {e : Event}
    (h : eventOf contract txId body = .ok e) :
    e.txId = txId ∧ e.contractName = contract.name ∧ e.contractVersion = contract.version := by
  unfold eventOf at h
  cases htopic : (body.getText "topic").mapError SyscallError.packet with
  | error e =>
    rw [htopic] at h
    cases h
  | ok topic =>
    rw [htopic] at h
    simp only [bind, Except.bind, pure, Except.pure, throw, throwThe, MonadExceptOf.throw] at h
    split at h
    · cases h
    · split at h
      · cases h
      · cases h
        exact ⟨rfl, rfl, rfl⟩

/-- What a request emits names the contract and the transaction. -/
theorem emission?_eq_some {contract : ContractId} {txId name : String} {body : Bytes} {e : Event}
    (h : emission? contract txId name body = some e) :
    e.txId = txId ∧ e.contractName = contract.name ∧ e.contractVersion = contract.version := by
  unfold emission? at h
  split at h
  · obtain ⟨packet, -, hevent⟩ := Option.bind_eq_some_iff.mp h
    cases hresult : eventOf contract txId packet with
    | error e =>
      rw [hresult] at hevent
      cases hevent
    | ok event =>
      rw [hresult] at hevent
      cases hevent
      exact eventOf_eq_ok hresult
  · cases h

/-- **A request for an event emits it and succeeds, or it fails**, and changes nothing. -/
theorem run_serve_emitEvent (crypto : CryptoProvider) {name : String}
    (hname : Method.ofName? name = some .emitEvent) (body : Bytes) (d : Desk τ) :
    (∃ e, emission? d.context.contract (LedgerAccess.txId d.ledger) name body = some e ∧
      d.run (serve crypto name body) =
        (.ok .done, { d with context := d.context.pushEvents [e] })) ∨
    (emission? d.context.contract (LedgerAccess.txId d.ledger) name body = none ∧
      ∃ e, d.run (serve crypto name body) = (.error e, d)) := by
  unfold emission?
  rw [if_pos hname]
  -- an event comes of a body that is a packet with a topic within its bounds
  cases hdecode : Packet.decode body with
  | error e => exact .inr ⟨rfl, _, run_serve_of_undecoded hname (by decide) hdecode d⟩
  | ok packet =>
    rw [run_serve_of_decode hname (by decide) hdecode]
    show _ ∨ (eventOf d.context.contract (LedgerAccess.txId d.ledger) packet).toOption = none ∧ _
    have hrun : d.run (serveMethod crypto packet .emitEvent) =
        d.run (ofCursor (eventOf d.context.contract (LedgerAccess.txId d.ledger) packet) >>=
          fun event => update (·.pushEvents [event]) >>= fun _ => pure .done) := rfl
    rw [hrun]
    cases hevent : eventOf d.context.contract (LedgerAccess.txId d.ledger) packet with
    | error e => exact .inr ⟨rfl, .failed e, rfl⟩
    | ok event =>
      refine .inl ⟨event, ?_, rfl⟩
      show (eventOf d.context.contract (LedgerAccess.txId d.ledger) packet).toOption = some event
      rw [hevent]
      rfl

/-- A request that emits an event is served. -/
theorem run_serve_of_emission (crypto : CryptoProvider) {name : String} {body : Bytes} {d : Desk τ}
    {e : Event}
    (h : emission? d.context.contract (LedgerAccess.txId d.ledger) name body = some e) :
    (d.run (serve crypto name body)).1 = .ok .done := by
  by_cases hname : Method.ofName? name = some .emitEvent
  · rcases run_serve_emitEvent crypto hname body d with ⟨e', -, hrun⟩ | ⟨hnone, -⟩
    · exact congrArg Prod.fst hrun
    · exact nomatch h.symm.trans hnone
  · exact nomatch h.symm.trans (emission?_of_ne hname)

/-! ### All requests -/

/-- What a request makes of an invocation, up to its standing. -/
def Context.after (c : Context) (txId name : String) (body : Bytes) : Context :=
  match Method.ofName? name with
  | some .successResult => (c.setSuccess body).2
  | some .errorResult => c.setError (Utf8.decodeLossy body)
  | some .kvIterator | some .kvPreIterator =>
    if (Packet.decode body).isOk then c.mergeTxClass .iterator else c
  | some .emitEvent => c.pushEvents (emission? c.contract txId name body).toList
  | _ => c

/-- A request for an event leaves its invocation with the event, if there is one. -/
theorem stands_serve_emitEvent (crypto : CryptoProvider) {name : String}
    (hname : Method.ofName? name = some .emitEvent) (body : Bytes) (d : Desk τ) :
    Stands (d.context.after (LedgerAccess.txId d.ledger) name body).standing d.ledger
      (d.run (serve crypto name body)).2 := by
  unfold Context.after
  rw [hname]
  rcases run_serve_emitEvent crypto hname body d with ⟨e, hsome, hrun⟩ | ⟨hnone, e, hrun⟩
  · simp only [hrun, hsome]
    exact ⟨rfl, .refl d.ledger⟩
  · simp only [hrun, hnone]
    show Stands (d.context.pushEvents []).standing d.ledger d
    unfold Context.pushEvents
    rw [List.append_nil]
    exact d.stands

/-- What a request with a packet makes of its desk, unless it is one for an event. -/
theorem stands_serve_of_packet (crypto : CryptoProvider) {name : String} {m : Method}
    (hname : Method.ofName? name = some m)
    (hplain : m ∉ [.logMessage, .successResult, .errorResult]) (hemit : m ≠ .emitEvent)
    (body : Bytes) (d : Desk τ) :
    Stands (d.context.after (LedgerAccess.txId d.ledger) name body).standing d.ledger
      (d.run (serve crypto name body)).2 := by
  unfold Context.after
  rw [hname]
  cases hdecode : Packet.decode body with
  | error e =>
    rw [run_serve_of_undecoded hname hplain hdecode]
    cases m <;> first | exact d.stands | exact absurd rfl hemit | exact absurd (by decide) hplain
  | ok packet =>
    rw [run_serve_of_decode hname hplain hdecode]
    -- the two methods that open a range are the ones that do not leave things standing
    by_cases hiterator : m = .kvIterator
    · obtain rfl := hiterator
      exact stands_kvIterator crypto packet d
    · by_cases hpre : m = .kvPreIterator
      · obtain rfl := hpre
        exact stands_kvPreIterator crypto packet d
      · have hsame : Stands d.context.standing d.ledger _ :=
          stands_serveMethod crypto packet hiterator hpre hemit d
        cases m <;> first | exact hsame | exact absurd rfl hemit | exact absurd rfl hiterator |
          exact absurd rfl hpre | exact absurd (by decide) hplain

/-- **What every request makes of its desk.** -/
theorem stands_serve (crypto : CryptoProvider) (name : String) (body : Bytes) (d : Desk τ) :
    Stands (d.context.after (LedgerAccess.txId d.ledger) name body).standing d.ledger
      (d.run (serve crypto name body)).2 := by
  cases hname : Method.ofName? name with
  | none =>
    unfold serve Context.after
    rw [hname]
    exact d.stands
  | some m =>
    by_cases hemit : m = .emitEvent
    · exact stands_serve_emitEvent crypto (hemit ▸ hname) body d
    · by_cases hplain : m ∈ [.logMessage, .successResult, .errorResult]
      · unfold serve Context.after
        rw [hname]
        simp only [List.mem_cons, List.not_mem_nil, or_false] at hplain
        obtain rfl | rfl | rfl := hplain <;> exact ⟨rfl, .refl d.ledger⟩
      · exact stands_serve_of_packet crypto hname hplain hemit body d

/-- **What no operation takes away from a ledger, no request does.** -/
theorem Stable.serve {S : τ → Prop} (hS : Stable S) (crypto : CryptoProvider) (name : String)
    (body : Bytes) {d : Desk τ} (hd : S d.ledger) :
    S (d.run (ContractHost.serve crypto name body)).2.ledger :=
  hS.worked (stands_serve crypto name body d).ledger hd

/-- A request leaves alone what its invocation is called for. -/
theorem Context.sameCall_after (c : Context) (txId name : String) (body : Bytes) :
    c.SameCall (c.after txId name body) := by
  unfold after
  split
  · unfold setSuccess
    split <;> exact ⟨rfl, rfl⟩
  · exact ⟨rfl, rfl⟩
  · split <;> exact ⟨rfl, rfl⟩
  · split <;> exact ⟨rfl, rfl⟩
  · exact ⟨rfl, rfl⟩
  · exact ⟨rfl, rfl⟩

theorem sameCall_serve (crypto : CryptoProvider) (name : String) (body : Bytes) (d : Desk τ) :
    d.context.SameCall (d.run (serve crypto name body)).2.context := by
  have hstanding := (stands_serve crypto name body d).standing
  have hafter := d.context.sameCall_after (LedgerAccess.txId d.ledger) name body
  exact ⟨(Context.contract_of_standing hstanding).trans hafter.contract,
    (Context.depth_of_standing hstanding).trans hafter.depth⟩

/-- The events of an invocation grow by what a request emits. -/
theorem Context.events_after (c : Context) (txId name : String) (body : Bytes) :
    (c.after txId name body).outcome.events =
      c.outcome.events ++ (emission? c.contract txId name body).toList := by
  -- of the methods only one adds an event
  have hquiet (h : Method.ofName? name ≠ some .emitEvent) :
      c.outcome.events = c.outcome.events ++ (emission? c.contract txId name body).toList := by
    rw [emission?_of_ne h]
    exact (List.append_nil _).symm
  unfold after
  split
  · rename_i hname
    rw [← hquiet (by rw [hname]; exact nofun)]
    unfold setSuccess
    split <;> rfl
  · rename_i hname
    exact hquiet (by rw [hname]; exact nofun)
  · rename_i hname
    rw [← hquiet (by rw [hname]; exact nofun)]
    split <;> rfl
  · rename_i hname
    rw [← hquiet (by rw [hname]; exact nofun)]
    split <;> rfl
  · rfl
  · rename_i hname
    exact hquiet hname

/-- **What a request that the host serves adds to the events** is the one that it emits. -/
theorem events_serve (crypto : CryptoProvider) (name : String) (body : Bytes) (d : Desk τ) :
    (d.run (serve crypto name body)).2.context.outcome.events = d.context.outcome.events ++
      (emission? d.context.contract (LedgerAccess.txId d.ledger) name body).toList := by
  have hstanding := (stands_serve crypto name body d).standing
  exact (congrArg Outcome.events (Context.outcome_of_standing hstanding)).trans
    (d.context.events_after _ name body)

end

end ContractHost
