import ContractHost.Proofs.Request.Steps

/-!
# What requests do

A request may look things up, and in the end it may do something.  Some looks cannot be told from
deeds: a cursor moves on when it is asked for its next element, and the tables of a ledger may
change when they are asked.

Of two kinds of requests one has to know more, because they share the bytes that wait.  A *probe*
looks something up, keeps it and tells its length; a *fetch* takes what was kept.  No other request
touches the bytes that wait.

## Main definitions

* `Desk.Spared` — what a request that failed has left alone.
* `Plain`, `Looked` — what most requests come to, and what a look comes to.
* `probe?` — what a probe looks up.
* `Method.tells`, `Method.fetches` — the probes and the fetches.
* `Effect` — what a request of one invocation comes to.

## Main results

* `serveMethod_of_probe` — **a probe looks something up before it keeps anything.**
* `looked_probe`, `plain_serveMethod` — **nothing else touches the bytes that wait, and what fails
  leaves nearly everything alone.**
* `effect_serve` — **every request of one invocation has one of four effects.**
* `Effect.advances` — **no request clears the mark of a failure.**
-/

namespace ContractHost

/-! ### What a request leaves alone -/

section

variable {τ : Type} [LedgerAccess τ]

/-- A ledger after one of the operations on its tables, or as it was. -/
def Tabled (t t' : τ) : Prop :=
  t' = t ∨ ∃ contract sql, t' = (LedgerAccess.executeUpdate t contract sql).2 ∨
    t' = (LedgerAccess.executeDdl t contract sql).2 ∨
    t' = (LedgerAccess.query t contract sql).2 ∨ t' = (LedgerAccess.queryOne t contract sql).2

/-- What a request that failed has left alone: everything but the scheduling class of the
transaction and the tables of the ledger.  A cursor may have looked ahead. -/
structure Desk.Spared (d d' : Desk τ) : Prop where
  /-- At most the tables of the ledger have changed. -/
  ledger : Tabled d.ledger d'.ledger
  /-- Nothing was logged. -/
  journal : d'.journal = d.journal
  /-- At most the class of the transaction and the cursors have changed in the context. -/
  context : ∃ txClass pairCursors rowCursors,
    d'.context =
      { d.context with outcome := { d.context.outcome with txClass }, pairCursors, rowCursors }
  /-- The cursors have as much to give as before. -/
  cursors : d.context.SameCursors d'.context

theorem Desk.Spared.of_txClass {d d' : Desk τ} (hledger : Tabled d.ledger d'.ledger)
    (hjournal : d'.journal = d.journal) (txClass : TxClass)
    (hcontext :
      d'.context = { d.context with outcome := { d.context.outcome with txClass } }) :
    d.Spared d' :=
  ⟨hledger, hjournal, ⟨txClass, _, _, hcontext⟩,
    hcontext ▸ .of_eq rfl rfl⟩

theorem Desk.Spared.refl (d : Desk τ) : d.Spared d :=
  .of_txClass (.inl rfl) rfl d.context.outcome.txClass rfl

/-- What a request comes to that is neither a probe nor a fetch: the context goes on, and if the
request fails, nearly everything is as before. -/
structure Plain {α : Type} (d : Desk τ) (result : Except RequestFault α) (d' : Desk τ) : Prop where
  /-- The context goes on. -/
  onward : d.context.Onward d'.context
  /-- A failure changes next to nothing. -/
  spared : ∀ e, result = .error e → d.Spared d'

/-- What a look comes to: at most cursors have moved on, and the tables of the ledger have changed;
and if the look fails, no cursor has moved. -/
structure Looked {α : Type} (d : Desk τ) (result : Except RequestFault α) (d' : Desk τ) : Prop where
  /-- At most the tables of the ledger have changed. -/
  ledger : Tabled d.ledger d'.ledger
  /-- Nothing was logged. -/
  journal : d'.journal = d.journal
  /-- At most cursors have moved on. -/
  context : ∃ pairCursors rowCursors, d'.context = { d.context with pairCursors, rowCursors }
  /-- If the look fails, none has. -/
  stays : ∀ e, result = .error e → d'.context = d.context

variable {α β : Type} {d : Desk τ}

theorem Looked.plain {result : Except RequestFault α} {d' : Desk τ} (h : Looked d result d') :
    Plain d result d' := by
  constructor
  · obtain ⟨pairCursors, rowCursors, hcontext⟩ := h.context
    rw [hcontext]
    exact .of_eq rfl rfl rfl
  · intro e he
    exact .of_txClass h.ledger h.journal d.context.outcome.txClass (h.stays e he)

/-- A look that leaves the context as it is. -/
theorem Looked.of_tabled {t : τ} (h : Tabled d.ledger t) (result : Except RequestFault α) :
    Looked d result { d with ledger := t } :=
  ⟨h, rfl, ⟨_, _, rfl⟩, fun _ _ => rfl⟩

theorem Looked.refused (d : Desk τ) (e : RequestFault) : Looked (α := α) d (.error e) d :=
  .of_tabled (.inl rfl) _

theorem Looked.found (d : Desk τ) (a : α) : Looked d (.ok a) d :=
  .of_tabled (.inl rfl) _

theorem Plain.refused (d : Desk τ) (e : RequestFault) : Plain (α := α) d (.error e) d :=
  ⟨.refl _, fun _ _ => .refl d⟩

theorem Plain.done {d' : Desk τ} (h : d.context.Onward d'.context) (a : α) :
    Plain d (.ok a) d' :=
  ⟨h, nofun⟩

theorem comesTo_done {d' : Desk τ} (a : α) (h : d.context.Onward d'.context) :
    Serving.ComesTo (Plain d) d' (pure a) :=
  .done h a

/-- A request that fails after a look at the tables. -/
theorem Plain.tabled {t : τ} (h : Tabled d.ledger t) (result : Except RequestFault α) :
    Plain d result { d with ledger := t } :=
  ⟨.refl _, fun _ _ => .of_txClass h rfl d.context.outcome.txClass rfl⟩

open Serving

/-- Looking something up, in serving that has changed nothing yet. -/
theorem Serving.Reads.plain_bind {r : Serving τ α} {f : α → Serving τ β} (hr : Reads r)
    (hf : ∀ a, ComesTo (Plain d) d (f a)) : ComesTo (Plain d) d (r >>= f) :=
  hr.comesTo_bind (.refused d) hf

/-- Asking a table, in serving that has changed nothing yet. -/
theorem plain_ofTable_bind {answer : Except LedgerFault α × τ} (h : Tabled d.ledger answer.2)
    {f : α → Serving τ β} (hf : ∀ a, ComesTo (Plain d) { d with ledger := answer.2 } (f a)) :
    ComesTo (Plain d) d (ofTable answer >>= f) := by
  unfold ofTable
  rw [bind_assoc]
  refine comesTo_putLedger_bind ?_
  exact (reads_ofLedger _).comesTo_bind (fun e => .tabled h _) hf

/-! ### Probes -/

/-- What is computed by the provider. -/
def computed (crypto : CryptoProvider) (family : CryptoFamily) (body : Packet) :
    Serving τ Bytes := do
  let op ← ofPacket (body.getText "op")
  serveCrypto.liftExcept (crypto.compute family op body)

/-- What a probe looks up, for the requests that are probes. -/
def probe? (crypto : CryptoProvider) (body : Packet) : Method → Option (Serving τ Bytes)
  | .getStateLen => some do
    let key ← stateKey body "key" "field"
    let value ← ofLedger (LedgerAccess.get (← ledger) (← contractName) key)
    pure (value.getD [])
  | .kvIteratorNextLen => some do
    let index ← cursorIndex body
    let (pair?, after) ← ofCursor ((← context).nextPair index)
    update fun _ => after
    match pair? with
    | some pair => pure (StateKey.encodePair pair)
    | none => exhausted index
  | .executeQueryOneLen => some do
    let sql ← ofPacket (body.getText "sql")
    let row ← ofTable (LedgerAccess.queryOne (← ledger) (← contractName) sql)
    pure (Row.encode (row.getD ∅))
  | .rsNextLen => some do
    let index ← cursorIndex body
    let (row?, after) ← ofCursor ((← context).nextRow index)
    update fun _ => after
    match row? with
    | some row => pure row.encode
    | none => exhausted index
  | .getPaillierResultLen => some (computed crypto .paillier body)
  | .getBulletproofsResultLen => some (computed crypto .bulletproofs body)
  | _ => none

/-- **A probe looks something up before it keeps anything**: then it keeps the bytes, and only then
does it ask for the place of their length. -/
theorem serveMethod_of_probe {crypto : CryptoProvider} {body : Packet} {m : Method}
    {r : Serving τ Bytes} (h : probe? crypto body m = some r) :
    serveMethod crypto body m = r >>= replyCached body := by
  cases m <;> cases h
  case getStateLen => simp only [serveMethod, bind_assoc, pure_bind]
  case kvIteratorNextLen =>
    simp only [serveMethod, bind_assoc]
    refine bind_congr fun index => bind_congr fun c => bind_congr fun next => ?_
    obtain ⟨pair?, after⟩ := next
    cases pair? with
    | none => rfl
    | some pair => simp only [pure_bind]
  case executeQueryOneLen => simp only [serveMethod, bind_assoc, pure_bind]
  case rsNextLen =>
    simp only [serveMethod, bind_assoc]
    refine bind_congr fun index => bind_congr fun c => bind_congr fun next => ?_
    obtain ⟨row?, after⟩ := next
    cases row? with
    | none => rfl
    | some row => simp only [pure_bind]
  case getPaillierResultLen => simp only [serveMethod, serveCrypto, computed, bind_assoc]
  case getBulletproofsResultLen => simp only [serveMethod, serveCrypto, computed, bind_assoc]

theorem looked_computed (crypto : CryptoProvider) (family : CryptoFamily) (body : Packet) :
    ComesTo (Looked d) d (computed crypto family body) := by
  refine (reads_ofPacket _).comesTo_bind (.refused d) fun op => ?_
  cases crypto.compute family op body with
  | ok b => exact Looked.found d b
  | error e => exact Looked.refused d e

/-- **What a probe looks up is no more than a look.** -/
theorem looked_probe {crypto : CryptoProvider} {body : Packet} {m : Method} {r : Serving τ Bytes}
    (h : probe? crypto body m = some r) (d : Desk τ) : ComesTo (Looked d) d r := by
  cases m <;> cases h
  case getStateLen =>
    refine (reads_stateKey _ _ _).comesTo_bind (.refused d) fun key => ?_
    refine reads_ledger.comesTo_bind (.refused d) fun t => ?_
    refine reads_contractName.comesTo_bind (.refused d) fun contract => ?_
    refine (reads_ofLedger _).comesTo_bind (.refused d) fun value => ?_
    exact Looked.found d _
  case kvIteratorNextLen =>
    refine (reads_cursorIndex body).comesTo_bind (.refused d) fun index => comesTo_context_bind ?_
    refine comesTo_ofCursor_bind (fun e _ => .refused d _) fun next hnext => ?_
    obtain ⟨pair?, after⟩ := next
    refine comesTo_update_bind ?_
    -- a cursor that has no next element stays where it is
    rcases Context.nextPair_eq_ok hnext with ⟨rfl, rfl⟩ | ⟨pair, cursor, moved, rfl, -, -, rfl⟩
    · exact Looked.refused d _
    · exact ⟨.inl rfl, rfl, ⟨_, _, rfl⟩, nofun⟩
  case executeQueryOneLen =>
    refine (reads_ofPacket _).comesTo_bind (.refused d) fun sql => comesTo_ledger_bind ?_
    refine reads_contractName.comesTo_bind (.refused d) fun contract => ?_
    have htabled : Tabled d.ledger (LedgerAccess.queryOne d.ledger contract sql).2 :=
      .inr ⟨contract, sql, .inr (.inr (.inr rfl))⟩
    unfold ofTable
    rw [bind_assoc]
    refine comesTo_putLedger_bind ?_
    refine (reads_ofLedger _).comesTo_bind (fun e => .of_tabled htabled _) fun row => ?_
    exact Looked.of_tabled htabled _
  case rsNextLen =>
    refine (reads_cursorIndex body).comesTo_bind (.refused d) fun index => comesTo_context_bind ?_
    refine comesTo_ofCursor_bind (fun e _ => .refused d _) fun next hnext => ?_
    obtain ⟨row?, after⟩ := next
    refine comesTo_update_bind ?_
    rcases Context.nextRow_eq_ok hnext with ⟨rfl, rfl⟩ | ⟨row, cursor, moved, rfl, -, -, rfl⟩
    · exact Looked.refused d _
    · exact ⟨.inl rfl, rfl, ⟨_, _, rfl⟩, nofun⟩
  case getPaillierResultLen => exact looked_computed crypto _ body
  case getBulletproofsResultLen => exact looked_computed crypto _ body

/-- A cursor that is opened over a range. -/
theorem plain_serveRange (body : Packet) {select : τ → String → Serving τ (List Pair)}
    (hselect : ∀ t contract, Reads (select t contract)) (d : Desk τ) :
    ComesTo (Plain d) d (serveRange body select) := by
  -- the class of the transaction changes first, and is all that a failure leaves changed
  refine comesTo_update_bind ?_
  have hclass : d.context.Onward (d.context.mergeTxClass .iterator) :=
    d.context.onward_mergeTxClass .iterator
  have hrefused (e : RequestFault) : Plain (α := Reply) d (.error e)
      { d with context := d.context.mergeTxClass .iterator } :=
    ⟨hclass, fun _ _ => .of_txClass (.inl rfl) rfl _ rfl⟩
  refine reads_ledger.comesTo_bind hrefused fun t => ?_
  refine reads_contractName.comesTo_bind hrefused fun contract => ?_
  refine (hselect t contract).comesTo_bind hrefused fun pairs => ?_
  refine (reads_place body).comesTo_bind hrefused fun ptr => comesTo_updateGet_bind ?_
  refine comesTo_done _ ?_
  exact hclass.trans (.of_eq rfl rfl rfl)

/-- A cursor that is asked whether it has a next element.  If there is no place for the answer, the
cursor has looked ahead all the same. -/
theorem plain_looking (body : Packet) {c : Context} (h : d.context.Looked c)
    (reply : Int32 → Reply) :
    ComesTo (Plain d) { d with context := c } (place body >>= fun ptr => pure (reply ptr)) := by
  obtain ⟨⟨pairCursors, rowCursors, rfl⟩, hsame⟩ := h
  have honward : d.context.Onward { d.context with pairCursors, rowCursors } := .of_eq rfl rfl rfl
  refine (reads_place body).comesTo_bind (fun e => ⟨honward, fun _ _ => ?_⟩) fun ptr => ?_
  · exact ⟨.inl rfl, rfl, ⟨d.context.outcome.txClass, pairCursors, rowCursors, rfl⟩, hsame⟩
  · exact comesTo_done _ honward

end

/-- The requests that keep bytes and tell their length. -/
def Method.tells : Method → Bool
  | .getStateLen | .kvIteratorNextLen | .executeQueryOneLen | .rsNextLen | .callContractLen
  | .getPaillierResultLen | .getBulletproofsResultLen => true
  | _ => false

/-- The requests that fetch the bytes that were kept. -/
def Method.fetches : Method → Bool
  | .getState | .kvIteratorNext | .executeQueryOne | .rsNext | .callContract
  | .getPaillierResult | .getBulletproofsResult => true
  | _ => false

section

variable {τ : Type} [LedgerAccess τ] {crypto : CryptoProvider} {body : Packet} {m : Method}

open Serving

/-- **A request that neither tells nor fetches is plain.** -/
theorem plain_serveMethod (crypto : CryptoProvider) (body : Packet) (htells : m.tells = false)
    (hfetches : m.fetches = false) (d : Desk τ) :
    ComesTo (Plain d) d (serveMethod crypto body m) := by
  have hunknown : ComesTo (Plain d) d
      (Serving.fail (.unknownMethod m.name) : Serving τ Reply) := Plain.refused d _
  cases m with
  | logMessage => exact hunknown
  | successResult => exact hunknown
  | errorResult => exact hunknown
  | putState =>
    refine (reads_stateKey _ _ _).plain_bind fun key =>
      (reads_ofPacket _).plain_bind fun value => ?_
    refine reads_ledger.plain_bind fun t => reads_contractName.plain_bind fun contract => ?_
    refine (reads_ofLedger _).plain_bind fun t' => comesTo_putLedger_bind ?_
    refine comesTo_done _ ?_
    exact .of_eq rfl rfl rfl
  | deleteState =>
    refine (reads_stateKey _ _ _).plain_bind fun key => reads_ledger.plain_bind fun t => ?_
    refine reads_contractName.plain_bind fun contract => (reads_ofLedger _).plain_bind fun t' => ?_
    refine comesTo_putLedger_bind (comesTo_done _ ?_)
    exact .of_eq rfl rfl rfl
  | kvIterator =>
    refine plain_serveRange body (fun t contract => ?_) d
    exact (reads_stateKey _ _ _).bind fun _ => (reads_stateKey _ _ _).bind fun _ =>
      reads_ofLedger _
  | kvPreIterator =>
    refine plain_serveRange body (fun t contract => ?_) d
    exact (reads_stateKey _ _ _).bind fun _ => reads_ofLedger _
  | kvIteratorHasNext =>
    refine comesTo_context_bind ((reads_cursorIndex body).plain_bind fun index => ?_)
    refine comesTo_ofCursor_bind (fun e _ => .refused d _) fun answer hanswer => ?_
    obtain ⟨more, after⟩ := answer
    obtain ⟨cursor, hcursor, -, rfl⟩ := Context.hasPair_eq_ok hanswer
    refine comesTo_update_bind ?_
    exact plain_looking body (Context.looked_insertPairs hcursor) _
  | kvIteratorClose =>
    refine comesTo_context_bind ((reads_cursorIndex body).plain_bind fun index => ?_)
    refine comesTo_ofCursor_bind (fun e _ => .refused d _) fun after hafter => ?_
    exact comesTo_update_bind (comesTo_done _ (Context.onward_closePairs hafter))
  | executeUpdate =>
    refine (reads_ofPacket _).plain_bind fun sql => comesTo_ledger_bind ?_
    refine reads_contractName.plain_bind fun contract => ?_
    have htabled : Tabled d.ledger (LedgerAccess.executeUpdate d.ledger contract sql).2 :=
      .inr ⟨contract, sql, .inl rfl⟩
    refine plain_ofTable_bind htabled fun changed => ?_
    refine (reads_place body).comesTo_bind (fun e => .tabled htabled _) fun ptr => ?_
    exact .tabled htabled _
  | executeDdl =>
    refine (reads_ofPacket _).plain_bind fun sql => comesTo_ledger_bind ?_
    refine reads_contractName.plain_bind fun contract => ?_
    have htabled : Tabled d.ledger (LedgerAccess.executeDdl d.ledger contract sql).2 :=
      .inr ⟨contract, sql, .inr (.inl rfl)⟩
    exact plain_ofTable_bind htabled fun _ => .tabled htabled _
  | executeQuery =>
    refine (reads_ofPacket _).plain_bind fun sql => comesTo_ledger_bind ?_
    refine reads_contractName.plain_bind fun contract => ?_
    have htabled : Tabled d.ledger (LedgerAccess.query d.ledger contract sql).2 :=
      .inr ⟨contract, sql, .inr (.inr (.inl rfl))⟩
    refine plain_ofTable_bind htabled fun rows => ?_
    refine (reads_place body).comesTo_bind (fun e => .tabled htabled _) fun ptr => ?_
    refine comesTo_updateGet_bind (comesTo_done _ ?_)
    exact .of_eq rfl rfl rfl
  | rsHasNext =>
    refine comesTo_context_bind ((reads_cursorIndex body).plain_bind fun index => ?_)
    refine comesTo_ofCursor_bind (fun e _ => .refused d _) fun answer hanswer => ?_
    obtain ⟨more, after⟩ := answer
    obtain ⟨cursor, hcursor, -, rfl⟩ := Context.hasRow_eq_ok hanswer
    refine comesTo_update_bind ?_
    exact plain_looking body (Context.looked_insertRows hcursor) _
  | rsClose =>
    refine comesTo_context_bind ((reads_cursorIndex body).plain_bind fun index => ?_)
    refine comesTo_ofCursor_bind (fun e _ => .refused d _) fun after hafter => ?_
    exact comesTo_update_bind (comesTo_done _ (Context.onward_closeRows hafter))
  | emitEvent =>
    refine reads_context.plain_bind fun c => reads_ledger.plain_bind fun t => ?_
    refine (reads_ofCursor _).plain_bind fun event => comesTo_update_bind ?_
    exact comesTo_done _ (d.context.onward_pushEvents [event])
  | getStateLen => cases htells
  | kvIteratorNextLen => cases htells
  | executeQueryOneLen => cases htells
  | rsNextLen => cases htells
  | callContractLen => cases htells
  | getPaillierResultLen => cases htells
  | getBulletproofsResultLen => cases htells
  | getState => cases hfetches
  | kvIteratorNext => cases hfetches
  | executeQueryOne => cases hfetches
  | rsNext => cases hfetches
  | callContract => cases hfetches
  | getPaillierResult => cases hfetches
  | getBulletproofsResult => cases hfetches

/-! ### All requests of one invocation -/

omit [LedgerAccess τ] in
/-- Keeping bytes is done whether there is a place for their length or not. -/
theorem run_replyCached (body : Packet) (b : Bytes) (d : Desk τ) :
    d.run (replyCached body b) =
      match body.getInt32 "value_ptr" with
      | .ok ptr => (.ok (.length ptr b.length), { d with context := (d.context.cache b).2 })
      | .error e =>
        (.error (.failed (.packet e)), { d with context := (d.context.cache b).2 }) := by
  unfold replyCached place
  cases body.getInt32 "value_ptr" <;> rfl

omit [LedgerAccess τ] in
/-- Bytes are fetched only if there is a place for them. -/
theorem run_serveFetch (body : Packet) (d : Desk τ) :
    d.run (serveFetch body) =
      match body.getInt32 "value_ptr" with
      | .ok ptr =>
        (.ok (.write ptr d.context.takeCached.1), { d with context := d.context.takeCached.2 })
      | .error e => (.error (.failed (.packet e)), d) := by
  unfold serveFetch place
  cases body.getInt32 "value_ptr" <;> rfl

/-- A request is served by its method, once its packet has been read. -/
theorem serve_of_packet {name : String} (hname : Method.ofName? name = some m)
    (hm : m ∉ [.logMessage, .successResult, .errorResult]) (bytes : Bytes) :
    (serve crypto name bytes : Serving τ Reply) =
      ofPacket (Packet.decode bytes) >>= fun body => serveMethod crypto body m := by
  unfold serve
  rw [hname]
  cases m <;> first | rfl | exact absurd (by decide) hm

theorem run_serve_of_decode {name : String} {bytes : Bytes} (hname : Method.ofName? name = some m)
    (hm : m ∉ [.logMessage, .successResult, .errorResult])
    (hdecode : Packet.decode bytes = .ok body) (d : Desk τ) :
    d.run (serve crypto name bytes) = d.run (serveMethod crypto body m) := by
  rw [serve_of_packet hname hm, hdecode]
  rfl

theorem run_serve_of_undecoded {name : String} {bytes : Bytes}
    (hname : Method.ofName? name = some m) (hm : m ∉ [.logMessage, .successResult, .errorResult])
    {e : PacketError} (hdecode : Packet.decode bytes = .error e) (d : Desk τ) :
    d.run (serve crypto name bytes) = (.error (.failed (.packet e)), d) := by
  rw [serve_of_packet hname hm, hdecode]
  rfl

/-- A probe with a packet looks something up, and keeps it. -/
theorem run_serve_of_probe {name : String} {bytes : Bytes} {r : Serving τ Bytes}
    (hname : Method.ofName? name = some m) (hdecode : Packet.decode bytes = .ok body)
    (hprobe : probe? crypto body m = some r) (d : Desk τ) :
    d.run (serve crypto name bytes) = d.run (r >>= replyCached body) := by
  have hm : m ∉ [.logMessage, .successResult, .errorResult] := by
    cases m <;> first | decide | cases hprobe
  rw [run_serve_of_decode hname hm hdecode, serveMethod_of_probe hprobe]

theorem exists_probe (crypto : CryptoProvider) (body : Packet) (htells : m.tells = true)
    (hcall : m ≠ .callContractLen) : ∃ r : Serving τ Bytes, probe? crypto body m = some r := by
  cases m <;> first | exact absurd rfl hcall | (cases htells; done) | exact ⟨_, rfl⟩

theorem tells_of_probe {r : Serving τ Bytes} (h : probe? crypto body m = some r) :
    m.tells = true := by
  cases m <;> cases h <;> rfl

theorem serveMethod_of_fetches (crypto : CryptoProvider) (body : Packet)
    (hfetches : m.fetches = true) :
    (serveMethod crypto body m : Serving τ Reply) = serveFetch body := by
  cases m <;> first | (cases hfetches; done) | rfl

/-- What a request of one invocation comes to: it is plain; or it is a probe that has kept what it
found, with a place for the length or without one; or it has fetched what was kept. -/
inductive Effect (crypto : CryptoProvider) (name : String) (body : Bytes) (d : Desk τ) :
    Except RequestFault Reply → Desk τ → Prop
  /-- It is plain, and if it is a probe or a fetch, it failed. -/
  | plain {result : Except RequestFault Reply} {d' : Desk τ} (h : Plain d result d')
      (hquiet : (∃ e, result = .error e) ∨
        ∀ m, Method.ofName? name = some m → m.tells = false ∧ m.fetches = false) :
      Effect crypto name body d result d'
  /-- A probe has found its bytes and kept them, but there was no place for their length. -/
  | unplaced {m : Method} {packet : Packet} {r : Serving τ Bytes} {b : Bytes} {d' : Desk τ}
      {e : PacketError} (hname : Method.ofName? name = some m)
      (hdecode : Packet.decode body = .ok packet) (hprobe : probe? crypto packet m = some r)
      (hfound : d.run r = (.ok b, d')) (hplace : packet.getInt32 "value_ptr" = .error e) :
      Effect crypto name body d (.error (.failed (.packet e)))
        { d' with context := (d'.context.cache b).2 }
  /-- A probe has found its bytes and kept them, and tells their length. -/
  | told {m : Method} {packet : Packet} {r : Serving τ Bytes} {b : Bytes} {d' : Desk τ}
      (hname : Method.ofName? name = some m) (hprobe : probe? crypto packet m = some r)
      (hfound : d.run r = (.ok b, d')) (ptr : Int32) :
      Effect crypto name body d (.ok (.length ptr b.length))
        { d' with context := (d'.context.cache b).2 }
  /-- What was kept is fetched. -/
  | fetched {m : Method} (hname : Method.ofName? name = some m) (hfetches : m.fetches = true)
      (ptr : Int32) :
      Effect crypto name body d (.ok (.write ptr d.context.takeCached.1))
        { d with context := d.context.takeCached.2 }

/-- A request with a packet has one of these effects. -/
theorem effect_serveMethod {name : String} {bytes : Bytes} (hname : Method.ofName? name = some m)
    (hdecode : Packet.decode bytes = .ok body) (d : Desk τ) :
    ComesTo (Effect crypto name bytes d) d (serveMethod crypto body m) := by
  unfold ComesTo
  by_cases htells : m.tells = true
  · by_cases hcall : m = .callContractLen
    · -- calls of other contracts are not served here
      rw [hcall]
      exact .plain (.refused d _) (.inl ⟨_, rfl⟩)
    · obtain ⟨r, hprobe⟩ := exists_probe (τ := τ) crypto body htells hcall
      have hlooked := looked_probe hprobe d
      unfold ComesTo at hlooked
      rw [serveMethod_of_probe hprobe, run_bind]
      cases hfound : d.run r with
      | mk result d' =>
        rw [hfound] at hlooked
        cases result with
        | error e =>
          exact .plain ⟨hlooked.plain.onward, fun _ _ => hlooked.plain.spared e rfl⟩ (.inl ⟨e, rfl⟩)
        | ok b =>
          simp only [run_replyCached]
          cases hplace : body.getInt32 "value_ptr" with
          | ok ptr => exact .told hname hprobe hfound ptr
          | error e => exact .unplaced hname hdecode hprobe hfound hplace
  · by_cases hfetches : m.fetches = true
    · rw [serveMethod_of_fetches crypto body hfetches, run_serveFetch]
      cases body.getInt32 "value_ptr" with
      | ok ptr => exact .fetched hname hfetches ptr
      | error e => exact .plain (.refused d _) (.inl ⟨_, rfl⟩)
    · have hnot : m.tells = false ∧ m.fetches = false :=
        ⟨Bool.eq_false_iff.mpr htells, Bool.eq_false_iff.mpr hfetches⟩
      refine .plain (plain_serveMethod crypto body hnot.1 hnot.2 d) (.inr ?_)
      intro m' hname'
      rw [hname] at hname'
      cases hname'
      exact hnot

/-- **Every request of one invocation has one of these effects.** -/
theorem effect_serve (crypto : CryptoProvider) (name : String) (body : Bytes) (d : Desk τ) :
    ComesTo (Effect crypto name body d) d (serve crypto name body) := by
  have hquiet {m : Method} (hname : Method.ofName? name = some m)
      (hm : m.tells = false ∧ m.fetches = false) :
      ∀ m', Method.ofName? name = some m' → m'.tells = false ∧ m'.fetches = false := by
    intro m' hname'
    rw [hname] at hname'
    cases hname'
    exact hm
  unfold serve
  split
  · exact .plain (.refused d _) (.inl ⟨_, rfl⟩)
  · rename_i hname
    have honward : d.context.Onward (d.context.pushLog (Utf8.decodeLossy body)) :=
      .of_eq rfl rfl rfl
    have hdone : Plain d (.ok Reply.done) (d.log (Utf8.decodeLossy body)) := .done honward _
    exact .plain hdone (.inr (hquiet hname ⟨rfl, rfl⟩))
  · rename_i hname
    have hdone (reply : Reply) :
        Plain d (.ok reply) { d with context := (d.context.setSuccess body).2 } :=
      .done (d.context.onward_setSuccess body) reply
    exact .plain (hdone _) (.inr (hquiet hname ⟨rfl, rfl⟩))
  · rename_i hname
    have hdone : Plain d (.ok Reply.done)
        { d with context := d.context.setError (Utf8.decodeLossy body) } :=
      .done (d.context.onward_setError _) _
    exact .plain hdone (.inr (hquiet hname ⟨rfl, rfl⟩))
  · rename_i m _ _ _ hname
    cases hdecode : Packet.decode body with
    | error e => exact .plain (.refused d _) (.inl ⟨_, rfl⟩)
    | ok packet => exact effect_serveMethod hname hdecode d

/-- **No request undoes what must stay**, not even a probe or a fetch. -/
theorem Effect.advances {name : String} {bytes : Bytes} {d d' : Desk τ}
    {result : Except RequestFault Reply} (h : Effect crypto name bytes d result d') :
    d.context.Advances d'.context := by
  have hfound {m : Method} {packet : Packet} {r : Serving τ Bytes} {b : Bytes} {d₁ : Desk τ}
      (hprobe : probe? crypto packet m = some r) (hfound : d.run r = (.ok b, d₁)) :
      d.context.Advances (d₁.context.cache b).2 := by
    have hlooked := looked_probe hprobe d
    unfold ComesTo at hlooked
    rw [hfound] at hlooked
    exact hlooked.plain.onward.toAdvances.trans (Context.advances_cache _ b)
  cases h with
  | plain h _ => exact h.onward.toAdvances
  | unplaced _ _ hprobe hrun _ => exact hfound hprobe hrun
  | told _ hprobe hrun ptr => exact hfound hprobe hrun
  | fetched _ _ ptr => exact Context.advances_takeCached _

end

end ContractHost
