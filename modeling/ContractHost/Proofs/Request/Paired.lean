import ContractHost.Proofs.Guest.Instances
import ContractHost.Request.Dispatch

/-!
# Two desks side by side

A request asks its invocation, its ledger and its journal for a few things only.  Whoever serves it
on two desks gets the same answer from both, if those things are the same on both: the contexts,
but for the number of the instance, and what the ledgers keep under the names of the contracts that
run.  Which desks go together is left open here.  It is enough to say what goes with what, and that
this is kept by every single operation; that it is kept by every request then follows once for all.

## Main definitions

* `Context.Inner`, `Context.Own` — changes of a context that leave its place among others alone.
* `Pairing` — which contexts, ledgers and journals go together.
* `Desk.Paired`, `Serving.Paired` — desks that go together, and ways of serving that come to the
  same on them.
* `Desk.handleAll` — requests one after another.

## Main results

* `Serving.Paired.bind` — **serving may be taken apart.**
* `Serving.paired_serveMethod`, `paired_serve` — **requests come to the same on desks that go
  together, and leave desks that go together.**
* `Desk.Paired.handleAll` — so does any number of requests.
-/

namespace ContractHost

/-! ### What goes together -/

namespace Context

/-- A change of a context that neither looks at the number of the instance nor changes it, nor the
handle, nor the depth. -/
structure Inner (f : Context → Context) : Prop where
  /-- The number stays what it is. -/
  number : ∀ c n, f { c with instanceId := n } = { f c with instanceId := n }
  /-- So does the handle. -/
  handle : ∀ c, (f c).handle = c.handle
  /-- So does the depth. -/
  depth : ∀ c, (f c).depth = c.depth

/-- Such a change that leaves the contract alone, too. -/
structure Own (f : Context → Context) : Prop extends Inner f where
  /-- The contract stays what it is. -/
  contract : ∀ c, (f c).contract = c.contract

end Context

section

variable {τ : Type}

/-- Two answers of tables: they are the same, and the ledgers behind them are in a relation. -/
structure SameAnswer {α : Type} (R : τ → τ → Prop) (x x' : Except LedgerFault α × τ) : Prop where
  /-- The answers are the same. -/
  answer : x.1 = x'.1
  /-- The ledgers are related. -/
  ledger : R x.2 x'.2

/-- Which contexts, ledgers and journals go together.  Contracts of some names `Owns` run, and
whatever one operation does under such a name keeps together what goes together. -/
structure Pairing (τ : Type) [LedgerAccess τ] where
  /-- The contexts that go together. -/
  Same : Context → Context → Prop
  /-- The ledgers that do. -/
  Level : τ → τ → Prop
  /-- The journals that do. -/
  Journals : List LogLine → List LogLine → Prop
  /-- The names of the contracts that run. -/
  Owns : String → Prop
  /-- Contexts differ in the number of the instance at most. -/
  same : ∀ {c c'}, Same c c' → ∃ n, c' = { c with instanceId := n }
  /-- A contract that runs has one of the names. -/
  owns : ∀ {c c'}, Same c c' → Owns c.contract.name
  /-- A change of both contexts keeps them together. -/
  own : ∀ {c c' f}, Same c c' → Context.Own f → Same (f c) (f c')
  /-- A line in both journals does. -/
  log : ∀ {j j'}, Journals j j' → ∀ line, Journals (j ++ [line]) (j' ++ [line])
  /-- The ledgers work on one transaction. -/
  txId : ∀ {t t'}, Level t t' → LedgerAccess.txId t = LedgerAccess.txId t'
  /-- They show the same values. -/
  get : ∀ {t t' name key}, Owns name → Level t t' →
    LedgerAccess.get t name key = LedgerAccess.get t' name key
  /-- Setting a value keeps them together. -/
  put : ∀ {t t' name key value}, Owns name → Level t t' →
    Agree Level (LedgerAccess.put t name key value) (LedgerAccess.put t' name key value)
  /-- Removing one does. -/
  delete : ∀ {t t' name key}, Owns name → Level t t' →
    Agree Level (LedgerAccess.delete t name key) (LedgerAccess.delete t' name key)
  /-- They show the same pairs from a key on. -/
  select : ∀ {t t' name start limit}, Owns name → Level t t' →
    LedgerAccess.select t name start limit = LedgerAccess.select t' name start limit
  /-- They show the same pairs with a stem. -/
  selectWithin : ∀ {t t' name stem}, Owns name → Level t t' →
    LedgerAccess.selectWithin t name stem = LedgerAccess.selectWithin t' name stem
  /-- Changing rows comes to the same. -/
  executeUpdate : ∀ {t t' name sql}, Owns name → Level t t' →
    SameAnswer Level (LedgerAccess.executeUpdate t name sql)
      (LedgerAccess.executeUpdate t' name sql)
  /-- Changing tables does. -/
  executeDdl : ∀ {t t' name sql}, Owns name → Level t t' →
    SameAnswer Level (LedgerAccess.executeDdl t name sql) (LedgerAccess.executeDdl t' name sql)
  /-- Asking for rows does. -/
  query : ∀ {t t' name sql}, Owns name → Level t t' →
    SameAnswer Level (LedgerAccess.query t name sql) (LedgerAccess.query t' name sql)
  /-- Asking for one row does. -/
  queryOne : ∀ {t t' name sql}, Owns name → Level t t' →
    SameAnswer Level (LedgerAccess.queryOne t name sql) (LedgerAccess.queryOne t' name sql)

end

variable {τ : Type} [LedgerAccess τ]

namespace Pairing

variable {P : Pairing τ} {c c' : Context}

theorem contract (h : P.Same c c') : c.contract = c'.contract := by
  obtain ⟨n, rfl⟩ := P.same h
  rfl

theorem handle (h : P.Same c c') : c.handle = c'.handle := by
  obtain ⟨n, rfl⟩ := P.same h
  rfl

theorem pairs (h : P.Same c c') (index : Int32) : c.pairs index = c'.pairs index := by
  obtain ⟨n, rfl⟩ := P.same h
  rfl

theorem rows (h : P.Same c c') (index : Int32) : c.rows index = c'.rows index := by
  obtain ⟨n, rfl⟩ := P.same h
  rfl

/-- Whether there is a next pair is the same, and the contexts go together behind that. -/
theorem hasPair (h : P.Same c c') (index : Int32) :
    Agree (fun a b => a.1 = b.1 ∧ P.Same a.2 b.2) (c.hasPair index) (c'.hasPair index) := by
  unfold Context.hasPair
  rw [← pairs h]
  cases c.pairs index with
  | error e => exact .error e
  | ok cursor =>
    refine .ok ⟨rfl, ?_⟩
    have hlooked := P.own h (f := fun d =>
      { d with pairCursors := d.pairCursors.insert index cursor.look })
      ⟨⟨fun _ _ => rfl, fun _ => rfl, fun _ => rfl⟩, fun _ => rfl⟩
    exact hlooked

theorem hasRow (h : P.Same c c') (index : Int32) :
    Agree (fun a b => a.1 = b.1 ∧ P.Same a.2 b.2) (c.hasRow index) (c'.hasRow index) := by
  unfold Context.hasRow
  rw [← rows h]
  cases c.rows index with
  | error e => exact .error e
  | ok cursor =>
    refine .ok ⟨rfl, ?_⟩
    have hlooked := P.own h (f := fun d =>
      { d with rowCursors := d.rowCursors.insert index cursor.look })
      ⟨⟨fun _ _ => rfl, fun _ => rfl, fun _ => rfl⟩, fun _ => rfl⟩
    exact hlooked

/-- The next pair is the same, and the contexts behind it go together. -/
theorem nextPair (h : P.Same c c') (index : Int32) :
    Agree (fun a b => a.1 = b.1 ∧ P.Same a.2 b.2) (c.nextPair index) (c'.nextPair index) := by
  unfold Context.nextPair
  rw [← pairs h]
  cases c.pairs index with
  | error e => exact .error e
  | ok cursor =>
    cases hnext : cursor.next? with
    | none =>
      simp only [hnext, bind, Except.bind]
      exact .ok ⟨rfl, h⟩
    | some next =>
      simp only [hnext, bind, Except.bind]
      refine .ok ⟨rfl, ?_⟩
      -- both cursors move on by one and the same change, for the open cursors are the same
      have hmoved := P.own h (f := fun d =>
        { d with pairCursors := d.pairCursors.insert index next.2 })
        ⟨⟨fun _ _ => rfl, fun _ => rfl, fun _ => rfl⟩, fun _ => rfl⟩
      exact hmoved

theorem nextRow (h : P.Same c c') (index : Int32) :
    Agree (fun a b => a.1 = b.1 ∧ P.Same a.2 b.2) (c.nextRow index) (c'.nextRow index) := by
  unfold Context.nextRow
  rw [← rows h]
  cases c.rows index with
  | error e => exact .error e
  | ok cursor =>
    cases hnext : cursor.next? with
    | none =>
      simp only [hnext, bind, Except.bind]
      exact .ok ⟨rfl, h⟩
    | some next =>
      simp only [hnext, bind, Except.bind]
      refine .ok ⟨rfl, ?_⟩
      have hmoved := P.own h (f := fun d =>
        { d with rowCursors := d.rowCursors.insert index next.2 })
        ⟨⟨fun _ _ => rfl, fun _ => rfl, fun _ => rfl⟩, fun _ => rfl⟩
      exact hmoved

theorem closePairs (h : P.Same c c') (index : Int32) :
    Agree P.Same (c.closePairs index) (c'.closePairs index) := by
  unfold Context.closePairs
  rw [← pairs h]
  cases c.pairs index with
  | error e => exact .error e
  | ok cursor =>
    exact .ok (P.own h (f := fun d => { d with pairCursors := d.pairCursors.erase index })
      ⟨⟨fun _ _ => rfl, fun _ => rfl, fun _ => rfl⟩, fun _ => rfl⟩)

theorem closeRows (h : P.Same c c') (index : Int32) :
    Agree P.Same (c.closeRows index) (c'.closeRows index) := by
  unfold Context.closeRows
  rw [← rows h]
  cases c.rows index with
  | error e => exact .error e
  | ok cursor =>
    exact .ok (P.own h (f := fun d => { d with rowCursors := d.rowCursors.erase index })
      ⟨⟨fun _ _ => rfl, fun _ => rfl, fun _ => rfl⟩, fun _ => rfl⟩)

end Pairing

/-! ### Desks and serving -/

/-- Two desks that go together. -/
structure Desk.Paired (P : Pairing τ) (d d' : Desk τ) : Prop where
  /-- Their contexts do. -/
  context : P.Same d.context d'.context
  /-- Their ledgers do. -/
  ledger : P.Level d.ledger d'.ledger
  /-- Their journals do. -/
  journal : P.Journals d.journal d'.journal

namespace Desk.Paired

variable {P : Pairing τ} {d d' : Desk τ}

theorem log (h : Desk.Paired P d d') (line : String) :
    Desk.Paired P (d.log line) (d'.log line) := by
  have hcontext : P.Same (d.log line).context (d'.log line).context :=
    P.own h.context (f := (·.pushLog line))
      ⟨⟨fun _ _ => rfl, fun _ => rfl, fun _ => rfl⟩, fun _ => rfl⟩
  refine ⟨hcontext, h.ledger, ?_⟩
  unfold Desk.log
  rw [P.txId h.ledger, Pairing.contract h.context, Pairing.handle h.context]
  exact P.log h.journal _

theorem record (h : Desk.Paired P d d') (e : RequestFault) :
    Desk.Paired P (d.record e) (d'.record e) := by
  cases e with
  | crashed message => exact h
  | failed e =>
    exact ⟨P.own h.context (f := (·.recordError e.message))
      ⟨⟨fun _ _ => rfl, fun _ => rfl, fun _ => rfl⟩, fun _ => rfl⟩, h.ledger, h.journal⟩

end Desk.Paired

namespace Serving

section

variable {τ α β : Type}

theorem run_bind (r : Serving τ α) (f : α → Serving τ β) (d : Desk τ) :
    d.run (r >>= f) =
      match d.run r with
      | (.ok a, d) => d.run (f a)
      | (.error e, d) => (.error e, d) := by
  unfold Desk.run
  rw [ExceptT.run_bind, StateT.run_bind]
  cases StateT.run (ExceptT.run r) d with
  | mk result d' => cases result <;> rfl

end

variable {α β γ δ : Type} {P : Pairing τ}

/-- Two ways of serving that come to the same on desks that go together: they fail for the same
reason, or give values in the relation `V`, and leave desks that go together. -/
structure Paired (P : Pairing τ) (V : α → β → Prop) (r : Serving τ α) (r' : Serving τ β) :
    Prop where
  /-- They come to the same on these. -/
  fromAny : ∀ {d d'}, Desk.Paired P d d' →
    Agree V (d.run r).1 (d'.run r').1 ∧ Desk.Paired P (d.run r).2 (d'.run r').2

section

variable {V : α → β → Prop} {W : γ → δ → Prop} {r : Serving τ α} {r' : Serving τ β}

/-- **Serving may be taken apart.** -/
theorem Paired.bind (hr : Paired P V r r') {f : α → Serving τ γ} {f' : β → Serving τ δ}
    (hf : ∀ {a b}, V a b → Paired P W (f a) (f' b)) : Paired P W (r >>= f) (r' >>= f') := by
  refine ⟨fun {d d'} h => ?_⟩
  obtain ⟨hresult, hdesk⟩ := hr.fromAny h
  rw [run_bind, run_bind]
  cases hd : d.run r with
  | mk result e =>
    cases hd' : d'.run r' with
    | mk result' e' =>
      rw [hd, hd'] at hresult hdesk
      cases hresult with
      | ok hv => exact (hf hv).fromAny hdesk
      | error fault => exact ⟨.error fault, hdesk⟩

/-- Serving may be taken apart after a step that gives the same value. -/
theorem Paired.bind_eq {r r' : Serving τ α} (hr : Paired P Eq r r') {f : α → Serving τ γ}
    {f' : α → Serving τ δ} (hf : ∀ a, Paired P W (f a) (f' a)) :
    Paired P W (r >>= f) (r' >>= f') :=
  hr.bind fun {a _} h => h ▸ hf a

theorem paired_pure {a : α} {b : β} (h : V a b) : Paired P V (pure a) (pure b) :=
  ⟨fun hd => ⟨.ok h, hd⟩⟩

theorem paired_throw (e : RequestFault) : Paired P V (throw e) (throw e) :=
  ⟨fun hd => ⟨.error e, hd⟩⟩

theorem paired_fail (e : SyscallError) : Paired P V (fail e) (fail e) :=
  paired_throw _

theorem paired_ofCursor {x : Except SyscallError α} {x' : Except SyscallError β}
    (h : Agree V x x') : Paired P V (ofCursor x) (ofCursor x') := by
  cases h with
  | ok hv => exact paired_pure hv
  | error e => exact paired_fail e

theorem paired_ofLedger {x : Except LedgerFault α} {x' : Except LedgerFault β}
    (h : Agree V x x') : Paired P V (ofLedger x) (ofLedger x') := by
  cases h with
  | ok hv => exact paired_pure hv
  | error e => exact paired_throw _

end

/-! ### Single steps -/

theorem agree_self {ε : Type} (x : Except ε α) : Agree Eq x x := by
  cases x with
  | ok a => exact .ok rfl
  | error e => exact .error e

theorem eq_of_agree {ε : Type} {x x' : Except ε α} (h : Agree Eq x x') : x = x' := by
  cases h with
  | ok h => exact congrArg Except.ok h
  | error e => rfl

theorem paired_ofPacket (x : Except PacketError α) :
    Paired P Eq (ofPacket x : Serving τ α) (ofPacket x) := by
  cases x with
  | ok a => exact paired_pure rfl
  | error e => exact paired_fail _

theorem paired_context : Paired P P.Same (context : Serving τ Context) context :=
  ⟨fun h => ⟨.ok h.context, h⟩⟩

theorem paired_ledger : Paired P P.Level (ledger : Serving τ τ) ledger :=
  ⟨fun h => ⟨.ok h.ledger, h⟩⟩

theorem paired_contractName :
    Paired P (fun a b => a = b ∧ P.Owns a) (contractName : Serving τ String) contractName :=
  paired_context.bind fun h => paired_pure ⟨congrArg ContractId.name (Pairing.contract h), P.owns h⟩

theorem paired_update {f f' : Context → Context}
    (hf : ∀ {c c'}, P.Same c c' → P.Same (f c) (f' c')) :
    Paired P Eq (update f : Serving τ Unit) (update f') :=
  ⟨fun h => ⟨.ok rfl, hf h.context, h.ledger, h.journal⟩⟩

theorem paired_update_own {f : Context → Context} (hf : Context.Own f) :
    Paired P Eq (update f : Serving τ Unit) (update f) :=
  paired_update fun h => P.own h hf

theorem paired_updateGet {f : Context → α × Context} (hf : Context.Own fun c => (f c).2)
    (hvalue : ∀ c n, (f { c with instanceId := n }).1 = (f c).1) :
    Paired P Eq (updateGet f : Serving τ α) (updateGet f) := by
  refine ⟨fun {d d'} h => ⟨?_, P.own h.context hf, h.ledger, h.journal⟩⟩
  -- the value does not depend on the number of the instance
  obtain ⟨n, hn⟩ := P.same h.context
  have hsame : (f d.context).1 = (f d'.context).1 := by
    rw [hn]
    exact (hvalue d.context n).symm
  exact .ok hsame

theorem paired_putLedger {t t' : τ} (ht : P.Level t t') :
    Paired P Eq (putLedger t) (putLedger t') :=
  ⟨fun h => ⟨.ok rfl, h.context, ht, h.journal⟩⟩

theorem paired_ofTable {answer answer' : Except LedgerFault α × τ}
    (h : SameAnswer P.Level answer answer') : Paired P Eq (ofTable answer) (ofTable answer') := by
  refine (paired_putLedger h.ledger).bind_eq fun _ => ?_
  rw [h.answer]
  exact paired_ofLedger (agree_self _)

theorem paired_place (body : Packet) :
    Paired P Eq (place body : Serving τ Int32) (place body) :=
  paired_ofPacket _

theorem paired_cursorIndex (body : Packet) :
    Paired P Eq (cursorIndex body : Serving τ Int32) (cursorIndex body) :=
  paired_ofPacket _

theorem paired_stateKey (body : Packet) (key field : String) :
    Paired P Eq (stateKey body key field : Serving τ Bytes) (stateKey body key field) :=
  (paired_ofPacket _).bind_eq fun _ => (paired_ofPacket _).bind_eq fun _ => paired_pure rfl

theorem paired_replyCached (body : Packet) (b : Bytes) :
    Paired P Eq (replyCached body b : Serving τ Reply) (replyCached body b) := by
  have hcache : Paired P Eq (updateGet (·.cache b) : Serving τ Nat) (updateGet (·.cache b)) :=
    paired_updateGet ⟨⟨fun _ _ => rfl, fun _ => rfl, fun _ => rfl⟩, fun _ => rfl⟩ fun _ _ => rfl
  exact hcache.bind_eq fun _ => (paired_place body).bind_eq fun _ => paired_pure rfl

theorem paired_exhausted (index : Int32) {V : α → β → Prop} :
    Paired P V (exhausted index : Serving τ α) (exhausted index) :=
  paired_fail _

/-- What is asked of the ledger under the name of the contract that runs comes to the same. -/
theorem paired_onLedger {V : α → β → Prop} {f : τ → String → Serving τ α}
    {f' : τ → String → Serving τ β}
    (h : ∀ {t t' name}, P.Level t t' → P.Owns name → Paired P V (f t name) (f' t' name)) :
    Paired P V (do f (← ledger) (← contractName)) (do f' (← ledger) (← contractName)) := by
  refine paired_ledger.bind fun {t t'} ht => paired_contractName.bind fun {name name'} hname => ?_
  obtain ⟨rfl, howns⟩ := hname
  exact h ht howns

/-! ### Requests -/

theorem paired_liftExcept (x : Except RequestFault Bytes) :
    Paired P Eq (serveCrypto.liftExcept x : Serving τ Bytes) (serveCrypto.liftExcept x) := by
  cases x with
  | ok b => exact paired_pure rfl
  | error e => exact paired_throw e

theorem paired_serveCrypto (crypto : CryptoProvider) (family : CryptoFamily) (body : Packet) :
    Paired P Eq (serveCrypto crypto family body : Serving τ Reply)
      (serveCrypto crypto family body) := by
  refine (paired_ofPacket _).bind_eq fun op => (paired_liftExcept _).bind_eq fun result => ?_
  exact paired_replyCached body result

/-- A cursor is opened over the same pairs. -/
theorem paired_serveRange (body : Packet) {select : τ → String → Serving τ (List Pair)}
    (h : ∀ {t t' name}, P.Level t t' → P.Owns name → Paired P Eq (select t name) (select t' name)) :
    Paired P Eq (serveRange body select) (serveRange body select) := by
  have hmerge : Paired P Eq (update (·.mergeTxClass .iterator) : Serving τ Unit)
      (update (·.mergeTxClass .iterator)) :=
    paired_update_own ⟨⟨fun _ _ => rfl, fun _ => rfl, fun _ => rfl⟩, fun _ => rfl⟩
  refine hmerge.bind_eq fun _ => paired_onLedger fun ht howns => ?_
  refine (h ht howns).bind_eq fun pairs => (paired_place body).bind_eq fun ptr => ?_
  have hopen : Paired P Eq (updateGet (·.openPairs pairs) : Serving τ Int32)
      (updateGet (·.openPairs pairs)) :=
    paired_updateGet ⟨⟨fun _ _ => rfl, fun _ => rfl, fun _ => rfl⟩, fun _ => rfl⟩ fun _ _ => rfl
  exact hopen.bind_eq fun _ => paired_pure rfl

theorem paired_serveFetch (body : Packet) :
    Paired P Eq (serveFetch body : Serving τ Reply) (serveFetch body) := by
  refine (paired_place body).bind_eq fun ptr => ?_
  have htake : Paired P Eq (updateGet Context.takeCached : Serving τ Bytes)
      (updateGet Context.takeCached) :=
    paired_updateGet ⟨⟨fun _ _ => rfl, fun _ => rfl, fun _ => rfl⟩, fun _ => rfl⟩ fun _ _ => rfl
  exact htake.bind_eq fun _ => paired_pure rfl

/-- **Requests with a packet come to the same.** -/
theorem paired_serveMethod (crypto : CryptoProvider) (body : Packet) (method : Method) :
    Paired P Eq (serveMethod crypto body method : Serving τ Reply)
      (serveMethod crypto body method) := by
  cases method with
  | getStateLen =>
    refine (paired_stateKey body _ _).bind_eq fun key => paired_onLedger fun ht howns => ?_
    rw [P.get howns ht]
    exact (paired_ofLedger (agree_self _)).bind_eq fun value => paired_replyCached body _
  | putState =>
    refine (paired_stateKey body _ _).bind_eq fun key => (paired_ofPacket _).bind_eq fun value => ?_
    refine paired_onLedger fun ht howns => (paired_ofLedger (P.put howns ht)).bind fun hu => ?_
    exact (paired_putLedger hu).bind_eq fun _ => paired_pure rfl
  | deleteState =>
    refine (paired_stateKey body _ _).bind_eq fun key => paired_onLedger fun ht howns => ?_
    refine (paired_ofLedger (P.delete howns ht)).bind fun hu => ?_
    exact (paired_putLedger hu).bind_eq fun _ => paired_pure rfl
  | kvIterator =>
    refine paired_serveRange body fun ht howns => (paired_stateKey body _ _).bind_eq fun start => ?_
    refine (paired_stateKey body _ _).bind_eq fun limit => ?_
    rw [P.select howns ht]
    exact paired_ofLedger (agree_self _)
  | kvPreIterator =>
    refine paired_serveRange body fun ht howns => (paired_stateKey body _ _).bind_eq fun stem => ?_
    rw [P.selectWithin howns ht]
    exact paired_ofLedger (agree_self _)
  | kvIteratorHasNext =>
    refine paired_context.bind fun {c c'} hc => (paired_cursorIndex body).bind_eq fun index => ?_
    refine (paired_ofCursor (Pairing.hasPair hc index)).bind fun {a b} hab => ?_
    obtain ⟨more, after⟩ := a
    obtain ⟨_, after'⟩ := b
    obtain ⟨rfl, hafter⟩ := hab
    refine (paired_update fun _ => hafter).bind_eq fun _ => ?_
    exact (paired_place body).bind_eq fun _ => paired_pure rfl
  | kvIteratorNextLen =>
    refine (paired_cursorIndex body).bind_eq fun index => paired_context.bind fun {c c'} hc => ?_
    refine (paired_ofCursor (Pairing.nextPair hc index)).bind fun {a b} hab => ?_
    obtain ⟨pair?, after⟩ := a
    obtain ⟨_, after'⟩ := b
    obtain ⟨rfl, hafter⟩ := hab
    -- the cursor has moved on, whether it gave a pair or not
    refine (paired_update fun _ => hafter).bind_eq fun _ => ?_
    cases pair? with
    | none => exact paired_exhausted index
    | some pair => exact paired_replyCached body _
  | kvIteratorClose =>
    refine paired_context.bind fun {c c'} hc => (paired_cursorIndex body).bind_eq fun index => ?_
    refine (paired_ofCursor (Pairing.closePairs hc index)).bind fun {after after'} hafter => ?_
    exact (paired_update fun _ => hafter).bind_eq fun _ => paired_pure rfl
  | executeUpdate =>
    refine (paired_ofPacket _).bind_eq fun sql => paired_onLedger fun ht howns => ?_
    refine (paired_ofTable (P.executeUpdate howns ht)).bind_eq fun changed => ?_
    exact (paired_place body).bind_eq fun _ => paired_pure rfl
  | executeDdl =>
    refine (paired_ofPacket _).bind_eq fun sql => paired_onLedger fun ht howns => ?_
    exact (paired_ofTable (P.executeDdl howns ht)).bind_eq fun _ => paired_pure rfl
  | executeQuery =>
    refine (paired_ofPacket _).bind_eq fun sql => paired_onLedger fun ht howns => ?_
    refine (paired_ofTable (P.query howns ht)).bind_eq fun rows => ?_
    refine (paired_place body).bind_eq fun ptr => ?_
    have hopen : Paired P Eq (updateGet (·.openRows rows) : Serving τ Int32)
        (updateGet (·.openRows rows)) :=
      paired_updateGet ⟨⟨fun _ _ => rfl, fun _ => rfl, fun _ => rfl⟩, fun _ => rfl⟩ fun _ _ => rfl
    exact hopen.bind_eq fun _ => paired_pure rfl
  | executeQueryOneLen =>
    refine (paired_ofPacket _).bind_eq fun sql => paired_onLedger fun ht howns => ?_
    exact (paired_ofTable (P.queryOne howns ht)).bind_eq fun row => paired_replyCached body _
  | rsHasNext =>
    refine paired_context.bind fun {c c'} hc => (paired_cursorIndex body).bind_eq fun index => ?_
    refine (paired_ofCursor (Pairing.hasRow hc index)).bind fun {a b} hab => ?_
    obtain ⟨more, after⟩ := a
    obtain ⟨_, after'⟩ := b
    obtain ⟨rfl, hafter⟩ := hab
    refine (paired_update fun _ => hafter).bind_eq fun _ => ?_
    exact (paired_place body).bind_eq fun _ => paired_pure rfl
  | rsNextLen =>
    refine (paired_cursorIndex body).bind_eq fun index => paired_context.bind fun {c c'} hc => ?_
    refine (paired_ofCursor (Pairing.nextRow hc index)).bind fun {a b} hab => ?_
    obtain ⟨row?, after⟩ := a
    obtain ⟨_, after'⟩ := b
    obtain ⟨rfl, hafter⟩ := hab
    refine (paired_update fun _ => hafter).bind_eq fun _ => ?_
    cases row? with
    | none => exact paired_exhausted index
    | some row => exact paired_replyCached body _
  | rsClose =>
    refine paired_context.bind fun {c c'} hc => (paired_cursorIndex body).bind_eq fun index => ?_
    refine (paired_ofCursor (Pairing.closeRows hc index)).bind fun {after after'} hafter => ?_
    exact (paired_update fun _ => hafter).bind_eq fun _ => paired_pure rfl
  | emitEvent =>
    refine paired_context.bind fun {c c'} hc => paired_ledger.bind fun {t t'} ht => ?_
    -- an event names the contract and the transaction, which both desks have in common
    rw [← Pairing.contract hc, ← P.txId ht]
    refine (paired_ofCursor (agree_self _)).bind_eq fun event => ?_
    have hpush : Paired P Eq (update (·.pushEvents [event]) : Serving τ Unit)
        (update (·.pushEvents [event])) :=
      paired_update_own ⟨⟨fun _ _ => rfl, fun _ => rfl, fun _ => rfl⟩, fun _ => rfl⟩
    exact hpush.bind_eq fun _ => paired_pure rfl
  | getPaillierResultLen => exact paired_serveCrypto crypto _ body
  | getBulletproofsResultLen => exact paired_serveCrypto crypto _ body
  | getState => exact paired_serveFetch body
  | kvIteratorNext => exact paired_serveFetch body
  | executeQueryOne => exact paired_serveFetch body
  | rsNext => exact paired_serveFetch body
  | callContract => exact paired_serveFetch body
  | getPaillierResult => exact paired_serveFetch body
  | getBulletproofsResult => exact paired_serveFetch body
  | logMessage => exact paired_fail _
  | successResult => exact paired_fail _
  | errorResult => exact paired_fail _
  | callContractLen => exact paired_fail _

/-- **Requests come to the same on desks that go together.** -/
theorem paired_serve (crypto : CryptoProvider) (name : String) (body : Bytes) :
    Paired P Eq (serve crypto name body : Serving τ Reply) (serve crypto name body) := by
  unfold serve
  split
  · exact paired_fail _
  · have hlog : Paired P Eq (modify (·.log (Utf8.decodeLossy body)) : Serving τ Unit)
        (modify (·.log (Utf8.decodeLossy body))) :=
      ⟨fun h => ⟨.ok rfl, h.log _⟩⟩
    exact hlog.bind_eq fun _ => paired_pure rfl
  · have hset : Paired P Eq (updateGet (·.setSuccess body) : Serving τ Bool)
        (updateGet (·.setSuccess body)) := by
      refine paired_updateGet ⟨⟨fun c n => ?_, fun c => ?_, fun c => ?_⟩, fun c => ?_⟩ fun c n => ?_
        <;> simp only [Context.setSuccess] <;> split <;> rfl
    exact hset.bind_eq fun _ => paired_pure rfl
  · have hset : Paired P Eq (update (·.setError (Utf8.decodeLossy body)) : Serving τ Unit)
        (update (·.setError (Utf8.decodeLossy body))) :=
      paired_update_own ⟨⟨fun _ _ => rfl, fun _ => rfl, fun _ => rfl⟩, fun _ => rfl⟩
    exact hset.bind_eq fun _ => paired_pure rfl
  · exact (paired_ofPacket _).bind_eq fun packet => paired_serveMethod crypto packet _

end Serving

/-! ### Requests one after another -/

namespace Desk

/-- Serves requests one after another, whatever becomes of each. -/
def handleAll (crypto : CryptoProvider) :
    List (String × Bytes) → Desk τ → List (Except RequestFault Reply) × Desk τ
  | [], d => ([], d)
  | (name, body) :: rest, d =>
    let (reply, d) := d.handle crypto name body
    let (replies, d) := handleAll crypto rest d
    (reply :: replies, d)

@[simp] theorem handleAll_nil (crypto : CryptoProvider) (d : Desk τ) :
    d.handleAll crypto [] = ([], d) := rfl

@[simp] theorem handleAll_cons_snd (crypto : CryptoProvider) (name : String) (body : Bytes)
    (rest : List (String × Bytes)) (d : Desk τ) :
    (d.handleAll crypto ((name, body) :: rest)).2 =
      ((d.handle crypto name body).2.handleAll crypto rest).2 := rfl

variable {P : Pairing τ} {d d' : Desk τ}

theorem Paired.handle (h : Desk.Paired P d d') (crypto : CryptoProvider) (name : String)
    (body : Bytes) : (d.handle crypto name body).1 = (d'.handle crypto name body).1 ∧
      Desk.Paired P (d.handle crypto name body).2 (d'.handle crypto name body).2 := by
  obtain ⟨hreply, hdesk⟩ := (Serving.paired_serve crypto name body).fromAny h
  unfold Desk.handle
  generalize d.run (serve crypto name body) = x at hreply hdesk ⊢
  generalize d'.run (serve crypto name body) = x' at hreply hdesk ⊢
  obtain ⟨reply, e⟩ := x
  obtain ⟨reply', e'⟩ := x'
  cases hreply with
  | error fault => exact ⟨rfl, hdesk.record fault⟩
  | @ok a b hab => exact ⟨congrArg Except.ok hab, hdesk⟩

/-- **Any number of requests comes to the same on desks that go together.** -/
theorem Paired.handleAll (crypto : CryptoProvider) (requests : List (String × Bytes))
    (h : Desk.Paired P d d') :
    (d.handleAll crypto requests).1 = (d'.handleAll crypto requests).1 ∧
      Desk.Paired P (d.handleAll crypto requests).2 (d'.handleAll crypto requests).2 := by
  induction requests generalizing d d' with
  | nil => exact ⟨rfl, h⟩
  | cons request rest ih =>
    obtain ⟨name, body⟩ := request
    obtain ⟨hreply, hdesk⟩ := h.handle crypto name body
    obtain ⟨hreplies, hend⟩ := ih hdesk
    refine ⟨?_, hend⟩
    simp only [Desk.handleAll, hreply, hreplies]

end Desk

end ContractHost
