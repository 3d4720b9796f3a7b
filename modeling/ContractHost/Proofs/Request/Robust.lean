import ContractHost.Proofs.Request.Steps

/-!
# Requests on robust ledgers

Serving a request crashes only if the ledger crashes, or the provider of cryptography.  Where
neither does, every request comes to an end with a reply or with an error that is reported.

## Main definitions

* `LedgerAccess.Robust`, `CryptoProvider.Robust` — nothing crashes.
* `Serving.Sound` — serving that never crashes.

## Main results

* `Serving.Sound.bind` — **serving may be taken apart.**
* `Serving.sound_serve` — **no request crashes.**
-/

namespace ContractHost

/-- An operation of a ledger has not crashed. -/
def LedgerFault.Spared {α : Type} (answer : Except LedgerFault α) : Prop :=
  ∀ message, answer ≠ .error (.crashed message)

/-- A ledger none of whose operations ever crashes. -/
structure LedgerAccess.Robust (τ : Type) [LedgerAccess τ] : Prop where
  /-- Asking for a value does not crash. -/
  get : ∀ (t : τ) contract key, LedgerFault.Spared (LedgerAccess.get t contract key)
  /-- Setting one does not. -/
  put : ∀ (t : τ) contract key value, LedgerFault.Spared (LedgerAccess.put t contract key value)
  /-- Removing one does not. -/
  delete : ∀ (t : τ) contract key, LedgerFault.Spared (LedgerAccess.delete t contract key)
  /-- Asking for a range does not. -/
  select : ∀ (t : τ) contract start limit,
    LedgerFault.Spared (LedgerAccess.select t contract start limit)
  /-- Asking for the keys that begin alike does not. -/
  selectWithin : ∀ (t : τ) contract stem,
    LedgerFault.Spared (LedgerAccess.selectWithin t contract stem)
  /-- Changing rows does not. -/
  executeUpdate : ∀ (t : τ) contract sql,
    LedgerFault.Spared (LedgerAccess.executeUpdate t contract sql).1
  /-- Changing tables does not. -/
  executeDdl : ∀ (t : τ) contract sql,
    LedgerFault.Spared (LedgerAccess.executeDdl t contract sql).1
  /-- Asking for rows does not. -/
  query : ∀ (t : τ) contract sql, LedgerFault.Spared (LedgerAccess.query t contract sql).1
  /-- Asking for one row does not. -/
  queryOne : ∀ (t : τ) contract sql, LedgerFault.Spared (LedgerAccess.queryOne t contract sql).1
  /-- Looking for a contract does not. -/
  getContract : ∀ (t : τ) name, LedgerFault.Spared (LedgerAccess.getContract t name)

/-- A provider that never crashes. -/
def CryptoProvider.Robust (crypto : CryptoProvider) : Prop :=
  ∀ family op operands message, crypto.compute family op operands ≠ .error (.crashed message)

namespace LedgerFault

theorem spared_ok {α : Type} (a : α) : Spared (.ok a) :=
  fun _ h => by cases h

theorem spared_refused {α : Type} (e : LedgerError) :
    Spared (.error (.refused e) : Except LedgerFault α) :=
  fun _ h => by cases h

end LedgerFault

open LedgerFault in
/-- A ledger in memory never crashes. -/
theorem robust_session : LedgerAccess.Robust Session where
  get _ _ _ := spared_ok _
  put _ _ _ _ := spared_ok _
  delete _ _ _ := spared_ok _
  select _ _ _ _ := spared_ok _
  selectWithin _ _ _ := spared_ok _
  executeUpdate _ _ _ := spared_refused _
  executeDdl _ _ _ := spared_refused _
  query _ _ _ := spared_refused _
  queryOne _ _ _ := spared_refused _
  getContract s name := by
    simp only [LedgerAccess.getContract]
    cases s.contract? name with
    | none => exact spared_refused _
    | some c => exact spared_ok c

/-- Neither does a provider that refuses everything. -/
theorem CryptoProvider.robust_absent : CryptoProvider.absent.Robust :=
  fun _ _ _ _ => nofun

namespace Serving

variable {τ α β : Type}

/-! ### Serving that never crashes -/

/-- Serving that never crashes, from any desk on. -/
def Sound (r : Serving τ α) : Prop :=
  ∀ (d : Desk τ) message, (d.run r).1 ≠ .error (.crashed message)

/-- **Serving that is put together from parts that never crash never crashes.** -/
theorem Sound.bind {r : Serving τ α} {f : α → Serving τ β} (hr : Sound r)
    (hf : ∀ a, Sound (f a)) : Sound (r >>= f) := by
  intro d message
  rw [run_bind]
  have hfirst := hr d message
  cases hrun : d.run r with
  | mk result d' =>
    rw [hrun] at hfirst
    cases result with
    | ok a => exact hf a d' message
    | error e =>
      rintro ⟨⟩
      exact hfirst rfl

theorem sound_pure (a : α) : Sound (pure a : Serving τ α) :=
  fun _ _ => nofun

theorem sound_fail (e : SyscallError) : Sound (fail e : Serving τ α) :=
  fun _ _ => nofun

theorem sound_ofPacket (x : Except PacketError α) : Sound (ofPacket x : Serving τ α) := by
  cases x with
  | ok a => exact sound_pure a
  | error e => exact sound_fail _

theorem sound_ofCursor (x : Except SyscallError α) : Sound (ofCursor x : Serving τ α) := by
  cases x with
  | ok a => exact sound_pure a
  | error e => exact sound_fail e

theorem sound_ofLedger {x : Except LedgerFault α} (hx : LedgerFault.Spared x) :
    Sound (ofLedger x : Serving τ α) := by
  cases x with
  | ok a => exact sound_pure a
  | error e =>
    cases e with
    | refused e => exact sound_fail _
    | crashed message => exact absurd rfl (hx message)

theorem sound_context : Sound (context : Serving τ Context) :=
  fun _ _ => nofun

theorem sound_ledger : Sound (ledger : Serving τ τ) :=
  fun _ _ => nofun

theorem sound_contractName : Sound (contractName : Serving τ String) :=
  fun _ _ => nofun

theorem sound_update (f : Context → Context) : Sound (update f : Serving τ Unit) :=
  fun _ _ => nofun

theorem sound_updateGet (f : Context → α × Context) : Sound (updateGet f : Serving τ α) :=
  fun _ _ => nofun

theorem sound_putLedger (t : τ) : Sound (putLedger t) :=
  fun _ _ => nofun

theorem sound_ofTable {answer : Except LedgerFault α × τ} (h : LedgerFault.Spared answer.1) :
    Sound (ofTable answer) :=
  (sound_putLedger answer.2).bind fun _ => sound_ofLedger h

theorem sound_place (body : Packet) : Sound (place body : Serving τ Int32) :=
  sound_ofPacket _

theorem sound_cursorIndex (body : Packet) : Sound (cursorIndex body : Serving τ Int32) :=
  sound_ofPacket _

theorem sound_stateKey (body : Packet) (key field : String) :
    Sound (stateKey body key field : Serving τ Bytes) :=
  (sound_ofPacket _).bind fun _ => (sound_ofPacket _).bind fun _ => sound_pure _

theorem sound_replyCached (body : Packet) (b : Bytes) :
    Sound (replyCached body b : Serving τ Reply) :=
  (sound_updateGet _).bind fun _ => (sound_place body).bind fun _ => sound_pure _

theorem sound_exhausted (index : Int32) : Sound (exhausted index : Serving τ α) :=
  sound_fail _

/-! ### Requests -/

theorem sound_serveCrypto {crypto : CryptoProvider} (h : crypto.Robust) (family : CryptoFamily)
    (body : Packet) : Sound (serveCrypto crypto family body : Serving τ Reply) := by
  refine (sound_ofPacket _).bind fun op => ?_
  have hcomputed : Sound (serveCrypto.liftExcept (crypto.compute family op body) :
      Serving τ Bytes) := by
    have hspared := h family op body
    cases hresult : crypto.compute family op body with
    | ok b => exact sound_pure b
    | error e =>
      rw [hresult] at hspared
      exact fun d message hcrashed => hspared message hcrashed
  exact hcomputed.bind fun b => sound_replyCached body b

theorem sound_serveRange (body : Packet) {select : τ → String → Serving τ (List Pair)}
    (hselect : ∀ t contract, Sound (select t contract)) : Sound (serveRange body select) := by
  refine (sound_update _).bind fun _ => sound_ledger.bind fun t => ?_
  refine sound_contractName.bind fun contract => (hselect t contract).bind fun pairs => ?_
  exact (sound_place body).bind fun ptr => (sound_updateGet _).bind fun index => sound_pure _

theorem sound_serveFetch (body : Packet) : Sound (serveFetch body : Serving τ Reply) :=
  (sound_place body).bind fun _ => (sound_updateGet _).bind fun _ => sound_pure _

variable [LedgerAccess τ]

/-- **No request that has a packet for its body crashes.** -/
theorem sound_serveMethod (hledger : LedgerAccess.Robust τ) {crypto : CryptoProvider}
    (hcrypto : crypto.Robust) (body : Packet) (m : Method) :
    Sound (serveMethod crypto body m : Serving τ Reply) := by
  cases m with
  | getStateLen =>
    refine (sound_stateKey _ _ _).bind fun key => sound_ledger.bind fun t => ?_
    refine sound_contractName.bind fun contract => (sound_ofLedger ?_).bind fun value => ?_
    · exact hledger.get t contract key
    · exact sound_replyCached body _
  | putState =>
    refine (sound_stateKey _ _ _).bind fun key => (sound_ofPacket _).bind fun value => ?_
    refine sound_ledger.bind fun t => sound_contractName.bind fun contract => ?_
    refine (sound_ofLedger (hledger.put t contract key value)).bind fun t' => ?_
    exact (sound_putLedger t').bind fun _ => sound_pure _
  | deleteState =>
    refine (sound_stateKey _ _ _).bind fun key => sound_ledger.bind fun t => ?_
    refine sound_contractName.bind fun contract => ?_
    refine (sound_ofLedger (hledger.delete t contract key)).bind fun t' => ?_
    exact (sound_putLedger t').bind fun _ => sound_pure _
  | kvIterator =>
    refine sound_serveRange body fun t contract => ?_
    refine (sound_stateKey _ _ _).bind fun start => (sound_stateKey _ _ _).bind fun limit => ?_
    exact sound_ofLedger (hledger.select t contract start limit)
  | kvPreIterator =>
    refine sound_serveRange body fun t contract => (sound_stateKey _ _ _).bind fun stem => ?_
    exact sound_ofLedger (hledger.selectWithin t contract stem)
  | kvIteratorHasNext =>
    refine sound_context.bind fun c => (sound_cursorIndex body).bind fun index => ?_
    refine (sound_ofCursor _).bind fun answer => (sound_update _).bind fun _ => ?_
    exact (sound_place body).bind fun ptr => sound_pure _
  | kvIteratorNextLen =>
    refine (sound_cursorIndex body).bind fun index => sound_context.bind fun c => ?_
    refine (sound_ofCursor _).bind fun next => (sound_update _).bind fun _ => ?_
    cases next.1 with
    | some pair => exact sound_replyCached body _
    | none => exact sound_exhausted index
  | kvIteratorClose =>
    refine sound_context.bind fun c => (sound_cursorIndex body).bind fun index => ?_
    exact (sound_ofCursor _).bind fun after => (sound_update _).bind fun _ => sound_pure _
  | executeUpdate =>
    refine (sound_ofPacket _).bind fun sql => sound_ledger.bind fun t => ?_
    refine sound_contractName.bind fun contract => ?_
    refine (sound_ofTable (hledger.executeUpdate t contract sql)).bind fun changed => ?_
    exact (sound_place body).bind fun ptr => sound_pure _
  | executeDdl =>
    refine (sound_ofPacket _).bind fun sql => sound_ledger.bind fun t => ?_
    refine sound_contractName.bind fun contract => ?_
    exact (sound_ofTable (hledger.executeDdl t contract sql)).bind fun _ => sound_pure _
  | executeQuery =>
    refine (sound_ofPacket _).bind fun sql => sound_ledger.bind fun t => ?_
    refine sound_contractName.bind fun contract => ?_
    refine (sound_ofTable (hledger.query t contract sql)).bind fun rows => ?_
    exact (sound_place body).bind fun ptr => (sound_updateGet _).bind fun index => sound_pure _
  | executeQueryOneLen =>
    refine (sound_ofPacket _).bind fun sql => sound_ledger.bind fun t => ?_
    refine sound_contractName.bind fun contract => ?_
    refine (sound_ofTable (hledger.queryOne t contract sql)).bind fun row => ?_
    exact sound_replyCached body _
  | rsHasNext =>
    refine sound_context.bind fun c => (sound_cursorIndex body).bind fun index => ?_
    refine (sound_ofCursor _).bind fun answer => (sound_update _).bind fun _ => ?_
    exact (sound_place body).bind fun ptr => sound_pure _
  | rsNextLen =>
    refine (sound_cursorIndex body).bind fun index => sound_context.bind fun c => ?_
    refine (sound_ofCursor _).bind fun next => (sound_update _).bind fun _ => ?_
    cases next.1 with
    | some row => exact sound_replyCached body _
    | none => exact sound_exhausted index
  | rsClose =>
    refine sound_context.bind fun c => (sound_cursorIndex body).bind fun index => ?_
    exact (sound_ofCursor _).bind fun after => (sound_update _).bind fun _ => sound_pure _
  | emitEvent =>
    refine sound_context.bind fun c => sound_ledger.bind fun t => ?_
    refine (sound_ofCursor _).bind fun event => (sound_update _).bind fun _ => ?_
    exact sound_pure _
  | getPaillierResultLen => exact sound_serveCrypto hcrypto _ body
  | getBulletproofsResultLen => exact sound_serveCrypto hcrypto _ body
  | getState => exact sound_serveFetch body
  | kvIteratorNext => exact sound_serveFetch body
  | executeQueryOne => exact sound_serveFetch body
  | rsNext => exact sound_serveFetch body
  | callContract => exact sound_serveFetch body
  | getPaillierResult => exact sound_serveFetch body
  | getBulletproofsResult => exact sound_serveFetch body
  | logMessage => exact sound_fail _
  | successResult => exact sound_fail _
  | errorResult => exact sound_fail _
  | callContractLen => exact sound_fail _

/-- **No request crashes**, whatever it is and whatever its body. -/
theorem sound_serve (hledger : LedgerAccess.Robust τ) {crypto : CryptoProvider}
    (hcrypto : crypto.Robust) (name : String) (body : Bytes) :
    Sound (serve crypto name body : Serving τ Reply) := by
  unfold serve
  split
  · exact sound_fail _
  · intro d message
    exact nofun
  · refine (sound_updateGet _).bind fun accepted => ?_
    exact sound_pure _
  · exact (sound_update _).bind fun _ => sound_pure _
  · refine (sound_ofPacket _).bind fun packet => ?_
    exact sound_serveMethod hledger hcrypto packet _

end Serving

end ContractHost
