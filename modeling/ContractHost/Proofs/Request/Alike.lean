import ContractHost.Proofs.Request.Paired

/-!
# Requests of one invocation

An invocation carries the number of the instance that serves it, and no request can ask for it.  Nor
can a request ask for the lines that were logged.  So a request is answered alike on two desks that
differ in nothing else, and leaves two such desks.

A ledger may change while a request is served.  The contracts that it lists are described by a set
that all its operations keep.

## Main definitions

* `Listing` — ledgers that list no contracts but those of a set, whatever is done with them.
* `Context.Alike`, `Desk.Alike` — nothing but the number of the instance and the journal differ.
* `Serving.Alike` — two ways of serving that come to the same.

* `Listing.pairing` — such desks as a case of desks that go together.

## Main results

* `Serving.Alike.bind` — **serving may be taken apart.**
* `Serving.alike_serve` — **requests are answered alike.**
-/

namespace ContractHost

/-! ### Ledgers -/

/-- Ledgers that list no contracts but those of a set `D`, and that go on to do so whatever is done
with them. -/
structure Listing (τ : Type) [LedgerAccess τ] (D : ContractId → Code → Prop) where
  /-- The ledgers. -/
  Holds : τ → Prop
  /-- What is listed is in the set. -/
  contract : ∀ {t : τ} {name c code}, Holds t → LedgerAccess.getContract t name = .ok (c, code) →
    D c code
  /-- Setting a value leaves such a ledger. -/
  put : ∀ {t t' : τ} {contract key value}, Holds t →
    LedgerAccess.put t contract key value = .ok t' → Holds t'
  /-- Removing one does. -/
  delete : ∀ {t t' : τ} {contract key}, Holds t →
    LedgerAccess.delete t contract key = .ok t' → Holds t'
  /-- Changing rows does. -/
  executeUpdate : ∀ {t : τ} {contract sql}, Holds t →
    Holds (LedgerAccess.executeUpdate t contract sql).2
  /-- Changing tables does. -/
  executeDdl : ∀ {t : τ} {contract sql}, Holds t →
    Holds (LedgerAccess.executeDdl t contract sql).2
  /-- Asking for rows does. -/
  query : ∀ {t : τ} {contract sql}, Holds t → Holds (LedgerAccess.query t contract sql).2
  /-- Asking for one row does. -/
  queryOne : ∀ {t : τ} {contract sql}, Holds t → Holds (LedgerAccess.queryOne t contract sql).2

/-! ### Contexts and desks -/

/-- Two contexts under one handle that differ in the number of the instance at most. -/
structure Context.Alike (handle : Int32) (c c' : Context) : Prop where
  /-- They differ in the number at most. -/
  same : ∃ n, c' = { c with instanceId := n }
  /-- They are registered under this handle. -/
  handle : c.handle = handle

namespace Context.Alike

variable {handle : Int32} {c c' : Context}

theorem inner (h : Alike handle c c') {f : Context → Context} (hf : Inner f) :
    Alike handle (f c) (f c') := by
  obtain ⟨⟨n, rfl⟩, hhandle⟩ := h
  exact ⟨⟨n, hf.number c n⟩, (hf.handle c).trans hhandle⟩

theorem outcome (h : Alike handle c c') : c.outcome = c'.outcome := by
  obtain ⟨⟨n, rfl⟩, -⟩ := h
  rfl

theorem depth (h : Alike handle c c') : c.depth = c'.depth := by
  obtain ⟨⟨n, rfl⟩, -⟩ := h
  rfl

theorem handle_eq (h : Alike handle c c') : c'.handle = handle := by
  obtain ⟨⟨n, rfl⟩, hhandle⟩ := h
  exact hhandle

end Context.Alike

variable {τ : Type} [LedgerAccess τ] {D : ContractId → Code → Prop}

/-- Two desks of one invocation that differ in the number of the instance and in the journal at
most. -/
structure Desk.Alike (L : Listing τ D) (handle : Int32) (d d' : Desk τ) : Prop where
  /-- The contexts differ in the number at most. -/
  context : d.context.Alike handle d'.context
  /-- The ledgers are the same. -/
  ledger : d.ledger = d'.ledger
  /-- The ledger lists contracts of the set. -/
  lists : L.Holds d.ledger

namespace Listing

/-- What an operation gives, given twice. -/
theorem agree_twice (L : Listing τ D) {x : Except LedgerFault τ}
    (h : ∀ {t}, x = .ok t → L.Holds t) : Agree (fun t t' => t = t' ∧ L.Holds t) x x := by
  cases x with
  | ok t => exact .ok ⟨rfl, h rfl⟩
  | error e => exact .error e

/-- The ledger is the same on both desks, and nothing is said about the journals. -/
def pairing (L : Listing τ D) (handle : Int32) : Pairing τ where
  Same := Context.Alike handle
  Level t t' := t = t' ∧ L.Holds t
  Journals _ _ := True
  Owns _ := True
  same h := h.same
  owns _ := trivial
  own h hf := h.inner hf.toInner
  log _ _ := trivial
  txId := by rintro t _ ⟨rfl, -⟩; rfl
  get := by rintro t _ _ _ - ⟨rfl, -⟩; rfl
  put := by rintro t _ _ _ _ - ⟨rfl, ht⟩; exact L.agree_twice fun hu => L.put ht hu
  delete := by rintro t _ _ _ - ⟨rfl, ht⟩; exact L.agree_twice fun hu => L.delete ht hu
  select := by rintro t _ _ _ _ - ⟨rfl, -⟩; rfl
  selectWithin := by rintro t _ _ _ - ⟨rfl, -⟩; rfl
  executeUpdate := by rintro t _ _ _ - ⟨rfl, ht⟩; exact ⟨rfl, rfl, L.executeUpdate ht⟩
  executeDdl := by rintro t _ _ _ - ⟨rfl, ht⟩; exact ⟨rfl, rfl, L.executeDdl ht⟩
  query := by rintro t _ _ _ - ⟨rfl, ht⟩; exact ⟨rfl, rfl, L.query ht⟩
  queryOne := by rintro t _ _ _ - ⟨rfl, ht⟩; exact ⟨rfl, rfl, L.queryOne ht⟩

end Listing

theorem Desk.alike_iff_paired {L : Listing τ D} {handle : Int32} {d d' : Desk τ} :
    Desk.Alike L handle d d' ↔ Desk.Paired (L.pairing handle) d d' :=
  ⟨fun h => ⟨h.context, ⟨h.ledger, h.lists⟩, trivial⟩, fun h => ⟨h.context, h.ledger.1, h.ledger.2⟩⟩

theorem Desk.Alike.log {L : Listing τ D} {handle : Int32} {d d' : Desk τ}
    (h : Desk.Alike L handle d d') (line : String) :
    Desk.Alike L handle (d.log line) (d'.log line) :=
  alike_iff_paired.2 ((alike_iff_paired.1 h).log line)

namespace Serving

variable {α β γ δ : Type} {L : Listing τ D} {handle : Int32}

/-- Two ways of serving that come to the same on desks that are alike: they fail for the same
reason, or give values in the relation `V`, and leave desks that are alike. -/
structure Alike (L : Listing τ D) (handle : Int32) (V : α → β → Prop) (r : Serving τ α)
    (r' : Serving τ β) : Prop where
  /-- They come to the same on these. -/
  fromAny : ∀ {d d'}, Desk.Alike L handle d d' →
    Agree V (d.run r).1 (d'.run r').1 ∧ Desk.Alike L handle (d.run r).2 (d'.run r').2

section

variable {V : α → β → Prop} {W : γ → δ → Prop} {r : Serving τ α} {r' : Serving τ β}

theorem alike_iff_paired : Alike L handle V r r' ↔ Paired (L.pairing handle) V r r' := by
  constructor
  · refine fun h => ⟨fun hd => ?_⟩
    obtain ⟨hresult, hdesk⟩ := h.fromAny (Desk.alike_iff_paired.2 hd)
    exact ⟨hresult, Desk.alike_iff_paired.1 hdesk⟩
  · refine fun h => ⟨fun hd => ?_⟩
    obtain ⟨hresult, hdesk⟩ := h.fromAny (Desk.alike_iff_paired.1 hd)
    exact ⟨hresult, Desk.alike_iff_paired.2 hdesk⟩

/-- **Serving may be taken apart.** -/
theorem Alike.bind (hr : Alike L handle V r r') {f : α → Serving τ γ} {f' : β → Serving τ δ}
    (hf : ∀ {a b}, V a b → Alike L handle W (f a) (f' b)) :
    Alike L handle W (r >>= f) (r' >>= f') :=
  alike_iff_paired.2 ((alike_iff_paired.1 hr).bind fun hv => alike_iff_paired.1 (hf hv))

/-- Serving may be taken apart after a step that gives the same value. -/
theorem Alike.bind_eq {r r' : Serving τ α} (hr : Alike L handle Eq r r') {f : α → Serving τ γ}
    {f' : α → Serving τ δ} (hf : ∀ a, Alike L handle W (f a) (f' a)) :
    Alike L handle W (r >>= f) (r' >>= f') :=
  hr.bind fun {a _} h => h ▸ hf a

theorem alike_pure {a : α} {b : β} (h : V a b) : Alike L handle V (pure a) (pure b) :=
  alike_iff_paired.2 (paired_pure h)

theorem alike_fail (e : SyscallError) : Alike L handle V (fail e) (fail e) :=
  alike_iff_paired.2 (paired_fail e)

theorem alike_fail_bind (e : SyscallError) {f : α → Serving τ γ} {f' : α → Serving τ δ} :
    Alike L handle W (fail e >>= f) (fail e >>= f') :=
  (alike_fail (V := fun _ _ => False) e).bind fun h => h.elim

end

/-! ### Single steps -/

theorem alike_ofPacket (x : Except PacketError α) :
    Alike L handle Eq (ofPacket x : Serving τ α) (ofPacket x) :=
  alike_iff_paired.2 (paired_ofPacket x)

theorem alike_ofLedger {x : Except LedgerFault α} {V : α → α → Prop}
    (h : ∀ {a}, x = .ok a → V a a) : Alike L handle V (ofLedger x : Serving τ α) (ofLedger x) := by
  cases x with
  | ok a => exact alike_pure (h rfl)
  | error e => exact alike_iff_paired.2 (paired_throw _)

/-- A call that is nested in another is deeper than the topmost, or there is no such call. -/
theorem alike_deeper (depth : UInt32) :
    Alike L handle (fun a b => a = b ∧ 0 < a) (deeper depth : Serving τ UInt32) (deeper depth) := by
  unfold deeper
  split
  · exact alike_iff_paired.2 (paired_throw _)
  · rename_i hdepth
    exact alike_pure ⟨rfl, UInt32.pos_iff_ne_zero.mpr hdepth⟩

theorem alike_context :
    Alike L handle (Context.Alike handle) (context : Serving τ Context) context :=
  alike_iff_paired.2 paired_context

theorem alike_ledger :
    Alike L handle (fun t t' => t = t' ∧ L.Holds t) (ledger : Serving τ τ) ledger :=
  alike_iff_paired.2 paired_ledger

/-- A change that leaves handle and depth alone may concern the contract, too. -/
theorem alike_update_inner {f : Context → Context} (hf : Context.Inner f) :
    Alike L handle Eq (update f : Serving τ Unit) (update f) :=
  alike_iff_paired.2 (paired_update fun h => h.inner hf)

theorem alike_updateGet {f : Context → α × Context} (hf : Context.Own fun c => (f c).2)
    (hvalue : ∀ c n, (f { c with instanceId := n }).1 = (f c).1) :
    Alike L handle Eq (updateGet f : Serving τ α) (updateGet f) :=
  alike_iff_paired.2 (paired_updateGet hf hvalue)

theorem alike_place (body : Packet) :
    Alike L handle Eq (place body : Serving τ Int32) (place body) :=
  alike_ofPacket _

/-- **Requests are answered alike.** -/
theorem alike_serve (crypto : CryptoProvider) (name : String) (body : Bytes) :
    Alike L handle Eq (serve crypto name body : Serving τ Reply) (serve crypto name body) :=
  alike_iff_paired.2 (paired_serve crypto name body)

end Serving

end ContractHost
