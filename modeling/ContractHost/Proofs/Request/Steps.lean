import ContractHost.Proofs.Invocation.Walks
import ContractHost.Proofs.Packet.Reading
import ContractHost.Proofs.Request.Alike

/-!
# Serving, step by step

What serving comes to is followed from one desk on.  A step that only looks something up leaves the
desk as it is, and either gives a value to go on with or is the end.

The context of an invocation goes on with every request.  No request changes its handle or clears
the mark of a failure, and its message is put together from entries that all begin alike.  Most
requests do not touch the bytes that wait either.

## Main definitions

* `Worded`, `Context.Advances`, `Context.Onward` — how a context may go on.
* `Serving.ComesTo` — what serving comes to, from one desk.
* `Serving.Reads` — serving that leaves every desk as it is.

## Main results

* `Serving.Reads.comesTo_bind` — **what only looks something up may be left behind.**
* `Context.nextPair_eq_ok`, `nextRow_eq_ok` — a cursor that is asked for its next element.
-/

namespace ContractHost

/-! ### How a context goes on -/

/-- The wordings that entries of a message begin with. -/
def entryLabels : List String :=
  ["error message: ", "contract message: "]

/-- A message that was put together from entries: nothing, or it begins as an entry does. -/
def Worded (message : String) : Prop :=
  message = "" ∨ ∃ label ∈ entryLabels, label.toList <+: message.toList

theorem Worded.addEntry {message : String} (h : Worded message) {label : String}
    (hlabel : label ∈ entryLabels) (text : String) :
    Worded (Outcome.addEntry message label text) := by
  right
  unfold Outcome.addEntry
  rcases h with rfl | ⟨first, hfirst, hbegins⟩
  · refine ⟨label, hlabel, ?_⟩
    rw [if_pos (by decide), String.toList_append]
    exact List.prefix_append _ _
  · refine ⟨first, hfirst, ?_⟩
    split
    · -- an empty message does not begin as an entry does
      rename_i hempty
      rw [String.isEmpty_iff.mp hempty] at hbegins
      rw [List.prefix_nil.mp hbegins]
      exact List.nil_prefix
    · simp only [String.toList_append, List.append_assoc]
      exact hbegins.trans (List.prefix_append _ _)

namespace Context

/-- What no request undoes. -/
structure Advances (c c' : Context) : Prop where
  /-- The handle stays what it is. -/
  handle : c'.handle = c.handle
  /-- A failure stays marked. -/
  failed : c.outcome.isSuccess = false → c'.outcome.isSuccess = false
  /-- The message stays one that was put together from entries. -/
  worded : Worded c.outcome.message → Worded c'.outcome.message

/-- The context goes on, and the bytes that wait are not touched. -/
structure Onward (c c' : Context) : Prop extends Advances c c' where
  /-- The same bytes wait. -/
  cached : c'.cached = c.cached

theorem Advances.refl (c : Context) : c.Advances c :=
  ⟨rfl, id, id⟩

theorem Advances.trans {a b c : Context} (h : a.Advances b) (h' : b.Advances c) : a.Advances c :=
  ⟨h'.handle.trans h.handle, h'.failed ∘ h.failed, h'.worded ∘ h.worded⟩

theorem Onward.refl (c : Context) : c.Onward c :=
  ⟨.refl c, rfl⟩

theorem Onward.trans {a b c : Context} (h : a.Onward b) (h' : b.Onward c) : a.Onward c :=
  ⟨h.toAdvances.trans h'.toAdvances, h'.cached.trans h.cached⟩

/-- What touches neither the outcome nor the bytes that wait takes a context onward. -/
theorem Onward.of_eq {c c' : Context} (hhandle : c'.handle = c.handle)
    (houtcome : c'.outcome = c.outcome) (hcached : c'.cached = c.cached) : c.Onward c' :=
  ⟨⟨hhandle, by rw [houtcome]; exact id, by rw [houtcome]; exact id⟩, hcached⟩

variable (c : Context)

theorem onward_mergeTxClass (part : TxClass) : c.Onward (c.mergeTxClass part) :=
  ⟨⟨rfl, id, id⟩, rfl⟩

theorem onward_pushEvents (events : List Event) : c.Onward (c.pushEvents events) :=
  ⟨⟨rfl, id, id⟩, rfl⟩

theorem onward_recordError (text : String) : c.Onward (c.recordError text) :=
  ⟨⟨rfl, fun _ => rfl, fun h => h.addEntry (by decide) text⟩, rfl⟩

theorem onward_setError (text : String) : c.Onward (c.setError text) :=
  ⟨⟨rfl, fun _ => rfl, fun h => h.addEntry (by decide) text⟩, rfl⟩

/-- A payload is set only where no failure is marked. -/
theorem onward_setSuccess (payload : Bytes) : c.Onward (c.setSuccess payload).2 := by
  unfold setSuccess
  split
  · exact ⟨⟨rfl, id, id⟩, rfl⟩
  · exact .refl c

theorem advances_cache (b : Bytes) : c.Advances (c.cache b).2 :=
  ⟨rfl, id, id⟩

theorem advances_takeCached : c.Advances c.takeCached.2 :=
  ⟨rfl, id, id⟩

theorem advances_clearCache : c.Advances c.clearCache :=
  ⟨rfl, id, id⟩

variable {c}

/-- A cursor that is asked whether it has a next element looks ahead, and nothing else changes. -/
theorem hasPair_eq_ok {index : Int32} {more : Bool} {after : Context}
    (h : c.hasPair index = .ok (more, after)) :
    ∃ cursor, c.pairs index = .ok cursor ∧ more = cursor.hasNext ∧
      after = { c with pairCursors := c.pairCursors.insert index cursor.look } := by
  unfold hasPair at h
  obtain ⟨cursor, hcursor, h⟩ := Except.bind_eq_ok_iff.mp h
  cases h
  exact ⟨cursor, hcursor, rfl, rfl⟩

theorem hasRow_eq_ok {index : Int32} {more : Bool} {after : Context}
    (h : c.hasRow index = .ok (more, after)) :
    ∃ cursor, c.rows index = .ok cursor ∧ more = cursor.hasNext ∧
      after = { c with rowCursors := c.rowCursors.insert index cursor.look } := by
  unfold hasRow at h
  obtain ⟨cursor, hcursor, h⟩ := Except.bind_eq_ok_iff.mp h
  cases h
  exact ⟨cursor, hcursor, rfl, rfl⟩

/-- **A cursor that is asked for its next element moves on if it has one**, and nothing else
changes. -/
theorem nextPair_eq_ok {index : Int32} {pair? : Option Pair} {after : Context}
    (h : c.nextPair index = .ok (pair?, after)) :
    (pair? = none ∧ after = c) ∨
      ∃ pair cursor moved, pair? = some pair ∧ c.pairs index = .ok cursor ∧
        cursor.next? = some (pair, moved) ∧
        after = { c with pairCursors := c.pairCursors.insert index moved } := by
  unfold nextPair at h
  obtain ⟨cursor, hcursor, h⟩ := Except.bind_eq_ok_iff.mp h
  cases hnext : cursor.next? with
  | none =>
    rw [hnext] at h
    cases h
    exact .inl ⟨rfl, rfl⟩
  | some next =>
    obtain ⟨pair, moved⟩ := next
    rw [hnext] at h
    cases h
    exact .inr ⟨pair, cursor, moved, rfl, hcursor, hnext, rfl⟩

theorem nextRow_eq_ok {index : Int32} {row? : Option Row} {after : Context}
    (h : c.nextRow index = .ok (row?, after)) :
    (row? = none ∧ after = c) ∨
      ∃ row cursor moved, row? = some row ∧ c.rows index = .ok cursor ∧
        cursor.next? = some (row, moved) ∧
        after = { c with rowCursors := c.rowCursors.insert index moved } := by
  unfold nextRow at h
  obtain ⟨cursor, hcursor, h⟩ := Except.bind_eq_ok_iff.mp h
  cases hnext : cursor.next? with
  | none =>
    rw [hnext] at h
    cases h
    exact .inl ⟨rfl, rfl⟩
  | some next =>
    obtain ⟨row, moved⟩ := next
    rw [hnext] at h
    cases h
    exact .inr ⟨row, cursor, moved, rfl, hcursor, hnext, rfl⟩

/-- A cursor that is closed is taken out. -/
theorem closePairs_eq_ok {index : Int32} {after : Context} (h : c.closePairs index = .ok after) :
    after = { c with pairCursors := c.pairCursors.erase index } := by
  unfold closePairs at h
  obtain ⟨cursor, -, h⟩ := Except.bind_eq_ok_iff.mp h
  cases h
  rfl

theorem closeRows_eq_ok {index : Int32} {after : Context} (h : c.closeRows index = .ok after) :
    after = { c with rowCursors := c.rowCursors.erase index } := by
  unfold closeRows at h
  obtain ⟨cursor, -, h⟩ := Except.bind_eq_ok_iff.mp h
  cases h
  rfl

theorem onward_closePairs {index : Int32} {after : Context} (h : c.closePairs index = .ok after) :
    c.Onward after := by
  rw [closePairs_eq_ok h]
  exact .of_eq rfl rfl rfl

theorem onward_closeRows {index : Int32} {after : Context} (h : c.closeRows index = .ok after) :
    c.Onward after := by
  rw [closeRows_eq_ok h]
  exact .of_eq rfl rfl rfl

end Context

/-! ### What serving comes to -/

namespace Serving

variable {τ α β : Type}

/-- From a desk, serving comes to a result and a desk that are in `Q`. -/
def ComesTo (Q : Except RequestFault α → Desk τ → Prop) (d : Desk τ) (r : Serving τ α) : Prop :=
  Q (d.run r).1 (d.run r).2

/-- Serving that leaves every desk as it is. -/
def Reads (r : Serving τ α) : Prop :=
  ∀ d : Desk τ, (d.run r).2 = d

variable {d : Desk τ} {Q : Except RequestFault β → Desk τ → Prop} {r : Serving τ α}
variable {f : α → Serving τ β}

theorem reads_pure (a : α) : Reads (pure a : Serving τ α) :=
  fun _ => rfl

theorem reads_throw (e : RequestFault) : Reads (throw e : Serving τ α) :=
  fun _ => rfl

theorem Reads.bind (hr : Reads r) (hf : ∀ a, Reads (f a)) : Reads (r >>= f) := by
  intro d
  rw [run_bind]
  have hd := hr d
  cases hrun : d.run r with
  | mk result d' =>
    rw [hrun] at hd
    obtain rfl : d' = d := hd
    cases result with
    | ok a => exact hf a d'
    | error e => rfl

theorem reads_ofPacket (x : Except PacketError α) : Reads (ofPacket x : Serving τ α) := by
  cases x with
  | ok a => exact reads_pure a
  | error e => exact reads_throw _

theorem reads_ofCursor (x : Except SyscallError α) : Reads (ofCursor x : Serving τ α) := by
  cases x with
  | ok a => exact reads_pure a
  | error e => exact reads_throw _

theorem reads_ofLedger (x : Except LedgerFault α) : Reads (ofLedger x : Serving τ α) := by
  cases x with
  | ok a => exact reads_pure a
  | error e => exact reads_throw _

theorem reads_context : Reads (context : Serving τ Context) :=
  fun _ => rfl

theorem reads_ledger : Reads (ledger : Serving τ τ) :=
  fun _ => rfl

theorem reads_contractName : Reads (contractName : Serving τ String) :=
  fun _ => rfl

theorem reads_place (body : Packet) : Reads (place body : Serving τ Int32) :=
  reads_ofPacket _

theorem reads_cursorIndex (body : Packet) : Reads (cursorIndex body : Serving τ Int32) :=
  reads_ofPacket _

theorem reads_stateKey (body : Packet) (key field : String) :
    Reads (stateKey body key field : Serving τ Bytes) :=
  (reads_ofPacket _).bind fun _ => (reads_ofPacket _).bind fun _ => reads_pure _

/-- Serving goes on from where it is after it has looked something up, or it fails there. -/
theorem Reads.comesTo_bind (hr : Reads r) (herror : ∀ e, Q (.error e) d)
    (hf : ∀ a, ComesTo Q d (f a)) : ComesTo Q d (r >>= f) := by
  unfold ComesTo
  rw [run_bind]
  have hd := hr d
  cases hrun : d.run r with
  | mk result d' =>
    rw [hrun] at hd
    obtain rfl : d' = d := hd
    cases result with
    | ok a => exact hf a
    | error e => exact herror e

theorem comesTo_context_bind {f : Context → Serving τ β} (h : ComesTo Q d (f d.context)) :
    ComesTo Q d (context >>= f) :=
  h

theorem comesTo_ledger_bind {f : τ → Serving τ β} (h : ComesTo Q d (f d.ledger)) :
    ComesTo Q d (ledger >>= f) :=
  h

theorem comesTo_contractName_bind {f : String → Serving τ β}
    (h : ComesTo Q d (f d.context.contract.name)) : ComesTo Q d (contractName >>= f) :=
  h

theorem comesTo_update_bind {g : Context → Context} {f : Unit → Serving τ β}
    (h : ComesTo Q { d with context := g d.context } (f ())) : ComesTo Q d (update g >>= f) :=
  h

theorem comesTo_updateGet_bind {g : Context → α × Context}
    (h : ComesTo Q { d with context := (g d.context).2 } (f (g d.context).1)) :
    ComesTo Q d (updateGet g >>= f) :=
  h

theorem comesTo_putLedger_bind {t : τ} {f : Unit → Serving τ β}
    (h : ComesTo Q { d with ledger := t } (f ())) : ComesTo Q d (putLedger t >>= f) :=
  h

theorem comesTo_ofCursor_bind {x : Except SyscallError α}
    (herror : ∀ e, x = .error e → Q (.error (.failed e)) d)
    (hf : ∀ a, x = .ok a → ComesTo Q d (f a)) : ComesTo Q d (ofCursor x >>= f) := by
  cases x with
  | ok a => exact hf a rfl
  | error e => exact herror e rfl

theorem comesTo_ofLedger_bind {x : Except LedgerFault α} (herror : ∀ e, Q (.error e) d)
    (hf : ∀ a, x = .ok a → ComesTo Q d (f a)) : ComesTo Q d (ofLedger x >>= f) := by
  cases x with
  | ok a => exact hf a rfl
  | error e =>
    cases e with
    | refused e => exact herror _
    | crashed message => exact herror _

theorem comesTo_ofPacket_bind {x : Except PacketError α} (herror : ∀ e, Q (.error e) d)
    (hf : ∀ a, x = .ok a → ComesTo Q d (f a)) : ComesTo Q d (ofPacket x >>= f) := by
  cases x with
  | ok a => exact hf a rfl
  | error e => exact herror _

/-- A stored key is put together from two texts. -/
theorem comesTo_stateKey_bind {body : Packet} {key field : String} {g : Bytes → Serving τ β}
    (herror : ∀ e, Q (.error e) d)
    (hg : ∀ k f, body.getText key = .ok k → body.getTextOrEmpty field = .ok f →
      ComesTo Q d (g (StateKey.join k f))) : ComesTo Q d (stateKey body key field >>= g) := by
  unfold stateKey
  rw [bind_assoc]
  refine comesTo_ofPacket_bind herror fun k hk => ?_
  rw [bind_assoc]
  exact comesTo_ofPacket_bind herror fun f hf => hg k f hk hf

end Serving

end ContractHost
