import ContractHost.Proofs.Request.PointReads

/-!
# Walking over state

A cursor over pairs is a list that was made when it was opened.  As long as nothing is written, the
pairs that it has still to give are what is kept.

## Main definitions

* `Desk.CurrentAt` — the pairs that a cursor has still to give are what is kept.
* `Desk.ReadsOnly` — what a request comes to that writes nothing.

## Main results

* `Desk.readsOnly_handleAll` — **requests that write nothing leave cursors current.**
-/

namespace ContractHost

open Serving StateKey

/-! ### Requests that write nothing -/

namespace Desk

/-- The pairs that a cursor has still to give are what is kept. -/
def CurrentAt (d : Desk Session) (index : Int32) : Prop :=
  ∀ cursor, d.context.pairCursors.get? index = some cursor →
    ∀ pair ∈ cursor.cursor.remaining, d.kept pair.1 = some pair.2

/-- Nothing has been written, and cursors that were current are so still. -/
structure ReadsOnly (d d' : Desk Session) : Prop where
  /-- It is an invocation of the same contract. -/
  contract : d'.context.contract = d.context.contract
  /-- The ledger and its transaction are what they were. -/
  ledger : d'.ledger = d.ledger
  /-- Cursors that were current are current. -/
  current : ∀ index, d.CurrentAt index → d'.CurrentAt index

namespace ReadsOnly

variable {d d' d'' : Desk Session}

theorem refl (d : Desk Session) : d.ReadsOnly d :=
  ⟨rfl, rfl, fun _ h => h⟩

theorem trans (h : d.ReadsOnly d') (h' : d'.ReadsOnly d'') : d.ReadsOnly d'' :=
  ⟨h'.contract.trans h.contract, h'.ledger.trans h.ledger,
    fun index hcurrent => h'.current index (h.current index hcurrent)⟩

theorem kept (h : d.ReadsOnly d') (stored : Bytes) : d'.kept stored = d.kept stored := by
  unfold Desk.kept
  rw [h.contract, h.ledger]

/-- The ledger is what it was, and what a cursor has to give now is current if what it had to give
before was. -/
theorem of_cursors (hcontract : d'.context.contract = d.context.contract)
    (hledger : d'.ledger = d.ledger)
    (hcursors : ∀ index, d.CurrentAt index → ∀ cursor,
      d'.context.pairCursors.get? index = some cursor →
      ∀ pair ∈ cursor.cursor.remaining, d.kept pair.1 = some pair.2) : d.ReadsOnly d' := by
  refine ⟨hcontract, hledger, fun index h cursor hget pair hpair => ?_⟩
  have hkept := hcursors index h cursor hget pair hpair
  unfold Desk.kept at hkept ⊢
  rwa [hcontract, hledger]

/-- What touches neither the ledger nor the cursors over pairs. -/
theorem of_eq (hcontract : d'.context.contract = d.context.contract)
    (hcursors : d'.context.pairCursors = d.context.pairCursors) (hledger : d'.ledger = d.ledger) :
    d.ReadsOnly d' :=
  of_cursors hcontract hledger fun _ h cursor hget => h cursor (hcursors ▸ hget)

/-- A cursor is set to pairs that are kept, if it was current. -/
theorem insert {index : Int32} {next : LookingAhead Pair}
    (hpairs : d.CurrentAt index → ∀ pair ∈ next.cursor.remaining, d.kept pair.1 = some pair.2) :
    d.ReadsOnly { d with context := { d.context with
      pairCursors := d.context.pairCursors.insert index next } } := by
  refine of_cursors rfl rfl fun index' h cursor hget => ?_
  dsimp only at hget
  rw [OrderedMap.get?_insert] at hget
  by_cases hindex : index = index'
  · subst hindex
    rw [if_pos Std.ReflCmp.compare_self] at hget
    cases hget
    exact hpairs h
  · rw [if_neg fun heq => hindex (Std.LawfulEqOrd.eq_of_compare heq)] at hget
    exact h cursor hget

theorem advance {index : Int32} {pair : Pair} {cursor moved : LookingAhead Pair}
    (h : d.context.pairCursors.get? index = some cursor)
    (hnext : cursor.next? = some (pair, moved)) :
    d.ReadsOnly { d with context := { d.context with
      pairCursors := d.context.pairCursors.insert index moved } } := by
  refine insert fun hcurrent pair' hpair' => hcurrent cursor h pair' ?_
  rw [LookingAhead.remaining_of_next? hnext]
  exact List.mem_cons_of_mem _ hpair'

/-- A cursor that looks ahead has as much to give as before. -/
theorem look {index : Int32} {cursor : LookingAhead Pair}
    (h : d.context.pairCursors.get? index = some cursor) :
    d.ReadsOnly { d with context := { d.context with
      pairCursors := d.context.pairCursors.insert index cursor.look } } := by
  refine insert fun hcurrent => ?_
  rw [LookingAhead.cursor_look]
  exact hcurrent cursor h

theorem erase (index : Int32) :
    d.ReadsOnly { d with context := { d.context with
      pairCursors := d.context.pairCursors.erase index } } := by
  refine of_cursors rfl rfl fun index' h cursor hget => ?_
  dsimp only at hget
  rw [OrderedMap.get?_erase] at hget
  split at hget
  · cases hget
  · exact h cursor hget

end ReadsOnly

end Desk

namespace Serving

variable {α β : Type}

/-- Serving that writes nothing, on any desk. -/
def Keeps (r : Serving Session α) : Prop :=
  ∀ d : Desk Session, d.ReadsOnly (d.run r).2

theorem Reads.keeps {r : Serving Session α} (h : Reads r) : Keeps r := by
  intro d
  rw [h d]
  exact .refl d

theorem Keeps.bind {r : Serving Session α} {f : α → Serving Session β} (hr : Keeps r)
    (hf : ∀ a, Keeps (f a)) : Keeps (r >>= f) := by
  intro d
  rw [run_bind]
  have hd := hr d
  cases hrun : d.run r with
  | mk result d' =>
    rw [hrun] at hd
    cases result with
    | ok a => exact hd.trans (hf a d')
    | error e => exact hd

theorem Reads.keeps_bind {r : Serving Session α} {f : α → Serving Session β} (hr : Reads r)
    (hf : ∀ a, Keeps (f a)) : Keeps (r >>= f) :=
  hr.keeps.bind hf

theorem keeps_update {f : Context → Context} (hcontract : ∀ c, (f c).contract = c.contract)
    (hcursors : ∀ c, (f c).pairCursors = c.pairCursors) : Keeps (update f) :=
  fun d => .of_eq (hcontract d.context) (hcursors d.context) rfl

theorem keeps_updateGet {f : Context → α × Context}
    (hcontract : ∀ c, (f c).2.contract = c.contract)
    (hcursors : ∀ c, (f c).2.pairCursors = c.pairCursors) : Keeps (updateGet f) :=
  fun d => .of_eq (hcontract d.context) (hcursors d.context) rfl

theorem keeps_replyCached (body : Packet) (b : Bytes) : Keeps (replyCached body b) :=
  (keeps_updateGet (fun _ => rfl) fun _ => rfl).bind fun _ =>
    (reads_place body).keeps_bind fun _ => (reads_pure _).keeps

theorem keeps_serveFetch (body : Packet) : Keeps (serveFetch body) :=
  (reads_place body).keeps_bind fun _ =>
    (keeps_updateGet (fun _ => rfl) fun _ => rfl).bind fun _ => (reads_pure _).keeps

/-- A ledger in memory has no tables that could change. -/
theorem keeps_ofTable {op : Session → String → Except LedgerFault α × Session}
    (hop : ∀ t name, (op t name).2 = t) {f : α → Serving Session β} (hf : ∀ a, Keeps (f a)) :
    Keeps (do f (← ofTable (op (← ledger) (← contractName)))) := by
  intro d
  have htable : Keeps (ofLedger (op d.ledger d.context.contract.name).1 >>= f) :=
    (reads_ofLedger _).keeps_bind hf
  have hsame :
      ({ d with ledger := (op d.ledger d.context.contract.name).2 } : Desk Session) = d := by
    rw [hop]
  have hrun : d.run (do f (← ofTable (op (← ledger) (← contractName)))) =
      Desk.run { d with ledger := (op d.ledger d.context.contract.name).2 }
        (ofLedger (op d.ledger d.context.contract.name).1 >>= f) := rfl
  rw [hrun, hsame]
  exact htable d

theorem keeps_serveCrypto (crypto : CryptoProvider) (family : CryptoFamily) (body : Packet) :
    Keeps (serveCrypto crypto family body) := by
  refine (reads_ofPacket _).keeps_bind fun op => ?_
  have hlift (x : Except RequestFault Bytes) :
      Reads (serveCrypto.liftExcept x : Serving Session Bytes) := by
    cases x with
    | ok b => exact reads_pure b
    | error e => exact reads_throw e
  exact (hlift _).keeps_bind fun result => keeps_replyCached body result

/-! ### Opening a cursor -/

/-- Serving that only looks something up, and gives nothing but what is in `P`. -/
structure Gives (P : α → Prop) (r : Serving Session α) : Prop where
  /-- It only looks something up. -/
  reads : Reads r
  /-- What it gives is in the set. -/
  value : ∀ {d : Desk Session} {a}, (d.run r).1 = .ok a → P a

theorem Reads.gives_bind {P : β → Prop} {r : Serving Session α} {f : α → Serving Session β}
    (hr : Reads r) (hf : ∀ a, Gives P (f a)) : Gives P (r >>= f) := by
  refine ⟨hr.bind fun a => (hf a).reads, fun {d b} hb => ?_⟩
  rw [run_bind] at hb
  cases hrun : d.run r with
  | mk result d' =>
    rw [hrun] at hb
    cases result with
    | ok a => exact (hf a).value hb
    | error e => cases hb

theorem gives_ofLedger {P : α → Prop} {x : Except LedgerFault α} (h : ∀ a, x = .ok a → P a) :
    Gives P (ofLedger x) := by
  refine ⟨reads_ofLedger x, fun {d a} ha => ?_⟩
  cases x with
  | ok a' =>
    cases ha
    exact h a rfl
  | error e => cases ha

/-- Serving goes on with what was given, or it fails there. -/
theorem Gives.comesTo_bind {P : α → Prop} {r : Serving Session α} {f : α → Serving Session β}
    {d : Desk Session} {Q : Except RequestFault β → Desk Session → Prop} (hr : Gives P r)
    (herror : ∀ e, Q (.error e) d) (hf : ∀ a, P a → ComesTo Q d (f a)) :
    ComesTo Q d (r >>= f) := by
  unfold ComesTo
  rw [run_bind]
  have hd := hr.reads d
  have hvalue : ∀ {a}, (d.run r).1 = .ok a → P a := hr.value
  cases hrun : d.run r with
  | mk result d' =>
    rw [hrun] at hd hvalue
    obtain rfl : d' = d := hd
    cases result with
    | ok a => exact hf a (hvalue rfl)
    | error e => exact herror e

/-- What opening a cursor comes to: nothing is written, and the cursor of which the number is told
is current. -/
def Opens (d : Desk Session) (result : Except RequestFault Reply) (d' : Desk Session) : Prop :=
  d.ReadsOnly d' ∧ ∀ ptr index, result = .ok (.int32 ptr index) → d'.CurrentAt index

theorem opens_serveRange (body : Packet) {select : Session → String → Serving Session (List Pair)}
    (hselect : ∀ t name, Gives (fun pairs : List Pair => ∀ pair ∈ pairs,
      t.get? name pair.1 = some pair.2) (select t name)) (d : Desk Session) :
    ComesTo (Opens d) d (serveRange body select) := by
  have hclass : d.ReadsOnly { d with context := d.context.mergeTxClass .iterator } :=
    .of_eq rfl rfl rfl
  refine comesTo_update_bind (comesTo_ledger_bind (comesTo_contractName_bind ?_))
  refine (hselect _ _).comesTo_bind (fun e => ⟨hclass, nofun⟩) fun pairs hpairs => ?_
  -- without a place for its number the cursor is not opened at all
  refine (reads_place body).comesTo_bind (fun e => ⟨hclass, nofun⟩) fun ptr => ?_
  refine comesTo_updateGet_bind ?_
  have hopened : d.ReadsOnly { d with context := { d.context with
      pairCursors := d.context.pairCursors.insert d.context.nextCursor { rest := pairs } } } :=
    .insert fun _ => hpairs
  refine ⟨hopened.trans (.of_eq rfl rfl rfl), fun ptr' index heq cursor hget pair hpair => ?_⟩
  -- the number that is told is the number under which the cursor was filed
  obtain ⟨-, hbytes⟩ := Reply.write.inj (Except.ok.inj heq)
  have hindex : index = d.context.nextCursor := by
    have htold := Bytes.toInt32?_eq_some_iff.2 hbytes
    rw [Bytes.toInt32?_eq_some_iff.2 rfl] at htold
    exact (Option.some.inj htold).symm
  have hset : ((d.context.mergeTxClass .iterator).openPairs pairs).2.pairCursors.get? index =
      some { rest := pairs } := by
    rw [hindex]
    exact OrderedMap.get?_insert_self _ _ _
  cases hset.symm.trans hget
  exact hpairs pair hpair

theorem opens_kvIterator (crypto : CryptoProvider) (body : Packet) (d : Desk Session) :
    ComesTo (Opens d) d (serveMethod crypto body .kvIterator) := by
  refine opens_serveRange body (fun t name => ?_) d
  refine (reads_stateKey _ _ _).gives_bind fun start => ?_
  refine (reads_stateKey _ _ _).gives_bind fun limit => gives_ofLedger fun pairs hpairs => ?_
  cases hpairs
  exact fun pair hpair => (Session.mem_scan_iff.1 hpair).2

theorem opens_kvPreIterator (crypto : CryptoProvider) (body : Packet) (d : Desk Session) :
    ComesTo (Opens d) d (serveMethod crypto body .kvPreIterator) := by
  refine opens_serveRange body (fun t name => ?_) d
  refine (reads_stateKey _ _ _).gives_bind fun stem => gives_ofLedger fun pairs hpairs => ?_
  cases hpairs
  exact fun pair hpair => (Session.mem_scan_iff.1 hpair).2

/-! ### Moving a cursor -/

theorem keeps_kvIteratorHasNext (crypto : CryptoProvider) (body : Packet) :
    Keeps (serveMethod crypto body .kvIteratorHasNext) := by
  intro d
  refine comesTo_context_bind (Q := fun _ d' => d.ReadsOnly d') ?_
  refine (reads_cursorIndex body).comesTo_bind (fun e => .refl d) fun index => ?_
  refine comesTo_ofCursor_bind (fun e _ => .refl d) fun answer hanswer => comesTo_update_bind ?_
  obtain ⟨more, after⟩ := answer
  obtain ⟨cursor, hcursor, -, rfl⟩ := Context.hasPair_eq_ok hanswer
  have hlooked := Desk.ReadsOnly.look (Context.get?_of_pairs hcursor)
  exact (reads_place body).comesTo_bind (fun e => hlooked) fun ptr => hlooked

theorem keeps_kvIteratorNextLen (crypto : CryptoProvider) (body : Packet) :
    Keeps (serveMethod crypto body .kvIteratorNextLen) := by
  refine (reads_cursorIndex body).keeps_bind fun index d => ?_
  refine comesTo_context_bind (Q := fun _ d' => d.ReadsOnly d') ?_
  refine comesTo_ofCursor_bind (fun e _ => .refl d) fun next hnext => ?_
  obtain ⟨pair?, after⟩ := next
  rcases Context.nextPair_eq_ok hnext with
    ⟨rfl, rfl⟩ | ⟨pair, cursor, moved, rfl, hcursor, hmoved, rfl⟩
  · exact comesTo_update_bind (.refl d)
  · have hadvanced := Desk.ReadsOnly.advance (Context.get?_of_pairs hcursor) hmoved
    exact comesTo_update_bind (hadvanced.trans (keeps_replyCached body _ _))

theorem keeps_kvIteratorClose (crypto : CryptoProvider) (body : Packet) :
    Keeps (serveMethod crypto body .kvIteratorClose) := by
  intro d
  refine comesTo_context_bind (Q := fun _ d' => d.ReadsOnly d') ?_
  refine (reads_cursorIndex body).comesTo_bind (fun e => .refl d) fun index => ?_
  refine comesTo_ofCursor_bind (fun e _ => .refl d) fun after hafter => comesTo_update_bind ?_
  rw [Context.closePairs_eq_ok hafter]
  exact .erase index

/-! ### All requests but two -/

/-- **A request with a packet that is no writing leaves cursors current.** -/
theorem keeps_serveMethod (crypto : CryptoProvider) (body : Packet) {m : Method}
    (hput : m ≠ .putState) (hdelete : m ≠ .deleteState) :
    Keeps (serveMethod crypto body m) := by
  -- method by method: whatever is not a write keeps the rows and the pairs as they are
  cases m with
  | putState => exact absurd rfl hput
  | deleteState => exact absurd rfl hdelete
  | kvIterator => exact fun d => (opens_kvIterator crypto body d).1
  | kvPreIterator => exact fun d => (opens_kvPreIterator crypto body d).1
  | kvIteratorHasNext => exact keeps_kvIteratorHasNext crypto body
  | kvIteratorNextLen => exact keeps_kvIteratorNextLen crypto body
  | kvIteratorClose => exact keeps_kvIteratorClose crypto body
  | getStateLen =>
    refine (reads_stateKey _ _ _).keeps_bind fun key => reads_ledger.keeps_bind fun t => ?_
    refine reads_contractName.keeps_bind fun name => (reads_ofLedger _).keeps_bind fun value => ?_
    exact keeps_replyCached body _
  | executeUpdate =>
    refine (reads_ofPacket _).keeps_bind fun sql => ?_
    exact keeps_ofTable (fun _ _ => rfl) fun changed =>
      (reads_place body).keeps_bind fun ptr => (reads_pure _).keeps
  | executeDdl =>
    refine (reads_ofPacket _).keeps_bind fun sql => ?_
    exact keeps_ofTable (fun _ _ => rfl) fun _ => (reads_pure _).keeps
  | executeQuery =>
    refine (reads_ofPacket _).keeps_bind fun sql => ?_
    refine keeps_ofTable (fun _ _ => rfl) fun rows => (reads_place body).keeps_bind fun ptr => ?_
    exact (keeps_updateGet (fun _ => rfl) fun _ => rfl).bind fun _ => (reads_pure _).keeps
  | executeQueryOneLen =>
    refine (reads_ofPacket _).keeps_bind fun sql => ?_
    exact keeps_ofTable (fun _ _ => rfl) fun row => keeps_replyCached body _
  | rsHasNext =>
    intro d
    refine comesTo_context_bind (Q := fun _ d' => d.ReadsOnly d') ?_
    refine (reads_cursorIndex body).comesTo_bind (fun e => .refl d) fun index => ?_
    refine comesTo_ofCursor_bind (fun e _ => .refl d) fun answer hanswer => comesTo_update_bind ?_
    obtain ⟨more, after⟩ := answer
    obtain ⟨cursor, -, -, rfl⟩ := Context.hasRow_eq_ok hanswer
    have hlooked : d.ReadsOnly { d with context := { d.context with
        rowCursors := d.context.rowCursors.insert index cursor.look } } := .of_eq rfl rfl rfl
    exact (reads_place body).comesTo_bind (fun e => hlooked) fun ptr => hlooked
  | rsNextLen =>
    refine (reads_cursorIndex body).keeps_bind fun index d => ?_
    refine comesTo_context_bind (Q := fun _ d' => d.ReadsOnly d') ?_
    refine comesTo_ofCursor_bind (fun e _ => .refl d) fun next hnext => ?_
    obtain ⟨row?, after⟩ := next
    rcases Context.nextRow_eq_ok hnext with ⟨rfl, rfl⟩ | ⟨row, cursor, moved, rfl, -, -, rfl⟩
    · exact comesTo_update_bind (.refl d)
    · have hmoved : d.ReadsOnly { d with context := { d.context with
          rowCursors := d.context.rowCursors.insert index moved } } := .of_eq rfl rfl rfl
      exact comesTo_update_bind (hmoved.trans (keeps_replyCached body _ _))
  | rsClose =>
    intro d
    refine comesTo_context_bind (Q := fun _ d' => d.ReadsOnly d') ?_
    refine (reads_cursorIndex body).comesTo_bind (fun e => .refl d) fun index => ?_
    refine comesTo_ofCursor_bind (fun e _ => .refl d) fun after hafter => comesTo_update_bind ?_
    rw [Context.closeRows_eq_ok hafter]
    exact .of_eq rfl rfl rfl
  | emitEvent =>
    refine reads_context.keeps_bind fun c => reads_ledger.keeps_bind fun t => ?_
    refine (reads_ofCursor _).keeps_bind fun event => ?_
    have hpush : Keeps (update (·.pushEvents [event])) := keeps_update (fun _ => rfl) fun _ => rfl
    exact hpush.bind fun _ => (reads_pure _).keeps
  | getPaillierResultLen => exact keeps_serveCrypto crypto _ body
  | getBulletproofsResultLen => exact keeps_serveCrypto crypto _ body
  | getState => exact keeps_serveFetch body
  | kvIteratorNext => exact keeps_serveFetch body
  | executeQueryOne => exact keeps_serveFetch body
  | rsNext => exact keeps_serveFetch body
  | callContract => exact keeps_serveFetch body
  | getPaillierResult => exact keeps_serveFetch body
  | getBulletproofsResult => exact keeps_serveFetch body
  | logMessage => exact (reads_throw _).keeps
  | successResult => exact (reads_throw _).keeps
  | errorResult => exact (reads_throw _).keeps
  | callContractLen => exact (reads_throw _).keeps

/-- The two requests that write. -/
def writings : List String :=
  ["put_state", "delete_state"]

theorem keeps_serve (crypto : CryptoProvider) {name : String} (hname : name ∉ writings)
    (body : Bytes) : Keeps (serve crypto name body) := by
  unfold serve
  split
  · exact (reads_throw _).keeps
  · have hlog : Keeps (modify (·.log (Utf8.decodeLossy body)) : Serving Session Unit) :=
      fun d => .of_eq rfl rfl rfl
    exact hlog.bind fun _ => (reads_pure _).keeps
  · have hset : Keeps (updateGet (·.setSuccess body) : Serving Session Bool) := by
      refine keeps_updateGet (fun c => ?_) fun c => ?_ <;>
        simp only [Context.setSuccess] <;> split <;> rfl
    exact hset.bind fun _ => (reads_pure _).keeps
  · have hset : Keeps (update (·.setError (Utf8.decodeLossy body))) :=
      keeps_update (fun _ => rfl) fun _ => rfl
    exact hset.bind fun _ => (reads_pure _).keeps
  · rename_i m _ _ _ hm
    -- the methods that write are left out, and only they could be these
    have hother {m' : Method} (hm' : m'.name ∈ writings) : m ≠ m' := by
      rintro rfl
      have hnamed : m.name = name := by simpa [Method.ofName?] using List.find?_some hm
      exact hname (hnamed ▸ hm')
    exact (reads_ofPacket _).keeps_bind fun packet =>
      keeps_serveMethod crypto packet (hother (by decide)) (hother (by decide))

end Serving

namespace Desk

theorem readsOnly_record (d : Desk Session) (e : RequestFault) : d.ReadsOnly (d.record e) := by
  cases e with
  | failed e => exact .of_eq rfl rfl rfl
  | crashed message => exact .refl d

theorem readsOnly_handle (crypto : CryptoProvider) {name : String} (hname : name ∉ writings)
    (body : Bytes) (d : Desk Session) : d.ReadsOnly (d.handle crypto name body).2 := by
  have hserve := keeps_serve crypto hname body d
  unfold handle
  generalize d.run (serve crypto name body) = served at hserve ⊢
  obtain ⟨result, d'⟩ := served
  cases result with
  | error e => exact hserve.trans (readsOnly_record d' e)
  | ok reply => exact hserve

/-- **Requests that write nothing leave cursors current**, and the ledger as it was. -/
theorem readsOnly_handleAll (crypto : CryptoProvider) {requests : List (String × Bytes)}
    (h : ∀ r ∈ requests, r.1 ∉ writings) (d : Desk Session) :
    d.ReadsOnly (d.handleAll crypto requests).2 := by
  induction requests generalizing d with
  | nil => exact .refl d
  | cons request rest ih =>
    obtain ⟨hfirst, hrest⟩ := List.forall_mem_cons.1 h
    exact (readsOnly_handle crypto hfirst request.2 d).trans (ih hrest _)

end Desk

end ContractHost
