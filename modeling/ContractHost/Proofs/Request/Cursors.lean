import ContractHost.Proofs.OrderedMap
import ContractHost.Proofs.Request.Effects

/-!
# Cursors

A cursor over pairs and a cursor over rows are opened, moved and closed by requests of their own,
and these do the same for both.  A cursor that is asked for its next element takes one off the front
of what it has still to give.  One that is asked whether there is a next element looks ahead, and
has as much to give as before.  No other request touches it.

## Main definitions

* `CursorKind` — cursors over pairs and cursors over rows, with the requests that concern them.
* `Context.due` — what an open cursor has still to give.
* `Context.Turns` — one cursor has been set or closed, and all others are as before.
* `Presents` — what is there when a cursor is opened.

## Main results

* `run_nextLen_of_cons` — **a cursor with a next element moves on and gives it.**
* `opening_serveMethod` — **opening a cursor sets it to what is there.**
* `still_serveMethod` — **no other request touches a cursor.**
-/

namespace ContractHost

open Serving StateKey

/-! ### Cursors of both kinds -/

/-- What a cursor walks over. -/
inductive CursorKind
  /-- Pairs of the ledger. -/
  | pairs
  /-- Rows of a query. -/
  | rows
  deriving Repr, DecidableEq

namespace CursorKind

/-- The requests that open a cursor. -/
def openings : CursorKind → List Method
  | .pairs => [.kvIterator, .kvPreIterator]
  | .rows => [.executeQuery]

/-- The request that asks whether a cursor has a next element. -/
def hasNext : CursorKind → Method
  | .pairs => .kvIteratorHasNext
  | .rows => .rsHasNext

/-- The request that moves a cursor to its next element. -/
def nextLen : CursorKind → Method
  | .pairs => .kvIteratorNextLen
  | .rows => .rsNextLen

/-- The request that closes a cursor. -/
def close : CursorKind → Method
  | .pairs => .kvIteratorClose
  | .rows => .rsClose

end CursorKind

theorem Method.ofName?_name (m : Method) : ofName? m.name = some m := by
  cases m <;> decide

namespace Context

/-- The elements that an open cursor has still to give, in the form in which they are kept to be
fetched. -/
def due (c : Context) : CursorKind → Int32 → Option (List Bytes)
  | .pairs, index => (c.pairCursors.get? index).map (·.cursor.remaining.map encodePair)
  | .rows, index => (c.rowCursors.get? index).map (·.cursor.remaining.map Row.encode)

/-- One cursor has now something to give, or is not open any more, and all others are as before. -/
def Turns (k : CursorKind) (index : Int32) (blobs? : Option (List Bytes)) (c c' : Context) : Prop :=
  ∀ k' index', c'.due k' index' = if k' = k ∧ index' = index then blobs? else c.due k' index'

variable {c c' : Context} {k k' : CursorKind} {index index' : Int32} {blobs? : Option (List Bytes)}

theorem SameCursors.due (h : c.SameCursors c') (k : CursorKind) (index : Int32) :
    c'.due k index = c.due k index := by
  cases k with
  | pairs =>
    have hpairs := congrArg (Option.map (·.remaining.map encodePair)) (h.pairs index)
    rw [Option.map_map, Option.map_map] at hpairs
    exact hpairs
  | rows =>
    have hrows := congrArg (Option.map (·.remaining.map Row.encode)) (h.rows index)
    rw [Option.map_map, Option.map_map] at hrows
    exact hrows

theorem Turns.due_self (h : Turns k index blobs? c c') : c'.due k index = blobs? := by
  rw [h, if_pos ⟨rfl, rfl⟩]

theorem Turns.due_of_ne (h : Turns k index blobs? c c') (hne : ¬ (k' = k ∧ index' = index)) :
    c'.due k' index' = c.due k' index' := by
  rw [h, if_neg hne]

theorem map_get?_insert {α : Type} (m : OrderedMap Int32 (LookingAhead α))
    (f : LookingAhead α → List Bytes) (index index' : Int32) (cursor : LookingAhead α) :
    ((m.insert index cursor).get? index').map f =
      if index' = index then some (f cursor) else (m.get? index').map f := by
  rw [OrderedMap.get?_insert_ite]
  by_cases h : index = index'
  · rw [if_pos h, if_pos h.symm, Option.map_some]
  · rw [if_neg h, if_neg (Ne.symm h)]

theorem map_get?_erase {α : Type} (m : OrderedMap Int32 (LookingAhead α))
    (f : LookingAhead α → List Bytes) (index index' : Int32) :
    ((m.erase index).get? index').map f =
      if index' = index then none else (m.get? index').map f := by
  rw [OrderedMap.get?_erase_ite]
  by_cases h : index = index'
  · rw [if_pos h, if_pos h.symm, Option.map_none]
  · rw [if_neg h, if_neg (Ne.symm h)]

theorem turns_insertPairs (c : Context) (index : Int32) (cursor : LookingAhead Pair) :
    Turns .pairs index (some (cursor.cursor.remaining.map encodePair)) c
      { c with pairCursors := c.pairCursors.insert index cursor } := by
  intro k' index'
  cases k' with
  | pairs => simp only [due, map_get?_insert, true_and]
  | rows => rfl

theorem turns_insertRows (c : Context) (index : Int32) (cursor : LookingAhead Row) :
    Turns .rows index (some (cursor.cursor.remaining.map Row.encode)) c
      { c with rowCursors := c.rowCursors.insert index cursor } := by
  intro k' index'
  cases k' with
  | pairs => rfl
  | rows => simp only [due, map_get?_insert, true_and]

theorem turns_erasePairs (c : Context) (index : Int32) :
    Turns .pairs index none c { c with pairCursors := c.pairCursors.erase index } := by
  intro k' index'
  cases k' with
  | pairs => simp only [due, map_get?_erase, true_and]
  | rows => rfl

theorem turns_eraseRows (c : Context) (index : Int32) :
    Turns .rows index none c { c with rowCursors := c.rowCursors.erase index } := by
  intro k' index'
  cases k' with
  | pairs => rfl
  | rows => simp only [due, map_get?_erase, true_and]

/-- There is no cursor over pairs where none has anything to give. -/
theorem pairs_of_due_none (h : c.due .pairs index = none) :
    c.pairs index = .error (.unknownCursor index) := by
  unfold pairs
  rw [Option.map_eq_none_iff.mp h]

theorem pairs_of_due_some {blobs : List Bytes} (h : c.due .pairs index = some blobs) :
    ∃ cursor, c.pairs index = .ok cursor ∧ cursor.cursor.remaining.map encodePair = blobs := by
  obtain ⟨cursor, hget, hblobs⟩ := Option.map_eq_some_iff.mp h
  refine ⟨cursor, ?_, hblobs⟩
  unfold pairs
  rw [hget]

theorem rows_of_due_none (h : c.due .rows index = none) :
    c.rows index = .error (.unknownCursor index) := by
  unfold rows
  rw [Option.map_eq_none_iff.mp h]

theorem rows_of_due_some {blobs : List Bytes} (h : c.due .rows index = some blobs) :
    ∃ cursor, c.rows index = .ok cursor ∧ cursor.cursor.remaining.map Row.encode = blobs := by
  obtain ⟨cursor, hget, hblobs⟩ := Option.map_eq_some_iff.mp h
  refine ⟨cursor, ?_, hblobs⟩
  unfold rows
  rw [hget]

/-- Closes a cursor of either kind. -/
def close (c : Context) : CursorKind → Int32 → Except SyscallError Context
  | .pairs, index => c.closePairs index
  | .rows, index => c.closeRows index

/-- The next element of a cursor of either kind, in the form in which it is kept to be fetched. -/
def nextBlob (c : Context) : CursorKind → Int32 → Except SyscallError (Option Bytes × Context)
  | .pairs, index => (c.nextPair index).map fun next => (next.1.map encodePair, next.2)
  | .rows, index => (c.nextRow index).map fun next => (next.1.map Row.encode, next.2)

/-- Asks a cursor of either kind whether it has a next element. -/
def ask (c : Context) : CursorKind → Int32 → Except SyscallError (Bool × Context)
  | .pairs, index => c.hasPair index
  | .rows, index => c.hasRow index

theorem ask_of_due_none (h : c.due k index = none) :
    c.ask k index = .error (.unknownCursor index) := by
  cases k with
  | pairs =>
    show c.hasPair index = _
    unfold hasPair
    rw [pairs_of_due_none h]
    rfl
  | rows =>
    show c.hasRow index = _
    unfold hasRow
    rw [rows_of_due_none h]
    rfl

/-- **A cursor that is asked looks ahead**, and has as much to give as before. -/
theorem ask_of_due_some {blobs : List Bytes} (h : c.due k index = some blobs) :
    ∃ after, c.ask k index = .ok (!blobs.isEmpty, after) ∧ c.Looked after := by
  cases k with
  | pairs =>
    obtain ⟨cursor, hcursor, rfl⟩ := pairs_of_due_some h
    refine ⟨_, ?_, looked_insertPairs hcursor⟩
    show c.hasPair index = _
    unfold hasPair
    rw [hcursor, List.isEmpty_map]
    exact congrArg (fun more => Except.ok (more, _)) cursor.hasNext_eq
  | rows =>
    obtain ⟨cursor, hcursor, rfl⟩ := rows_of_due_some h
    refine ⟨_, ?_, looked_insertRows hcursor⟩
    show c.hasRow index = _
    unfold hasRow
    rw [hcursor, List.isEmpty_map]
    exact congrArg (fun more => Except.ok (more, _)) cursor.hasNext_eq

theorem close_of_due_none (h : c.due k index = none) :
    c.close k index = .error (.unknownCursor index) := by
  cases k with
  | pairs =>
    show c.closePairs index = _
    unfold closePairs
    rw [pairs_of_due_none h]
    rfl
  | rows =>
    show c.closeRows index = _
    unfold closeRows
    rw [rows_of_due_none h]
    rfl

/-- **A cursor that is open can be closed**, and then it is not there any more. -/
theorem close_of_due_some {blobs : List Bytes} (h : c.due k index = some blobs) :
    ∃ after, c.close k index = .ok after ∧ Turns k index none c after ∧
      after.nextCursor = c.nextCursor := by
  cases k with
  | pairs =>
    obtain ⟨pairs, hpairs, -⟩ := pairs_of_due_some h
    show ∃ after, c.closePairs index = .ok after ∧ _
    unfold closePairs
    rw [hpairs]
    exact ⟨_, rfl, turns_erasePairs c index, rfl⟩
  | rows =>
    obtain ⟨rows, hrows, -⟩ := rows_of_due_some h
    show ∃ after, c.closeRows index = .ok after ∧ _
    unfold closeRows
    rw [hrows]
    exact ⟨_, rfl, turns_eraseRows c index, rfl⟩

theorem nextBlob_of_due_none (h : c.due k index = none) :
    c.nextBlob k index = .error (.unknownCursor index) := by
  cases k with
  | pairs =>
    show (c.nextPair index).map _ = _
    unfold nextPair
    rw [pairs_of_due_none h]
    rfl
  | rows =>
    show (c.nextRow index).map _ = _
    unfold nextRow
    rw [rows_of_due_none h]
    rfl

/-- A cursor that has given everything stays where it is. -/
theorem nextBlob_of_due_nil (h : c.due k index = some []) :
    c.nextBlob k index = .ok (none, c) := by
  cases k with
  | pairs =>
    obtain ⟨cursor, hcursor, hnil⟩ := pairs_of_due_some h
    have hnext := LookingAhead.next?_of_nil (List.map_eq_nil_iff.mp hnil)
    show (c.nextPair index).map _ = _
    unfold nextPair
    rw [hcursor]
    simp only [bind, Except.bind, hnext]
    rfl
  | rows =>
    obtain ⟨cursor, hcursor, hnil⟩ := rows_of_due_some h
    have hnext := LookingAhead.next?_of_nil (List.map_eq_nil_iff.mp hnil)
    show (c.nextRow index).map _ = _
    unfold nextRow
    rw [hcursor]
    simp only [bind, Except.bind, hnext]
    rfl

/-- **A cursor with a next element gives it, and moves on.** -/
theorem nextBlob_of_due_cons {b : Bytes} {rest : List Bytes}
    (h : c.due k index = some (b :: rest)) :
    ∃ after, c.nextBlob k index = .ok (some b, after) ∧ Turns k index (some rest) c after := by
  cases k with
  | pairs =>
    obtain ⟨cursor, hcursor, hcons⟩ := pairs_of_due_some h
    obtain ⟨pair, pairs, hremaining, rfl, rfl⟩ := List.map_eq_cons_iff.mp hcons
    obtain ⟨moved, hnext, rfl⟩ := LookingAhead.next?_of_cons hremaining
    show ∃ after, (c.nextPair index).map _ = .ok (_, after) ∧ _
    unfold nextPair
    rw [hcursor]
    simp only [bind, Except.bind, hnext]
    exact ⟨_, rfl, turns_insertPairs c index moved⟩
  | rows =>
    obtain ⟨cursor, hcursor, hcons⟩ := rows_of_due_some h
    obtain ⟨row, rows, hremaining, rfl, rfl⟩ := List.map_eq_cons_iff.mp hcons
    obtain ⟨moved, hnext, rfl⟩ := LookingAhead.next?_of_cons hremaining
    show ∃ after, (c.nextRow index).map _ = .ok (_, after) ∧ _
    unfold nextRow
    rw [hcursor]
    simp only [bind, Except.bind, hnext]
    exact ⟨_, rfl, turns_insertRows c index moved⟩

theorem due_recordError (c : Context) (text : String) (k : CursorKind) (index : Int32) :
    (c.recordError text).due k index = c.due k index :=
  SameCursors.due (.of_eq rfl rfl) k index

end Context

/-! ### Single requests -/

section

variable {τ α β : Type} [LedgerAccess τ] {d : Desk τ} {c : Context} {body : Packet}
variable {k : CursorKind} {index ptr : Int32}

omit [LedgerAccess τ] in
theorem Serving.Reads.still_bind {r : Serving τ α} {f : α → Serving τ β} (hr : Reads r)
    (hd : c.SameCursors d.context)
    (hf : ∀ a, ComesTo (fun _ d' => c.SameCursors d'.context) d (f a)) :
    ComesTo (fun _ d' => c.SameCursors d'.context) d (r >>= f) :=
  hr.comesTo_bind (fun _ => hd) hf

omit [LedgerAccess τ] in
theorem still_replyCached (hd : c.SameCursors d.context) (body : Packet) (b : Bytes) :
    ComesTo (fun _ d' => c.SameCursors d'.context) d (replyCached body b) := by
  unfold ComesTo
  rw [run_replyCached]
  cases body.getInt32 "value_ptr" with
  | ok ptr => exact ⟨hd.pairs, hd.rows⟩
  | error e => exact ⟨hd.pairs, hd.rows⟩

omit [LedgerAccess τ] in
theorem still_ofTable_bind {answer : Except LedgerFault α × τ} {f : α → Serving τ β}
    (hd : c.SameCursors d.context)
    (hf : ∀ a, ComesTo (fun _ d' => c.SameCursors d'.context) { d with ledger := answer.2 } (f a)) :
    ComesTo (fun _ d' => c.SameCursors d'.context) d (ofTable answer >>= f) := by
  unfold ofTable
  rw [bind_assoc]
  exact comesTo_putLedger_bind ((reads_ofLedger _).still_bind hd hf)

omit [LedgerAccess τ] in
theorem still_serveCrypto (crypto : CryptoProvider) (family : CryptoFamily) (body : Packet)
    (hd : c.SameCursors d.context) :
    ComesTo (fun _ d' => c.SameCursors d'.context) d (serveCrypto crypto family body) := by
  refine (reads_ofPacket _).still_bind hd fun op => ?_
  cases crypto.compute family op body with
  | ok b => exact still_replyCached hd body b
  | error e => exact hd

/-- **A request that neither opens a cursor nor moves or closes one leaves all cursors as they
are.** -/
theorem still_serveMethod (crypto : CryptoProvider) (body : Packet) {m : Method}
    (hopen : ∀ k : CursorKind, m ∉ k.openings) (hnext : ∀ k : CursorKind, m ≠ k.nextLen)
    (hclose : ∀ k : CursorKind, m ≠ k.close) (d : Desk τ) :
    ComesTo (fun _ d' => d.context.SameCursors d'.context) d (serveMethod crypto body m) := by
  have hd := Context.SameCursors.refl d.context
  have hfetch {m : Method} (hfetches : m.fetches = true) :
      ComesTo (fun _ d' => d.context.SameCursors d'.context) d (serveMethod crypto body m) := by
    rw [serveMethod_of_fetches crypto body hfetches]
    exact (reads_place body).still_bind hd fun ptr => comesTo_updateGet_bind (.of_eq rfl rfl)
  cases m with
  | kvIterator => exact absurd (by decide) (hopen .pairs)
  | kvPreIterator => exact absurd (by decide) (hopen .pairs)
  | executeQuery => exact absurd (by decide) (hopen .rows)
  | kvIteratorNextLen => exact absurd rfl (hnext .pairs)
  | rsNextLen => exact absurd rfl (hnext .rows)
  | kvIteratorClose => exact absurd rfl (hclose .pairs)
  | rsClose => exact absurd rfl (hclose .rows)
  | logMessage | successResult | errorResult | callContractLen => exact hd
  | getState => exact hfetch rfl
  | kvIteratorNext => exact hfetch rfl
  | executeQueryOne => exact hfetch rfl
  | rsNext => exact hfetch rfl
  | callContract => exact hfetch rfl
  | getPaillierResult => exact hfetch rfl
  | getBulletproofsResult => exact hfetch rfl
  | getPaillierResultLen => exact still_serveCrypto crypto _ body hd
  | getBulletproofsResultLen => exact still_serveCrypto crypto _ body hd
  | getStateLen =>
    refine (reads_stateKey _ _ _).still_bind hd fun key => reads_ledger.still_bind hd fun t => ?_
    refine reads_contractName.still_bind hd fun name => ?_
    exact (reads_ofLedger _).still_bind hd fun value => still_replyCached hd body _
  | putState =>
    refine (reads_stateKey _ _ _).still_bind hd fun key => ?_
    refine (reads_ofPacket _).still_bind hd fun value => reads_ledger.still_bind hd fun t => ?_
    refine reads_contractName.still_bind hd fun name => ?_
    exact (reads_ofLedger _).still_bind hd fun t => comesTo_putLedger_bind (.of_eq rfl rfl)
  | deleteState =>
    refine (reads_stateKey _ _ _).still_bind hd fun key => reads_ledger.still_bind hd fun t => ?_
    refine reads_contractName.still_bind hd fun name => ?_
    exact (reads_ofLedger _).still_bind hd fun t => comesTo_putLedger_bind (.of_eq rfl rfl)
  | kvIteratorHasNext =>
    refine comesTo_context_bind ((reads_cursorIndex body).still_bind hd fun index => ?_)
    refine comesTo_ofCursor_bind (fun e _ => hd) fun answer hanswer => comesTo_update_bind ?_
    obtain ⟨more, after⟩ := answer
    -- the cursor has looked ahead, and that is all that has become of it
    obtain ⟨cursor, hcursor, -, rfl⟩ := Context.hasPair_eq_ok hanswer
    have hlooked := (Context.looked_insertPairs hcursor).cursors
    exact (reads_place body).still_bind hlooked fun ptr => hlooked
  | rsHasNext =>
    refine comesTo_context_bind ((reads_cursorIndex body).still_bind hd fun index => ?_)
    refine comesTo_ofCursor_bind (fun e _ => hd) fun answer hanswer => comesTo_update_bind ?_
    obtain ⟨more, after⟩ := answer
    -- the cursor has looked ahead, and that is all that has become of it
    obtain ⟨cursor, hcursor, -, rfl⟩ := Context.hasRow_eq_ok hanswer
    have hlooked := (Context.looked_insertRows hcursor).cursors
    exact (reads_place body).still_bind hlooked fun ptr => hlooked
  | executeUpdate =>
    refine (reads_ofPacket _).still_bind hd fun sql => reads_ledger.still_bind hd fun t => ?_
    refine reads_contractName.still_bind hd fun name => still_ofTable_bind hd fun changed => ?_
    exact (reads_place body).still_bind (.of_eq rfl rfl) fun ptr => .of_eq rfl rfl
  | executeDdl =>
    refine (reads_ofPacket _).still_bind hd fun sql => reads_ledger.still_bind hd fun t => ?_
    exact reads_contractName.still_bind hd fun name => still_ofTable_bind hd fun _ => .of_eq rfl rfl
  | executeQueryOneLen =>
    refine (reads_ofPacket _).still_bind hd fun sql => reads_ledger.still_bind hd fun t => ?_
    refine reads_contractName.still_bind hd fun name => still_ofTable_bind hd fun row => ?_
    apply still_replyCached
    exact hd
  | emitEvent =>
    refine reads_context.still_bind hd fun c => reads_ledger.still_bind hd fun t => ?_
    exact (reads_ofCursor _).still_bind hd fun event => comesTo_update_bind (.of_eq rfl rfl)

/-! ### Requests for a cursor -/

section

variable (crypto : CryptoProvider)

/-- The request whether a cursor has a next element makes it look ahead. -/
theorem run_hasNext (crypto : CryptoProvider) (k : CursorKind)
    (hindex : body.getInt32 "rs_index" = .ok index) (d : Desk τ) :
    d.run (serveMethod crypto body k.hasNext) =
      d.run (ofCursor (d.context.ask k index) >>= fun answer =>
        update (fun _ => answer.2) >>= fun _ =>
          place body >>= fun ptr => pure (.int32 ptr (if answer.1 then 1 else 0))) := by
  cases k with
  | pairs =>
    simp only [CursorKind.hasNext, serveMethod, cursorIndex, hindex]
    rfl
  | rows =>
    simp only [CursorKind.hasNext, serveMethod, cursorIndex, hindex]
    rfl

theorem run_hasNext_of_none (hindex : body.getInt32 "rs_index" = .ok index)
    (hdue : d.context.due k index = none) :
    d.run (serveMethod crypto body k.hasNext) = (.error (.failed (.unknownCursor index)), d) := by
  rw [run_hasNext crypto k hindex, Context.ask_of_due_none hdue]
  rfl

/-- A cursor that is open says whether it has a next element, and has as much to give as before. -/
theorem run_hasNext_of_some {blobs : List Bytes} (hindex : body.getInt32 "rs_index" = .ok index)
    (hplace : body.getInt32 "value_ptr" = .ok ptr) (hdue : d.context.due k index = some blobs) :
    ∃ after, d.context.Looked after ∧
      d.run (serveMethod crypto body k.hasNext) =
        (.ok (.int32 ptr (if blobs = [] then 0 else 1)), { d with context := after }) := by
  obtain ⟨after, hask, hlooked⟩ := Context.ask_of_due_some hdue
  refine ⟨after, hlooked, ?_⟩
  rw [run_hasNext crypto k hindex, hask]
  simp only [place, hplace]
  cases blobs <;> rfl

/-- The request for the next element takes it off the cursor, and keeps it if there is one. -/
theorem run_nextLen (crypto : CryptoProvider) (k : CursorKind)
    (hindex : body.getInt32 "rs_index" = .ok index) (d : Desk τ) :
    d.run (serveMethod crypto body k.nextLen) =
      d.run (ofCursor (d.context.nextBlob k index) >>= fun next =>
        update (fun _ => next.2) >>= fun _ =>
          match next.1 with
          | some b => replyCached body b
          | none => exhausted index) := by
  cases k with
  | pairs =>
    simp only [CursorKind.nextLen, serveMethod, cursorIndex, hindex, Context.nextBlob]
    show d.run (ofCursor (d.context.nextPair index) >>= _) = _
    rcases d.context.nextPair index with e | ⟨_ | pair, after⟩ <;> rfl
  | rows =>
    simp only [CursorKind.nextLen, serveMethod, cursorIndex, hindex, Context.nextBlob]
    show d.run (ofCursor (d.context.nextRow index) >>= _) = _
    rcases d.context.nextRow index with e | ⟨_ | row, after⟩ <;> rfl

theorem run_nextLen_of_none (hindex : body.getInt32 "rs_index" = .ok index)
    (hdue : d.context.due k index = none) :
    d.run (serveMethod crypto body k.nextLen) = (.error (.failed (.unknownCursor index)), d) := by
  rw [run_nextLen crypto k hindex, Context.nextBlob_of_due_none hdue]
  rfl

/-- A cursor that has given everything says so, and stays where it is. -/
theorem run_nextLen_of_nil (hindex : body.getInt32 "rs_index" = .ok index)
    (hdue : d.context.due k index = some []) :
    d.run (serveMethod crypto body k.nextLen) =
      (.error (.failed (.invalidArgument s!"cursor {index.toInt} has no next element")), d) := by
  rw [run_nextLen crypto k hindex, Context.nextBlob_of_due_nil hdue]
  rfl

/-- **A cursor with a next element moves on and gives it to be kept.** -/
theorem run_nextLen_of_cons {b : Bytes} {rest : List Bytes}
    (hindex : body.getInt32 "rs_index" = .ok index)
    (hdue : d.context.due k index = some (b :: rest)) :
    ∃ after, Context.Turns k index (some rest) d.context after ∧
      d.run (serveMethod crypto body k.nextLen) =
        Desk.run { d with context := after } (replyCached body b) := by
  obtain ⟨after, hnext, hturns⟩ := Context.nextBlob_of_due_cons hdue
  refine ⟨after, hturns, ?_⟩
  rw [run_nextLen crypto k hindex, hnext]
  rfl

/-- The request to close a cursor closes it. -/
theorem run_close (crypto : CryptoProvider) (k : CursorKind)
    (hindex : body.getInt32 "rs_index" = .ok index) (d : Desk τ) :
    d.run (serveMethod crypto body k.close) =
      d.run (ofCursor (d.context.close k index) >>= fun after =>
        update (fun _ => after) >>= fun _ => pure .done) := by
  cases k with
  | pairs =>
    simp only [CursorKind.close, serveMethod, cursorIndex, hindex]
    rfl
  | rows =>
    simp only [CursorKind.close, serveMethod, cursorIndex, hindex]
    rfl

theorem run_close_of_none (hindex : body.getInt32 "rs_index" = .ok index)
    (hdue : d.context.due k index = none) :
    d.run (serveMethod crypto body k.close) = (.error (.failed (.unknownCursor index)), d) := by
  rw [run_close crypto k hindex, Context.close_of_due_none hdue]
  rfl

theorem run_close_of_some {blobs : List Bytes} (hindex : body.getInt32 "rs_index" = .ok index)
    (hdue : d.context.due k index = some blobs) :
    ∃ after, Context.Turns k index none d.context after ∧
      d.run (serveMethod crypto body k.close) = (.ok .done, { d with context := after }) := by
  obtain ⟨after, hclose, hturns, -⟩ := Context.close_of_due_some hdue
  refine ⟨after, hturns, ?_⟩
  rw [run_close crypto k hindex, hclose]
  rfl

/-- A request for a cursor that names none fails. -/
theorem run_of_unnamed {e : PacketError} (hindex : body.getInt32 "rs_index" = .error e) {m : Method}
    (hm : m = k.nextLen ∨ m = k.close) :
    d.run (serveMethod crypto body m) = (.error (.failed (.packet e)), d) := by
  rcases hm with rfl | rfl
  all_goals
    cases k <;>
      simp only [CursorKind.nextLen, CursorKind.close, serveMethod, cursorIndex, hindex] <;> rfl

end

/-! ### Opening a cursor -/

/-- What is there when a cursor is opened: the pairs that the ledger lists from a start on and below
a limit, those that it lists with a stem, or the rows that it gives for a query. -/
inductive Presents (t : τ) (contract : String) (body : Packet) : Method → List Bytes → Prop
  /-- A range of keys. -/
  | range {start startField limit limitField : String} {pairs : List Pair}
      (hstart : body.getText "start_key" = .ok start)
      (hstartField : body.getTextOrEmpty "start_field" = .ok startField)
      (hlimit : body.getText "limit_key" = .ok limit)
      (hlimitField : body.getTextOrEmpty "limit_field" = .ok limitField)
      (hpairs : LedgerAccess.select t contract (join start startField) (join limit limitField) =
        .ok pairs) : Presents t contract body .kvIterator (pairs.map encodePair)
  /-- The keys with a stem. -/
  | stem {stem field : String} {pairs : List Pair} (hstem : body.getText "prefix" = .ok stem)
      (hfield : body.getTextOrEmpty "field" = .ok field)
      (hpairs : LedgerAccess.selectWithin t contract (join stem field) = .ok pairs) :
      Presents t contract body .kvPreIterator (pairs.map encodePair)
  /-- The rows of a query. -/
  | query {sql : String} {rows : List Row} (hsql : body.getText "sql" = .ok sql)
      (hrows : (LedgerAccess.query t contract sql).1 = .ok rows) :
      Presents t contract body .executeQuery (rows.map Row.encode)

/-- What a request that opens a cursor comes to: it fails and leaves all cursors as they are, or it
sets a cursor to what is there, and tells its number. -/
inductive Opening (k : CursorKind) (m : Method) (body : Packet) (d : Desk τ) :
    Except RequestFault Reply → Desk τ → Prop
  /-- It fails. -/
  | failed (e : RequestFault) {d' : Desk τ} (h : d.context.SameCursors d'.context) :
      Opening k m body d (.error e) d'
  /-- A cursor is set. -/
  | opened (ptr : Int32) {blobs : List Bytes} {d' : Desk τ}
      (hpresents : Presents d.ledger d.context.contract.name body m blobs)
      (hturns : Context.Turns k d.context.nextCursor (some blobs) d.context d'.context) :
      Opening k m body d (.ok (.int32 ptr d.context.nextCursor)) d'

/-- **Opening a cursor sets it to what is there.** -/
theorem opening_serveMethod (crypto : CryptoProvider) {m : Method} (hm : m ∈ k.openings)
    (d : Desk τ) : ComesTo (Opening k m body d) d (serveMethod crypto body m) := by
  have hclassed (e : RequestFault) : Opening k m body d (.error e)
      { d with context := d.context.mergeTxClass .iterator } := .failed e (.of_eq rfl rfl)
  cases k with
  | pairs =>
    obtain rfl | rfl : m = .kvIterator ∨ m = .kvPreIterator := by
      simpa [CursorKind.openings] using hm
    · refine comesTo_update_bind (comesTo_ledger_bind (comesTo_contractName_bind ?_))
      rw [bind_assoc]
      refine comesTo_stateKey_bind hclassed fun start startField hstart hstartField => ?_
      rw [bind_assoc]
      refine comesTo_stateKey_bind hclassed fun limit limitField hlimit hlimitField => ?_
      refine comesTo_ofLedger_bind hclassed fun pairs hpairs => ?_
      refine (reads_place body).comesTo_bind hclassed fun ptr => comesTo_updateGet_bind ?_
      have hpresents := Presents.range hstart hstartField hlimit hlimitField hpairs
      exact .opened ptr hpresents (Context.turns_insertPairs d.context _ { rest := pairs })
    · refine comesTo_update_bind (comesTo_ledger_bind (comesTo_contractName_bind ?_))
      rw [bind_assoc]
      refine comesTo_stateKey_bind hclassed fun stem field hstem hfield => ?_
      refine comesTo_ofLedger_bind hclassed fun pairs hpairs => ?_
      refine (reads_place body).comesTo_bind hclassed fun ptr => comesTo_updateGet_bind ?_
      have hpresents := Presents.stem hstem hfield hpairs
      exact .opened ptr hpresents (Context.turns_insertPairs d.context _ { rest := pairs })
  | rows =>
    obtain rfl : m = .executeQuery := by simpa [CursorKind.openings] using hm
    have hfailed (e : RequestFault) (t : τ) :
        Opening .rows .executeQuery body d (.error e) { d with ledger := t } :=
      .failed e (.of_eq rfl rfl)
    refine comesTo_ofPacket_bind (fun e => hfailed e d.ledger) fun sql hsql => ?_
    refine comesTo_ledger_bind (comesTo_contractName_bind ?_)
    unfold ofTable
    rw [bind_assoc]
    refine comesTo_putLedger_bind ?_
    refine comesTo_ofLedger_bind (fun e => hfailed e _) fun rows hrows => ?_
    refine (reads_place body).comesTo_bind (fun e => hfailed e _) fun ptr => ?_
    apply comesTo_updateGet_bind
    exact .opened ptr (.query hsql hrows) (Context.turns_insertRows d.context _ { rest := rows })

end

end ContractHost
