import ContractHost.Proofs.Ledger.Interleaving
import ContractHost.Proofs.Request.Cursors
import ContractHost.Proofs.Request.Iteration
import ContractHost.Proofs.Request.Scheduling

/-!
# Walks of cursors

A cursor gives what was there when it was opened, element by element, whatever other requests come
in between.  What an open cursor has still to give is followed from request to request: the request
for its next element takes one off the front, closing it and opening another one under its number
end the walk, and no other request touches it.

## Main definitions

* `AsksNext`, `Closes`, `OpensAt` — the requests that concern a cursor of a number.
* `Answers`, `Refuses` — how requests for a cursor are answered.
* `Desk.Throughout`, `Desk.given` — runs of requests, and what a cursor gives in one.
* `Walks`, `Refused` — a cursor that gives a list, and a number under which there is no cursor.

## Main results

* `due_handle_next`, `due_handle_close`, `due_handle_open`, `due_handle_other` — **what each request
  makes of what a cursor has still to give.**
* `walks_of_due`, `refused_of_due` — a run of requests, from these steps.
* `cursors_walk` — **a cursor gives exactly what was there when it was opened.**
-/

namespace ContractHost

open Serving StateKey

section

variable {τ : Type} [LedgerAccess τ] {d : Desk τ} {body : Packet} {k : CursorKind}
variable {index ptr : Int32}

/-! ### What becomes of a cursor with a request -/

theorem Reply.int32_inj {ptr ptr' n n' : Int32} :
    Reply.int32 ptr n = .int32 ptr' n' ↔ ptr = ptr' ∧ n = n' := by
  constructor
  · intro h
    obtain ⟨hptr, hbytes⟩ := Reply.write.inj h
    have hn := congrArg Bytes.toInt32? hbytes
    rw [Bytes.toInt32?_ofInt32, Bytes.toInt32?_ofInt32] at hn
    exact ⟨hptr, Option.some.inj hn⟩
  · rintro ⟨rfl, rfl⟩
    rfl

/-- A body that names a cursor and a place. -/
def Directs (body : Bytes) (index ptr : Int32) : Prop :=
  ∃ p, Packet.decode body = .ok p ∧ p.getInt32 "rs_index" = .ok index ∧
    p.getInt32 "value_ptr" = .ok ptr

/-- The cursor that a body names, if it names one. -/
def cursorOf? (body : Bytes) : Option Int32 := do
  let p ← (Packet.decode body).toOption
  (p.getInt32 "rs_index").toOption

theorem points_iff {body : Bytes} {index : Int32} :
    Points body index ↔ cursorOf? body = some index := by
  unfold cursorOf? Points
  cases Packet.decode body with
  | error e =>
    constructor
    · rintro ⟨p, hp, -⟩
      cases hp
    · exact nofun
  | ok p =>
    cases hindex : p.getInt32 "rs_index" with
    | error e =>
      constructor
      · rintro ⟨p', hp, hindex'⟩
        cases hp
        cases hindex.symm.trans hindex'
      · intro h
        simp [Except.toOption, hindex] at h
    | ok index' =>
      constructor
      · rintro ⟨p', hp, hindex'⟩
        cases hp
        cases hindex.symm.trans hindex'
        simp [Except.toOption, hindex]
      · intro h
        refine ⟨p, rfl, ?_⟩
        simpa [Except.toOption, hindex] using h

instance (body : Bytes) (index : Int32) : Decidable (Points body index) :=
  decidable_of_iff _ points_iff.symm

/-- The request asks a cursor for its next element. -/
def AsksNext (k : CursorKind) (index : Int32) (r : String × Bytes) : Prop :=
  r.1 = k.nextLen.name ∧ Points r.2 index

instance (k : CursorKind) (index : Int32) (r : String × Bytes) : Decidable (AsksNext k index r) :=
  inferInstanceAs (Decidable (_ ∧ _))

/-- The request closes a cursor. -/
def Closes (k : CursorKind) (index : Int32) (r : String × Bytes) : Prop :=
  r.1 = k.close.name ∧ Points r.2 index

/-- The request opens a cursor and tells the number. -/
def OpensAt (crypto : CryptoProvider) (k : CursorKind) (index : Int32) (d : Desk τ)
    (r : String × Bytes) : Prop :=
  ∃ m ∈ k.openings, r.1 = m.name ∧
    ∃ ptr, (d.handle crypto r.1 r.2).1 = .ok (.int32 ptr index)

section

variable {crypto : CryptoProvider} {name : String} {bytes : Bytes}

theorem due_handle (d : Desk τ) (k : CursorKind) (index : Int32) :
    (d.handle crypto name bytes).2.context.due k index =
      (d.run (serve crypto name bytes)).2.context.due k index := by
  unfold Desk.handle
  cases d.run (serve crypto name bytes) with
  | mk result d' =>
    cases result with
    | ok reply => rfl
    | error e =>
      cases e with
      | failed e => exact Context.due_recordError d'.context e.message k index
      | crashed message => rfl

/-- A request with a packet is served by its method, and its error is recorded. -/
theorem handle_of_decode {m : Method} (hm : m ∉ [.logMessage, .successResult, .errorResult])
    (hdecode : Packet.decode bytes = .ok body) (d : Desk τ) :
    d.handle crypto m.name bytes =
      match d.run (serveMethod crypto body m) with
      | (.error e, d') => (.error e, d'.record e)
      | (.ok reply, d') => (.ok reply, d') := by
  rw [← run_serve_of_decode m.ofName?_name hm hdecode]
  rfl

/-- What a request with a packet makes of a cursor is what its method does. -/
theorem due_handle_of_decode {m : Method} (hm : m ∉ [.logMessage, .successResult, .errorResult])
    (hdecode : Packet.decode bytes = .ok body) (d : Desk τ) (k : CursorKind) (index : Int32) :
    (d.handle crypto m.name bytes).2.context.due k index =
      (d.run (serveMethod crypto body m)).2.context.due k index := by
  rw [due_handle, run_serve_of_decode m.ofName?_name hm hdecode]

theorem nextLen_notMem (k : CursorKind) :
    k.nextLen ∉ [Method.logMessage, .successResult, .errorResult] := by
  cases k <;> decide

theorem close_notMem (k : CursorKind) :
    k.close ∉ [Method.logMessage, .successResult, .errorResult] := by
  cases k <;> decide

/-- **The request for the next element takes one off the front**, if there is one. -/
theorem due_handle_next (h : AsksNext k index (name, bytes)) (d : Desk τ) :
    (d.handle crypto name bytes).2.context.due k index = (d.context.due k index).map List.tail := by
  obtain ⟨rfl, p, hdecode, hindex⟩ := h
  rw [due_handle_of_decode (nextLen_notMem k) hdecode]
  cases hdue : d.context.due k index with
  | none =>
    rw [run_nextLen_of_none crypto hindex hdue]
    exact hdue
  | some blobs =>
    cases blobs with
    | nil =>
      rw [run_nextLen_of_nil crypto hindex hdue]
      exact hdue
    | cons b rest =>
      obtain ⟨after, hturns, hrun⟩ := run_nextLen_of_cons crypto hindex hdue
      rw [hrun, run_replyCached]
      -- the element is given whether there is a place for its length or not
      have hafter : (after.cache b).2.due k index = some rest := hturns.due_self
      cases p.getInt32 "value_ptr" with
      | ok ptr => exact hafter
      | error e => exact hafter

/-- **After the request to close a cursor there is none**, if there was one before. -/
theorem due_handle_close (h : Closes k index (name, bytes)) (d : Desk τ) :
    (d.handle crypto name bytes).2.context.due k index = none := by
  obtain ⟨rfl, p, hdecode, hindex⟩ := h
  rw [due_handle_of_decode (close_notMem k) hdecode]
  cases hdue : d.context.due k index with
  | none =>
    rw [run_close_of_none crypto hindex hdue]
    exact hdue
  | some blobs =>
    obtain ⟨after, hturns, hrun⟩ := run_close_of_some crypto hindex hdue
    rw [hrun]
    exact hturns.due_self

theorem openings_notMem {m : Method} (hm : m ∈ k.openings) :
    m ∉ [Method.logMessage, .successResult, .errorResult] := by
  cases k with
  | pairs =>
    obtain rfl | rfl : m = .kvIterator ∨ m = .kvPreIterator := by
      simpa [CursorKind.openings] using hm
    all_goals decide
  | rows =>
    obtain rfl : m = .executeQuery := by simpa [CursorKind.openings] using hm
    decide

/-- **The request to open a cursor sets it to what is there.** -/
theorem due_handle_open {m : Method} (hm : m ∈ k.openings) {d d' : Desk τ}
    (h : d.handle crypto m.name bytes = (.ok (.int32 ptr index), d')) :
    ∃ packet blobs, Packet.decode bytes = .ok packet ∧
      Presents d.ledger d.context.contract.name packet m blobs ∧
      d'.context.due k index = some blobs := by
  obtain ⟨p, hdecode, hrun⟩ := decode_of_handle m.ofName?_name (openings_notMem hm) h
  have hopening : ComesTo (Opening k m p d) d (serveMethod crypto p m) :=
    opening_serveMethod crypto hm d
  unfold ComesTo at hopening
  rw [hrun] at hopening
  generalize hresult : (Except.ok (Reply.int32 ptr index) : Except RequestFault Reply) = result
    at hopening
  cases hopening with
  | failed e hsame => cases hresult
  | opened ptr' hpresents hturns =>
    obtain ⟨-, rfl⟩ := Reply.int32_inj.mp (Except.ok.inj hresult)
    exact ⟨p, _, hdecode, hpresents, hturns.due_self⟩

/-- It does so whenever something is there and the number has a place. -/
theorem handle_open {packet : Packet} {m : Method} {blobs : List Bytes} (hm : m ∈ k.openings)
    (d : Desk τ)
    (hdecode : Packet.decode bytes = .ok packet)
    (hpresents : Presents d.ledger d.context.contract.name packet m blobs)
    (hplace : packet.getInt32 "value_ptr" = .ok ptr) :
    (d.handle crypto m.name bytes).1 = .ok (.int32 ptr d.context.nextCursor) := by
  have hkey {key field k f : String} (hk : packet.getText key = .ok k)
      (hf : packet.getTextOrEmpty field = .ok f) :
      (stateKey packet key field : Serving τ Bytes) = pure (join k f) := by
    unfold stateKey
    rw [hk, hf]
    rfl
  have hserved : (d.run (serveMethod crypto packet m)).1 =
      .ok (.int32 ptr d.context.nextCursor) := by
    cases hpresents with
    | range hstart hstartField hlimit hlimitField hpairs =>
      simp only [serveMethod, serveRange, place, hkey hstart hstartField,
        hkey hlimit hlimitField, pure_bind, hplace]
      show (Desk.run _ (ofLedger (LedgerAccess.select d.ledger d.context.contract.name _ _)
        >>= _)).1 = _
      rw [hpairs]
      rfl
    | stem hstem hfield hpairs =>
      simp only [serveMethod, serveRange, place, hkey hstem hfield, pure_bind, hplace]
      show (Desk.run _ (ofLedger (LedgerAccess.selectWithin d.ledger d.context.contract.name _)
        >>= _)).1 = _
      rw [hpairs]
      rfl
    | @query sql rows hsql hrows =>
      simp only [serveMethod, place, hsql, hplace]
      show (Desk.run _ (ofLedger (LedgerAccess.query d.ledger d.context.contract.name sql).1
        >>= _)).1 = _
      rw [hrows]
      rfl
  rw [handle_of_decode (openings_notMem hm) hdecode]
  generalize d.run (serveMethod crypto packet m) = served at hserved ⊢
  obtain ⟨result, d'⟩ := served
  cases hserved
  rfl

/-- What opens no cursor of this number and kind, and neither moves nor closes it, leaves it as it
is, for a request with a packet. -/
theorem due_serveMethod_other {m : Method} (hdecode : Packet.decode bytes = .ok body)
    (hnext : ¬ AsksNext k index (m.name, bytes)) (hclose : ¬ Closes k index (m.name, bytes))
    (hopen : m ∈ k.openings →
      ∀ ptr, (d.run (serveMethod crypto body m)).1 ≠ .ok (.int32 ptr index)) :
    (d.run (serveMethod crypto body m)).2.context.due k index = d.context.due k index := by
  by_cases hopens : ∃ k' : CursorKind, m ∈ k'.openings
  · obtain ⟨k', hm⟩ := hopens
    have hopening : ComesTo (Opening k' m body d) d (serveMethod crypto body m) :=
      opening_serveMethod crypto hm d
    unfold ComesTo at hopening
    generalize d.run (serveMethod crypto body m) = served at hopening hopen ⊢
    obtain ⟨result, d'⟩ := served
    cases hopening with
    | failed e hsame => exact hsame.due k index
    | opened ptr hpresents hturns =>
      apply hturns.due_of_ne
      rintro ⟨rfl, rfl⟩
      exact hopen hm ptr rfl
  by_cases hmoves : ∃ k' : CursorKind, m = k'.nextLen ∨ m = k'.close
  · obtain ⟨k', hm⟩ := hmoves
    cases hindex : body.getInt32 "rs_index" with
    | error e => rw [run_of_unnamed crypto hindex (k := k') hm]
    | ok index' =>
      -- the request is for another cursor
      have hother : ¬ (k = k' ∧ index = index') := by
        rintro ⟨rfl, rfl⟩
        rcases hm with rfl | rfl
        · exact hnext ⟨rfl, body, hdecode, hindex⟩
        · exact hclose ⟨rfl, body, hdecode, hindex⟩
      rcases hm with rfl | rfl
      · cases hdue : d.context.due k' index' with
        | none => rw [run_nextLen_of_none crypto hindex hdue]
        | some blobs =>
          cases blobs with
          | nil => rw [run_nextLen_of_nil crypto hindex hdue]
          | cons b rest =>
            obtain ⟨after, hturns, hrun⟩ := run_nextLen_of_cons crypto hindex hdue
            rw [hrun, run_replyCached]
            have hafter : (after.cache b).2.due k index = d.context.due k index :=
              hturns.due_of_ne hother
            cases body.getInt32 "value_ptr" with
            | ok ptr => exact hafter
            | error e => exact hafter
      · cases hdue : d.context.due k' index' with
        | none => rw [run_close_of_none crypto hindex hdue]
        | some blobs =>
          obtain ⟨after, hturns, hrun⟩ := run_close_of_some crypto hindex hdue
          rw [hrun]
          exact hturns.due_of_ne hother
  · push Not at hopens hmoves
    have hstill := still_serveMethod (τ := τ) crypto body hopens (fun k => (hmoves k).1)
      (fun k => (hmoves k).2) d
    exact hstill.due k index

/-- **No other request touches a cursor.** -/
theorem due_handle_other (d : Desk τ) (hnext : ¬ AsksNext k index (name, bytes))
    (hclose : ¬ Closes k index (name, bytes)) (hopen : ¬ OpensAt crypto k index d (name, bytes)) :
    (d.handle crypto name bytes).2.context.due k index = d.context.due k index := by
  rw [due_handle]
  cases hname : Method.ofName? name with
  | none =>
    unfold serve
    rw [hname]
    rfl
  | some m =>
    obtain rfl := Method.name_of_ofName? hname
    by_cases hm : m ∈ [.logMessage, .successResult, .errorResult]
    · simp only [List.mem_cons, List.not_mem_nil, or_false] at hm
      unfold serve
      rw [hname]
      rcases hm with rfl | rfl | rfl
      · exact Context.SameCursors.due (.of_eq rfl rfl) k index
      · have hsame : d.context.SameCursors (d.context.setSuccess bytes).2 := by
          unfold Context.setSuccess
          split <;> exact .of_eq rfl rfl
        exact hsame.due k index
      · exact Context.SameCursors.due (.of_eq rfl rfl) k index
    · cases hdecode : Packet.decode bytes with
      | error e => rw [run_serve_of_undecoded hname hm hdecode]
      | ok body =>
        rw [run_serve_of_decode hname hm hdecode]
        refine due_serveMethod_other hdecode hnext hclose fun hopens ptr hresult => ?_
        refine hopen ⟨m, hopens, rfl, ptr, ?_⟩
        rw [handle_of_decode hm hdecode]
        generalize d.run (serveMethod crypto body m) = served at hresult ⊢
        obtain ⟨result, d'⟩ := served
        cases hresult
        rfl

/-! ### Answers to requests for a cursor -/

/-- What an open cursor answers that has a list still to give. -/
structure Answers (crypto : CryptoProvider) (k : CursorKind) (index : Int32) (d : Desk τ)
    (blobs : List Bytes) : Prop where
  /-- It says whether it has a next element, and nothing changes but that it has looked ahead. -/
  hasNext : ∀ {body ptr}, Directs body index ptr → ∃ after, d.context.Looked after ∧
    d.handle crypto k.hasNext.name body =
      (.ok (.int32 ptr (if blobs = [] then 0 else 1)), { d with context := after })
  /-- It gives the next one to be kept. -/
  next : ∀ {body ptr b rest}, Directs body index ptr → blobs = b :: rest →
    (d.handle crypto k.nextLen.name body).1 = .ok (.length ptr b.length) ∧
      (d.handle crypto k.nextLen.name body).2.context.cached = some b
  /-- Behind the last one there is none. -/
  exhausted : ∀ {body}, Points body index → blobs = [] →
    (d.handle crypto k.nextLen.name body).1 =
      .error (.failed (.invalidArgument s!"cursor {index.toInt} has no next element"))
  /-- It can be closed. -/
  close : ∀ {body}, Points body index → (d.handle crypto k.close.name body).1 = .ok .done

/-- Whoever asks for a cursor of this number is told that there is none. -/
structure Refuses (crypto : CryptoProvider) (k : CursorKind) (index : Int32) (d : Desk τ) :
    Prop where
  /-- It does not say whether it has a next element. -/
  hasNext : ∀ {body}, Points body index →
    (d.handle crypto k.hasNext.name body).1 = .error (.failed (.unknownCursor index))
  /-- It gives none. -/
  next : ∀ {body}, Points body index →
    (d.handle crypto k.nextLen.name body).1 = .error (.failed (.unknownCursor index))
  /-- It cannot be closed. -/
  close : ∀ {body}, Points body index →
    (d.handle crypto k.close.name body).1 = .error (.failed (.unknownCursor index))

theorem hasNext_notMem (k : CursorKind) :
    k.hasNext ∉ [Method.logMessage, .successResult, .errorResult] := by
  cases k <;> decide

theorem answers_of_due {blobs : List Bytes} (h : d.context.due k index = some blobs) :
    Answers crypto k index d blobs where
  hasNext := by
    rintro body ptr ⟨p, hdecode, hindex, hplace⟩
    obtain ⟨after, hlooked, hrun⟩ := run_hasNext_of_some crypto hindex hplace h
    exact ⟨after, hlooked, by rw [handle_of_decode (hasNext_notMem k) hdecode, hrun]⟩
  next := by
    rintro body ptr b rest ⟨p, hdecode, hindex, hplace⟩ rfl
    obtain ⟨after, -, hrun⟩ := run_nextLen_of_cons crypto hindex h
    rw [handle_of_decode (nextLen_notMem k) hdecode, hrun, run_replyCached, hplace]
    exact ⟨rfl, rfl⟩
  exhausted := by
    rintro body ⟨p, hdecode, hindex⟩ rfl
    rw [handle_of_decode (nextLen_notMem k) hdecode, run_nextLen_of_nil crypto hindex h]
  close := by
    rintro body ⟨p, hdecode, hindex⟩
    obtain ⟨after, -, hrun⟩ := run_close_of_some crypto hindex h
    rw [handle_of_decode (close_notMem k) hdecode, hrun]

theorem refuses_of_due (h : d.context.due k index = none) : Refuses crypto k index d where
  hasNext := by
    rintro body ⟨p, hdecode, hindex⟩
    rw [handle_of_decode (hasNext_notMem k) hdecode, run_hasNext_of_none crypto hindex h]
  next := by
    rintro body ⟨p, hdecode, hindex⟩
    rw [handle_of_decode (nextLen_notMem k) hdecode, run_nextLen_of_none crypto hindex h]
  close := by
    rintro body ⟨p, hdecode, hindex⟩
    rw [handle_of_decode (close_notMem k) hdecode, run_close_of_none crypto hindex h]

end

/-! ### Runs of requests -/

/-- Every request of a run meets a condition, on the desk that it finds. -/
def Desk.Throughout (crypto : CryptoProvider) (P : Desk τ → String × Bytes → Prop) :
    List (String × Bytes) → Desk τ → Prop
  | [], _ => True
  | (name, body) :: rest, d =>
    P d (name, body) ∧ Desk.Throughout crypto P rest (d.handle crypto name body).2

/-- The elements that a run of requests gets kept from a cursor, by asking it for its next one. -/
def Desk.given (crypto : CryptoProvider) (k : CursorKind) (index : Int32) :
    List (String × Bytes) → Desk τ → List Bytes
  | [], _ => []
  | (name, body) :: rest, d =>
    (if AsksNext k index (name, body) ∧ (d.handle crypto name body).1.isOk then
      (d.handle crypto name body).2.context.cached.toList else []) ++
        Desk.given crypto k index rest (d.handle crypto name body).2

/-- How often a run of requests asks a cursor for its next element. -/
def timesAsked (k : CursorKind) (index : Int32) (requests : List (String × Bytes)) : Nat :=
  requests.countP (AsksNext k index)

theorem timesAsked_cons (k : CursorKind) (index : Int32) (r : String × Bytes)
    (rest : List (String × Bytes)) :
    timesAsked k index (r :: rest) =
      timesAsked k index rest + if AsksNext k index r then 1 else 0 := by
  unfold timesAsked
  simp only [List.countP_cons, decide_eq_true_eq]

/-- The request leaves a cursor its number, and has a place for the length of its next element if it
asks for that. -/
structure Heeds (crypto : CryptoProvider) (k : CursorKind) (index : Int32) (d : Desk τ)
    (r : String × Bytes) : Prop where
  /-- The cursor is not closed. -/
  closes : ¬ Closes k index r
  /-- No other one is opened under its number. -/
  opens : ¬ OpensAt crypto k index d r
  /-- Whoever asks for the next element has a place for its length. -/
  complete : AsksNext k index r → ∃ ptr, Directs r.2 index ptr

/-- A cursor gives a list: in any later run of requests that heeds it, the elements that are kept
are the first ones of the list, one for each time that it was asked, and then it answers for the
rest. -/
def Walks (crypto : CryptoProvider) (k : CursorKind) (index : Int32) (blobs : List Bytes)
    (d : Desk τ) : Prop :=
  ∀ requests, d.Throughout crypto (Heeds crypto k index) requests →
    d.given crypto k index requests = blobs.take (timesAsked k index requests) ∧
      Answers crypto k index (d.handleAll crypto requests).2
        (blobs.drop (timesAsked k index requests))

/-- There is no cursor of this number in any later run of requests that does not open one. -/
def Refused (crypto : CryptoProvider) (k : CursorKind) (index : Int32) (d : Desk τ) : Prop :=
  ∀ requests, d.Throughout crypto (fun d r => ¬ OpensAt crypto k index d r) requests →
    Refuses crypto k index (d.handleAll crypto requests).2

section

variable {crypto : CryptoProvider}

/-- What a request for the next element gets kept, and what is due behind it. -/
theorem kept_of_asksNext {name : String} {bytes : Bytes} {blobs : List Bytes}
    (hdue : d.context.due k index = some blobs) (hasks : AsksNext k index (name, bytes))
    (hplace : Directs bytes index ptr) :
    (if (d.handle crypto name bytes).1.isOk then
      (d.handle crypto name bytes).2.context.cached.toList else []) = blobs.take 1 := by
  obtain ⟨rfl, hpoints⟩ := hasks
  have hanswers : Answers crypto k index d blobs := answers_of_due hdue
  cases blobs with
  | nil =>
    rw [hanswers.exhausted hpoints rfl]
    rfl
  | cons b rest =>
    obtain ⟨hreply, hcached⟩ := hanswers.next hplace rfl
    rw [hreply, hcached]
    rfl

/-- **A cursor gives what it has still to give, and nothing else.** -/
theorem walks_of_due {blobs : List Bytes} (h : d.context.due k index = some blobs) :
    Walks crypto k index blobs d := by
  intro requests hheeds
  induction requests generalizing d blobs with
  | nil => exact ⟨rfl, answers_of_due h⟩
  | cons r rest ih =>
    obtain ⟨name, bytes⟩ := r
    obtain ⟨hfirst, hrest⟩ := hheeds
    unfold Desk.given
    rw [timesAsked_cons, Desk.handleAll_cons_snd]
    by_cases hasks : AsksNext k index (name, bytes)
    · obtain ⟨ptr, hplace⟩ := hfirst.complete hasks
      have hdue : (d.handle crypto name bytes).2.context.due k index = some blobs.tail := by
        rw [due_handle_next hasks, h, Option.map_some]
      obtain ⟨hgiven, hanswers⟩ := ih hdue hrest
      simp only [hasks, true_and, if_true]
      rw [kept_of_asksNext h hasks hplace, hgiven]
      rw [← List.drop_one, List.drop_drop, Nat.add_comm] at hanswers
      refine ⟨?_, hanswers⟩
      -- the first element was kept now, and the others later
      cases blobs with
      | nil => rw [List.take_nil, List.tail_nil, List.take_nil, List.take_nil]; rfl
      | cons b blobs => rfl
    · have hdue := due_handle_other d hasks hfirst.closes hfirst.opens
      rw [h] at hdue
      simpa only [hasks, false_and, if_false, List.nil_append, Nat.add_zero] using ih hdue hrest

/-- **Where there is no cursor there is none until one is opened.** -/
theorem refused_of_due (h : d.context.due k index = none) : Refused crypto k index d := by
  intro requests hopens
  induction requests generalizing d with
  | nil => exact refuses_of_due h
  | cons r rest ih =>
    obtain ⟨name, bytes⟩ := r
    obtain ⟨hfirst, hrest⟩ := hopens
    have hdue : (d.handle crypto name bytes).2.context.due k index = none := by
      by_cases hasks : AsksNext k index (name, bytes)
      · rw [due_handle_next hasks, h, Option.map_none]
      · by_cases hcloses : Closes k index (name, bytes)
        · exact due_handle_close hcloses d
        · rw [due_handle_other d hasks hcloses hfirst, h]
    exact ih hdue hrest

end

end

/-! ### Walks -/

section

variable {τ : Type} [LedgerAccess τ]

/-- **A cursor gives exactly what was there when it was opened**, and it can be opened whenever
something is there.  In any later run of requests that
neither closes it nor opens another one of its kind under its number, the elements that are kept for
it are the first ones of what was there, in order; it says rightly whether there is a next one, and
behind the last one there is none.  A cursor that was closed, and one of a kind that was never
opened under a number, is refused until one is opened.  What is there is, for the ledger in memory,
what the transaction sees, in the order of the keys. -/
theorem cursors_walk (crypto : CryptoProvider) (k : CursorKind) (index : Int32) :
    (∀ {m : Method} {body : Bytes} {packet : Packet} {ptr : Int32} {blobs : List Bytes}
      {d : Desk τ}, m ∈ k.openings → Packet.decode body = .ok packet →
      Presents d.ledger d.context.contract.name packet m blobs →
      packet.getInt32 "value_ptr" = .ok ptr →
      (d.handle crypto m.name body).1 = .ok (.int32 ptr d.context.nextCursor)) ∧
    (∀ {m : Method} {body : Bytes} {ptr : Int32} {d d' : Desk τ}, m ∈ k.openings →
      d.handle crypto m.name body = (.ok (.int32 ptr index), d') →
      ∃ packet blobs, Packet.decode body = .ok packet ∧
        Presents d.ledger d.context.contract.name packet m blobs ∧
        Walks crypto k index blobs d') ∧
    (∀ {body : Bytes} {d d' : Desk τ}, Points body index →
      d.handle crypto k.close.name body = (.ok .done, d') → Refused crypto k index d') ∧
    (∀ {d : Desk τ}, d.context.pairCursors = ∅ → d.context.rowCursors = ∅ →
      Refused crypto k index d) ∧
    (∀ (s : Session) (contract : String) (start limit : Bytes), ∃ pairs,
      LedgerAccess.select s contract start limit = .ok pairs ∧
      pairs.Pairwise (fun a b => a.1 < b.1) ∧
      ∀ key value, (key, value) ∈ pairs ↔
        start ≤ key ∧ key < limit ∧ LedgerAccess.get s contract key = .ok (some value)) ∧
    (∀ (s : Session) (contract : String) (stem : Bytes), ∃ pairs,
      LedgerAccess.selectWithin s contract stem = .ok pairs ∧
      pairs.Pairwise (fun a b => a.1 < b.1) ∧
      ∀ key value, (key, value) ∈ pairs ↔
        stem <+: key ∧ LedgerAccess.get s contract key = .ok (some value)) := by
  refine ⟨fun {m body packet ptr blobs d} hm hdecode hpresents hplace =>
      handle_open hm d hdecode hpresents hplace, fun hm h => ?_, fun {body d d'} hpoints h => ?_,
    fun {d} hpairs hrows => ?_, fun s contract start limit => ?_, fun s contract stem => ?_⟩
  · obtain ⟨packet, blobs, hdecode, hpresents, hdue⟩ := due_handle_open hm h
    exact ⟨packet, blobs, hdecode, hpresents, walks_of_due hdue⟩
  · have hdue : (d.handle crypto k.close.name body).2.context.due k index = none :=
      due_handle_close ⟨rfl, hpoints⟩ d
    rw [h] at hdue
    exact refused_of_due hdue
  · apply refused_of_due
    cases k
    · simp [Context.due, hpairs]
    · simp [Context.due, hrows]
  · refine ⟨s.select contract start limit, rfl, Session.ascending_scan s contract _,
      fun key value => ?_⟩
    unfold Session.select
    rw [Session.mem_scan_iff, Bool.and_eq_true, Bytes.isLE_compare_iff, Bytes.isLT_compare_iff,
      and_assoc]
    exact and_congr_right fun _ => and_congr_right fun _ => Except.ok.injEq .. ▸ Iff.rfl
  · refine ⟨s.selectWithin contract stem, rfl, Session.ascending_scan s contract _,
      fun key value => ?_⟩
    unfold Session.selectWithin
    rw [Session.mem_scan_iff, List.isPrefixOf_iff_prefix]
    exact and_congr_right fun _ => Except.ok.injEq .. ▸ Iff.rfl

end

/-- A cursor over the one pair that was put walks over what was there. -/
theorem cursors_walk_put_state :
    ∃ packet blobs, Packet.decode rangeBody = .ok packet ∧
      Presents (putDesk "a" "b" [1]).ledger (putDesk "a" "b" [1]).context.contract.name packet
        .kvPreIterator blobs ∧
      Walks .absent .pairs 0 blobs
        ((putDesk "a" "b" [1]).handle .absent Method.kvPreIterator.name rangeBody).2 := by
  have hopen : ((putDesk "a" "b" [1]).handle .absent Method.kvPreIterator.name rangeBody).1 =
      .ok (.int32 4 0) := by decide +kernel
  exact (cursors_walk .absent .pairs 0).2.1 (by decide) (handle_eq_of_reply hopen)

end ContractHost
