import ContractHost.Proofs.Packet.Views
import ContractHost.Proofs.Request.CursorWalks
import ContractHost.Proofs.Request.PointReads

/-!
# Rows

A ledger answers a query with rows, and a contract gets a row by two requests: the first one tells
how long it is, and the second one delivers it.  What is delivered is the row, written as a packet
with an item for each column.

Writing a packet applies no limit, and reading one does.  So a row reaches the contract as it is
exactly if it fits into a packet that can be read.

## Main definitions

* `Row.Fits` — a row that can be read when it was written.
* `Delivers`, `Brings` — bytes that wait until they are fetched, and an answer that tells of them.
* `BringsIntact` — an answer that brings a row so that it can be read.

## Main results

* `readsAs_encode_iff` — **which rows can be read when they were written.**
* `delivers_of_cached` — what waits is delivered.
* `rows_intact_iff` — **a row reaches the contract exactly if it fits.**
-/

namespace ContractHost

open Serving

/-! ### Rows that can be read -/

/-- The bytes can be read, and hold the row. -/
def ReadsAs (b : Bytes) (row : Row) : Prop :=
  ∃ p, Packet.decode b = .ok p ∧ p.toMap = row

/-- A row that can be read when it was written. -/
structure Row.Fits (row : Row) : Prop where
  /-- It has no more columns than a reader accepts. -/
  columns : row.size ≤ Packet.maxItems
  /-- None of them has too long a name. -/
  names : ∀ e ∈ row.entries, (Utf8.encode e.1).length ≤ Packet.maxKeyLength
  /-- None of the cells is too long. -/
  cells : ∀ e ∈ row.entries, e.2.length ≤ Packet.maxValueLength

/-- A row fits if its packet is within the limits. -/
theorem Row.fits_iff {row : Row} : row.Fits ↔ (Packet.ofMap row).WithinLimits := by
  have hlength : (Packet.ofMap row).items.length = row.size := List.length_map _
  constructor
  · rintro ⟨hcolumns, hnames, hcells⟩
    refine ⟨hlength ▸ hcolumns, fun i hi => ?_⟩
    obtain ⟨e, he, rfl⟩ := List.mem_map.mp hi
    exact ⟨hnames e he, hcells e he⟩
  · rintro ⟨hcolumns, hitems⟩
    have hitem {e : String × Bytes} (he : e ∈ row.entries) :
        Item.WithinLimits ⟨.user, e.1, .bytes e.2⟩ :=
      hitems _ (List.mem_map_of_mem he)
    exact ⟨hlength ▸ hcolumns, fun e he => (hitem he).1, fun e he => (hitem he).2⟩

/-- **A row can be read when it was written exactly if it fits.** -/
theorem readsAs_encode_iff {row : Row} : ReadsAs row.encode row ↔ row.Fits := by
  constructor
  · rintro ⟨p, hdecode, rfl⟩
    obtain ⟨-, hitems, hlimits⟩ := Packet.decode_eq_ok_iff.mp hdecode
    -- whatever is found in a packet that was read stood in it, within the limits
    have hitem {e : String × Bytes} (he : e ∈ p.toMap.entries) :
        ∃ i ∈ p.items, i.key = e.1 ∧ i.value.toBytes = e.2 :=
      Packet.exists_item_of_toMap (OrderedMap.mem_entries_iff.mp he)
    refine ⟨p.size_toMap_le.trans hitems, fun e he => ?_, fun e he => ?_⟩
    · obtain ⟨i, hi, hkey, -⟩ := hitem he
      exact hkey ▸ (hlimits i hi).1
    · obtain ⟨i, hi, -, hvalue⟩ := hitem he
      exact hvalue ▸ (hlimits i hi).2
  · intro hfits
    exact ⟨Packet.ofMap row, Packet.decode_encode (Row.fits_iff.mp hfits), Packet.toMap_ofMap row⟩

/-! ### Deliveries -/

section

variable {τ : Type} [LedgerAccess τ] {crypto : CryptoProvider} {d : Desk τ} {b : Bytes}
variable {ptr : Int32}

/-- The request neither keeps bytes to be fetched nor fetches any. -/
def LeavesWaiting (r : String × Bytes) : Prop :=
  ∀ m, Method.ofName? r.1 = some m → m.tells = false ∧ m.fetches = false

/-- Bytes wait to be fetched: whoever fetches gets them, unless a request in between keeps other
bytes or fetches these. -/
def Delivers (crypto : CryptoProvider) (d : Desk τ) (b : Bytes) : Prop :=
  ∀ between, (∀ r ∈ between, LeavesWaiting r) →
    ∀ {m : Method} {body : Bytes} {ptr : Int32}, m.fetches = true → Fetches body ptr →
      ((d.handleAll crypto between).2.handle crypto m.name body).1 = .ok (.write ptr b)

/-- An answer that tells how long some bytes are, and leaves them to be fetched. -/
structure Brings (crypto : CryptoProvider) (b : Bytes) (ptr : Int32)
    (answer : Except RequestFault Reply × Desk τ) : Prop where
  /-- It tells the length. -/
  told : answer.1 = .ok (.length ptr b.length)
  /-- The bytes wait. -/
  delivered : Delivers crypto answer.2 b

/-- An answer that brings a row so that it can be read. -/
def BringsIntact (crypto : CryptoProvider) (row : Row) (ptr : Int32)
    (answer : Except RequestFault Reply × Desk τ) : Prop :=
  ∃ b, Brings crypto b ptr answer ∧ ReadsAs b row

/-- What neither tells nor fetches leaves the bytes that wait. -/
theorem cached_handle_of_leaves {name : String} {body : Bytes} (h : LeavesWaiting (name, body))
    (d : Desk τ) : (d.handle crypto name body).2.context.cached = d.context.cached := by
  have hserved : (d.run (serve crypto name body)).2.context.cached = d.context.cached := by
    have heffect := effect_serve crypto name body d
    unfold ComesTo at heffect
    generalize d.run (serve crypto name body) = served at heffect ⊢
    obtain ⟨result, d'⟩ := served
    cases heffect with
    | plain hplain _ => exact hplain.onward.cached
    | unplaced hname _ hprobe _ _ =>
      have htells := tells_of_probe hprobe
      exact nomatch htells.symm.trans (h _ hname).1
    | told hname hprobe _ _ =>
      have htells := tells_of_probe hprobe
      exact nomatch htells.symm.trans (h _ hname).1
    | fetched hname hfetches _ => exact nomatch hfetches.symm.trans (h _ hname).2
  unfold Desk.handle
  generalize d.run (serve crypto name body) = served at hserved ⊢
  obtain ⟨result, d'⟩ := served
  cases result with
  | ok reply => exact hserved
  | error e =>
    cases e with
    | failed e => exact hserved
    | crashed message => exact hserved

theorem cached_handleAll_of_leaves {requests : List (String × Bytes)}
    (h : ∀ r ∈ requests, LeavesWaiting r) (d : Desk τ) :
    (d.handleAll crypto requests).2.context.cached = d.context.cached := by
  induction requests generalizing d with
  | nil => rfl
  | cons r rest ih =>
    obtain ⟨name, body⟩ := r
    obtain ⟨hfirst, hrest⟩ := List.forall_mem_cons.mp h
    rw [Desk.handleAll_cons_snd, ih hrest, cached_handle_of_leaves hfirst]

/-- **What waits is delivered.** -/
theorem delivers_of_cached (h : d.context.cached = some b) : Delivers crypto d b := by
  rintro between hbetween m body ptr hfetches ⟨p, hdecode, hplace⟩
  have hcached : (d.handleAll crypto between).2.context.cached = d.context.cached :=
    cached_handleAll_of_leaves hbetween d
  generalize (d.handleAll crypto between).2 = d' at hcached ⊢
  rw [h] at hcached
  have hm : m ∉ [.logMessage, .successResult, .errorResult] := by
    cases m <;> first | decide | cases hfetches
  rw [handle_of_decode hm hdecode, serveMethod_of_fetches crypto p hfetches, run_serveFetch, hplace]
  unfold Context.takeCached
  rw [hcached]
  rfl

/-- Only one thing is delivered. -/
theorem Delivers.unique {b' : Bytes} (h : Delivers crypto d b) (h' : Delivers crypto d b') :
    b = b' := by
  have hfirst := h [] nofun (m := .getState) rfl (fetches_placePacket 0)
  have hsecond := h' [] nofun (m := .getState) rfl (fetches_placePacket 0)
  rw [hfirst] at hsecond
  cases hsecond
  rfl

theorem brings_of_cached {answer : Except RequestFault Reply × Desk τ}
    (htold : answer.1 = .ok (.length ptr b.length)) (hcached : answer.2.context.cached = some b) :
    Brings crypto b ptr answer :=
  ⟨htold, delivers_of_cached hcached⟩

/-- **A row that is brought as it was written is brought intact exactly if it fits.** -/
theorem bringsIntact_iff {row : Row} {answer : Except RequestFault Reply × Desk τ}
    (h : Brings crypto row.encode ptr answer) : BringsIntact crypto row ptr answer ↔ row.Fits := by
  rw [← readsAs_encode_iff]
  constructor
  · rintro ⟨b, hbrings, hreads⟩
    exact h.delivered.unique hbrings.delivered ▸ hreads
  · intro hreads
    exact ⟨_, h, hreads⟩

/-! ### Rows of a query -/

/-- **The one row of a query is brought as it was written**, and the empty row if there is none. -/
theorem brings_queryOne (crypto : CryptoProvider) {body : Bytes} {packet : Packet} {sql : String}
    {row? : Option Row} (hdecode : Packet.decode body = .ok packet)
    (hsql : packet.getText "sql" = .ok sql) (hplace : packet.getInt32 "value_ptr" = .ok ptr)
    (hrow : (LedgerAccess.queryOne d.ledger d.context.contract.name sql).1 = .ok row?) :
    Brings crypto (Row.encode (row?.getD ∅)) ptr
      (d.handle crypto "execute_query_one_len" body) := by
  obtain ⟨r, hprobe⟩ := exists_probe (τ := τ) crypto packet (m := .executeQueryOneLen) rfl nofun
  have hfound : d.run r = (.ok (Row.encode (row?.getD ∅)),
      { d with ledger := (LedgerAccess.queryOne d.ledger d.context.contract.name sql).2 }) := by
    obtain rfl := Option.some.inj hprobe
    rw [hsql]
    show Desk.run _ (ofLedger (LedgerAccess.queryOne d.ledger d.context.contract.name sql).1
      >>= _) = _
    rw [hrow]
    rfl
  have hhandle := handle_of_told
    (by decide : Method.ofName? "execute_query_one_len" = some .executeQueryOneLen) hdecode hprobe
    hfound hplace
  rw [hhandle]
  exact brings_of_cached rfl rfl

/-- A query opens a cursor over its rows. -/
theorem walks_query (crypto : CryptoProvider) {body : Bytes} {packet : Packet} {sql : String}
    {rows : List Row} (hdecode : Packet.decode body = .ok packet)
    (hsql : packet.getText "sql" = .ok sql) (hplace : packet.getInt32 "value_ptr" = .ok ptr)
    (hrows : (LedgerAccess.query d.ledger d.context.contract.name sql).1 = .ok rows) :
    ∃ d', d.handle crypto "execute_query" body = (.ok (.int32 ptr d.context.nextCursor), d') ∧
      Walks crypto .rows d.context.nextCursor (rows.map Row.encode) d' := by
  have hm : Method.executeQuery ∈ CursorKind.openings .rows := List.mem_singleton_self _
  have hreply : (d.handle crypto "execute_query" body).1 =
      .ok (.int32 ptr d.context.nextCursor) :=
    handle_open hm d hdecode (.query hsql hrows) hplace
  have hhandle := handle_eq_of_reply hreply
  refine ⟨_, hhandle, ?_⟩
  -- what was presented is what the ledger gave for this body
  obtain ⟨packet', blobs, hdecode', hpresents, hdue⟩ := due_handle_open hm hhandle
  obtain rfl := Except.ok.inj (hdecode.symm.trans hdecode')
  cases hpresents with
  | query hsql' hrows' =>
    obtain rfl := Except.ok.inj (hsql.symm.trans hsql')
    obtain rfl := Except.ok.inj (hrows.symm.trans hrows')
    exact walks_of_due hdue

/-- **Every row of a query is brought as it was written**, when its turn comes. -/
theorem brings_next {index : Int32} {rows rest : List Row} {row : Row} {body : Bytes}
    {requests : List (String × Bytes)} (hwalks : Walks crypto .rows index (rows.map Row.encode) d)
    (hheeds : d.Throughout crypto (Heeds crypto .rows index) requests)
    (hdue : rows.drop (timesAsked .rows index requests) = row :: rest)
    (hbody : Directs body index ptr) :
    Brings crypto row.encode ptr
      ((d.handleAll crypto requests).2.handle crypto "rs_next_len" body) := by
  obtain ⟨-, hanswers⟩ := hwalks requests hheeds
  rw [← List.map_drop, hdue, List.map_cons] at hanswers
  obtain ⟨htold, hcached⟩ := hanswers.next hbody rfl
  exact brings_of_cached htold hcached

end

/-- **A row reaches the contract exactly if it fits.**  Whatever the ledger answers, a request for
one row tells how long it is and leaves it to be fetched as it was written, and so does the request
for the next row of a query, when a row is still to come: the rows are those that the ledger gave,
in order.  If there is no row where one is asked for, the empty one is brought.  What is brought can
be read, and holds the row, exactly if the row has no more columns than a reader accepts and none of
its names and cells is too long. -/
theorem rows_intact_iff {τ : Type} [LedgerAccess τ] (crypto : CryptoProvider) :
    (∀ {body : Bytes} {packet : Packet} {sql : String} {ptr : Int32} {row? : Option Row}
      {d : Desk τ}, Packet.decode body = .ok packet → packet.getText "sql" = .ok sql →
      packet.getInt32 "value_ptr" = .ok ptr →
      (LedgerAccess.queryOne d.ledger d.context.contract.name sql).1 = .ok row? →
      let row := row?.getD ∅
      let answer := d.handle crypto "execute_query_one_len" body
      Brings crypto row.encode ptr answer ∧ (BringsIntact crypto row ptr answer ↔ row.Fits)) ∧
    (∀ {body : Bytes} {packet : Packet} {sql : String} {ptr : Int32} {rows : List Row}
      {d : Desk τ}, Packet.decode body = .ok packet → packet.getText "sql" = .ok sql →
      packet.getInt32 "value_ptr" = .ok ptr →
      (LedgerAccess.query d.ledger d.context.contract.name sql).1 = .ok rows →
      let index := d.context.nextCursor
      ∃ d', d.handle crypto "execute_query" body = (.ok (.int32 ptr index), d') ∧
        ∀ requests, d'.Throughout crypto (Heeds crypto .rows index) requests →
          ∀ {row : Row} {rest : List Row} {next : Bytes} {ptr' : Int32},
            rows.drop (timesAsked .rows index requests) = row :: rest → Directs next index ptr' →
            let answer := (d'.handleAll crypto requests).2.handle crypto "rs_next_len" next
            Brings crypto row.encode ptr' answer ∧
              (BringsIntact crypto row ptr' answer ↔ row.Fits)) := by
  refine ⟨fun hdecode hsql hplace hrow => ?_, fun hdecode hsql hplace hrows => ?_⟩
  · have hbrings := brings_queryOne crypto hdecode hsql hplace hrow
    exact ⟨hbrings, bringsIntact_iff hbrings⟩
  · obtain ⟨d', hhandle, hwalks⟩ := walks_query crypto hdecode hsql hplace hrows
    refine ⟨d', hhandle, fun requests hheeds row rest next ptr' hdue hbody => ?_⟩
    have hbrings := brings_next hwalks hheeds hdue hbody
    exact ⟨hbrings, bringsIntact_iff hbrings⟩

/-! ### A ledger with rows -/

/-- A ledger in memory with one table: whatever it is asked, it finds these rows. -/
structure RowLedger where
  /-- The keys and values. -/
  session : Session := default
  /-- The rows. -/
  rows : List Row

instance : LedgerAccess RowLedger where
  txId t := LedgerAccess.txId t.session
  get t := LedgerAccess.get t.session
  put t contract key value :=
    (LedgerAccess.put t.session contract key value).map fun session => { t with session }
  delete t contract key :=
    (LedgerAccess.delete t.session contract key).map fun session => { t with session }
  select t := LedgerAccess.select t.session
  selectWithin t := LedgerAccess.selectWithin t.session
  executeUpdate t _ _ := (unsupported "execute_update", t)
  executeDdl t _ _ := (unsupported "execute_ddl", t)
  query t _ _ := (.ok t.rows, t)
  queryOne t _ _ := (.ok t.rows.head?, t)
  getContract t := LedgerAccess.getContract t.session

/-- A desk on a ledger with rows. -/
def rowDesk (rows : List Row) : Desk RowLedger :=
  { context := freshDesk.context, ledger := { rows } }

/-- The body of a query, with a place for the answer. -/
def queryPacket : Packet :=
  ⟨[⟨.user, "sql", .text "select * from t"⟩, ⟨.user, "value_ptr", .int32 8⟩]⟩

/-- The body of a request for the next row of the first query. -/
def nextRowPacket : Packet :=
  ⟨[⟨.user, "rs_index", .int32 0⟩, ⟨.user, "value_ptr", .int32 8⟩]⟩

/-- A row with one column. -/
def oneColumn (name : String) : Row :=
  (∅ : Row).insert name [1]

/-- A row with a short name is brought intact. -/
theorem rows_intact_short :
    (oneColumn "amount").Fits ∧
    BringsIntact .absent (oneColumn "amount") 8
      ((rowDesk [oneColumn "amount"]).handle .absent "execute_query_one_len" queryPacket.encode) ∧
    BringsIntact .absent (oneColumn "amount") 8
      (((rowDesk [oneColumn "amount"]).handle .absent "execute_query" queryPacket.encode).2.handle
        .absent "rs_next_len" nextRowPacket.encode) := by
  have hfits : (oneColumn "amount").Fits := ⟨by decide, by decide, by decide⟩
  have hdecode : Packet.decode queryPacket.encode = .ok queryPacket :=
    Packet.decode_encode (by decide +kernel)
  have hnext : Packet.decode nextRowPacket.encode = .ok nextRowPacket :=
    Packet.decode_encode (by decide +kernel)
  obtain ⟨hone, hquery⟩ := rows_intact_iff (τ := RowLedger) .absent
  refine ⟨hfits, (hone (d := rowDesk [oneColumn "amount"]) hdecode rfl rfl rfl).2.mpr hfits, ?_⟩
  obtain ⟨d', hhandle, hwalks⟩ := hquery (d := rowDesk [oneColumn "amount"]) hdecode rfl rfl rfl
  rw [hhandle]
  exact (hwalks [] trivial rfl ⟨nextRowPacket, hnext, rfl, rfl⟩).2.mpr hfits

/-- **A row with too long a name is lost**: the ledger gives it, and it is told of and delivered,
but what is delivered cannot be read. -/
theorem long_name_lost :
    let row := oneColumn (String.ofList (List.replicate 65 'n'))
    (LedgerAccess.queryOne (rowDesk [row]).ledger "counter" "select * from t").1 =
      .ok (some row) ∧
    Packet.decode row.encode = .error (.invalidLength 65 4) ∧
    ¬ BringsIntact .absent row 8
      ((rowDesk [row]).handle .absent "execute_query_one_len" queryPacket.encode) ∧
    ¬ BringsIntact .absent row 8
      (((rowDesk [row]).handle .absent "execute_query" queryPacket.encode).2.handle
        .absent "rs_next_len" nextRowPacket.encode) := by
  intro row
  have hunfit : ¬ row.Fits := fun h => absurd h.names (by decide)
  refine ⟨rfl, by decide +kernel, fun h => hunfit ((bringsIntact_iff ?_).mp h),
    fun h => hunfit ((bringsIntact_iff ?_).mp h)⟩
  · exact brings_of_cached (by decide +kernel) (by decide +kernel)
  · exact brings_of_cached (by decide +kernel) (by decide +kernel)

end ContractHost
