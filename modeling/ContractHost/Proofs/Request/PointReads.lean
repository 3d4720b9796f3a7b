import ContractHost.Proofs.Ledger.Overlay
import ContractHost.Proofs.Packet.Reading
import ContractHost.Proofs.Request.Effects
import ContractHost.Proofs.Request.StoredKey

/-!
# Reading and writing one piece of state

A piece of state is named by a key and a field.  It is read by two requests, one that looks it up
and tells its length, and one that fetches it.  What is read is what is kept under the stored key of
the two, and what was put under another pair with the same stored key is read as well.

## Main definitions

* `Packet.Names` — a packet that names a piece of state.
* `Puts`, `Asks`, `Fetches` — bodies of requests for state.
* `Desk.readState` — the answers to both requests of a reading.

## Main results

* `Desk.readState_eq` — what is read.
* `put_state_reaches` — **a value that is put is read under its own pair and those that overlap
  it, and no other reading changes.**
* `overlapping_pairs_share_state` — two pairs of which the one reads what was put under the other.
-/

namespace ContractHost

open Serving StateKey

/-! ### Bodies -/

/-- A packet that names a piece of state. -/
structure Packet.Names (p : Packet) (key field : String) : Prop where
  /-- The key. -/
  key : p.getText "key" = .ok key
  /-- The field, empty if there is none. -/
  field : p.getTextOrEmpty "field" = .ok field

/-- The body of a request that sets a piece of state. -/
def Puts (body : Bytes) (key field : String) (value : Bytes) : Prop :=
  ∃ p, Packet.decode body = .ok p ∧ p.Names key field ∧ p.getBytes "value" = .ok value

/-- The body of a request that looks a piece of state up, with a place for its length. -/
def Asks (body : Bytes) (key field : String) (ptr : Int32) : Prop :=
  ∃ p, Packet.decode body = .ok p ∧ p.Names key field ∧ p.getInt32 "value_ptr" = .ok ptr

/-- The body of a request that fetches what waits, with a place for it. -/
def Fetches (body : Bytes) (ptr : Int32) : Prop :=
  ∃ p, Packet.decode body = .ok p ∧ p.getInt32 "value_ptr" = .ok ptr

/-- A packet that names a piece of state, and holds one more item. -/
def namingPacket (key field : String) (more : Item) : Packet :=
  ⟨[⟨.user, "key", .text key⟩, ⟨.user, "field", .text field⟩, more]⟩

theorem names_namingPacket (key field : String) (more : Item) :
    (namingPacket key field more).Names key field := by
  constructor
  · rfl
  · rfl

/-- The packet that only names a place. -/
def placePacket (ptr : Int32) : Packet :=
  ⟨[⟨.user, "value_ptr", .int32 ptr⟩]⟩

/-- A text that fits into an item. -/
def Fits (s : String) : Prop :=
  (Utf8.encode s).length ≤ Packet.maxValueLength

instance (s : String) : Decidable (Fits s) :=
  inferInstanceAs (Decidable (_ ≤ _))

theorem withinLimits_item {origin : Origin} {key : String} {value : Value}
    (hkey : (Utf8.encode key).length ≤ Packet.maxKeyLength)
    (hvalue : value.toBytes.length ≤ Packet.maxValueLength) :
    Item.WithinLimits ⟨origin, key, value⟩ :=
  ⟨hkey, hvalue⟩

theorem withinLimits_place (ptr : Int32) :
    Item.WithinLimits ⟨.user, "value_ptr", .int32 ptr⟩ :=
  withinLimits_item (by decide) (by simp [Value.toBytes, Packet.maxValueLength])

theorem withinLimits_namingPacket_iff {key field : String} {more : Item}
    (hmore : more.WithinLimits) :
    (namingPacket key field more).WithinLimits ↔ Fits key ∧ Fits field := by
  constructor
  · rintro ⟨-, hall⟩
    have hkey := hall ⟨.user, "key", .text key⟩ (by simp [namingPacket])
    have hfield := hall ⟨.user, "field", .text field⟩ (by simp [namingPacket])
    exact ⟨hkey.2, hfield.2⟩
  · rintro ⟨hkey, hfield⟩
    refine ⟨by simp [namingPacket, Packet.maxItems], fun i hi => ?_⟩
    simp only [namingPacket, List.mem_cons, List.not_mem_nil, or_false] at hi
    rcases hi with rfl | rfl | rfl
    · exact withinLimits_item (by decide) hkey
    · exact withinLimits_item (by decide) hfield
    · exact hmore

/-- There is a body to look up every piece of state that a packet can name. -/
theorem asks_namingPacket {key field : String} (hkey : Fits key) (hfield : Fits field)
    (ptr : Int32) :
    Asks (namingPacket key field ⟨.user, "value_ptr", .int32 ptr⟩).encode key field ptr :=
  ⟨_, Packet.decode_encode ((withinLimits_namingPacket_iff (withinLimits_place ptr)).2
    ⟨hkey, hfield⟩), names_namingPacket _ _ _, rfl⟩

/-- There is one to set it to any value that is not too long. -/
theorem puts_namingPacket {key field : String} (hkey : Fits key) (hfield : Fits field)
    {value : Bytes} (hvalue : value.length ≤ Packet.maxValueLength) :
    Puts (namingPacket key field ⟨.user, "value", .bytes value⟩).encode key field value := by
  have hitem : Item.WithinLimits ⟨.user, "value", .bytes value⟩ :=
    withinLimits_item (by decide) hvalue
  exact ⟨_, Packet.decode_encode ((withinLimits_namingPacket_iff hitem).2 ⟨hkey, hfield⟩),
    names_namingPacket _ _ _, rfl⟩

theorem fetches_placePacket (ptr : Int32) : Fetches (placePacket ptr).encode ptr := by
  refine ⟨placePacket ptr, Packet.decode_encode ⟨?_, fun i hi => ?_⟩, rfl⟩
  · simp [placePacket, Packet.maxItems]
  · rw [List.mem_singleton.1 hi]
    exact withinLimits_place ptr

section

variable {τ : Type} [LedgerAccess τ]

/-! ### Requests -/

/-- Looks a piece of state up and fetches it; gives the answers to both requests. -/
def Desk.readState (d : Desk τ) (crypto : CryptoProvider) (probe fetch : Bytes) :
    Except RequestFault Reply × Except RequestFault Reply :=
  let (length, d) := d.handle crypto "get_state_len" probe
  (length, (d.handle crypto "get_state" fetch).1)

theorem handle_of_run {crypto : CryptoProvider} {name : String} {body : Bytes} {d d' : Desk τ}
    {reply : Reply} (h : d.run (serve crypto name body) = (.ok reply, d')) :
    d.handle crypto name body = (.ok reply, d') := by
  unfold Desk.handle
  rw [h]

omit [LedgerAccess τ] in
theorem stateKey_of_names {p : Packet} {key field : String} (h : p.Names key field) :
    (stateKey p "key" "field" : Serving τ Bytes) = pure (join key field) := by
  unfold stateKey
  rw [h.key, h.field]
  rfl

/-- A probe keeps what it has found, and tells its length. -/
theorem handle_of_told {crypto : CryptoProvider} {name : String} {m : Method} {body : Bytes}
    {p : Packet} {r : Serving τ Bytes} {b : Bytes} {d d' : Desk τ} {ptr : Int32}
    (hname : Method.ofName? name = some m) (hdecode : Packet.decode body = .ok p)
    (hprobe : probe? crypto p m = some r) (hfound : d.run r = (.ok b, d'))
    (hplace : p.getInt32 "value_ptr" = .ok ptr) :
    d.handle crypto name body =
      (.ok (.length ptr b.length), { d' with context := (d'.context.cache b).2 }) := by
  refine handle_of_run ?_
  rw [run_serve_of_probe hname hdecode hprobe, run_bind, hfound]
  simp only [run_replyCached, hplace]

/-- What waits is fetched. -/
theorem handle_getState (crypto : CryptoProvider) {body : Bytes} {ptr : Int32}
    (h : Fetches body ptr) (d : Desk τ) :
    d.handle crypto "get_state" body =
      (.ok (.write ptr d.context.takeCached.1), { d with context := d.context.takeCached.2 }) := by
  obtain ⟨p, hdecode, hplace⟩ := h
  refine handle_of_run ?_
  rw [run_serve_of_decode (m := .getState) (by decide) (by decide) hdecode,
    serveMethod_of_fetches crypto p rfl, run_serveFetch, hplace]

end

namespace Desk

variable (d : Desk Session) (crypto : CryptoProvider) {body : Bytes} {key field : String}

/-- What the contract of a desk keeps under a stored key. -/
def kept (d : Desk Session) (stored : Bytes) : Option Bytes :=
  d.ledger.get? d.context.contract.name stored

theorem handle_putState {value : Bytes} (h : Puts body key field value) :
    d.handle crypto "put_state" body =
      (.ok .done, { d with
        ledger := d.ledger.record d.context.contract.name (join key field) (some value) }) := by
  obtain ⟨p, hdecode, hnames, hvalue⟩ := h
  refine handle_of_run ?_
  rw [run_serve_of_decode (m := .putState) (by decide) (by decide) hdecode]
  unfold serveMethod
  rw [stateKey_of_names hnames, hvalue]
  rfl

/-- What is kept under a stored key when a value has been put. -/
theorem kept_putState {value : Bytes} (h : Puts body key field value) (stored : Bytes) :
    (d.handle crypto "put_state" body).2.kept stored =
      if join key field = stored then some value else d.kept stored := by
  rw [handle_putState d crypto h]
  unfold kept
  simp only [Session.get?_record, true_and]

theorem handle_getStateLen {ptr : Int32} (h : Asks body key field ptr) :
    d.handle crypto "get_state_len" body =
      (.ok (.length ptr ((d.kept (join key field)).getD []).length),
        { d with context := (d.context.cache ((d.kept (join key field)).getD [])).2 }) := by
  obtain ⟨p, hdecode, hnames, hplace⟩ := h
  refine handle_of_told (m := .getStateLen) (by decide) hdecode rfl ?_ hplace
  rw [stateKey_of_names hnames]
  rfl

/-- **What is read is what is kept under the stored key**, nothing if there is no such key. -/
theorem readState_eq {probe fetch : Bytes} {ptr ptr' : Int32} (hprobe : Asks probe key field ptr)
    (hfetch : Fetches fetch ptr') :
    d.readState crypto probe fetch =
      (.ok (.length ptr ((d.kept (join key field)).getD []).length),
        .ok (.write ptr' ((d.kept (join key field)).getD []))) := by
  unfold readState
  rw [handle_getStateLen d crypto hprobe]
  simp only [handle_getState crypto hfetch]
  rfl

end Desk

/-! ### What a value reaches -/

/-- **A value that is put under one pair is read under another pair exactly if the two overlap**;
all other readings are what they were.  Pairs of which no key has a separator do not overlap. -/
theorem put_state_reaches (crypto : CryptoProvider) {key field key' field' : String}
    (hne : (key, field) ≠ (key', field')) {value put probe fetch : Bytes} {ptr ptr' : Int32}
    (hput : Puts put key field value) (hprobe : Asks probe key' field' ptr)
    (hfetch : Fetches fetch ptr') (d : Desk Session) :
    (d.handle crypto "put_state" put).1 = .ok .done ∧
    (join key field = join key' field' ↔
      Overlaps key field key' field' ∨ Overlaps key' field' key field) ∧
    (join key field = join key' field' →
      (d.handle crypto "put_state" put).2.readState crypto probe fetch =
        (.ok (.length ptr value.length), .ok (.write ptr' value))) ∧
    (join key field ≠ join key' field' →
      (d.handle crypto "put_state" put).2.readState crypto probe fetch =
        d.readState crypto probe fetch) ∧
    (mark ∉ key.toList → mark ∉ key'.toList → join key field ≠ join key' field') := by
  have hoverlap : join key field = join key' field' ↔
      Overlaps key field key' field' ∨ Overlaps key' field' key field := by
    rw [join_eq_join_iff]
    exact or_iff_right fun h => hne (Prod.ext h.1 h.2)
  refine ⟨?_, hoverlap, fun hsame => ?_, fun hdiffers => ?_, fun hkey hkey' hsame => ?_⟩
  · rw [Desk.handle_putState d crypto hput]
  · rw [Desk.readState_eq _ crypto hprobe hfetch, Desk.kept_putState d crypto hput, if_pos hsame,
      Option.getD_some]
  · rw [Desk.readState_eq _ crypto hprobe hfetch, Desk.readState_eq d crypto hprobe hfetch,
      Desk.kept_putState d crypto hput, if_neg hdiffers]
  · rcases hoverlap.1 hsame with h | h
    · exact not_overlaps_of_notMem hkey' h
    · exact not_overlaps_of_notMem hkey h

/-- A desk of an invocation that has done nothing yet, on a ledger without entries. -/
def freshDesk : Desk Session :=
  { context := { contract := ⟨"counter", "1.0.0"⟩, method := "run" }, ledger := default }

/-- Two fields of one key do not disturb each other. -/
theorem put_state_reaches_fields :
    Puts (namingPacket "count" "new" ⟨.user, "value", .bytes [7]⟩).encode "count" "new" [7] ∧
      (freshDesk.handle .absent "put_state"
        (namingPacket "count" "new" ⟨.user, "value", .bytes [7]⟩).encode).2.readState .absent
          (namingPacket "count" "old" ⟨.user, "value_ptr", .int32 8⟩).encode
          (placePacket 16).encode =
        freshDesk.readState .absent
          (namingPacket "count" "old" ⟨.user, "value_ptr", .int32 8⟩).encode
          (placePacket 16).encode := by
  have hput : Puts (namingPacket "count" "new" ⟨.user, "value", .bytes [7]⟩).encode
      "count" "new" [7] := puts_namingPacket (by decide) (by decide) (by decide)
  obtain ⟨-, -, -, hother, -⟩ := put_state_reaches .absent
    (by decide : ("count", "new") ≠ ("count", "old")) hput
    (asks_namingPacket (by decide) (by decide) 8) (fetches_placePacket 16) freshDesk
  exact ⟨hput, hother (by decide)⟩

/-- **Two different pairs may share their state**: `a` with the field `b#c`, and `a#b` with the
field `c`.  What was put under the first one is gone when the second one is put. -/
theorem overlapping_pairs_share_state :
    ¬ ∀ (crypto : CryptoProvider) (key field key' field' : String) (value put probe fetch : Bytes)
      (ptr ptr' : Int32) (d : Desk Session), (key, field) ≠ (key', field') →
      Puts put key field value → Asks probe key' field' ptr → Fetches fetch ptr' →
      (d.handle crypto "put_state" put).2.readState crypto probe fetch =
        d.readState crypto probe fetch := by
  intro hall
  have hfirst : Puts (namingPacket "a" "b#c" ⟨.user, "value", .bytes [1]⟩).encode "a" "b#c" [1] :=
    puts_namingPacket (by decide) (by decide) (by decide)
  have hsecond : Puts (namingPacket "a#b" "c" ⟨.user, "value", .bytes [2]⟩).encode "a#b" "c" [2] :=
    puts_namingPacket (by decide) (by decide) (by decide)
  have hprobe := asks_namingPacket (by decide : Fits "a") (by decide : Fits "b#c") 8
  have hfetch := fetches_placePacket 16
  have hsame := hall .absent _ _ _ _ _ _ _ _ _ _
    (freshDesk.handle .absent "put_state"
      (namingPacket "a" "b#c" ⟨.user, "value", .bytes [1]⟩).encode).2 (by decide) hsecond hprobe
    hfetch
  rw [Desk.readState_eq _ _ hprobe hfetch, Desk.readState_eq _ _ hprobe hfetch,
    Desk.kept_putState _ _ hsecond, if_pos (by decide), Desk.kept_putState _ _ hfirst,
    if_pos (by decide)] at hsame
  revert hsame
  decide

end ContractHost
