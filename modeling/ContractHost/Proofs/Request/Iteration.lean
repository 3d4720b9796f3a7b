import ContractHost.Proofs.Request.Walking

/-!
# Iteration and point reads

A pair that a cursor gives travels as a packet with a key, a field and a value, which were taken
apart from the stored key.  Reading the piece of state that is so named should give the value.

It does, whenever the key under which the value was put has no separator.  A stored key that ends
with its first separator loses it on the way, and then another piece of state is read.  And a part
that was put as two may be too long for a packet as one.

## Main definitions

* `Desk.WellKept` — nothing is kept but what packets can put.
* `Agrees` — a blob is a packet, and what it names is read as it says.
* `Walked` — how a blob comes from a cursor, with nothing written since the cursor was opened.

## Main results

* `Desk.wellKept_handleAll` — no request puts anything else.
* `agrees_encodePair_iff` — when the blob of a pair agrees.
* `walked_agrees_iff` — **iteration agrees with point reads exactly for stored keys of which both
  parts fit and no separator is lost.**
* `lost_separator_misleads` — a blob that does not agree.
-/

namespace ContractHost

open Serving StateKey

/-! ### What packets can put -/

namespace Packet

variable {p : Packet} {name : String}

theorem length_of_get? (h : p.WithinLimits) {v : Value} (hget : p.get? name = some v) :
    v.toBytes.length ≤ maxValueLength := by
  unfold get? at hget
  obtain ⟨i, hi, rfl⟩ := Option.map_eq_some_iff.mp hget
  exact (h.2 i (List.mem_of_find?_eq_some hi)).2

theorem fits_of_getText (h : p.WithinLimits) {s : String} (htext : p.getText name = .ok s) :
    Fits s := by
  unfold getText at htext
  split at htext
  · rename_i hget
    cases htext
    exact length_of_get? h hget
  · cases htext
  · cases htext

theorem fits_of_getTextOrEmpty (h : p.WithinLimits) {s : String}
    (htext : p.getTextOrEmpty name = .ok s) : Fits s := by
  unfold getTextOrEmpty at htext
  split at htext
  · cases htext
    decide
  · exact fits_of_getText h htext

theorem length_of_getBytes (h : p.WithinLimits) {b : Bytes} (hbytes : p.getBytes name = .ok b) :
    b.length ≤ maxValueLength := by
  unfold getBytes at hbytes
  split at hbytes
  · rename_i hget
    cases hbytes
    exact length_of_get? h hget
  · rename_i hget
    cases hbytes
    exact length_of_get? h hget
  · cases hbytes
  · cases hbytes

theorem Names.fits {key field : String} (h : p.Names key field) (hp : p.WithinLimits) :
    Fits key ∧ Fits field :=
  ⟨fits_of_getText hp h.key, fits_of_getTextOrEmpty hp h.field⟩

end Packet

namespace Desk

variable {d d' : Desk Session} (crypto : CryptoProvider)

/-- Under the name of the contract nothing is kept but what packets can put. -/
def WellKept (d : Desk Session) : Prop :=
  ∀ stored value, d.kept stored = some value →
    (∃ key field, Fits key ∧ Fits field ∧ stored = join key field) ∧
      value.length ≤ Packet.maxValueLength

theorem WellKept.readsOnly (h : d.WellKept) (hreads : d.ReadsOnly d') : d'.WellKept :=
  fun stored value hkept => h stored value (hreads.kept stored ▸ hkept)

/-- A piece of state is set or removed. -/
theorem WellKept.record (h : d.WellKept) {key field : String} (hkey : Fits key)
    (hfield : Fits field) {value? : Option Bytes}
    (hvalue : ∀ v, value? = some v → v.length ≤ Packet.maxValueLength) :
    WellKept { d with
      ledger := d.ledger.record d.context.contract.name (join key field) value? } := by
  intro stored value hkept
  unfold kept at hkept
  dsimp only at hkept
  rw [Session.get?_record] at hkept
  split at hkept
  · rename_i hstored
    exact ⟨⟨key, field, hkey, hfield, hstored.2.symm⟩, hvalue value hkept⟩
  · exact h stored value hkept

/-- Both writings set or remove a piece of state, or fail before they have changed anything. -/
theorem wellKept_serve (h : d.WellKept) (name body) :
    ComesTo (fun _ d' => d'.WellKept) d (serve crypto name body) := by
  by_cases hname : name ∈ writings
  · simp only [writings, List.mem_cons, List.not_mem_nil, or_false] at hname
    rcases hname with rfl | rfl
    · unfold serve
      rw [show Method.ofName? "put_state" = some .putState from by decide]
      refine comesTo_ofPacket_bind (fun e => h) fun p hdecode => ?_
      have hp := (Packet.decode_eq_ok_iff.1 hdecode).2
      refine comesTo_stateKey_bind (fun e => h) fun key field hkey hfield => ?_
      refine comesTo_ofPacket_bind (fun e => h) fun value hvalue => ?_
      obtain ⟨hkey, hfield⟩ := (Packet.Names.mk hkey hfield).fits hp
      refine h.record hkey hfield (fun v hv => ?_)
      cases hv
      exact Packet.length_of_getBytes hp hvalue
    · unfold serve
      rw [show Method.ofName? "delete_state" = some .deleteState from by decide]
      refine comesTo_ofPacket_bind (fun e => h) fun p hdecode => ?_
      refine comesTo_stateKey_bind (fun e => h) fun key field hkey hfield => ?_
      have hp := (Packet.decode_eq_ok_iff.1 hdecode).2
      obtain ⟨hkey, hfield⟩ := (Packet.Names.mk hkey hfield).fits hp
      exact h.record hkey hfield nofun
  · exact h.readsOnly (keeps_serve crypto hname body d)

theorem wellKept_handle (h : d.WellKept) (name body) :
    (d.handle crypto name body).2.WellKept := by
  have hserve := wellKept_serve crypto h name body
  unfold ComesTo at hserve
  unfold handle
  generalize d.run (serve crypto name body) = served at hserve ⊢
  obtain ⟨result, d'⟩ := served
  cases result with
  | error e => exact hserve.readsOnly (readsOnly_record d' e)
  | ok reply => exact hserve

/-- **No request puts anything but what packets can put.** -/
theorem wellKept_handleAll (requests : List (String × Bytes)) (h : d.WellKept) :
    (d.handleAll crypto requests).2.WellKept := by
  induction requests generalizing d with
  | nil => exact h
  | cons request rest ih => exact ih (wellKept_handle crypto h request.1 request.2)

end Desk

/-! ### When a blob agrees -/

/-- A blob is a packet, and what it names is read as it says, by whatever bodies. -/
def Agrees (crypto : CryptoProvider) (d : Desk Session) (blob : Bytes) : Prop :=
  ∃ p key field value, Packet.decode blob = .ok p ∧ p.getText "key" = .ok key ∧
    p.getText "field" = .ok field ∧ p.getBytes "value" = .ok value ∧
    ∀ probe fetch ptr ptr', Asks probe key field ptr → Fetches fetch ptr' →
      d.readState crypto probe fetch =
        (.ok (.length ptr value.length), .ok (.write ptr' value))

/-- The packet of a pair. -/
def pairPacket (key field : String) (value : Bytes) : Packet :=
  namingPacket key field ⟨.user, "value", .bytes value⟩

theorem encodePair_eq (stored value : Bytes) :
    encodePair (stored, value) =
      (pairPacket (split stored).1 (split stored).2 value).encode :=
  rfl

theorem withinLimits_pairPacket_iff {key field : String} {value : Bytes}
    (hvalue : value.length ≤ Packet.maxValueLength) :
    (pairPacket key field value).WithinLimits ↔ Fits key ∧ Fits field :=
  withinLimits_namingPacket_iff (withinLimits_item (by decide) hvalue)

/-- The blob of a pair is a packet of no other pair. -/
theorem decode_pairPacket {key field : String} {value : Bytes} {p : Packet}
    (hkey : (Utf8.encode key).length < 2 ^ 32) (hfield : (Utf8.encode field).length < 2 ^ 32)
    (hvalue : value.length < 2 ^ 32)
    (h : Packet.decode (pairPacket key field value).encode = .ok p) :
    p = pairPacket key field value := by
  obtain ⟨hencode, hlimits⟩ := Packet.decode_eq_ok_iff.1 h
  refine Packet.encode_injOn (fun i hi => (hlimits.2 i hi).addressable) (fun i hi => ?_) hencode
  have hnames : ∀ name ∈ ["key", "field", "value"], (Utf8.encode name).length < 2 ^ 32 := by
    decide
  simp only [pairPacket, namingPacket, List.mem_cons, List.not_mem_nil, or_false] at hi
  rcases hi with rfl | rfl | rfl
  · exact ⟨hnames "key" (by simp), hkey⟩
  · exact ⟨hnames "field" (by simp), hfield⟩
  · exact ⟨hnames "value" (by simp), hvalue⟩

/-- **The blob of a pair agrees exactly if both parts of its stored key fit into a packet, and the
stored key does not end with its first separator** (or by chance the value is also what is kept
without the separator). -/
theorem agrees_encodePair_iff (crypto : CryptoProvider) {d : Desk Session} {s : String}
    {value : Bytes} (hkept : d.kept (Utf8.encode s) = some value)
    (hlength : (Utf8.encode s).length < 2 ^ 32) (hvalue : value.length ≤ Packet.maxValueLength) :
    Agrees crypto d (encodePair (Utf8.encode s, value)) ↔
      (Fits (split (Utf8.encode s)).1 ∧ Fits (split (Utf8.encode s)).2) ∧
      (Dangling (Utf8.encode s) → (d.kept (Utf8.encode s).dropLast).getD [] = value) := by
  obtain ⟨hkeyLength, hfieldLength⟩ := length_split_le s
  have hread := join_split s
  rw [encodePair_eq]
  generalize split (Utf8.encode s) = parts at hkeyLength hfieldLength hread ⊢
  obtain ⟨key, field⟩ := parts
  dsimp only at hkeyLength hfieldLength hread ⊢
  -- what is read under the parts
  have hfound : (d.kept (join key field)).getD [] = value ↔
      (Dangling (Utf8.encode s) → (d.kept (Utf8.encode s).dropLast).getD [] = value) := by
    rw [hread]
    by_cases hdangling : Dangling (Utf8.encode s)
    · simp [hdangling]
    · simp [hdangling, hkept]
  rw [← hfound]
  constructor
  · rintro ⟨p, key', field', value', hdecode, hkey', hfield', hvalue', hreads⟩
    have hmax : Packet.maxValueLength < 2 ^ 32 := by decide
    obtain rfl := decode_pairPacket (by omega) (by omega) (by omega) hdecode
    cases hkey'
    cases hfield'
    cases hvalue'
    have hfits := (withinLimits_pairPacket_iff hvalue).1 (Packet.decode_eq_ok_iff.1 hdecode).2
    refine ⟨hfits, ?_⟩
    have hprobe := asks_namingPacket hfits.1 hfits.2 0
    have hsame := hreads _ _ 0 0 hprobe (fetches_placePacket 0)
    rw [Desk.readState_eq d crypto hprobe (fetches_placePacket 0)] at hsame
    exact (Reply.write.inj (Except.ok.inj (Prod.mk.inj hsame).2)).2
  · rintro ⟨hfits, hsame⟩
    refine ⟨_, key, field, value,
      Packet.decode_encode ((withinLimits_pairPacket_iff hvalue).2 hfits),
      rfl, rfl, rfl, fun probe fetch ptr ptr' hprobe hfetch => ?_⟩
    rw [Desk.readState_eq d crypto hprobe hfetch, hsame]

/-! ### Walks -/

/-- A request that succeeds had a packet, and its method has served it. -/
theorem decode_of_handle {τ : Type} [LedgerAccess τ] {crypto : CryptoProvider} {name : String}
    {m : Method} {body : Bytes} {reply : Reply} {d d' : Desk τ}
    (hname : Method.ofName? name = some m) (hm : m ∉ [.logMessage, .successResult, .errorResult])
    (h : d.handle crypto name body = (.ok reply, d')) :
    ∃ p, Packet.decode body = .ok p ∧ d.run (serveMethod crypto p m) = (.ok reply, d') := by
  have hrun : d.run (serve crypto name body) = (.ok reply, d') := by
    unfold Desk.handle at h
    generalize d.run (serve crypto name body) = served at h ⊢
    obtain ⟨result, e⟩ := served
    cases result with
    | error e => cases h
    | ok reply => exact h
  cases hdecode : Packet.decode body with
  | ok p => exact ⟨p, rfl, run_serve_of_decode hname hm hdecode d ▸ hrun⟩
  | error e =>
    -- without a packet the request fails
    have hfails : d.run (serve crypto name body) = (.error (.failed (.packet e)), d) := by
      unfold serve
      rw [hname, hdecode]
      cases m <;> first | rfl | exact absurd (by decide) hm
    cases hfails.symm.trans hrun

theorem handle_eq_of_reply {τ : Type} [LedgerAccess τ] {crypto : CryptoProvider} {name : String}
    {body : Bytes} {reply : Reply} {d : Desk τ} (h : (d.handle crypto name body).1 = .ok reply) :
    d.handle crypto name body = (.ok reply, (d.handle crypto name body).2) := by
  rw [← h]

/-- A body that names a cursor. -/
def Points (body : Bytes) (index : Int32) : Prop :=
  ∃ p, Packet.decode body = .ok p ∧ p.getInt32 "rs_index" = .ok index

variable {crypto : CryptoProvider} {d d' : Desk Session} {body : Bytes} {index : Int32}

/-- Opening a cursor tells the number of a cursor that is current. -/
theorem currentAt_of_opening {opening : String}
    (hopening : opening ∈ ["kv_iterator", "kv_pre_iterator"]) {ptr : Int32}
    (h : d.handle crypto opening body = (.ok (.int32 ptr index), d')) :
    d.ReadsOnly d' ∧ d'.CurrentAt index := by
  simp only [List.mem_cons, List.not_mem_nil, or_false] at hopening
  rcases hopening with rfl | rfl
  · obtain ⟨p, -, hrun⟩ := decode_of_handle (m := .kvIterator) (by decide) (by decide) h
    have hopens := opens_kvIterator crypto p d
    unfold ComesTo at hopens
    rw [hrun] at hopens
    exact ⟨hopens.1, hopens.2 ptr index rfl⟩
  · obtain ⟨p, -, hrun⟩ := decode_of_handle (m := .kvPreIterator) (by decide) (by decide) h
    have hopens := opens_kvPreIterator crypto p d
    unfold ComesTo at hopens
    rw [hrun] at hopens
    exact ⟨hopens.1, hopens.2 ptr index rfl⟩

/-- A current cursor that is asked for its next pair keeps the blob of a pair that is kept. -/
theorem cached_of_next (hcurrent : d.CurrentAt index) (hindex : Points body index) {told : Reply}
    (h : d.handle crypto "kv_iterator_next_len" body = (.ok told, d')) :
    ∃ pair : Pair, d.kept pair.1 = some pair.2 ∧ d'.context.cached = some (encodePair pair) := by
  obtain ⟨p, hdecode, hpoints⟩ := hindex
  obtain ⟨p', hdecode', hrun⟩ := decode_of_handle (m := .kvIteratorNextLen) (by decide)
    (by decide) h
  cases hdecode.symm.trans hdecode'
  have hnext : ComesTo (fun result d' => ∀ told, result = .ok told → ∃ pair : Pair,
      d.kept pair.1 = some pair.2 ∧ d'.context.cached = some (encodePair pair)) d
      (serveMethod crypto p .kvIteratorNextLen) := by
    refine comesTo_ofPacket_bind (fun e => nofun) fun index' hindex' => ?_
    cases hpoints.symm.trans hindex'
    refine comesTo_context_bind (comesTo_ofCursor_bind (fun e _ => nofun) fun next hnext => ?_)
    obtain ⟨pair?, after⟩ := next
    rcases Context.nextPair_eq_ok hnext with
      ⟨rfl, rfl⟩ | ⟨pair, cursor, moved, rfl, hcursor, hmoved, rfl⟩
    · exact comesTo_update_bind nofun
    · refine comesTo_update_bind ?_
      show ComesTo _ _ (replyCached p (encodePair pair))
      have hkept : d.kept pair.1 = some pair.2 := by
        refine hcurrent cursor (Context.get?_of_pairs hcursor) pair ?_
        rw [LookingAhead.remaining_of_next? hmoved]
        exact List.mem_cons_self
      unfold ComesTo
      rw [run_replyCached]
      cases p.getInt32 "value_ptr" with
      | ok ptr => exact fun told _ => ⟨pair, hkept, rfl⟩
      | error e => exact nofun
  unfold ComesTo at hnext
  rw [hrun] at hnext
  exact hnext told rfl

/-- What is fetched is what was kept. -/
theorem fetched_of_cached {ptr : Int32} {blob b : Bytes} (hcached : d.context.cached = some b)
    (h : d.handle crypto "kv_iterator_next" body = (.ok (.write ptr blob), d')) : blob = b := by
  obtain ⟨p, -, hrun⟩ := decode_of_handle (m := .kvIteratorNext) (by decide) (by decide) h
  rw [serveMethod_of_fetches crypto p rfl, run_serveFetch] at hrun
  cases hplace : p.getInt32 "value_ptr" with
  | error e =>
    rw [hplace] at hrun
    cases hrun
  | ok ptr' =>
    rw [hplace] at hrun
    obtain ⟨-, hblob⟩ := Reply.write.inj (Except.ok.inj (Prod.mk.inj hrun).1)
    rw [← hblob]
    unfold Context.takeCached
    rw [hcached]
    rfl

/-- A blob that comes from a cursor: after any requests a cursor is opened, and from then on nothing
is written.  At some point the cursor is asked for its next pair, and the blob is fetched.  The last
desk is one that comes about later on. -/
inductive Walked (crypto : CryptoProvider) (start : Desk Session) (blob : Bytes)
    (last : Desk Session) : Prop
  | intro {before between after : List (String × Bytes)} {opening : String}
      {range next fetch : Bytes} {ptr ptr' index : Int32} {told : Reply}
      {d₁ d₂ d₃ d₄ : Desk Session}
      (hopening : opening ∈ ["kv_iterator", "kv_pre_iterator"])
      (hopen : (start.handleAll crypto before).2.handle crypto opening range =
        (.ok (.int32 ptr index), d₁))
      (hbetween : ∀ r ∈ between, r.1 ∉ writings) (hd₂ : (d₁.handleAll crypto between).2 = d₂)
      (hpoints : Points next index)
      (hnext : d₂.handle crypto "kv_iterator_next_len" next = (.ok told, d₃))
      (hfetch : d₃.handle crypto "kv_iterator_next" fetch = (.ok (.write ptr' blob), d₄))
      (hafter : ∀ r ∈ after, r.1 ∉ writings) (hlast : (d₄.handleAll crypto after).2 = last)

/-- **The blob comes from a pair that is kept.** -/
theorem Walked.kept {start last : Desk Session} {blob : Bytes} (hstart : start.WellKept)
    (h : Walked crypto start blob last) :
    last.WellKept ∧ ∃ pair : Pair, last.kept pair.1 = some pair.2 ∧ blob = encodePair pair := by
  obtain @⟨before, between, after, opening, range, next, fetch, ptr, ptr', index, told, d₁, d₂, d₃,
    d₄, hopening, hopen, hbetween, hd₂, hpoints, hnext, hfetch, hafter, hlast⟩ := h
  obtain ⟨hopened, hcurrent⟩ := currentAt_of_opening hopening hopen
  have hwalked : d₁.ReadsOnly d₂ := hd₂ ▸ Desk.readsOnly_handleAll crypto hbetween d₁
  obtain ⟨pair, hkept, hcached⟩ := cached_of_next (hwalked.current index hcurrent) hpoints hnext
  have hasked : d₂.ReadsOnly d₃ := by
    have hreads := Desk.readsOnly_handle crypto (by decide : "kv_iterator_next_len" ∉ writings)
      next d₂
    rwa [hnext] at hreads
  have hfetched : d₃.ReadsOnly d₄ := by
    have hreads := Desk.readsOnly_handle crypto (by decide : "kv_iterator_next" ∉ writings) fetch d₃
    rwa [hfetch] at hreads
  have hrest : d₄.ReadsOnly last := hlast ▸ Desk.readsOnly_handleAll crypto hafter d₄
  have hend : d₂.ReadsOnly last := (hasked.trans hfetched).trans hrest
  have hwell := Desk.wellKept_handleAll crypto before hstart
  exact ⟨hwell.readsOnly ((hopened.trans hwalked).trans hend), pair,
    (hend.kept pair.1).trans hkept, fetched_of_cached hcached hfetch⟩

/-- **Iteration agrees with point reads exactly for stored keys of which both parts fit into a
packet and no separator is lost.**  Whatever was put and removed before a cursor was opened, a blob
that comes from it is that of a pair that is kept.  It agrees if the key under which the value was
put has no separator. -/
theorem walked_agrees_iff (crypto : CryptoProvider) {start last : Desk Session} {blob : Bytes}
    (hstart : start.WellKept) (h : Walked crypto start blob last) :
    ∃ stored value, last.kept stored = some value ∧ blob = encodePair (stored, value) ∧
      (Agrees crypto last blob ↔
        (Fits (split stored).1 ∧ Fits (split stored).2) ∧
        (Dangling stored → (last.kept stored.dropLast).getD [] = value)) ∧
      (∃ key field, Fits key ∧ Fits field ∧ stored = join key field) ∧
      ∀ key field, Fits key → Fits field → stored = join key field → mark ∉ key.toList →
        Agrees crypto last blob := by
  obtain ⟨hwell, ⟨stored, value⟩, hkept, rfl⟩ := h.kept hstart
  obtain ⟨⟨key, field, hkey, hfield, rfl⟩, hvalue⟩ := hwell _ _ hkept
  dsimp only at hkept hvalue
  have hlength : (join key field).length < 2 ^ 32 := by
    have hmax : Packet.maxValueLength = 1048576 := rfl
    unfold Fits at hkey hfield
    unfold join
    split
    · omega
    · rw [List.length_append, List.length_cons]
      omega
  have hagrees := agrees_encodePair_iff crypto (join_eq_encode key field ▸ hkept)
    (join_eq_encode key field ▸ hlength) hvalue
  rw [← join_eq_encode] at hagrees
  refine ⟨_, value, hkept, rfl, hagrees, ⟨key, field, hkey, hfield, rfl⟩,
    fun key' field' hkey' hfield' (hsame : join key field = join key' field') hmark =>
      hagrees.2 ?_⟩
  rw [hsame, split_join hmark]
  exact ⟨⟨hkey', hfield'⟩, fun hdangling => (not_dangling_join hmark field' hdangling).elim⟩

/-! ### Two walks -/

/-- The desk after one piece of state was put, on a ledger without entries. -/
def putDesk (key field : String) (value : Bytes) : Desk Session :=
  (freshDesk.handleAll .absent [("put_state", (pairPacket key field value).encode)]).2

/-- The body that opens a cursor over all keys. -/
def rangeBody : Bytes :=
  Packet.encode ⟨[⟨.user, "prefix", .text ""⟩, ⟨.user, "value_ptr", .int32 4⟩]⟩

/-- The body that asks the first cursor for its next pair. -/
def nextBody : Bytes :=
  Packet.encode ⟨[⟨.user, "rs_index", .int32 0⟩, ⟨.user, "value_ptr", .int32 8⟩]⟩

/-- The desk after a cursor was opened. -/
def openedDesk (key field : String) (value : Bytes) : Desk Session :=
  ((putDesk key field value).handle .absent "kv_pre_iterator" rangeBody).2

/-- The desk after the cursor was asked for its next pair. -/
def askedDesk (key field : String) (value : Bytes) : Desk Session :=
  ((openedDesk key field value).handle .absent "kv_iterator_next_len" nextBody).2

/-- The desk after the blob was fetched. -/
def walkedDesk (key field : String) (value : Bytes) : Desk Session :=
  ((askedDesk key field value).handle .absent "kv_iterator_next" (placePacket 16).encode).2

section

variable {key field : String} {value : Bytes}

theorem wellKept_freshDesk : freshDesk.WellKept :=
  fun _ _ => nofun

/-- One pair is kept. -/
theorem kept_walkedDesk (hkey : Fits key) (hfield : Fits field)
    (hvalue : value.length ≤ Packet.maxValueLength) (stored : Bytes) :
    (walkedDesk key field value).kept stored =
      if join key field = stored then some value else none := by
  have hopened : (putDesk key field value).ReadsOnly (openedDesk key field value) :=
    Desk.readsOnly_handle .absent (by decide) _ _
  have hasked : (openedDesk key field value).ReadsOnly (askedDesk key field value) :=
    Desk.readsOnly_handle .absent (by decide) _ _
  have hwalked : (askedDesk key field value).ReadsOnly (walkedDesk key field value) :=
    Desk.readsOnly_handle .absent (by decide) _ _
  have hput : Puts (pairPacket key field value).encode key field value :=
    puts_namingPacket hkey hfield hvalue
  rw [((hopened.trans hasked).trans hwalked).kept]
  unfold putDesk
  rw [Desk.handleAll_cons_snd, Desk.handleAll_nil, Desk.kept_putState freshDesk .absent hput]
  rfl

/-- The requests on these desks are a walk, if they succeed. -/
theorem walked_walkedDesk {told : Reply} {blob : Bytes}
    (hopen : ((putDesk key field value).handle .absent "kv_pre_iterator" rangeBody).1 =
      .ok (.int32 4 0))
    (hnext : ((openedDesk key field value).handle .absent "kv_iterator_next_len" nextBody).1 =
      .ok told)
    (hfetch : ((askedDesk key field value).handle .absent "kv_iterator_next"
      (placePacket 16).encode).1 = .ok (.write 16 blob)) :
    Walked .absent freshDesk blob (walkedDesk key field value) := by
  have hpoints : Points nextBody 0 := ⟨_, Packet.decode_encode (by decide), rfl⟩
  have hnone : ∀ r ∈ ([] : List (String × Bytes)), r.1 ∉ writings := nofun
  have hstay (d : Desk Session) : (d.handleAll .absent []).2 = d := by
    rw [Desk.handleAll_nil]
  exact .intro (by decide) (handle_eq_of_reply hopen) hnone (hstay _) hpoints
    (handle_eq_of_reply hnext) (handle_eq_of_reply hfetch) hnone (hstay _)

end

/-- What was put under a key and a field is read as the cursor says. -/
theorem walked_agrees_plain :
    Walked .absent freshDesk (encodePair (join "a" "b", [1])) (walkedDesk "a" "b" [1]) ∧
      Agrees .absent (walkedDesk "a" "b" [1]) (encodePair (join "a" "b", [1])) := by
  have hwalked : Walked .absent freshDesk (encodePair (join "a" "b", [1]))
      (walkedDesk "a" "b" [1]) :=
    walked_walkedDesk (by decide +kernel)
      (by decide +kernel : _ = Except.ok (Reply.length 8 64)) (by decide +kernel)
  obtain ⟨stored, value, hkept, -, -, -, hagrees⟩ :=
    walked_agrees_iff .absent wellKept_freshDesk hwalked
  rw [kept_walkedDesk (by decide) (by decide) (by decide)] at hkept
  split at hkept
  · rename_i hstored
    exact ⟨hwalked, hagrees "a" "b" (by decide) (by decide) hstored.symm (by decide)⟩
  · cases hkept

/-- **A separator that is lost misleads**: the value of the key `a#` without a field comes from the
cursor as the value of the key `a`, and under that nothing is kept. -/
theorem lost_separator_misleads :
    ¬ ∀ (crypto : CryptoProvider) (start last : Desk Session) (blob : Bytes), start.WellKept →
      Walked crypto start blob last → Agrees crypto last blob := by
  intro hall
  have hwalked : Walked .absent freshDesk (encodePair (join "a#" "", [1]))
      (walkedDesk "a#" "" [1]) :=
    walked_walkedDesk (by decide +kernel)
      (by decide +kernel : _ = Except.ok (Reply.length 8 63)) (by decide +kernel)
  have hagrees := hall _ _ _ _ wellKept_freshDesk hwalked
  have hkept := kept_walkedDesk (by decide : Fits "a#") (by decide : Fits "")
    (by decide : [(1 : UInt8)].length ≤ Packet.maxValueLength)
  have hiff := agrees_encodePair_iff .absent (s := "a#") ((hkept _).trans (if_pos (by decide)))
    (by decide) (by decide)
  obtain ⟨-, hread⟩ := hiff.1 hagrees
  have hsame := hread (by decide)
  rw [hkept, if_neg (by decide)] at hsame
  cases hsame

end ContractHost
