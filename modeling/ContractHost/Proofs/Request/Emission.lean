import ContractHost.Proofs.Packet.Params
import ContractHost.Proofs.Request.PointReads
import ContractHost.Proofs.Request.Standing

/-!
# Which events are accepted

An event has a topic and some texts.  The topic is the first item with its key; it has to be a text,
neither empty nor too long, and there may not be too many texts beside it.  What this comes to
depends on how a topic is measured and on what counts as a text beside it, so both are parameters
here.  A topic is measured in bytes, and a text counts unless its key is that of the topic.

One may expect a topic to be measured in characters, and every text to count that is not the topic
itself.  Of most bodies this says the same.  It does not if the topic has more bytes than it may
have characters, or if a second text has the key of the topic.

## Main definitions

* `Packet.textsBeside`, `Packet.furtherTexts` — the texts under other keys, and all that are not
  the topic itself.
* `Announces` — a body announces an event with a topic.
* `TakesEvents` — how a request for an event is answered.

## Main results

* `eventOf_eq_ok_iff` — the event that a body describes.
* `takesEvents_chars_iff`, `Announces.congr` — **when the two readings say the same.**
* `emitEvent_accepted` — **which events are accepted, and what is added.**
* `events_misjudged` — bodies of which the two readings say different things.
-/

namespace ContractHost

open Serving

/-! ### Texts -/

/-- The text of an item, if it holds one. -/
def Item.text? (i : Item) : Option String :=
  match i.value with
  | .text s => some s
  | _ => none

namespace Packet

/-- The texts under other keys. -/
def textsBeside (p : Packet) (key : String) : List String :=
  (p.items.filter (·.key ≠ key)).filterMap Item.text?

/-- The texts of all items but the first one with the key. -/
def furtherTexts (p : Packet) (key : String) : List String :=
  (p.items.eraseP (·.key = key)).filterMap Item.text?

/-- No item but the first one holds a text under the key. -/
def HoldsOneText (p : Packet) (key : String) : Prop :=
  ∀ i ∈ p.items.eraseP (·.key = key), i.key = key → i.text? = none

instance (p : Packet) (key : String) : Decidable (p.HoldsOneText key) :=
  inferInstanceAs (Decidable (∀ i ∈ _, _))

theorem filter_eraseP (l : List Item) (key : String) :
    (l.eraseP (·.key = key)).filter (·.key ≠ key) = l.filter (·.key ≠ key) := by
  induction l with
  | nil => rfl
  | cons i l ih =>
    by_cases hi : i.key = key
    · rw [List.eraseP_cons_of_pos (by simpa using hi), List.filter_cons_of_neg (by simpa using hi)]
    · rw [List.eraseP_cons_of_neg (by simpa using hi), List.filter_cons_of_pos (by simpa using hi),
        List.filter_cons_of_pos (by simpa using hi), ih]

/-- What is left out of a list of items costs it no text exactly if it holds none. -/
theorem filterMap_filter_eq_iff (l : List Item) (key : String) :
    (l.filter (·.key ≠ key)).filterMap Item.text? = l.filterMap Item.text? ↔
      ∀ i ∈ l, i.key = key → i.text? = none := by
  induction l with
  | nil => exact iff_of_true rfl nofun
  | cons i l ih =>
    rw [List.forall_mem_cons, ← ih]
    by_cases hi : i.key = key
    · rw [List.filter_cons_of_neg (by simpa using hi)]
      cases htext : i.text? with
      | none =>
        rw [List.filterMap_cons_none htext]
        exact (and_iff_right fun _ => rfl).symm
      | some s =>
        rw [List.filterMap_cons_some htext]
        -- there is a text more than could be left of the others
        refine iff_of_false (fun h => ?_) fun h => nomatch h.1 hi
        have hpart : ((l.filter (·.key ≠ key)).filterMap Item.text?).Sublist
            (l.filterMap Item.text?) := List.filter_sublist.filterMap _
        have hlength := hpart.length_le
        rw [h, List.length_cons] at hlength
        omega
    · rw [List.filter_cons_of_pos (by simpa using hi), and_iff_right fun h => absurd h hi]
      cases htext : i.text? with
      | none => rw [List.filterMap_cons_none htext, List.filterMap_cons_none htext]
      | some s =>
        rw [List.filterMap_cons_some htext, List.filterMap_cons_some htext, List.cons_inj_right]

/-- **Both are the same exactly if no second text has the key.** -/
theorem textsBeside_eq_iff {p : Packet} {key : String} :
    p.textsBeside key = p.furtherTexts key ↔ p.HoldsOneText key := by
  unfold textsBeside furtherTexts HoldsOneText
  rw [← filter_eraseP, filterMap_filter_eq_iff]

theorem get?_of_getText {p : Packet} {key s : String} (h : p.getText key = .ok s) :
    p.get? key = some (.text s) := by
  unfold getText at h
  split at h
  · cases h
    assumption
  · cases h
  · cases h

end Packet

/-! ### Lengths -/

/-- The length of a text in bytes. -/
def byteLength (s : String) : Nat :=
  (Utf8.encode s).length

/-- A text has a byte for a character at least. -/
theorem length_le_byteLength (s : String) : s.length ≤ byteLength s := by
  have hsize (s : String) : byteLength s = s.utf8ByteSize := Array.length_toList
  rw [hsize]
  induction s using String.push_induction with
  | empty => exact le_rfl
  | push s c ih =>
    have hc := c.utf8Size_pos
    rw [String.utf8ByteSize_push, String.length_push]
    omega

/-! ### What a body announces -/

/-- A body announces an event with a topic: the first item with the key of the topic holds it, it is
neither empty nor longer than it may be, and there are not too many texts beside it. -/
structure Announces (length : String → Nat) (texts : Packet → List String) (body : Packet)
    (topic : String) : Prop where
  /-- The first item with the key of the topic holds it. -/
  found : body.get? "topic" = some (.text topic)
  /-- It is not empty. -/
  nonempty : 1 ≤ length topic
  /-- It is short enough. -/
  short : length topic ≤ 255
  /-- There are not too many texts. -/
  few : (texts body).length ≤ 16

/-- The event with a topic and texts, as a contract emits it in a transaction. -/
def eventAbout (contract : ContractId) (txId topic : String) (data : List String) : Event :=
  { topic, txId, contractName := contract.name, contractVersion := contract.version, data }

/-- The texts that go into an event. -/
theorem filterMap_eq_textsBeside (body : Packet) :
    (body.items.filterMap fun i =>
      match i.value with
      | .text s => if i.key = "topic" then none else some s
      | _ => none) = body.textsBeside "topic" := by
  unfold Packet.textsBeside
  rw [List.filterMap_filter]
  refine List.filterMap_congr fun i _ => ?_
  by_cases hkey : i.key = "topic"
  · cases i.value <;> simp [hkey]
  · cases hvalue : i.value <;> simp [hkey, Item.text?, hvalue]

/-- What a body with a text for its topic describes. -/
theorem eventOf_of_text {contract : ContractId} {txId topic : String} {body : Packet} {e : Event}
    (hfound : body.get? "topic" = some (.text topic)) :
    eventOf contract txId body = .ok e ↔
      Announces byteLength (·.textsBeside "topic") body topic ∧
        e = eventAbout contract txId topic (body.textsBeside "topic") := by
  have htext : body.getText "topic" = .ok topic := by
    unfold Packet.getText
    rw [hfound]
  unfold eventOf
  rw [htext]
  simp only [Except.mapError, bind, Except.bind, pure, Except.pure, throw, throwThe,
    MonadExceptOf.throw]
  generalize hdata : List.filterMap _ body.items = data
  obtain rfl : data = body.textsBeside "topic" :=
    hdata.symm.trans (filterMap_eq_textsBeside body)
  split
  · rename_i hlength
    refine iff_of_false nofun ?_
    rintro ⟨⟨-, hnonempty, hshort, -⟩, -⟩
    rcases hlength with hempty | hlong
    · exact absurd hempty (Nat.one_le_iff_ne_zero.mp hnonempty)
    · exact absurd hshort (Nat.not_le.mpr hlong)
  · rename_i hlength
    push Not at hlength
    split
    · rename_i hmany
      refine iff_of_false nofun ?_
      rintro ⟨⟨-, -, -, hfew⟩, -⟩
      exact absurd hfew (Nat.not_le.mpr hmany)
    · rename_i hfew
      have hannounces : Announces byteLength (·.textsBeside "topic") body topic :=
        ⟨hfound, Nat.one_le_iff_ne_zero.mpr hlength.1, hlength.2, Nat.not_lt.mp hfew⟩
      constructor
      · intro h
        exact ⟨hannounces, (Except.ok.inj h).symm⟩
      · rintro ⟨-, rfl⟩
        rfl

/-- **The event that a body describes**: its topic is measured in bytes, and its texts are those
under other keys. -/
theorem eventOf_eq_ok_iff {contract : ContractId} {txId : String} {body : Packet} {e : Event} :
    eventOf contract txId body = .ok e ↔ ∃ topic,
      Announces byteLength (·.textsBeside "topic") body topic ∧
      e = eventAbout contract txId topic (body.textsBeside "topic") := by
  constructor
  · intro h
    cases htext : body.getText "topic" with
    | error e' =>
      unfold eventOf at h
      rw [htext] at h
      cases h
    | ok topic => exact ⟨topic, (eventOf_of_text (Packet.get?_of_getText htext)).mp h⟩
  · rintro ⟨topic, hannounces, he⟩
    exact (eventOf_of_text hannounces.found).mpr ⟨hannounces, he⟩

/-! ### Requests for an event -/

/-- **When a body announces the same in both readings**: if a topic that is short in characters is
short in bytes, and no second text has the key of the topic. -/
theorem Announces.congr {body : Packet} {topic : String}
    (hshort : topic.length ≤ 255 → byteLength topic ≤ 255) (honce : body.HoldsOneText "topic") :
    Announces String.length (·.furtherTexts "topic") body topic ↔
      Announces byteLength (·.textsBeside "topic") body topic := by
  have htexts : body.textsBeside "topic" = body.furtherTexts "topic" :=
    Packet.textsBeside_eq_iff.mpr honce
  have hlow := length_le_byteLength topic
  have hhigh : byteLength topic ≤ 4 * topic.length := Packet.length_encode_le topic
  constructor
  · rintro ⟨hfound, hnonempty, hchars, hfew⟩
    exact ⟨hfound, hnonempty.trans hlow, hshort hchars, by rwa [htexts]⟩
  · rintro ⟨hfound, hnonempty, hbytes, hfew⟩
    exact ⟨hfound, by omega, hlow.trans hbytes, by rwa [← htexts]⟩

section

variable {τ : Type} [LedgerAccess τ] {crypto : CryptoProvider} {body : Bytes} {packet : Packet}

/-- How a request for an event is answered, for a way to measure topics and one to find texts. -/
structure TakesEvents (length : String → Nat) (texts : Packet → List String)
    (crypto : CryptoProvider) (body : Bytes) (packet : Packet) (d : Desk τ) : Prop where
  /-- It is accepted exactly if its body announces an event. -/
  accepts : (d.handle crypto "emit_event" body).1 = .ok .done ↔
    ∃ topic, Announces length texts packet topic
  /-- That event is added behind the others. -/
  adds : ∀ topic, Announces length texts packet topic →
    (d.handle crypto "emit_event" body).2.context.outcome.events = d.context.outcome.events ++
      [eventAbout d.context.contract (LedgerAccess.txId d.ledger) topic (texts packet)]
  /-- Otherwise it fails, and none is added. -/
  refuses : (∀ topic, ¬ Announces length texts packet topic) →
    (∃ e, (d.handle crypto "emit_event" body).1 = .error e) ∧
      (d.handle crypto "emit_event" body).2.context.outcome.events = d.context.outcome.events

/-- What is emitted is the event that the body describes. -/
theorem emission?_emitEvent {contract : ContractId} {txId : String}
    (hdecode : Packet.decode body = .ok packet) :
    emission? contract txId "emit_event" body = (eventOf contract txId packet).toOption := by
  unfold emission?
  rw [if_pos (by decide), hdecode]
  rfl

/-- **Topics are measured in bytes, and a text with the key of the topic does not count.** -/
theorem takesEvents_bytes (crypto : CryptoProvider) (hdecode : Packet.decode body = .ok packet)
    (d : Desk τ) : TakesEvents byteLength (·.textsBeside "topic") crypto body packet d := by
  have hdescribes {e : Event} :
      eventOf d.context.contract (LedgerAccess.txId d.ledger) packet = .ok e ↔ ∃ topic,
        Announces byteLength (·.textsBeside "topic") packet topic ∧
        e = eventAbout d.context.contract (LedgerAccess.txId d.ledger) topic
          (packet.textsBeside "topic") := eventOf_eq_ok_iff
  rcases run_serve_emitEvent crypto (by decide : Method.ofName? "emit_event" = some .emitEvent)
    body d with ⟨e, hemits, hrun⟩ | ⟨hemits, e, hrun⟩
  · rw [emission?_emitEvent hdecode] at hemits
    have hhandle := handle_of_run hrun
    cases hevent : eventOf d.context.contract (LedgerAccess.txId d.ledger) packet with
    | error e' =>
      rw [hevent] at hemits
      cases hemits
    | ok e' =>
      rw [hevent] at hemits
      cases hemits
      obtain ⟨topic, hannounces, -⟩ := hdescribes.mp hevent
      refine ⟨iff_of_true ?_ ⟨topic, hannounces⟩, fun topic' hannounces' => ?_, fun hnone => ?_⟩
      · rw [hhandle]
      · have hsame := hevent.symm.trans (hdescribes.mpr ⟨topic', hannounces', rfl⟩)
        rw [hhandle, Except.ok.inj hsame]
        rfl
      · exact absurd hannounces (hnone topic)
  · rw [emission?_emitEvent hdecode] at hemits
    have hhandle : d.handle crypto "emit_event" body = (.error e, d.record e) := by
      unfold Desk.handle
      rw [hrun]
    have hnone (topic : String) : ¬ Announces byteLength (·.textsBeside "topic") packet topic := by
      intro hannounces
      rw [hdescribes.mpr ⟨topic, hannounces, rfl⟩] at hemits
      cases hemits
    refine ⟨iff_of_false ?_ (not_exists.mpr hnone), fun topic h => absurd h (hnone topic),
      fun _ => ⟨⟨e, ?_⟩, ?_⟩⟩
    · rw [hhandle]
      exact nofun
    · rw [hhandle]
    · -- the error is recorded, and nothing else
      rw [hhandle]
      cases e <;> rfl

/-- A body announces at most one event. -/
theorem Announces.topic_unique {length length' : String → Nat} {texts texts' : Packet → List String}
    {topic topic' : String} (h : Announces length texts packet topic)
    (h' : Announces length' texts' packet topic') : topic = topic' :=
  Value.text.inj (Option.some.inj (h.found.symm.trans h'.found))

/-- **When both readings describe how a request is answered**: they announce the same, and if they
announce something, no second text has the key of the topic. -/
theorem takesEvents_chars_iff (crypto : CryptoProvider) (hdecode : Packet.decode body = .ok packet)
    (d : Desk τ) :
    TakesEvents String.length (·.furtherTexts "topic") crypto body packet d ↔
      ∀ topic, (Announces String.length (·.furtherTexts "topic") packet topic ↔
          Announces byteLength (·.textsBeside "topic") packet topic) ∧
        (Announces String.length (·.furtherTexts "topic") packet topic →
          packet.HoldsOneText "topic") := by
  have hbytes := takesEvents_bytes crypto hdecode d
  constructor
  · intro hchars topic
    have hboth : Announces String.length (·.furtherTexts "topic") packet topic ↔
        Announces byteLength (·.textsBeside "topic") packet topic := by
      constructor
      · intro h
        obtain ⟨topic', h'⟩ := hbytes.accepts.mp (hchars.accepts.mpr ⟨topic, h⟩)
        exact h.topic_unique h' ▸ h'
      · intro h
        obtain ⟨topic', h'⟩ := hchars.accepts.mp (hbytes.accepts.mpr ⟨topic, h⟩)
        exact h.topic_unique h' ▸ h'
    refine ⟨hboth, fun h => Packet.textsBeside_eq_iff.mp ?_⟩
    -- the same event was added, so it has the same texts
    have hevents := (hbytes.adds topic (hboth.mp h)).symm.trans (hchars.adds topic h)
    have hevent := List.append_cancel_left hevents
    exact congrArg Event.data (List.singleton_inj.mp hevent)
  · intro hsame
    refine ⟨?_, fun topic h => ?_, fun hnone => ?_⟩
    · rw [hbytes.accepts]
      exact exists_congr fun topic => (hsame topic).1.symm
    · have htexts : packet.textsBeside "topic" = packet.furtherTexts "topic" :=
        Packet.textsBeside_eq_iff.mpr ((hsame topic).2 h)
      rw [← htexts]
      exact hbytes.adds topic ((hsame topic).1.mp h)
    · exact hbytes.refuses fun topic h => hnone topic ((hsame topic).1.mpr h)

/-- **Which events are accepted, and what is added.**  A request for an event with a body that can
be read is accepted exactly if the first item with the key of the topic is a text of 1 to 255 bytes,
and at most 16 texts have other keys.  Then one event is added, with this topic and these texts, and
otherwise none.  To say so with a topic measured in characters, and with all texts but the topic,
is right exactly if this announces the same and there is no second text with the key of the topic if
anything is announced; so it is right of every body whose topic is short in bytes if it is short in
characters, and that holds no second text with its key. -/
theorem emitEvent_accepted (crypto : CryptoProvider) (hdecode : Packet.decode body = .ok packet)
    (d : Desk τ) :
    TakesEvents byteLength (·.textsBeside "topic") crypto body packet d ∧
    (TakesEvents String.length (·.furtherTexts "topic") crypto body packet d ↔
      ∀ topic, (Announces String.length (·.furtherTexts "topic") packet topic ↔
          Announces byteLength (·.textsBeside "topic") packet topic) ∧
        (Announces String.length (·.furtherTexts "topic") packet topic →
          packet.HoldsOneText "topic")) ∧
    ((∀ topic, packet.get? "topic" = some (.text topic) → topic.length ≤ 255 →
        byteLength topic ≤ 255) → packet.HoldsOneText "topic" →
      TakesEvents String.length (·.furtherTexts "topic") crypto body packet d) := by
  refine ⟨takesEvents_bytes crypto hdecode d, takesEvents_chars_iff crypto hdecode d,
    fun hshort honce => (takesEvents_chars_iff crypto hdecode d).mpr fun topic => ?_⟩
  refine ⟨⟨fun h => ?_, fun h => ?_⟩, fun _ => honce⟩
  · exact (Announces.congr (hshort topic h.found) honce).mp h
  · exact (Announces.congr (hshort topic h.found) honce).mpr h

end

/-- The body of a transfer. -/
def transferPacket : Packet :=
  ⟨[⟨.user, "topic", .text "transfer"⟩, ⟨.user, "from", .text "alice"⟩, ⟨.user, "to", .text "bob"⟩]⟩

/-- A transfer is announced, in either reading. -/
theorem emitEvent_accepted_transfer :
    Packet.decode transferPacket.encode = .ok transferPacket ∧
    (freshDesk.handle .absent "emit_event" transferPacket.encode).2.context.outcome.events =
      [eventAbout freshDesk.context.contract (LedgerAccess.txId freshDesk.ledger) "transfer"
        ["alice", "bob"]] := by
  have hdecode : Packet.decode transferPacket.encode = .ok transferPacket :=
    Packet.decode_encode (by decide +kernel)
  obtain ⟨-, -, hreading⟩ := emitEvent_accepted .absent hdecode freshDesk
  have hshort : ∀ topic, transferPacket.get? "topic" = some (.text topic) → topic.length ≤ 255 →
      byteLength topic ≤ 255 := by
    intro topic hfound _
    obtain rfl : "transfer" = topic := Value.text.inj (Option.some.inj hfound)
    decide
  exact ⟨hdecode, (hreading hshort (by decide)).adds "transfer"
    ⟨rfl, by decide, by decide, by decide⟩⟩

/-- A topic of 128 characters in 256 bytes. -/
def wordyTopic : String :=
  String.ofList (List.replicate 128 'é')

/-- The body of an event with this topic. -/
def wordyPacket : Packet :=
  ⟨[⟨.user, "topic", .text wordyTopic⟩]⟩

/-- The body of an event with two texts under the key of the topic. -/
def doubledPacket : Packet :=
  ⟨[⟨.user, "topic", .text "transfer"⟩, ⟨.user, "topic", .text "bob"⟩]⟩

/-- **What is announced by characters and all texts is not what is accepted**: the one body
announces an event and is refused, the other one is accepted and loses a text. -/
theorem events_misjudged :
    (Packet.decode wordyPacket.encode = .ok wordyPacket ∧
      ¬ TakesEvents String.length (·.furtherTexts "topic") .absent wordyPacket.encode wordyPacket
        freshDesk) ∧
    (Packet.decode doubledPacket.encode = .ok doubledPacket ∧
      ¬ TakesEvents String.length (·.furtherTexts "topic") .absent doubledPacket.encode
        doubledPacket freshDesk) := by
  have hchars : wordyTopic.length = 128 := String.length_ofList
  have hbytes : byteLength wordyTopic = 256 := by decide +kernel
  have hwordy : wordyPacket.WithinLimits := by
    refine ⟨by decide, List.forall_mem_singleton.mpr ⟨by decide, ?_⟩⟩
    exact hbytes.le.trans (by decide)
  refine ⟨⟨Packet.decode_encode hwordy, fun h => ?_⟩,
    ⟨Packet.decode_encode (by decide +kernel), fun h => ?_⟩⟩
  · have haccepted := h.accepts.mpr ⟨wordyTopic, rfl, by omega, by omega, by decide⟩
    obtain ⟨topic, hfound, -, hshort, -⟩ :=
      (takesEvents_bytes .absent (Packet.decode_encode hwordy) freshDesk).accepts.mp haccepted
    obtain rfl : wordyTopic = topic := Value.text.inj (Option.some.inj hfound)
    omega
  · have hadded := h.adds "transfer" ⟨rfl, by decide, by decide, by decide⟩
    revert hadded
    decide +kernel

end ContractHost
