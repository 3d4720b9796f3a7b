import ContractHost.Proofs.Request.Effects

/-!
# Requests that fail

A request that fails records an error, and nothing else should come of it.  On a ledger in memory
that is so for every request but one kind: a probe that finds its bytes, and only then finds that
there is no place for their length.  By then it has kept the bytes in place of those that waited,
and its cursor has moved on, so that the element is lost.

## Main definitions

* `Desk.Unchanged` — nothing has changed but what a recorded error changes.
* `Strays` — a probe without a place for the length that it would tell.

## Main results

* `unchanged_iff_not_strays` — **what fails changes nothing else, exactly if it does not stray.**
* `strayed_probe_moves_cursor` — a cursor that moves on although the request has failed.
-/

namespace ContractHost

open Serving

section

variable {τ : Type}

/-- Nothing has changed but the code, the message and the scheduling class of the outcome. -/
structure Desk.Unchanged (d d' : Desk τ) : Prop where
  /-- The ledger is as before. -/
  ledger : d'.ledger = d.ledger
  /-- Nothing was logged. -/
  journal : d'.journal = d.journal
  /-- So is the context, but for what a recorded error changes, and for cursors that have looked
  ahead. -/
  context : ∃ code message txClass pairCursors rowCursors,
    d'.context =
      { d.context with
        outcome := { d.context.outcome with code, message, txClass }, pairCursors, rowCursors }
  /-- The same cursors are open, and each has as much to give as before. -/
  cursors : d.context.SameCursors d'.context

theorem Desk.Unchanged.record {d d' : Desk τ} (h : d.Unchanged d') (e : RequestFault) :
    d.Unchanged (d'.record e) := by
  cases e with
  | crashed message => exact h
  | failed e =>
    obtain ⟨hledger, hjournal, ⟨code, message, txClass, pairCursors, rowCursors, hcontext⟩,
      hsame⟩ :=
      h
    refine ⟨hledger, hjournal, ⟨Outcome.failure, ?_⟩, ⟨hsame.pairs, hsame.rows⟩⟩
    show ∃ message txClass pairCursors rowCursors, d'.context.recordError e.message = _
    rw [hcontext]
    exact ⟨_, txClass, pairCursors, rowCursors, rfl⟩

variable [LedgerAccess τ]

/-- A probe strays: it finds its bytes, there is no place for their length, and other bytes wait
than before or a cursor has less to give. -/
def Strays (crypto : CryptoProvider) (name : String) (body : Bytes) (d : Desk τ) : Prop :=
  ∃ m packet r b d', Method.ofName? name = some m ∧ Packet.decode body = .ok packet ∧
    probe? crypto packet m = some r ∧ d.run r = (.ok b, d') ∧
    (∃ e, packet.getInt32 "value_ptr" = .error e) ∧
    ¬ (d.context.cached = some b ∧ d.context.SameCursors d'.context)

/-- What is left after a probe without a place: the bytes are kept, and the error is recorded. -/
theorem handle_of_unplaced {crypto : CryptoProvider} {name : String} {body : Bytes}
    {packet : Packet} {m : Method} {r : Serving τ Bytes} {b : Bytes} {d d' : Desk τ}
    {e : PacketError} (hname : Method.ofName? name = some m)
    (hdecode : Packet.decode body = .ok packet) (hprobe : probe? crypto packet m = some r)
    (hfound : d.run r = (.ok b, d')) (hplace : packet.getInt32 "value_ptr" = .error e) :
    d.handle crypto name body =
      (.error (.failed (.packet e)),
        { d' with context := (d'.context.cache b).2.recordError e.message }) := by
  unfold Desk.handle
  rw [run_serve_of_probe hname hdecode hprobe, run_bind, hfound]
  simp only [run_replyCached, hplace]
  rfl

end

/-- A ledger without tables stays as it is when it is asked for them. -/
theorem Tabled.eq {t t' : Session} (h : Tabled t t') : t' = t := by
  rcases h with rfl | ⟨contract, sql, rfl | rfl | rfl | rfl⟩ <;> rfl

/-- What is spared is unchanged, on a ledger without tables. -/
theorem Desk.Spared.unchanged {d d' : Desk Session} (h : d.Spared d') : d.Unchanged d' := by
  obtain ⟨txClass, pairCursors, rowCursors, hcontext⟩ := h.context
  exact ⟨h.ledger.eq, h.journal, ⟨d.context.outcome.code, d.context.outcome.message, txClass,
    pairCursors, rowCursors, hcontext⟩, h.cursors⟩

/-- A look that takes nothing from a cursor, for bytes that waited already: keeping them changes
nothing. -/
theorem Looked.unchanged {b : Bytes} {d d' : Desk Session}
    (h : Looked (α := Bytes) d (.ok b) d') (hcached : d.context.cached = some b)
    (hsame : d.context.SameCursors d'.context) :
    d.Unchanged { d' with context := (d'.context.cache b).2 } := by
  obtain ⟨hledger, hjournal, ⟨pairCursors, rowCursors, hcontext⟩, -⟩ := h
  have hkept : (d'.context.cache b).2 = { d.context with pairCursors, rowCursors } := by
    rw [hcontext]
    unfold Context.cache
    rw [← hcached]
  refine ⟨hledger.eq, hjournal, ⟨d.context.outcome.code, d.context.outcome.message,
    d.context.outcome.txClass, pairCursors, rowCursors, hkept⟩, ⟨hsame.pairs, hsame.rows⟩⟩

/-- **What fails changes nothing but the recorded error, exactly if it does not stray.**  The bytes
that wait, the open cursors, the payload, the events, the logged lines and the ledger with its
transaction are as before, whatever the context, the request and its body are. -/
theorem unchanged_iff_not_strays (crypto : CryptoProvider) (name : String) (body : Bytes)
    (d : Desk Session) :
    (∀ e, (d.handle crypto name body).1 = .error e →
        d.Unchanged (d.handle crypto name body).2) ↔ ¬ Strays crypto name body d := by
  constructor
  · intro hclean hstrays
    obtain ⟨m, packet, r, b, d', hname, hdecode, hprobe, hfound, ⟨e, hplace⟩, hchange⟩ := hstrays
    have hhandle := handle_of_unplaced hname hdecode hprobe hfound hplace
    obtain ⟨-, -, ⟨code, message, txClass, pairCursors, rowCursors, hcontext⟩, hsame⟩ :=
      hclean _ (by rw [hhandle])
    rw [hhandle] at hcontext hsame
    -- nothing has changed, so neither the bytes that wait nor what a cursor has to give have
    have hcached := congrArg Context.cached hcontext
    exact hchange ⟨hcached.symm, ⟨hsame.pairs, hsame.rows⟩⟩
  · intro hstrays e herror
    have heffect := effect_serve crypto name body d
    unfold ComesTo at heffect
    unfold Desk.handle at herror ⊢
    generalize d.run (serve crypto name body) = served at heffect herror ⊢
    obtain ⟨result, d'⟩ := served
    cases heffect with
    | plain h _ =>
      cases result with
      | ok reply => cases herror
      | error e => exact (h.spared e rfl).unchanged.record e
    | @unplaced m packet r b d' e hname hdecode hprobe hfound hplace =>
      have hlooked := looked_probe hprobe d
      unfold ComesTo at hlooked
      rw [hfound] at hlooked
      -- the probe has not strayed, so the bytes waited already and no cursor has moved
      have hstill : d.context.cached = some b ∧ d.context.SameCursors d'.context := by
        refine Classical.byContradiction fun hchange => hstrays ?_
        exact ⟨m, packet, r, b, d', hname, hdecode, hprobe, hfound, ⟨e, hplace⟩, hchange⟩
      exact (hlooked.unchanged hstill.1 hstill.2).record (.failed (.packet e))
    | told _ _ _ ptr => cases herror
    | fetched _ _ ptr => cases herror

/-- A desk of an invocation with one open cursor, which has one more pair to give. -/
def cursorDesk : Desk Session :=
  { context := {
      contract := ⟨"counter", "1.0.0"⟩
      method := "run"
      pairCursors :=
        (∅ : OrderedMap Int32 (LookingAhead Pair)).insert 0 { rest := [([107], [118])] } }
    ledger := default }

/-- The body of a request that names the cursor, and no place. -/
def cursorBody : Bytes :=
  Packet.encode ⟨[⟨.user, "rs_index", .int32 0⟩]⟩

/-- **A cursor moves on although the request has failed**: it is asked for the length of its next
pair, and there is no place for the length. -/
theorem strayed_probe_moves_cursor :
    ¬ ∀ (crypto : CryptoProvider) (name : String) (body : Bytes) (d : Desk Session) (e),
      (d.handle crypto name body).1 = .error e → d.Unchanged (d.handle crypto name body).2 := by
  intro hall
  have hnone : (cursorDesk.handle .absent "kv_iterator_next_len" cursorBody).1.toOption = none := by
    decide +kernel
  have hbefore : (cursorDesk.context.pairCursors.get? 0).map (·.cursor) =
      some ⟨[([107], [118])]⟩ := by decide +kernel
  have hafter : ((cursorDesk.handle .absent "kv_iterator_next_len"
      cursorBody).2.context.pairCursors.get? 0).map (·.cursor) = some ⟨[]⟩ := by decide +kernel
  cases hresult : (cursorDesk.handle .absent "kv_iterator_next_len" cursorBody).1 with
  | ok reply =>
    rw [hresult] at hnone
    cases hnone
  | error e =>
    obtain ⟨-, -, -, hsame⟩ := hall _ _ _ _ _ hresult
    rw [hsame.pairs, hbefore] at hafter
    cases hafter

end ContractHost
