import ContractHost.Proofs.Request.Standing

/-!
# The scheduling class of requests

The class of a transaction says whether a range of keys was opened in it.  The two requests that
open a cursor over a range set the class before they do anything that can fail, as soon as their
body is known to be a packet.  No other request touches it.

## Main definitions

* `opensRange` — the requests that count as opening a range.

## Main results

* `classed_serveMethod`, `classed_serveRange` — what becomes of the class, by methods.
* `txClass_serve` — **a request sets the class exactly if it opens a range.**
-/

namespace ContractHost

/-- The request opens a cursor over a range of keys: its name says so, and its body is a packet. -/
def opensRange (name : String) (body : Bytes) : Bool :=
  (name = Method.kvIterator.name || name = Method.kvPreIterator.name) && (Packet.decode body).isOk

theorem Method.name_of_ofName? {name : String} {m : Method} (h : ofName? name = some m) :
    m.name = name :=
  of_decide_eq_true (List.find?_some (p := fun m : Method => decide (m.name = name)) h)

theorem opensRange_iff {name : String} {body : Bytes} :
    opensRange name body = true ↔
      (Method.ofName? name = some .kvIterator ∨ Method.ofName? name = some .kvPreIterator) ∧
        ∃ packet, Packet.decode body = .ok packet := by
  have hname (m : Method) (hm : Method.ofName? m.name = some m) :
      Method.ofName? name = some m ↔ name = m.name :=
    ⟨fun h => (Method.name_of_ofName? h).symm, fun h => h ▸ hm⟩
  unfold opensRange
  rw [hname _ (by decide), hname _ (by decide), Bool.and_eq_true, Bool.or_eq_true,
    decide_eq_true_iff, decide_eq_true_iff]
  refine and_congr_right fun _ => ?_
  cases Packet.decode body with
  | error e => exact ⟨nofun, nofun⟩
  | ok packet => exact ⟨fun _ => ⟨packet, rfl⟩, fun _ => rfl⟩

section

variable {τ α β : Type}

/-- The class of the transaction, as far as the invocation knows it. -/
def Desk.txClass (d : Desk τ) : TxClass :=
  d.context.outcome.txClass

/-- Whatever it comes to, the class is as given. -/
def Classed (txClass : TxClass) (_ : Except RequestFault α) (d : Desk τ) : Prop :=
  d.txClass = txClass

open Serving

variable [LedgerAccess τ]

/-- What leaves the standing of an invocation leaves its class. -/
theorem classed_of_stands {d : Desk τ} {c : Context} {r : Serving τ α}
    (h : ComesTo (fun _ => Stands c.standing d.ledger) d r) :
    ComesTo (Classed c.outcome.txClass) d r :=
  congrArg Outcome.txClass (Context.outcome_of_standing h.standing)

/-- A cursor over a range sets the class, whether it can be opened or not. -/
theorem classed_serveRange (body : Packet) {select : τ → String → Serving τ (List Pair)}
    (hselect : ∀ t contract, Reads (select t contract)) (d : Desk τ) :
    ComesTo (Classed .iterator) d (serveRange body select) := by
  have hclass : d.txClass.merge .iterator = .iterator :=
    TxClass.merge_eq_iterator_iff.mpr (.inr rfl)
  have hstands := classed_of_stands (stands_serveRange body hselect d)
  change ComesTo (Classed (d.txClass.merge .iterator)) d (serveRange body select) at hstands
  rwa [hclass] at hstands

/-- **No other request touches the class.** -/
theorem classed_serveMethod (crypto : CryptoProvider) (body : Packet) {m : Method}
    (hiterator : m ≠ .kvIterator) (hpre : m ≠ .kvPreIterator) (d : Desk τ) :
    ComesTo (Classed d.txClass) d (serveMethod crypto body m) := by
  by_cases hemit : m = .emitEvent
  · -- an event is added to the outcome beside the class
    obtain rfl := hemit
    refine reads_context.comesTo_bind (fun _ => rfl) fun c => ?_
    refine reads_ledger.comesTo_bind (fun _ => rfl) fun t => ?_
    exact (reads_ofCursor _).comesTo_bind (fun _ => rfl) fun event => comesTo_update_bind rfl
  · exact classed_of_stands (stands_serveMethod crypto body hiterator hpre hemit d)

/-- **A request sets the class exactly if it opens a range.** -/
theorem txClass_serve (crypto : CryptoProvider) (name : String) (body : Bytes) (d : Desk τ) :
    (d.run (serve crypto name body)).2.txClass =
      if opensRange name body then .iterator else d.txClass := by
  have hnot {m : Method} (hname : Method.ofName? name = some m) (hiterator : m ≠ .kvIterator)
      (hpre : m ≠ .kvPreIterator) : ¬ opensRange name body = true := by
    rw [opensRange_iff, hname]
    rintro ⟨h | h, -⟩
    · exact hiterator (Option.some.inj h)
    · exact hpre (Option.some.inj h)
  unfold serve
  split
  · rename_i hname
    rw [if_neg (fun h => by
      rw [opensRange_iff, hname] at h
      exact h.1.elim nofun nofun)]
    rfl
  · rename_i hname
    rw [if_neg (hnot hname nofun nofun)]
    rfl
  · rename_i hname
    rw [if_neg (hnot hname nofun nofun)]
    show (d.context.setSuccess body).2.outcome.txClass = d.context.outcome.txClass
    unfold Context.setSuccess
    split <;> rfl
  · rename_i hname
    rw [if_neg (hnot hname nofun nofun)]
    rfl
  · rename_i m _ _ _ hname
    cases hdecode : Packet.decode body with
    | error e =>
      rw [if_neg (fun h => by
        obtain ⟨-, packet, hpacket⟩ := opensRange_iff.mp h
        rw [hdecode] at hpacket
        cases hpacket)]
      rfl
    | ok packet =>
      show (d.run (serveMethod crypto packet m)).2.txClass = _
      by_cases hiterator : m = .kvIterator
      · subst hiterator
        rw [if_pos (opensRange_iff.mpr ⟨.inl hname, packet, hdecode⟩)]
        refine classed_serveRange packet (fun t contract => ?_) d
        exact (reads_stateKey _ _ _).bind fun _ => (reads_stateKey _ _ _).bind fun _ =>
          reads_ofLedger _
      · by_cases hpre : m = .kvPreIterator
        · subst hpre
          rw [if_pos (opensRange_iff.mpr ⟨.inr hname, packet, hdecode⟩)]
          refine classed_serveRange packet (fun t contract => ?_) d
          exact (reads_stateKey _ _ _).bind fun _ => reads_ofLedger _
        · rw [if_neg (hnot hname hiterator hpre)]
          exact classed_serveMethod crypto packet hiterator hpre d

end

end ContractHost
