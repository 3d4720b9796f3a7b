import ContractHost.CommandLine.Report
import ContractHost.Proofs.Request.StoredKey

/-!
# Reading reports

A report on an invocation tells the writes of its transaction.  Values are told byte for byte, and
keys as texts.  A stored key is put together from texts, so that nothing of it is lost, and the
writes can be read back from the report.

## Main definitions

* `Report.write?`, `Report.writeSet?` — a write, and all writes, as a report tells them.

## Main results

* `Report.writeSet?_ofRound` — **a report tells exactly the writes of the transaction.**
-/

namespace ContractHost.CommandLine.Report

/-- What a table has under a name. -/
def field? (name : String) : Node → Option Node
  | .table entries => entries.lookup name
  | _ => none

/-- The text that a document is. -/
def text? : Node → Option String
  | .text s => some s
  | _ => none

/-- The byte that a number tells. -/
def byte? : Node → Option UInt8
  | .integer n => if 0 ≤ n ∧ n < UInt8.size then some (UInt8.ofNat n.toNat) else none
  | _ => none

/-- The value that is told, or that there is none. -/
def value? : Node → Option (Option Bytes)
  | .null => some none
  | .list elements => (elements.mapM byte?).map some
  | _ => none

/-- The write that is told. -/
def write? (n : Node) : Option Write := do
  let contract ← (field? "contract" n).bind text?
  let key ← (field? "key" n).bind text?
  let value ← (field? "value" n).bind value?
  pure { contract, key := Utf8.encode key, value }

/-- The writes that a report tells. -/
def writeSet? (document : Node) : Option (List Write) :=
  match field? "write_set" document with
  | some (.list writes) => writes.mapM write?
  | _ => none

theorem byte?_integer (b : UInt8) : byte? (.integer b.toNat) = some b := by
  have hbyte : (0 : Int) ≤ b.toNat ∧ (b.toNat : Int) < UInt8.size :=
    ⟨Int.natCast_nonneg _, Int.ofNat_lt.mpr b.toNat_lt⟩
  dsimp only [byte?]
  rw [if_pos hbyte, Int.toNat_natCast, UInt8.ofNat_toNat]

theorem mapM_eq_some {α β : Type} {f : β → Option α} {g : α → β} (l : List α)
    (h : ∀ a ∈ l, f (g a) = some a) : (l.map g).mapM f = some l := by
  induction l with
  | nil => rfl
  | cons a l ih =>
    obtain ⟨ha, hl⟩ := List.forall_mem_cons.mp h
    rw [List.map_cons, List.mapM_cons, ha, ih hl]
    rfl

theorem value?_ofValue (value : Option Bytes) : value? (ofValue value) = some value := by
  cases value with
  | none => rfl
  | some b =>
    show ((b.map fun x => Node.integer x.toNat).mapM byte?).map some = some (some b)
    rw [mapM_eq_some b fun x _ => byte?_integer x]
    rfl

/-- **A write is told exactly**, if its key is a text. -/
theorem write?_ofWrite {w : Write} {key : String} (h : w.key = Utf8.encode key) :
    write? (ofWrite w) = some w := by
  have hkey : Utf8.encode (Utf8.decodeLossy w.key) = w.key := by
    rw [h, StateKey.decodeLossy_encode]
  have hfields : write? (ofWrite w) = (value? (ofValue w.value)).bind fun value =>
      some ⟨w.contract, Utf8.encode (Utf8.decodeLossy w.key), value⟩ := rfl
  rw [hfields, value?_ofValue, hkey]
  rfl

/-- **A report tells exactly the writes of the transaction**, if their keys are texts. -/
theorem writeSet?_ofRound (o : Outcome) {writes : List Write}
    (h : ∀ w ∈ writes, ∃ key, w.key = Utf8.encode key) :
    writeSet? (ofRound o writes) = some writes := by
  have hfield : field? "write_set" (ofRound o writes) = some (.list (writes.map ofWrite)) := rfl
  unfold writeSet?
  rw [hfield]
  refine mapM_eq_some writes fun w hw => ?_
  obtain ⟨key, hkey⟩ := h w hw
  exact write?_ofWrite hkey

end ContractHost.CommandLine.Report
