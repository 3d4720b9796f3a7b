import ContractHost.Guest.Module
import ContractHost.Ledger.Basic
import ContractHost.Outcome
import ContractHost.Document.Json
import ContractHost.Text.Utf8

/-!
# Reports

What the commands print.  The entries of every table stand in the order of their keys.

## Main definitions

* `Report.ofRound` — the report on an invocation.
* `Report.ofCheck` — the report on a contract.
-/

namespace ContractHost.CommandLine.Report

/-- The document of some texts. -/
def texts (l : List String) : Node :=
  .list (l.map .text)

/-- An event. -/
def ofEvent (e : Event) : Node :=
  .table [("contract_name", .text e.contractName), ("contract_version", .text e.contractVersion),
    ("data", texts e.data), ("topic", .text e.topic), ("tx_id", .text e.txId)]

/-- The value of a write, byte for byte. -/
def ofValue : Option Bytes → Node
  | some b => .list (b.map fun x => .integer x.toNat)
  | none => .null

/-- A write. -/
def ofWrite (w : Write) : Node :=
  .table [("contract", .text w.contract), ("key", .text (Utf8.decodeLossy w.key)),
    ("value", ofValue w.value)]

/-- The report on an invocation and the writes of its transaction. -/
def ofRound (o : Outcome) (writes : List Write) : Node :=
  .table [("code", .integer o.code.toNat), ("events", .list (o.events.map ofEvent)),
    ("gas_used", .integer o.gasUsed.toNat), ("message", .text o.message),
    ("result", .text (Utf8.decodeLossy o.payload)), ("special_tx_type", .text o.txClass.name),
    ("write_set", .list (writes.map ofWrite))]

/-- The report on a contract of which some instances are ready. -/
def ofCheck (m : Module) (ready : Nat) : Node :=
  .table [("code_hash", .text (digestText m.digest)), ("instances_ready", .integer ready),
    ("methods", texts m.methods), ("missing_exports", texts m.missingExports),
    ("ok", .bool m.missingExports.isEmpty)]

end ContractHost.CommandLine.Report
