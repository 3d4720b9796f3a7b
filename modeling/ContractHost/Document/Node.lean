/-!
# Documents

A document is a tree of tables, lists and scalars.  It is what the readers of both notations
produce and what the printer takes, so the records kept in documents are described once.

## Main definitions

* `Node` — a document.
* `Node.fields` — the fields of a record, whether it is written as a table or as a list.
* `Node.text?`, `bool?`, `natBelow?`, `list?` — the scalars and lists a record is made of.
* `Surplus` — whether a record written as a list may be longer than the record.
-/

namespace ContractHost

/-- A document. -/
inductive Node
  /-- Nothing. -/
  | null
  /-- A truth value. -/
  | bool (b : Bool)
  /-- An integer. -/
  | integer (n : Int)
  /-- A number that is not written as an integer. -/
  | real
  /-- A text. -/
  | text (s : String)
  /-- A well formed literal that stands for no text. -/
  | noText
  /-- A list. -/
  | list (elements : List Node)
  /-- A table; its keys may repeat. -/
  | table (entries : List (String × Node))
  deriving Inhabited

/-- What becomes of the elements beyond the last field of a record that is written as a list. -/
inductive Surplus
  /-- There must be none. -/
  | refused
  /-- They are passed over. -/
  | ignored
  deriving Repr, DecidableEq, Inhabited

namespace Node

/-- The fields of a record that are present.  A table may hold further keys, but none of the
record's own keys twice.  A list gives the fields in the order of their declaration and may be
shorter. -/
def fields (surplus : Surplus) (names : List String) : Node → Option (List (String × Node))
  | .table entries =>
    let known := entries.filter fun e => names.contains e.1
    if (known.map (·.1)).Nodup then some known else none
  | .list elements =>
    if surplus = .refused ∧ names.length < elements.length then none
    else some (names.zip elements)
  | _ => none

/-- The text of a node that is one. -/
def text? : Node → Option String
  | .text s => some s
  | _ => none

/-- The truth value of a node that is one. -/
def bool? : Node → Option Bool
  | .bool b => some b
  | _ => none

/-- The number of a node that is an integer from zero to below a bound. -/
def natBelow? (bound : Nat) : Node → Option Nat
  | .integer n => if 0 ≤ n ∧ n.toNat < bound then some n.toNat else none
  | _ => none

/-- The elements of a node that is a list, each read. -/
def list? {α : Type} (read : Node → Option α) : Node → Option (List α)
  | .list elements => elements.mapM read
  | _ => none

/-- A byte. -/
def byte? (n : Node) : Option UInt8 :=
  (n.natBelow? UInt8.size).map UInt8.ofNat

/-- A 32 bit number. -/
def word32? (n : Node) : Option UInt32 :=
  (n.natBelow? UInt32.size).map UInt32.ofNat

/-- A 64 bit number. -/
def word64? (n : Node) : Option UInt64 :=
  (n.natBelow? UInt64.size).map UInt64.ofNat

end Node

/-- The fields of a record that are present, by name. -/
abbrev Fields := List (String × Node)

namespace Fields

/-- A field that must be present. -/
def required {α : Type} (f : Fields) (read : Node → Option α) (name : String) : Option α :=
  (f.lookup name).bind read

/-- A field that has a default. -/
def optional {α : Type} (f : Fields) (read : Node → Option α) (default : α) (name : String) :
    Option α :=
  match f.lookup name with
  | none => some default
  | some n => read n

end Fields

end ContractHost
