import ContractHost.Document.Json
import ContractHost.Document.Shorthand
import ContractHost.Guest.Script

/-!
# Scripts as documents

A script is written as a table.  All its entries may be missing: `pages`, `mem` (the memory is
exported), `data`, `methods`, `rt`, `alloc`, `dealloc`, `start`, `imports` and `globals`.  A method
is a list of actions, or a table of its actions, its parameters and its results.  An action is a
list of its name and its numbers.

## Main definitions

* `Action.read`, `Function.read`, `Script.read` — the script that a document writes down.
* `Code.read`, `Code.ofBytes` — contract code as a document, and as a file.
-/

namespace ContractHost

namespace Node

/-- The entry of a table under a key. -/
def get? (n : Node) (key : String) : Option Node :=
  match n with
  | .table entries => entries.lookup key
  | _ => none

/-- A number as a word of 32 bits; of greater numbers the lowest bits count. -/
def int32? : Node → Option Int32
  | .integer n => some (Int32.ofInt n)
  | _ => none

/-- An entry of a table, read, or a default if there is none. -/
def getOr {α : Type} (n : Node) (key : String) (read : Node → Option α) (default : α) : Option α :=
  match n.get? key with
  | none => some default
  | some entry => read entry

end Node

namespace Action

/-- The action with a name and numbers. -/
def ofName? : String → List Int32 → Option Action
  | "sys", [hp, hl, bp, bl] => some (.request hp hl bp bl)
  | "sysi", [hp, hl, a, b] => some (.requestAt hp hl a b)
  | "patch", [a, d] => some (.patch a d)
  | "store", [a, v] => some (.store a v)
  | "log", [p, l] => some (.log p l)
  | "grow", [n, a] => some (.grow n a)
  | "div", [d] => some (.divide d)
  | "burn", [n] => some (.burn n)
  | "spin", [] => some .spin
  | "trap", [] => some .trap
  | "exit", [c] => some (.exit c)
  | "fd", [_, a] => some (.file a)
  | _, _ => none

/-- Reads an action. -/
def read : Node → Option Action
  | .list (.text name :: numbers) => do ofName? name (← numbers.mapM Node.int32?)
  | _ => none

end Action

/-- Reads a list of actions. -/
def readActions : Node → Option (List Action) :=
  Node.list? Action.read

/-- Reads a number that is not negative. -/
def readCount : Node → Option Nat
  | .integer n => some n.toNat
  | _ => none

/-- Reads a method. -/
def Function.read : Node → Option Function
  | .list actions => do pure { body := ← readActions (.list actions) }
  | n => do
    pure {
      params := ← n.getOr "params" readCount 0
      results := ← n.getOr "results" readCount 0
      body := ← n.getOr "do" readActions [] }

/-- Reads the function that tells for which kind of host a contract was built. -/
def RuntimeTypeExport.read (n : Node) : Option RuntimeTypeExport := do
  let d : RuntimeTypeExport := {}
  let type ← n.getOr "type" Node.text? "i32"
  pure {
    value := ← n.getOr "ret" Node.int32? d.value
    body := ← n.getOr "do" readActions []
    wellTyped := type = "i32" }

/-- Reads the function that gives room. -/
def AllocateExport.read (n : Node) : Option AllocateExport := do
  let d : AllocateExport := {}
  pure {
    value := ← n.getOr "ret" Node.int32? d.value
    body := ← n.getOr "do" readActions []
    wellTyped := (n.get? "type").isNone }

/-- Reads something that may be absent. -/
def readMaybe {α : Type} (read : Node → Option α) : Node → Option (Option α)
  | .null => some none
  | n => (read n).map some

namespace Script

/-- Reads a piece of data and where it goes. -/
def readData : Node → Option (Nat × Bytes)
  | .list [.integer address, content] => do
    pure ((Int32.ofInt address).toUInt32.toNat, ← content.bytes?)
  | _ => none

/-- Reads the two names of an import. -/
def readImport : Node → Option (String × String)
  | .list [.text space, .text name] => some (space, name)
  | _ => none

/-- Reads the methods. -/
def readMethods : Node → Option (List (String × Function))
  | .table entries => entries.mapM fun e => do pure (e.1, ← Function.read e.2)
  | _ => none

/-- Reads a script. -/
def read (n : Node) : Option Script := do
  let d : Script := {}
  pure {
    pages := ← n.getOr "pages" readCount d.pages
    exportsMemory := ← n.getOr "mem" Node.bool? d.exportsMemory
    data := ← n.getOr "data" (Node.list? readData) []
    methods := ← n.getOr "methods" readMethods []
    runtimeType := ← n.getOr "rt" (readMaybe RuntimeTypeExport.read) d.runtimeType
    allocate := ← n.getOr "alloc" (readMaybe AllocateExport.read) d.allocate
    deallocate := ← n.getOr "dealloc" (readMaybe fun f => f.getOr "do" readActions []) none
    start := ← n.getOr "start" (readMaybe readActions) none
    imports := ← n.getOr "imports" (Node.list? readImport) []
    globals := ← n.getOr "globals" (Node.list? Node.text?) [] }

end Script

namespace Code

/-- The code of a script, given the bytes that write it down. -/
def ofScript (image : Bytes) (s : Script) : Code :=
  { image, script := some s }

/-- Reads contract code: the image of a module under the key `bytes`, or else a script.  `image` is
how the document is stored. -/
def read (image : Bytes) (n : Node) : Option Code :=
  match n.get? "bytes" with
  | some b => b.bytes?.map fun image => { image }
  | none => (Script.read n).map (ofScript image)

/-- The code in a file: what the file writes down if it is a document, and otherwise the image of a
module. -/
def ofBytes (b : Bytes) : Code :=
  match (Utf8.decode? b).bind Json.parse with
  | some (.table entries) => (read b (.table entries)).getD { image := b }
  | _ => { image := b }

end Code

end ContractHost
