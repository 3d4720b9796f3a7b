import ContractHost.Config.Basic
import ContractHost.Digest
import ContractHost.Guest.Memory
import ContractHost.Guest.Script

/-!
# Modules

Code becomes a module by passing the checks of its form.  A module knows what it exports, and
which of the exports that every call needs are missing.

## Main definitions

* `Module` — checked code.
* `Module.ofCode`, `Module.ofText` — the checks.
* `Module.methods`, `Module.missingExports`, `Module.exportsFunction` — what a module exports.
-/

namespace ContractHost

/-- The names that a contract's exports must have for the host to find them. -/
structure ExportNames where
  /-- The memory. -/
  memory : String := "memory"
  /-- The function that tells the kind of host. -/
  runtimeType : String := "runtime_type"
  /-- The function that gives room. -/
  allocate : String := "allocate"
  /-- The function that takes room back. -/
  deallocate : String := "deallocate"
  /-- The method that sets a contract up. -/
  init : String := "init_contract"

/-- The names of the exports. -/
def exportNames : ExportNames := {}

/-- Checked code. -/
structure Module where
  /-- What the module does. -/
  script : Script
  /-- The digest of its code. -/
  digest : UInt64
  deriving Repr, Inhabited

/-- An exported function. -/
inductive Export
  /-- The one that tells for which kind of host a contract was built. -/
  | runtimeType (f : RuntimeTypeExport)
  /-- The one that gives room. -/
  | allocate (f : AllocateExport)
  /-- The one that takes room back, with what it does. -/
  | deallocate (body : List Action)
  /-- A method. -/
  | method (f : Function)
  deriving Repr, DecidableEq, Inhabited

namespace Export

/-- The number of parameters. -/
def params : Export → Nat
  | .runtimeType _ => 0
  | .allocate f => if f.wellTyped then 1 else 0
  | .deallocate _ => 1
  | .method f => f.params

/-- The results are all of 32 bits, and as many as given. -/
def hasResults (count : Nat) : Export → Bool
  | .runtimeType f => f.wellTyped && count = 1
  | .allocate _ => count = 1
  | .deallocate _ => count = 0
  | .method f => f.results = count

/-- The function has a number of parameters and of results, all of 32 bits. -/
def hasType (e : Export) (params results : Nat) : Bool :=
  e.params = params && e.hasResults results

end Export

namespace Script

/-- The functions of the calling convention that the script exports. -/
def conventionFunctions (s : Script) : List String :=
  (if s.runtimeType.isSome then [exportNames.runtimeType] else []) ++
    (if s.allocate.isSome then [exportNames.allocate] else []) ++
    (if s.deallocate.isSome then [exportNames.deallocate] else [])

/-- All exported functions. -/
def functions (s : Script) : List String :=
  s.conventionFunctions ++ s.methods.map (·.1)

/-- The function that is exported under a name. -/
def function? (s : Script) (name : String) : Option Export :=
  let convention :=
    if name = exportNames.runtimeType then s.runtimeType.map .runtimeType
    else if name = exportNames.allocate then s.allocate.map .allocate
    else if name = exportNames.deallocate then s.deallocate.map .deallocate
    else none
  convention.or ((s.methods.lookup name).map .method)

/-- The function that is exported under a name, if it has a type. -/
def typed? (s : Script) (name : String) (params results : Nat) : Option Export :=
  (s.function? name).filter (·.hasType params results)

/-- All exports. -/
def exports (s : Script) : List String :=
  (if s.exportsMemory then [exportNames.memory] else []) ++ s.globals ++ s.functions

end Script

/-! ### Images -/

/-- The first bytes of an image. -/
def imageMagic : Bytes := [0x00, 0x61, 0x73, 0x6d]

/-- The bytes of an image that give its version. -/
def imageVersion : Bytes := [0x01, 0x00, 0x00, 0x00]

/-- A number of up to `room` groups of seven bits, the lowest group first, and what follows it.  A
group that is not the last has its top bit set.  The number must fit 32 bits. -/
def varint? : (room : Nat) → (shift : Nat) → Bytes → Option (Nat × Bytes)
  | 0, _, _ => none
  | _, _, [] => none
  | room + 1, shift, b :: rest =>
    let low := (b.toNat % 0x80) <<< shift
    if b < 0x80 then if low < UInt32.size then some (low, rest) else none
    else do
      let (high, rest) ← varint? room (shift + 7) rest
      if low + high < UInt32.size then some (low + high, rest) else none

/-- A number of up to five groups. -/
def varint32? (b : Bytes) : Option (Nat × Bytes) :=
  varint? 5 0 b

/-- Custom sections and nothing else, at most `room` of them.  Each has a name within its size. -/
def areCustomSections : (room : Nat) → Bytes → Bool
  | _, [] => true
  | room + 1, 0x00 :: rest =>
    match varint32? rest with
    | some (size, rest) =>
      let body := rest.take size
      body.length = size &&
        (match varint32? body with
          | some (length, name) =>
            length ≤ name.length && (Utf8.decode? (name.take length)).isSome
          | none => false) &&
        areCustomSections room (rest.drop size)
    | none => false
  | _, _ => false

/-- Why an image is refused, if it is. -/
def imageFault? (b : Bytes) : Option String :=
  if b.length < 8 then some "contract bytecode too short for a wasm header"
  else if b.take 4 != imageMagic then some "contract bytecode is not wasm: bad magic number"
  else if (b.drop 4).take 4 != imageVersion || !areCustomSections b.length (b.drop 8) then
    some "byte code validation failed"
  else none

/-! ### Scripts -/

/-- The most pages a memory may begin with. -/
def maxPages : Nat := 65536

/-- Why a script is refused, if it is.  Where instances are made in reserved slots, the memory must
fit a slot. -/
def scriptFault? (engine : EngineConfig) (s : Script) : Option String :=
  if maxPages < s.pages || !s.exports.Nodup then some "byte code validation failed"
  else if engine.poolingAllocator && engine.instanceMemoryBytes < s.pages * pageSize then
    some "byte code compile failed"
  else none

/-! ### Module texts -/

/-- Where a place of a module text stands. -/
inductive TextMode
  /-- Outside of comments. -/
  | code
  /-- In a comment up to the end of the line. -/
  | line
  /-- In a block comment, within a number of others. -/
  | block (outer : Nat)
  deriving Repr, DecidableEq

/-- A module text with a blank for every comment, or nothing if a comment stays open or a semicolon
stands alone. -/
def essence? : TextMode → List Char → Option (List Char)
  | .code, '(' :: ';' :: rest => essence? (.block 0) rest
  | .code, ';' :: ';' :: rest => essence? .line rest
  | .code, ';' :: _ => none
  | .code, c :: rest => (essence? .code rest).map (c :: ·)
  | .code, [] => some []
  | .line, c :: rest =>
    if c = '\n' ∨ c = '\r' then (essence? .code rest).map (' ' :: ·) else essence? .line rest
  | .line, [] => some []
  | .block outer, '(' :: ';' :: rest => essence? (.block (outer + 1)) rest
  | .block 0, ';' :: ')' :: rest => (essence? .code rest).map (' ' :: ·)
  | .block (outer + 1), ';' :: ')' :: rest => essence? (.block outer) rest
  | .block outer, _ :: rest => essence? (.block outer) rest
  | .block _, [] => none

/-- The text is that of a module without contents: the word in parentheses, with blanks and
comments anywhere around it. -/
def isBlankModuleText (text : String) : Bool :=
  let isBlank (c : Char) := c == ' ' || c == '\n' || c == '\t' || c == '\r'
  match essence? .code text.toList with
  | none => false
  | some cs =>
    match cs.dropWhile isBlank with
    | '(' :: rest =>
      let rest := rest.dropWhile isBlank
      rest.take 6 == "module".toList &&
        (match (rest.drop 6).dropWhile isBlank with
          | ')' :: rest => rest.all isBlank
          | _ => false)
    | _ => false

namespace Module

/-- The checks that code has to pass. -/
def ofCode (engine : EngineConfig) (c : Code) : Except ExecutionError Module :=
  match c.script with
  | some s =>
    match scriptFault? engine s with
    | some reason => .error (.compilationFailed reason)
    | none => .ok ⟨s, ContractHost.digest c.image⟩
  | none =>
    match imageFault? c.image with
    | some reason => .error (.compilationFailed reason)
    | none => .ok ⟨.blank, ContractHost.digest c.image⟩

/-- The module that a text writes down. -/
def ofText (text : String) : Except ExecutionError Module :=
  if isBlankModuleText text then .ok ⟨.blank, ContractHost.digest (Utf8.encode text)⟩
  else .error (.compilationFailed "WAT compilation failed")

/-- The exported functions that are methods, in the order of their names. -/
def methods (m : Module) : List String :=
  (OrderedMap.ofList ((m.script.functions.filter fun name =>
    name != exportNames.runtimeType && name != exportNames.allocate &&
      name != exportNames.deallocate).map fun name => (name, ()))).keys

/-- The exports that every call needs and that are missing or of another type. -/
def missingExports (m : Module) : List String :=
  (if m.script.exportsMemory then [] else [exportNames.memory]) ++
    (if (m.script.typed? exportNames.runtimeType 0 1).isSome then []
      else [exportNames.runtimeType]) ++
    (if (m.script.typed? exportNames.allocate 1 1).isSome then [] else [exportNames.allocate])

/-- A function is exported under the name. -/
def exportsFunction (m : Module) (name : String) : Bool :=
  (m.script.function? name).isSome

end Module

end ContractHost
