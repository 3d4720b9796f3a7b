import ContractHost.Bytes

/-!
# Contract code

Contract code is a script: what the contract exports, and for each exported function the list of
actions that it performs.  Apart from scripts there is one other kind of code, the image of a
binary module; of such images only those without any contents are understood.

## Main definitions

* `Action` — one step of a script.
* `Function`, `RuntimeTypeExport`, `AllocateExport` — exported functions.
* `Script` — the exports and the contents of a contract.
* `Code` — contract code as it is stored.
-/

namespace ContractHost

/-- One step of a script.  Addresses, lengths and values are 32 bit numbers. -/
inductive Action
  /-- Makes the request with the given header and body, and stores its signal. -/
  | request (headerPtr headerLen bodyPtr bodyLen : Int32)
  /-- Makes a request whose body is where the words at the two addresses say. -/
  | requestAt (headerPtr headerLen bodyPtrAt bodyLenAt : Int32)
  /-- Stores the invocation's handle plus a number. -/
  | patch (address delta : Int32)
  /-- Stores a number. -/
  | store (address value : Int32)
  /-- Logs the text in a region. -/
  | log (ptr len : Int32)
  /-- Asks for more pages, and stores the old number of pages or minus one. -/
  | grow (pages address : Int32)
  /-- Divides by a number. -/
  | divide (divisor : Int32)
  /-- Uses up gas in a number of rounds. -/
  | burn (rounds : Int32)
  /-- Never ends. -/
  | spin
  /-- Stops abnormally. -/
  | trap
  /-- Stops with an exit code. -/
  | exit (code : Int32)
  /-- Makes one of the four file requests, which do nothing, and stores its answer. -/
  | file (address : Int32)
  deriving Repr, DecidableEq, Inhabited

/-- A method. -/
structure Function where
  /-- The number of its parameters. -/
  params : Nat := 0
  /-- The number of its results. -/
  results : Nat := 0
  /-- What it does. -/
  body : List Action := []
  deriving Repr, DecidableEq, Inhabited

/-- The function that tells for which kind of host a contract was built. -/
structure RuntimeTypeExport where
  /-- What it returns. -/
  value : Int32 := 2
  /-- What it does before it returns. -/
  body : List Action := []
  /-- Its type is the expected one, without parameters and with a 32 bit result. -/
  wellTyped : Bool := true
  deriving Repr, DecidableEq, Inhabited

/-- The function through which the host gets room for parameters. -/
structure AllocateExport where
  /-- What it returns. -/
  value : Int32 := 16384
  /-- What it does before it returns. -/
  body : List Action := []
  /-- Its type is the expected one, with one parameter and a 32 bit result. -/
  wellTyped : Bool := true
  deriving Repr, DecidableEq, Inhabited

/-- The exports and the contents of a contract. -/
structure Script where
  /-- The pages of memory at the beginning. -/
  pages : Nat := 1
  /-- The memory is exported. -/
  exportsMemory : Bool := true
  /-- What is written into memory at the beginning. -/
  data : List (Nat × Bytes) := []
  /-- The methods by name. -/
  methods : List (String × Function) := []
  /-- The function `runtime_type`, if there is one. -/
  runtimeType : Option RuntimeTypeExport := some {}
  /-- The function `allocate`, if there is one. -/
  allocate : Option AllocateExport := some {}
  /-- The function `deallocate`, if there is one. -/
  deallocate : Option (List Action) := none
  /-- What is done at the beginning, if anything. -/
  start : Option (List Action) := none
  /-- Further imports, each of a function without parameters and results. -/
  imports : List (String × String) := []
  /-- Exported globals. -/
  globals : List String := []
  deriving Repr, DecidableEq, Inhabited

/-- The script of a module without contents. -/
def Script.blank : Script :=
  { pages := 0, exportsMemory := false, runtimeType := none, allocate := none }

/-- Contract code as it is stored. -/
structure Code where
  /-- Its bytes. -/
  image : Bytes
  /-- The script that the bytes write down; without one they are the image of a module. -/
  script : Option Script := none
  deriving Repr, DecidableEq, Inhabited

/-- There is no code. -/
def Code.isEmpty (c : Code) : Bool :=
  c.image.isEmpty

end ContractHost
