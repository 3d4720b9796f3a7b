import ContractHost.CommandLine.Arguments
import ContractHost.CommandLine.Report
import ContractHost.Config.File
import ContractHost.Host.Invoke

/-!
# Carrying out commands

A command runs on a ledger in memory, on which the contracts of the configuration file are
deployed.  Every invocation is a transaction of its own, and only a successful one is committed.

## Main definitions

* `Failure` — why a command fails, and how that is told.
* `prepare` — everything that takes reading files.
* `execute` — the command itself.
* `run` — both, from the arguments to what is printed.
-/

namespace ContractHost.CommandLine

/-- Why a command fails. -/
structure Failure where
  /-- What failed. -/
  message : String
  /-- What was behind it. -/
  cause : Option String := none
  deriving Repr

/-- How a failure is told. -/
def Failure.text (f : Failure) : String :=
  "Error: " ++ f.message ++ f.cause.elim "" fun cause => "\n\nCaused by:\n    " ++ cause

/-- A failure with nothing behind it. -/
def Failure.ofError (e : ExecutionError) : Failure :=
  { message := e.message }

/-- The failure of reading a configuration file. -/
def Failure.ofConfig (e : ConfigFileError) : Failure :=
  { message := e.message
    cause := match e with
      | .unreadable _ reason => some reason
      | .malformed => none }

/-- What a command prints, and how it ends. -/
structure Printed where
  /-- The documents that are printed. -/
  documents : List Node := []
  /-- The failure, if there is one. -/
  failure : Option Failure := none

/-- What the host of a configuration file is set up with. -/
def hostOf (c : ConfigFile) : HostSetup :=
  { chainId := c.chainId, config := c.runtime }

/-- What a command starts from. -/
structure Prepared where
  /-- The configuration file, with settings that fit together. -/
  config : ConfigFile
  /-- The ledger with the contracts that the configuration file deploys. -/
  ledger : Ledger
  /-- The code of the contract that the command concerns. -/
  code : Code

section Preparing

variable {m : Type → Type} [Monad m] (readFile : String → m (Except String Code))

/-- Reads a file. -/
def readOrFail (message path : String) : ExceptT Failure m Code := do
  match ← readFile path with
  | .ok code => pure code
  | .error reason => throw { message, cause := some reason }

/-- Reads the configuration file, if one is given. -/
def readConfig : Option String → ExceptT Failure m ConfigFile
  | none => pure {}
  | some path => do
    match ConfigFile.load path ((← readFile path).map (·.image)) with
    | .ok c => pure c
    | .error e => throw (.ofConfig e)

/-- Deploys a contract of the configuration file. -/
def deployEntry (ledger : Ledger) (e : ContractEntry) : ExceptT Failure m Ledger := do
  let code ← readOrFail readFile s!"Failed to read contract bytecode '{e.path}'" e.path
  pure (ledger.deploy ⟨e.name, e.version⟩ code)

/-- The file with the code of the contract that a command concerns. -/
def Command.wasm : Command → String
  | .invoke o => o.wasm
  | .check wasm => wasm

/-- Reads all files that a command needs. -/
def prepare (a : Arguments) : ExceptT Failure m Prepared := do
  let config ← readConfig readFile a.config
  let ledger ← config.contracts.foldlM (deployEntry readFile) {}
  match (hostOf config).validated with
  | .ok _ => pure ()
  | .error e => throw (.ofError e)
  let wasm := a.command.wasm
  let code ← readOrFail readFile s!"Failed to read '{wasm}'" wasm
  pure { config, ledger, code }

end Preparing

section Executing

variable (setup : HostSetup)

/-- Carries out a call in a transaction of its own, and commits the transaction if the call
succeeds. -/
def runTransaction (txId : String) (call : Call) (h : Host Session) :
    Except Failure Outcome × Host Session :=
  let h := { h with ledger := { h.ledger with tx := { id := txId } } }
  match h.invoke setup call with
  | (.finished (.ok o), h) =>
    (.ok o, if o.isSuccess then { h with ledger := h.ledger.commit } else h)
  | (.finished (.error e), h) => (.error (.ofError e), h)
  | (.suspended, h) => (.error { message := "no instance is available" }, h)

/-- Sets a contract up. -/
def runInit (call : Call) (h : Host Session) : Except Failure Unit × Host Session :=
  match runTransaction setup "tx-init" { call with method := exportNames.init } h with
  | (.error f, h) => (.error f, h)
  | (.ok o, h) =>
    if o.isSuccess then (.ok (), h)
    else (.error { message := s!"init_contract failed: {o.message}" }, h)

/-- Carries out one round of an invocation after the rounds that are already printed, unless one of
them has failed. -/
def runRound (call : Call) (state : Printed × Host Session) (round : Nat) :
    Printed × Host Session :=
  let (printed, h) := state
  if printed.failure.isSome then state
  else match runTransaction setup s!"tx-{round}" call h with
    | (.error f, h) => ({ printed with failure := some f }, h)
    | (.ok o, h) =>
      let report := Report.ofRound o h.ledger.tx.writes
      ({ printed with documents := printed.documents ++ [report] }, h)

/-- Invokes a method. -/
def executeInvoke (code : Code) (o : InvokeOptions) (ledger : Ledger) : Printed × Host Session :=
  let contract : ContractId := ⟨o.name, o.version⟩
  let h : Host Session := { ledger := ⟨ledger.deploy contract code, { id := "" }⟩ }
  let call : Call := { contract, code, method := o.method }
  let (ready, h) := if o.init then runInit setup call h else (.ok (), h)
  match ready with
  | .error f => ({ failure := some f }, h)
  | .ok () =>
    let params := OrderedMap.ofList (o.params.map fun p => (p.1, Utf8.encode p.2))
    let call := { call with params, gasUsed := o.gasUsed }
    (List.range o.rounds).foldl (runRound setup call) ({}, h)

/-- The contract under which code is checked. -/
def checkedContract : ContractId := ⟨"check", "0"⟩

/-- Checks a contract. -/
def executeCheck (code : Code) (ledger : Ledger) : Printed :=
  let h : Host Session := { ledger := ⟨ledger, { id := "" }⟩ }
  match h.openPool setup checkedContract code with
  | (.error e, _) => { failure := some (.ofError e) }
  | (.ok _, h) =>
    match h.pool? checkedContract with
    | some p => { documents := [Report.ofCheck p.program p.ready.length] }
    | none => {}

end Executing

/-- Carries out a command. -/
def execute (p : Prepared) : Command → Printed
  | .invoke o => (executeInvoke (hostOf p.config) p.code o p.ledger).1
  | .check _ => executeCheck (hostOf p.config) p.code p.ledger

/-- How the program ends. -/
inductive Ending
  /-- After a command. -/
  | printed (p : Printed)
  /-- Before any command, because of the arguments. -/
  | stopped (s : Stop)

/-- The exit code of the program. -/
def Ending.exitCode : Ending → UInt8
  | .printed p => if p.failure.isSome then 1 else 0
  | .stopped .usage => 2
  | .stopped _ => 0

/-- What the program does for some arguments. -/
def run {m : Type → Type} [Monad m] (readFile : String → m (Except String Code))
    (args : List String) (environment : Option String) : m Ending := do
  match Arguments.parse args environment with
  | .error s => pure (.stopped s)
  | .ok a =>
    match ← (prepare readFile a).run with
    | .error f => pure (.printed { failure := some f })
    | .ok p => pure (.printed (execute p a.command))

end ContractHost.CommandLine
