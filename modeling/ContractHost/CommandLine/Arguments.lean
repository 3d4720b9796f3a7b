/-!
# Arguments of the command line

The command line names options, then a command, then the options of that command.  A long option
gets its value after an equals sign or from the next argument, a short one also from the characters
that follow it.  An argument that begins with a dash is an option and never a value, unless it is a
single dash.

Arguments are taken one by one, from left to right; the first fault or the first question for help
ends the reading.

## Main definitions

* `OptionSpec`, `Grammar` — which options there are.
* `Reading.take` — takes one more argument.
* `Arguments`, `Arguments.parse` — what the command line asks for.
-/

namespace ContractHost.CommandLine

/-- What an option takes. -/
inductive Arity
  /-- Nothing; it is either there or not. -/
  | flag
  /-- One value. -/
  | once
  /-- A value each time it is there. -/
  | many
  deriving Repr, DecidableEq

/-- An option. -/
structure OptionSpec where
  /-- Its long name. -/
  name : String
  /-- Its short name. -/
  short : Option Char := none
  /-- What it takes. -/
  arity : Arity := .once
  /-- Whether a value is in order. -/
  accepts : String → Bool := fun _ => true

/-- The options that are known at one place of the command line. -/
structure Grammar where
  /-- The options. -/
  options : List OptionSpec
  /-- A version may be asked for. -/
  hasVersion : Bool := false

/-- Why there is nothing to do. -/
inductive Stop
  /-- The arguments are not in order. -/
  | usage
  /-- Help was asked for. -/
  | help
  /-- The version was asked for. -/
  | version
  deriving Repr, DecidableEq

/-! ### Values -/

/-- The number that decimal digits spell. -/
def digits? (cs : List Char) : Option Nat :=
  if cs.isEmpty || !cs.all Char.isDigit then none
  else some (cs.foldl (fun n c => n * 10 + (c.toNat - '0'.toNat)) 0)

/-- A number with an optional plus sign, below a bound. -/
def count? (bound : Nat) (s : String) : Option Nat := do
  let n ← match s.toList with
    | '+' :: cs => digits? cs
    | cs => digits? cs
  if n < bound then some n else none

/-- A number with an optional sign that is not negative, below a bound. -/
def signedCount? (bound : Nat) (s : String) : Option Nat :=
  match s.toList with
  | '-' :: cs => (digits? cs).filter (· = 0)
  | _ => count? bound s

/-- What stands before and after the first equals sign. -/
def splitAtEquals? (s : String) : Option (String × String) :=
  match s.toList.dropWhile (· != '=') with
  | [] => none
  | _ :: value => some (String.ofList (s.toList.takeWhile (· != '=')), String.ofList value)

/-! ### Options -/

/-- The value is not empty. -/
def isNotEmpty (s : String) : Bool :=
  !s.isEmpty

/-- The option for the configuration file. -/
def configOption : OptionSpec :=
  { name := "config", short := some 'c', accepts := isNotEmpty }

/-- The option for the file with the contract's code. -/
def wasmOption : OptionSpec :=
  { name := "wasm", accepts := isNotEmpty }

/-- What may stand in front of the command. -/
def topGrammar : Grammar :=
  { options := [configOption], hasVersion := true }

/-- What may follow the commands. -/
def commandGrammar? : String → Option Grammar
  | "invoke" => some { options := [
      wasmOption,
      { name := "name" },
      { name := "contract-version" },
      { name := "method" },
      { name := "param", short := some 'p', arity := .many,
        accepts := fun s => (splitAtEquals? s).isSome },
      { name := "init", arity := .flag },
      { name := "gas-used", accepts := fun s => (count? UInt64.size s).isSome },
      { name := "repeat", accepts := fun s => (signedCount? UInt32.size s).isSome }] }
  | "check" => some { options := [wasmOption] }
  | "help" => some { options := [] }
  | _ => none

/-! ### Reading -/

/-- How far the arguments are read. -/
structure Reading where
  /-- The options that are known here. -/
  grammar : Grammar := topGrammar
  /-- The command. -/
  command : Option String := none
  /-- The options found, each with its value. -/
  found : List (String × String) := []
  /-- The option whose value comes next. -/
  pending : Option OptionSpec := none
  /-- No more options follow. -/
  isOver : Bool := false
  /-- The commands about which help is wanted. -/
  topics : List String := []

namespace Reading

/-- Notes an option with its value. -/
def note (r : Reading) (o : OptionSpec) (value : String) : Except Stop Reading :=
  if o.arity ≠ .many ∧ (r.found.lookup o.name).isSome then .error .usage
  else if !o.accepts value then .error .usage
  else .ok { r with found := r.found ++ [(o.name, value)], pending := none }

/-- Takes a long option, given without its dashes. -/
def takeLong (r : Reading) (s : String) : Except Stop Reading :=
  let (name, value?) := match splitAtEquals? s with
    | some (name, value) => (name, some value)
    | none => (s, none)
  match r.grammar.options.find? (·.name = name), value? with
  | some o, none => if o.arity = .flag then r.note o "" else .ok { r with pending := some o }
  | some o, some value => if o.arity = .flag then .error .usage else r.note o value
  | none, none =>
    if name = "help" then .error .help
    else if name = "version" ∧ r.grammar.hasVersion then .error .version
    else .error .usage
  | none, some _ => .error .usage

/-- Takes a short option, given without its dash. -/
def takeShort (r : Reading) (c : Char) (rest : List Char) : Except Stop Reading :=
  match r.grammar.options.find? (·.short = some c), rest with
  | some o, [] => .ok { r with pending := some o }
  | some o, '=' :: value => r.note o (String.ofList value)
  | some o, value => r.note o (String.ofList value)
  | none, _ =>
    if c = 'h' then .error .help
    else if c = 'V' ∧ r.grammar.hasVersion then .error .version
    else .error .usage

/-- Takes a word that is no option: the value that comes next, or the command. -/
def takeWord (r : Reading) (s : String) : Except Stop Reading :=
  match r.pending, r.command, commandGrammar? s with
  | some o, _, _ => r.note o s
  | none, none, some grammar => .ok { r with grammar, command := some s }
  | _, _, _ => .error .usage

/-- Takes one more argument. -/
def take (r : Reading) (s : String) : Except Stop Reading :=
  if r.command = some "help" then .ok { r with topics := r.topics ++ [s] }
  else if r.isOver then .error .usage
  else match s.toList with
    | '-' :: c :: rest =>
      if r.pending.isSome then .error .usage
      else if c = '-' then
        if rest.isEmpty then .ok { r with isOver := true } else r.takeLong (String.ofList rest)
      else r.takeShort c rest
    | _ => r.takeWord s

end Reading

/-! ### What is asked for -/

/-- What is to be invoked, and how. -/
structure InvokeOptions where
  /-- The file with the contract's code. -/
  wasm : String
  /-- The contract's name. -/
  name : String
  /-- The contract's version. -/
  version : String := "1.0.0"
  /-- The method. -/
  method : String
  /-- The parameters. -/
  params : List (String × String) := []
  /-- The contract is to be set up first. -/
  init : Bool := false
  /-- The gas that callers have used. -/
  gasUsed : UInt64 := 0
  /-- The number of transactions. -/
  rounds : Nat := 1
  deriving Repr

/-- The commands. -/
inductive Command
  /-- Invokes a method. -/
  | invoke (o : InvokeOptions)
  /-- Checks a contract. -/
  | check (wasm : String)
  deriving Repr

/-- What the command line asks for. -/
structure Arguments where
  /-- The configuration file. -/
  config : Option String := none
  /-- The command. -/
  command : Command
  deriving Repr

namespace Arguments

/-- The options of an invocation. -/
def invokeOptions? (found : List (String × String)) : Option InvokeOptions := do
  let d : InvokeOptions := { wasm := "", name := "", method := "" }
  pure {
    wasm := ← found.lookup "wasm"
    name := ← found.lookup "name"
    version := (found.lookup "contract-version").getD d.version
    method := ← found.lookup "method"
    params := (found.filter (·.1 = "param")).filterMap fun e => splitAtEquals? e.2
    init := (found.lookup "init").isSome
    gasUsed := ((found.lookup "gas-used").bind (count? UInt64.size)).elim d.gasUsed UInt64.ofNat
    rounds := ((found.lookup "repeat").bind (signedCount? UInt32.size)).getD d.rounds }

/-- The command, once all arguments are read. -/
def command? (r : Reading) : Except Stop Command :=
  match r.command with
  | some "invoke" => (invokeOptions? r.found).elim (.error .usage) fun o => .ok (.invoke o)
  | some "check" => (r.found.lookup "wasm").elim (.error .usage) fun wasm => .ok (.check wasm)
  | some _ =>
    match r.topics with
    | [] => .error .help
    | [topic] => if (commandGrammar? topic).isSome then .error .help else .error .usage
    | _ => .error .usage
  | none => .error .usage

/-- What the command line asks for.  The configuration file may also come from the environment. -/
def parse (args : List String) (environment : Option String) : Except Stop Arguments := do
  let r ← args.foldlM Reading.take {}
  if r.pending.isSome then throw .usage
  let config := (r.found.lookup configOption.name).or environment
  if !config.all configOption.accepts then throw .usage
  pure { config, command := ← command? r }

end Arguments

end ContractHost.CommandLine
