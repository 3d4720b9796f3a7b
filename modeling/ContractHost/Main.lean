import ContractHost.CommandLine.Run
import ContractHost.Guest.Written

/-!
# The program

Reads files, prints documents and tells failures; everything else is decided elsewhere.

## Main definitions

* `main` — the program.
-/

namespace ContractHost.CommandLine

/-- Why a file cannot be read. -/
def reasonOfError : IO.Error → String
  | .noFileOrDirectory _ _ _ => "No such file or directory (os error 2)"
  | .permissionDenied _ _ _ => "Permission denied (os error 13)"
  | e => toString e

/-- Reads the code in a file. -/
def readCode (path : String) : IO (Except String Code) := do
  try
    let content ← IO.FS.readBinFile path
    pure (.ok (Code.ofBytes content.data.toList))
  catch e => pure (.error (reasonOfError e))

/-- How the program is used. -/
def usageText : String :=
  "Usage: chain-vm [OPTIONS] <COMMAND>\n\nCommands:\n" ++
    "  invoke  Invoke a contract method and print the result as JSON\n" ++
    "  check   Compile and instantiate a contract without calling it\n" ++
    "  help    Print this message or the help of the given subcommand(s)\n\nOptions:\n" ++
    "  -c, --config <CONFIG>  TOML configuration file [env: CHAIN_VM_CONFIG=]\n" ++
    "  -h, --help             Print help\n" ++
    "  -V, --version          Print version"

/-- The version of the program. -/
def versionText : String := "chain-vm 0.1.0"

/-- Prints what the program has to say at its end. -/
def tell : Ending → IO Unit
  | .stopped .usage => IO.eprintln usageText
  | .stopped .help => IO.println usageText
  | .stopped .version => IO.println versionText
  | .printed p => do
    for n in p.documents do
      IO.println (Json.render n)
    if let some f := p.failure then
      IO.eprintln f.text

end ContractHost.CommandLine

/-- The program. -/
def main (args : List String) : IO UInt32 := do
  let environment ← IO.getEnv "CHAIN_VM_CONFIG"
  let ending ← ContractHost.CommandLine.run ContractHost.CommandLine.readCode args environment
  ContractHost.CommandLine.tell ending
  pure ending.exitCode.toUInt32
