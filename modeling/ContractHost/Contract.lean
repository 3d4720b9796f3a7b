import ContractHost.Text.Quoted

/-!
# Contracts by name and version

A deployed contract is known by its name and its version.  Pools are filed under one flat key that
joins the two; the key of two different contracts may coincide, because either part may hold the
joining character.

## Main definitions

* `ContractId` — name and version.
* `ContractId.key` — the flat key, which is also how a contract is shown.
-/

namespace ContractHost

/-- The name and the version of a contract. -/
structure ContractId where
  /-- The name, under which its state is kept. -/
  name : String
  /-- The version. -/
  version : String
  deriving Repr, DecidableEq, Inhabited

namespace ContractId

/-- Name and version with an underscore between them. -/
def key (c : ContractId) : String :=
  c.name ++ "_" ++ c.version

instance : ToString ContractId := ⟨key⟩

/-- Neither part is missing. -/
def isComplete (c : ContractId) : Bool :=
  c.name != "" && c.version != ""

/-- The contract with both parts quoted, for diagnostics. -/
def describe (c : ContractId) : String :=
  "ContractId \x7b name: " ++ Quoted.quote c.name ++ ", version: " ++ Quoted.quote c.version ++
    " \x7d"

end ContractId

end ContractHost
