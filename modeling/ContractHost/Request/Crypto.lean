import ContractHost.Error

/-!
# Cryptography for contracts

The host has no cryptographic primitives of its own.  Whoever runs it may plug a provider in.

## Main definitions

* `CryptoFamily` — the two families of operations.
* `CryptoProvider` — whatever carries them out; `CryptoProvider.absent` refuses everything.
-/

namespace ContractHost

/-- The families of operations. -/
inductive CryptoFamily
  /-- Computing on encrypted numbers. -/
  | paillier
  /-- Proofs that a number lies in a range. -/
  | bulletproofs
  deriving Repr, DecidableEq, Inhabited

/-- The name of a family. -/
def CryptoFamily.name : CryptoFamily → String
  | .paillier => "paillier"
  | .bulletproofs => "bulletproofs"

/-- How a request fails. -/
inductive RequestFault
  /-- For a reason that is reported. -/
  | failed (e : SyscallError)
  /-- The host crashes. -/
  | crashed (message : String)
  deriving Repr, DecidableEq, Inhabited

/-- Whatever carries cryptographic operations out. -/
structure CryptoProvider where
  /-- The result of an operation on the operands that the contract sent. -/
  compute : (family : CryptoFamily) → (op : String) → (operands : Packet) →
    Except RequestFault Bytes

/-- No provider is plugged in. -/
def CryptoProvider.absent : CryptoProvider where
  compute family op _ :=
    .error (.failed (.crypto s!"{family.name} operation [{op}] is not supported"))

end ContractHost
