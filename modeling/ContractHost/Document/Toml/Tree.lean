import ContractHost.Document.Node

/-!
# Tables of TOML

A table of a TOML document comes about in one of four ways: under a header of its own, as the
parent of a table with a header, by a dotted key, or as a value in braces.  The way decides how it
may be extended later; no key is ever defined twice.

## Main definitions

* `Branch` — what a key stands for while the document is read.
* `Entries.define` — adds the value of a possibly dotted key.
* `Entries.within` — changes the table at a path.
* `Entries.toNode` — the finished document.
-/

namespace ContractHost.Toml

/-- What a key stands for. -/
inductive Branch
  /-- A value, closed to extension. -/
  | leaf (n : Node)
  /-- A table.  It is `implied` until it gets a header of its own, and `dotted` if dotted keys made
  it. -/
  | table (implied dotted : Bool) (entries : List (String × Branch))
  /-- Tables under one repeated header. -/
  | tables (elements : List (List (String × Branch)))

/-- The entries of a table. -/
abbrev Entries := List (String × Branch)

namespace Entries

/-- Puts another branch under a key. -/
def replace (es : Entries) (key : String) (b : Branch) : Entries :=
  es.map fun e => if e.1 = key then (key, b) else e

/-- Changes the table at a path.  Missing tables on the way are made.  Of tables under a repeated
header the last is meant.  A dotted key does not lead into a table with a header of its own.  `f`
is told whether the table at the path was made by dotted keys. -/
def within {α : Type} (byDots : Bool) (f : Bool → Entries → Option (α × Entries)) :
    List String → Bool → Entries → Option (α × Entries)
  | [], dotted, es => f dotted es
  | key :: path, _, es =>
    match es.lookup key with
    | none => do
      let (a, sub) ← within byDots f path byDots []
      pure (a, es ++ [(key, .table true byDots sub)])
    | some (.leaf _) => none
    | some (.tables elements) => do
      let last ← elements.getLast?
      let (a, sub) ← within byDots f path false last
      pure (a, es.replace key (.tables (elements.dropLast ++ [sub])))
    | some (.table implied dotted sub) =>
      if byDots && !implied then none
      else do
        let (a, sub) ← within byDots f path dotted sub
        pure (a, es.replace key (.table implied dotted sub))

/-- Adds the value of a key.  The path is what stands before the last dot. -/
def define (es : Entries) (path : List String) (key : String) (n : Node) : Option Entries :=
  let add (dotted : Bool) (sub : Entries) : Option (Unit × Entries) :=
    if dotted = path.isEmpty || (sub.lookup key).isSome then none
    else some ((), sub ++ [(key, .leaf n)])
  (within true add path false es).map (·.2)

end Entries

mutual

/-- The finished document of a branch. -/
def Branch.toNode : Branch → Node
  | .leaf n => n
  | .table _ _ entries => .table (Entries.toPairs entries)
  | .tables elements => .list (Entries.toTables elements)

/-- The finished entries of a table. -/
def Entries.toPairs : List (String × Branch) → List (String × Node)
  | [] => []
  | (key, b) :: rest => (key, b.toNode) :: Entries.toPairs rest

/-- The finished tables under a repeated header. -/
def Entries.toTables : List (List (String × Branch)) → List Node
  | [] => []
  | es :: rest => .table (Entries.toPairs es) :: Entries.toTables rest

end

/-- The finished document. -/
def Entries.toNode (es : Entries) : Node :=
  .table (Entries.toPairs es)

end ContractHost.Toml
