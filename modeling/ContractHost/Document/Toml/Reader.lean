import ContractHost.Document.Toml.Scalar
import ContractHost.Document.Toml.Tree

/-!
# Reading TOML

TOML 1.0, line by line.  A mark of the byte order in front of the document is passed over.

## Main definitions

* `Toml.value?` — the node of a value.
* `Toml.parse` — the document that a text writes down.
-/

namespace ContractHost.Toml

/-- No key has this many parts, and no value is nested this deeply. -/
def maxDepth : Nat := 80

/-- Passes over one line break. -/
def lineBreak? : List Char → Option (List Char)
  | '\n' :: rest => some rest
  | '\r' :: '\n' :: rest => some rest
  | _ => none

/-- Passes over the end of a line: blanks, a comment, and the line break or the end of the text. -/
def lineEnd? (cs : List Char) : Option (List Char) :=
  let rest := match cs.dropWhile isBlank with
    | '#' :: comment => comment.dropWhile isPlain
    | rest => rest
  if rest.isEmpty then some [] else lineBreak? rest

/-- Passes over blanks, line breaks and comments.  `inComment` says that a comment is open. -/
def gap (inComment : Bool) : List Char → List Char
  | '\n' :: rest => gap false rest
  | '\r' :: '\n' :: rest => gap false rest
  | c :: rest =>
    if inComment then if isPlain c then gap true rest else c :: rest
    else if isBlank c then gap false rest
    else if c = '#' then gap true rest
    else c :: rest
  | [] => []

/-- A character of an unquoted key. -/
def isKeyChar (c : Char) : Bool :=
  c.isAlphanum || c == '-' || c == '_'

/-- One part of a key. -/
def keyPart? : List Char → Option (String × List Char)
  | '"' :: rest => basicString? [] rest
  | '\'' :: rest => literalString? [] rest
  | cs =>
    let key := cs.takeWhile isKeyChar
    if key.isEmpty then none else some (String.ofList key, cs.dropWhile isKeyChar)

/-- The parts of a key, at most `room` of them, and what follows with the blanks before it
removed. -/
def key? : (room : Nat) → List Char → Option (List String × List Char)
  | 0, _ => none
  | room + 1, cs => do
    let (part, rest) ← keyPart? (cs.dropWhile isBlank)
    match rest.dropWhile isBlank with
    | '.' :: rest => do
      let (parts, rest) ← key? room rest
      pure (part :: parts, rest)
    | rest => pure ([part], rest)

/-- A key, the sign of equality, and a value. -/
def pair? (value? : List Char → Option (Node × List Char)) (cs : List Char) :
    Option (List String × Node × List Char) := do
  match ← key? (maxDepth - 1) cs with
  | (path, '=' :: rest) => do
    let (n, rest) ← value? (rest.dropWhile isBlank)
    pure (path, n, rest)
  | _ => none

/-- Adds the value of a key with all its parts. -/
def define? (es : Entries) (path : List String) (n : Node) : Option Entries := do
  es.define path.dropLast (← path.getLast?) n

/-- The elements of a list from behind its bracket, at most `room` of them. -/
def elements? (value? : List Char → Option (Node × List Char)) :
    (room : Nat) → List Char → Option (List Node × List Char)
  | 0, _ => none
  | room + 1, cs =>
    match gap false cs with
    | ']' :: rest => some ([], rest)
    | cs => do
      let (n, rest) ← value? cs
      match gap false rest with
      | ',' :: rest => do
        let (more, rest) ← elements? value? room rest
        pure (n :: more, rest)
      | ']' :: rest => pure ([n], rest)
      | _ => none

/-- The entries of a table in braces from behind its first key on, at most `room` of them. -/
def inlineEntries? (value? : List Char → Option (Node × List Char)) :
    (room : Nat) → Entries → List Char → Option (Entries × List Char)
  | 0, _, _ => none
  | room + 1, es, cs => do
    let (path, n, rest) ← pair? value? cs
    let es ← define? es path n
    match rest.dropWhile isBlank with
    | ',' :: rest => inlineEntries? value? room es rest
    | '\x7d' :: rest => pure (es, rest)
    | _ => none

/-- Passes over a line break behind the opening quotes of a text on several lines. -/
def firstLine (cs : List Char) : List Char :=
  (lineBreak? cs).getD cs

/-- A value, nested at most `depth` deep, and what follows it. -/
def value? : (depth : Nat) → List Char → Option (Node × List Char)
  | 0, _ => none
  | depth + 1, cs =>
    let textNode (read : Option (String × List Char)) :=
      read.map fun (s, rest) => (Node.text s, rest)
    match cs with
    | '"' :: '"' :: '"' :: rest => textNode (basicLines? false [] (firstLine rest))
    | '"' :: rest => textNode (basicString? [] rest)
    | '\'' :: '\'' :: '\'' :: rest => textNode (literalLines? [] (firstLine rest))
    | '\'' :: rest => textNode (literalString? [] rest)
    | '[' :: rest => do
      let (elements, rest) ← elements? (value? depth) (rest.length + 1) rest
      pure (.list elements, rest)
    | '\x7b' :: rest =>
      match rest.dropWhile isBlank with
      | '\x7d' :: rest => some (.table [], rest)
      | rest => do
        let (es, rest) ← inlineEntries? (value? depth) (rest.length + 1) [] rest
        pure (es.toNode, rest)
    | cs => bareScalar? cs

/-- A document of which the tables under earlier headers are finished. -/
structure Progress where
  /-- The finished part. -/
  root : Entries := []
  /-- The table that new lines belong to. -/
  current : Entries := []
  /-- Its header, and whether that is a repeated one; the table in front of all headers has none. -/
  header : Option (List String × Bool) := none

namespace Progress

/-- Adds the table that new lines belong to to the finished part. -/
def finish (p : Progress) : Option Entries :=
  match p.header with
  | none => some p.current
  | some (path, repeated) => do
    let key ← path.getLast?
    let add (_ : Bool) (es : Entries) : Option (Unit × Entries) :=
      match es.lookup key with
      | none =>
        let b := if repeated then .tables [p.current] else .table false false p.current
        some ((), es ++ [(key, b)])
      | some (.tables elements) =>
        if repeated then some ((), es.replace key (.tables (elements ++ [p.current]))) else none
      | some _ => none
    (p.root.within false add path.dropLast false).map (·.2)

/-- Begins the table under a header.  A table that was only implied so far keeps its entries. -/
def openTable (p : Progress) (path : List String) : Option Progress := do
  let root ← p.finish
  let key ← path.getLast?
  let take (_ : Bool) (es : Entries) : Option (Entries × Entries) :=
    match es.lookup key with
    | none => some ([], es)
    | some (.table true false sub) => some (sub, es.filter (·.1 != key))
    | some _ => none
  let (current, root) ← root.within false take path.dropLast false
  pure ⟨root, current, some (path, false)⟩

/-- Begins a further table under a repeated header. -/
def openElement (p : Progress) (path : List String) : Option Progress := do
  let root ← p.finish
  let key ← path.getLast?
  let look (_ : Bool) (es : Entries) : Option (Unit × Entries) :=
    match es.lookup key with
    | none | some (.tables _) => some ((), es)
    | some _ => none
  let ((), root) ← root.within false look path.dropLast false
  pure ⟨root, [], some (path, true)⟩

/-- Takes one line into account, and gives what follows it. -/
def line? (p : Progress) (cs : List Char) : Option (Progress × List Char) := do
  let (p, rest) ← match cs.dropWhile isBlank with
    | '[' :: '[' :: rest => do
      match ← key? (maxDepth - 1) rest with
      | (path, ']' :: ']' :: rest) => pure (← p.openElement path, rest)
      | _ => none
    | '[' :: rest => do
      match ← key? (maxDepth - 1) rest with
      | (path, ']' :: rest) => pure (← p.openTable path, rest)
      | _ => none
    | '#' :: rest => pure (p, '#' :: rest)
    | [] => pure (p, [])
    | '\n' :: rest => pure (p, '\n' :: rest)
    | '\r' :: rest => pure (p, '\r' :: rest)
    | cs => do
      let (path, n, rest) ← pair? (value? maxDepth) cs
      pure ({ p with current := ← define? p.current path n }, rest)
  pure (p, ← lineEnd? rest)

/-- Takes all lines into account, at most `room` of them. -/
def lines? : (room : Nat) → Progress → List Char → Option Progress
  | _, p, [] => some p
  | 0, _, _ => none
  | room + 1, p, cs => do
    let (p, rest) ← p.line? cs
    p.lines? room rest

end Progress

/-- The document that a text writes down. -/
def parse (text : String) : Option Node := do
  let cs := match text.toList with
    | '\uFEFF' :: rest => rest
    | cs => cs
  let p ← Progress.lines? (cs.length + 1) {} cs
  let root ← p.finish
  pure root.toNode

end ContractHost.Toml
