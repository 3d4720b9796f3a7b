import ContractHost.Document.Node
import ContractHost.Text.Quoted

/-!
# JSON

JSON as RFC 8259 defines it, without extensions: no comments, no trailing commas, no mark at the
beginning, nothing after the document.

Reading goes in two passes over lists, so that neither needs a bound on the nesting: the text is
cut into tokens, and the tokens are put together on an explicit stack.  Within a string literal,
escapes may name any 16 bit unit.  A literal whose units do not pair up is well formed but stands
for no text, and can only be passed over.

## Main definitions

* `Json.tokens` — the tokens of a text.
* `Json.parse` — the document that a text writes down.
* `Json.render` — a document as text.
-/

namespace ContractHost.Json

/-- The tokens of JSON. -/
inductive Token
  /-- One of the six structural characters. -/
  | mark (c : Char)
  /-- A string, number, or one of the three words. -/
  | scalar (n : Node)

/-- A unit of a string literal: a character, or half of one named by an escape. -/
inductive Piece
  /-- A character. -/
  | char (c : Char)
  /-- A unit in the range of surrogates. -/
  | half (unit : Nat)

/-- The text of a string literal, if its halves pair up. -/
def joinPieces : List Piece → Option (List Char)
  | [] => some []
  | .char c :: rest => (joinPieces rest).map (c :: ·)
  | .half high :: .half low :: rest =>
    if high < 0xDC00 ∧ 0xDC00 ≤ low then
      (joinPieces rest).map (Char.ofNat (0x10000 + (high - 0xD800) * 0x400 + (low - 0xDC00)) :: ·)
    else none
  | .half _ :: _ => none

/-- Where the reader stands between two characters.  Everything gathered is in reverse. -/
inductive Scan
  /-- Between tokens. -/
  | idle
  /-- In a number or a word. -/
  | bare (gathered : List Char)
  /-- In a string literal. -/
  | quoted (gathered : List Piece)
  /-- After a backslash. -/
  | escaped (gathered : List Piece)
  /-- In a four digit escape, with the digits still to come and the unit so far. -/
  | unit (gathered : List Piece) (missing : Nat) (code : Nat)

/-- The value of a hexadecimal digit. -/
def hexValue? (c : Char) : Option Nat :=
  if '0' ≤ c ∧ c ≤ '9' then some (c.toNat - '0'.toNat)
  else if 'a' ≤ c ∧ c ≤ 'f' then some (c.toNat - 'a'.toNat + 10)
  else if 'A' ≤ c ∧ c ≤ 'F' then some (c.toNat - 'A'.toNat + 10)
  else none

/-- Characters that may stand between tokens. -/
def isBlank (c : Char) : Bool :=
  c == ' ' || c == '\n' || c == '\t' || c == '\r'

/-- The six structural characters. -/
def isMark (c : Char) : Bool :=
  c == '[' || c == ']' || c == '\x7b' || c == '\x7d' || c == ':' || c == ','

/-- The number that decimal digits write. -/
def natOfDigits (digits : List Char) : Nat :=
  digits.foldl (fun n c => n * 10 + (c.toNat - '0'.toNat)) 0

/-- Digits without a superfluous zero in front. -/
def isWholePart (digits : List Char) : Bool :=
  digits == ['0'] || (!digits.isEmpty && digits.head? != some '0')

/-- What may follow the whole part of a number: nothing, or a fraction, or an exponent. -/
def isTail (cs : List Char) : Bool :=
  let afterFraction := match cs with
    | '.' :: rest =>
      if (rest.takeWhile Char.isDigit).isEmpty then ['.'] else rest.dropWhile Char.isDigit
    | _ => cs
  match afterFraction with
  | [] => true
  | e :: rest =>
    let digits := match rest with
      | '+' :: ds => ds
      | '-' :: ds => ds
      | ds => ds
    (e == 'e' || e == 'E') && !digits.isEmpty && digits.all Char.isDigit

/-- The node of a number.  Minus zero is not an integer. -/
def number? (cs : List Char) : Option Node :=
  let negative := cs.head? == some '-'
  let unsigned := if negative then cs.tail else cs
  let whole := unsigned.takeWhile Char.isDigit
  let tail := unsigned.dropWhile Char.isDigit
  if isWholePart whole && isTail tail then
    let n := natOfDigits whole
    if !tail.isEmpty || (negative && n == 0) then some .real
    else some (.integer (if negative then -(n : Int) else n))
  else none

/-- The node of a number or a word. -/
def bare? (cs : List Char) : Option Node :=
  match String.ofList cs with
  | "null" => some .null
  | "true" => some (.bool true)
  | "false" => some (.bool false)
  | _ => number? cs

/-- The node of a string literal. -/
def stringNode (pieces : List Piece) : Node :=
  match joinPieces pieces with
  | some cs => .text (String.ofList cs)
  | none => .noText

/-- The character that a short escape stands for. -/
def shortEscape? : Char → Option Char
  | '"' => some '"'
  | '\\' => some '\\'
  | '/' => some '/'
  | 'b' => some '\x08'
  | 'f' => some '\x0c'
  | 'n' => some '\n'
  | 'r' => some '\r'
  | 't' => some '\t'
  | _ => none

/-- A unit named by its number. -/
def pieceOf (code : Nat) : Piece :=
  if 0xD800 ≤ code ∧ code ≤ 0xDFFF then .half code else .char (Char.ofNat code)

/-- Begins a token. -/
def start (c : Char) (done : List Token) : Option (Scan × List Token) :=
  if isBlank c then some (.idle, done)
  else if isMark c then some (.idle, .mark c :: done)
  else if c = '"' then some (.quoted [], done)
  else some (.bare [c], done)

/-- Takes one more character. -/
def scan (state : Scan × List Token) (c : Char) : Option (Scan × List Token) :=
  let (at?, done) := state
  match at? with
  | .idle => start c done
  | .bare gathered =>
    if isBlank c || isMark c || c = '"' then do
      start c (.scalar (← bare? gathered.reverse) :: done)
    else some (.bare (c :: gathered), done)
  | .quoted gathered =>
    if c = '"' then some (.idle, .scalar (stringNode gathered.reverse) :: done)
    else if c = '\\' then some (.escaped gathered, done)
    else if c.toNat < 0x20 then none
    else some (.quoted (.char c :: gathered), done)
  | .escaped gathered =>
    if c = 'u' then some (.unit gathered 4 0, done)
    else do some (.quoted (.char (← shortEscape? c) :: gathered), done)
  | .unit gathered missing code => do
    let code := code * 16 + (← hexValue? c)
    if missing ≤ 1 then some (.quoted (pieceOf code :: gathered), done)
    else some (.unit gathered (missing - 1) code, done)

/-- The tokens of a text. -/
def tokens (text : String) : Option (List Token) := do
  match ← text.toList.foldlM scan (.idle, []) with
  | (.idle, done) => some done.reverse
  | (.bare gathered, done) => some ((.scalar (← bare? gathered.reverse) :: done).reverse)
  | _ => none

/-- A list or table that is still open.  Everything gathered is in reverse. -/
inductive Frame
  /-- A list. -/
  | list (gathered : List Node)
  /-- A table, and the key whose value is being read. -/
  | table (gathered : List (String × Node)) (key : String)

/-- What may come next. -/
inductive Expect
  /-- A value. -/
  | value
  /-- The first element of a list, or its end. -/
  | firstElement
  /-- The first key of a table, or its end. -/
  | firstKey (gathered : List (String × Node))
  /-- A further key of a table. -/
  | key (gathered : List (String × Node))
  /-- The colon after a key. -/
  | colon (gathered : List (String × Node)) (key : String)
  /-- Whatever may follow a complete value. -/
  | after (n : Node)

/-- Begins a value. -/
def openValue (stack : List Frame) : Token → Option (List Frame × Expect)
  | .scalar n => some (stack, .after n)
  | .mark '[' => some (.list [] :: stack, .firstElement)
  | .mark '\x7b' => some (stack, .firstKey [])
  | .mark _ => none

/-- Reads a key of a table. -/
def readKey (stack : List Frame) (gathered : List (String × Node)) :
    Token → Option (List Frame × Expect)
  | .scalar (.text key) => some (stack, .colon gathered key)
  | _ => none

/-- Takes one more token. -/
def assemble (state : List Frame × Expect) (t : Token) : Option (List Frame × Expect) :=
  let (stack, expect) := state
  match expect, t, stack with
  | .value, t, _ => openValue stack t
  | .firstElement, .mark ']', _ :: below => some (below, .after (.list []))
  | .firstElement, t, _ => openValue stack t
  | .firstKey gathered, .mark '\x7d', _ => some (stack, .after (.table gathered))
  | .firstKey gathered, t, _ => readKey stack gathered t
  | .key gathered, t, _ => readKey stack gathered t
  | .colon gathered key, .mark ':', _ => some (.table gathered key :: stack, .value)
  | .after n, .mark ',', .list gathered :: below => some (.list (n :: gathered) :: below, .value)
  | .after n, .mark ']', .list gathered :: below =>
    some (below, .after (.list (n :: gathered).reverse))
  | .after n, .mark ',', .table gathered key :: below => some (below, .key ((key, n) :: gathered))
  | .after n, .mark '\x7d', .table gathered key :: below =>
    some (below, .after (.table ((key, n) :: gathered).reverse))
  | _, _, _ => none

/-- The document that a text writes down. -/
def parse (text : String) : Option Node := do
  match ← (← tokens text).foldlM assemble ([], .value) with
  | ([], .after n) => some n
  | _ => none

/-- A character inside a string literal. -/
def escape (c : Char) : String :=
  match c with
  | '"' => "\\\""
  | '\\' => "\\\\"
  | '\n' => "\\n"
  | '\r' => "\\r"
  | '\t' => "\\t"
  | '\x08' => "\\b"
  | '\x0c' => "\\f"
  | c =>
    if c.toNat < 0x20 then
      "\\u00" ++ (if c.toNat < 0x10 then "0" else "") ++ Quoted.hexDigits c.toNat
    else c.toString

/-- A text as a string literal. -/
def literal (s : String) : String :=
  "\"" ++ s.toList.foldl (fun done c => done ++ escape c) "" ++ "\""

/-- The line break in front of something at a depth of nesting. -/
def newline (depth : Nat) : String :=
  "\n" ++ String.ofList (List.replicate (2 * depth) ' ')

mutual

/-- A document at a depth of nesting, every element and entry on a line of its own. -/
def renderAt (depth : Nat) : Node → String
  | .null | .real | .noText => "null"
  | .bool b => if b then "true" else "false"
  | .integer n => toString n
  | .text s => literal s
  | .list [] => "[]"
  | .list (n :: rest) =>
    "[" ++ newline (depth + 1) ++ renderAt (depth + 1) n ++ renderElements (depth + 1) rest ++
      newline depth ++ "]"
  | .table [] => "\x7b\x7d"
  | .table ((key, n) :: rest) =>
    "\x7b" ++ newline (depth + 1) ++ literal key ++ ": " ++ renderAt (depth + 1) n ++
      renderEntries (depth + 1) rest ++ newline depth ++ "\x7d"

/-- The further elements of a list. -/
def renderElements (depth : Nat) : List Node → String
  | [] => ""
  | n :: rest => "," ++ newline depth ++ renderAt depth n ++ renderElements depth rest

/-- The further entries of a table. -/
def renderEntries (depth : Nat) : List (String × Node) → String
  | [] => ""
  | (key, n) :: rest =>
    "," ++ newline depth ++ literal key ++ ": " ++ renderAt depth n ++ renderEntries depth rest

end

/-- A document as text. -/
def render (n : Node) : String :=
  renderAt 0 n

end ContractHost.Json
