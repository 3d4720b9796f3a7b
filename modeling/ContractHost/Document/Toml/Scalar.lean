import ContractHost.Document.Json

/-!
# Scalars of TOML

TOML 1.0 writes numbers, truth values, dates and times without quotes, and texts in four ways: in
one or several lines, with or without escapes.

## Main definitions

* `Toml.bareScalar?` — the node of an unquoted scalar.
* `Toml.basicString?`, `literalString?`, `basicLines?`, `literalLines?` — the four kinds of texts,
  read from behind the opening quotes.
-/

namespace ContractHost.Toml

/-- A space or a tab. -/
def isBlank (c : Char) : Bool :=
  c == ' ' || c == '\t'

/-- A character that may stand in a comment: all but the controls; the tab is none of them. -/
def isPlain (c : Char) : Bool :=
  c == '\t' || (0x20 ≤ c.toNat && c.toNat != 0x7F)

/-! ### Texts -/

/-- The character with a code, if there is one. -/
def charOf? (code : Nat) : Option Char :=
  if h : code.isValidChar then some (Char.ofNatAux code h) else none

/-- The number that hexadecimal digits write. -/
def hexNumber? (digits : List Char) : Option Nat :=
  digits.foldlM (fun n c => (Json.hexValue? c).map (n * 16 + ·)) 0

/-- The character that a short escape stands for. -/
def shortEscape? : Char → Option Char
  | 'b' => some '\x08'
  | 't' => some '\t'
  | 'n' => some '\n'
  | 'f' => some '\x0c'
  | 'r' => some '\r'
  | '"' => some '"'
  | '\\' => some '\\'
  | _ => none

/-- The rest of a text on one line with escapes, and what follows its closing quote. -/
def basicString? (gathered : List Char) : List Char → Option (String × List Char)
  | '"' :: rest => some (String.ofList gathered.reverse, rest)
  | '\\' :: 'u' :: a :: b :: c :: d :: rest => do
    basicString? ((← charOf? (← hexNumber? [a, b, c, d])) :: gathered) rest
  | '\\' :: 'U' :: a :: b :: c :: d :: e :: f :: g :: h :: rest => do
    basicString? ((← charOf? (← hexNumber? [a, b, c, d, e, f, g, h])) :: gathered) rest
  | '\\' :: c :: rest => do basicString? ((← shortEscape? c) :: gathered) rest
  | c :: rest => if isPlain c then basicString? (c :: gathered) rest else none
  | [] => none

/-- The rest of a text on one line without escapes, and what follows its closing quote. -/
def literalString? (gathered : List Char) : List Char → Option (String × List Char)
  | '\'' :: rest => some (String.ofList gathered.reverse, rest)
  | c :: rest => if isPlain c then literalString? (c :: gathered) rest else none
  | [] => none

/-- Nothing but blanks stands before the next line break. -/
def endsLine (cs : List Char) : Bool :=
  match cs.dropWhile isBlank with
  | '\n' :: _ => true
  | '\r' :: '\n' :: _ => true
  | _ => false

/-- The rest of a text on several lines with escapes, and what follows its closing quotes.  While
`trimming`, blanks and line breaks are passed over: a backslash at the end of a line asks for it.
Up to two quotes may stand before the closing three. -/
def basicLines? (trimming : Bool) (gathered : List Char) : List Char → Option (String × List Char)
  | '"' :: '"' :: '"' :: '"' :: '"' :: rest =>
    some (String.ofList ('"' :: '"' :: gathered).reverse, rest)
  | '"' :: '"' :: '"' :: '"' :: rest => some (String.ofList ('"' :: gathered).reverse, rest)
  | '"' :: '"' :: '"' :: rest => some (String.ofList gathered.reverse, rest)
  | '\n' :: rest => basicLines? trimming (if trimming then gathered else '\n' :: gathered) rest
  | '\r' :: '\n' :: rest =>
    basicLines? trimming (if trimming then gathered else '\n' :: gathered) rest
  | '\\' :: 'u' :: a :: b :: c :: d :: rest => do
    basicLines? false ((← charOf? (← hexNumber? [a, b, c, d])) :: gathered) rest
  | '\\' :: 'U' :: a :: b :: c :: d :: e :: f :: g :: h :: rest => do
    basicLines? false ((← charOf? (← hexNumber? [a, b, c, d, e, f, g, h])) :: gathered) rest
  | '\\' :: c :: rest =>
    if isBlank c || c == '\n' || c == '\r' then
      if endsLine (c :: rest) then basicLines? true gathered (c :: rest) else none
    else do basicLines? false ((← shortEscape? c) :: gathered) rest
  | c :: rest =>
    if trimming && isBlank c then basicLines? true gathered rest
    else if isPlain c then basicLines? false (c :: gathered) rest
    else none
  | [] => none

/-- The rest of a text on several lines without escapes, and what follows its closing quotes. -/
def literalLines? (gathered : List Char) : List Char → Option (String × List Char)
  | '\'' :: '\'' :: '\'' :: '\'' :: '\'' :: rest =>
    some (String.ofList ('\'' :: '\'' :: gathered).reverse, rest)
  | '\'' :: '\'' :: '\'' :: '\'' :: rest => some (String.ofList ('\'' :: gathered).reverse, rest)
  | '\'' :: '\'' :: '\'' :: rest => some (String.ofList gathered.reverse, rest)
  | '\n' :: rest => literalLines? ('\n' :: gathered) rest
  | '\r' :: '\n' :: rest => literalLines? ('\n' :: gathered) rest
  | c :: rest => if isPlain c then literalLines? (c :: gathered) rest else none
  | [] => none

/-! ### Numbers -/

/-- The digits of a number without the underscores that may stand between two of them. -/
def digits? (isDigit : Char → Bool) (cs : List Char) : Option (List Char) :=
  let groups := (String.ofList cs).splitOn "_"
  if groups.all fun g => !g.isEmpty && g.toList.all isDigit then
    some (groups.flatMap String.toList)
  else none

/-- The sign in front of a number, and the rest. -/
def splitSign : List Char → Bool × List Char
  | '-' :: rest => (true, rest)
  | '+' :: rest => (false, rest)
  | cs => (false, cs)

/-- An integer node within the range of 64 bits. -/
def integerNode? (n : Int) : Option Node :=
  if -0x8000000000000000 ≤ n ∧ n < 0x8000000000000000 then some (.integer n) else none

/-- The number in another base than ten. -/
def based? (base : Nat) (cs : List Char) : Option Node := do
  let value? (c : Char) := (Json.hexValue? c).filter (· < base)
  let digits ← digits? (fun c => (value? c).isSome) cs
  integerNode? (digits.foldl (fun n c => n * base + (value? c).getD 0) 0 : Nat)

/-- The digits in front of point and exponent, without a superfluous zero. -/
def wholePart? (cs : List Char) : Option (List Char) :=
  (digits? Char.isDigit cs).filter fun ds => ds.length = 1 || ds.head? != some '0'

/-- A decimal integer. -/
def decimal? (cs : List Char) : Option Node := do
  let (negative, unsigned) := splitSign cs
  let n := Json.natOfDigits (← wholePart? unsigned)
  integerNode? (if negative then -(n : Int) else n)

/-- The least number that is rounded to infinity when it is kept in 64 bits. -/
def firstInfinite : Nat := 1 <<< 1024 - 1 <<< 970

/-- The number `mantissa * 10 ^ exponent` is rounded to infinity. -/
def overflows (mantissa : Nat) (exponent : Int) : Bool :=
  let scale := (Nat.toDigits 10 mantissa).length + exponent
  if mantissa = 0 ∨ scale < 300 then false
  else if 400 < scale then true
  else if 0 ≤ exponent then firstInfinite ≤ mantissa * Nat.pow 10 exponent.toNat
  else firstInfinite * Nat.pow 10 (-exponent).toNat ≤ mantissa

/-- A number with a point or an exponent.  It may be too small, but not too large, for 64 bits. -/
def float? (cs : List Char) : Option Node := do
  let (negative, unsigned) := splitSign cs
  let wholeText := unsigned.takeWhile fun c => c.isDigit || c == '_'
  let afterWhole := unsigned.dropWhile fun c => c.isDigit || c == '_'
  let whole ← wholePart? wholeText
  let (fraction, afterFraction) ← match afterWhole with
    | '.' :: rest => do
      let ds ← digits? Char.isDigit (rest.takeWhile fun c => c.isDigit || c == '_')
      pure (ds, rest.dropWhile fun c => c.isDigit || c == '_')
    | rest => pure ([], rest)
  let (exponentNegative, exponent) ← match afterFraction with
    | [] => pure (false, ['0'])
    | e :: rest => do
      guard (e == 'e' || e == 'E')
      let (sign, ds) := splitSign rest
      pure (sign, ← digits? Char.isDigit ds)
  guard (!afterWhole.isEmpty)
  let magnitude : Int := Json.natOfDigits exponent
  let power := (if exponentNegative then -magnitude else magnitude) - fraction.length
  guard (negative || !overflows (Json.natOfDigits (whole ++ fraction)) power)
  pure .real

/-! ### Dates and times -/

/-- The number in exactly two digits, within bounds. -/
def twoDigits? (low high : Nat) (a b : Char) : Option Nat :=
  let n := Json.natOfDigits [a, b]
  if a.isDigit && b.isDigit && low ≤ n && n ≤ high then some n else none

/-- The number of days of a month. -/
def daysOf (year month : Nat) : Nat :=
  if month = 2 then
    if year % 4 = 0 ∧ (year % 100 ≠ 0 ∨ year % 400 = 0) then 29 else 28
  else if month = 4 ∨ month = 6 ∨ month = 9 ∨ month = 11 then 30 else 31

/-- Passes over a date. -/
def date? : List Char → Option (List Char)
  | y₁ :: y₂ :: y₃ :: y₄ :: '-' :: m₁ :: m₂ :: '-' :: d₁ :: d₂ :: rest => do
    guard ([y₁, y₂, y₃, y₄].all Char.isDigit)
    let month ← twoDigits? 1 12 m₁ m₂
    let _ ← twoDigits? 1 (daysOf (Json.natOfDigits [y₁, y₂, y₃, y₄]) month) d₁ d₂
    pure rest
  | _ => none

/-- Passes over a time of day. -/
def time? : List Char → Option (List Char)
  | h₁ :: h₂ :: ':' :: m₁ :: m₂ :: ':' :: s₁ :: s₂ :: rest => do
    let _ ← twoDigits? 0 23 h₁ h₂
    let _ ← twoDigits? 0 59 m₁ m₂
    let _ ← twoDigits? 0 60 s₁ s₂
    match rest with
    | '.' :: more =>
      guard ((more.head?.map Char.isDigit).getD false)
      pure (more.dropWhile Char.isDigit)
    | _ => pure rest
  | _ => none

/-- The offset of a time from universal time, up to the end; it may be missing. -/
def isOffset : List Char → Bool
  | [] => true
  | [z] => z == 'Z' || z == 'z'
  | [sign, h₁, h₂, ':', m₁, m₂] =>
    (sign == '+' || sign == '-') && (twoDigits? 0 23 h₁ h₂).isSome && (twoDigits? 0 59 m₁ m₂).isSome
  | _ => false

/-- A date, a time, or both.  A date has none of the keys of any record, and is read like an empty
table. -/
def moment? (cs : List Char) : Option Node :=
  match date? cs with
  | some [] => some (.table [])
  | some (separator :: rest) => do
    guard (separator == 'T' || separator == 't' || separator == ' ')
    guard (isOffset (← time? rest))
    pure (.table [])
  | none => do
    guard (← time? cs).isEmpty
    pure (.table [])

/-! ### Unquoted scalars -/

/-- A character of an unquoted scalar. -/
def isBare (c : Char) : Bool :=
  c.isAlphanum || c == '+' || c == '-' || c == '_' || c == '.' || c == ':'

/-- The node of a complete unquoted scalar. -/
def scalarNode? (cs : List Char) : Option Node :=
  match cs with
  | '0' :: 'x' :: rest => based? 16 rest
  | '0' :: 'o' :: rest => based? 8 rest
  | '0' :: 'b' :: rest => based? 2 rest
  | _ =>
    match String.ofList cs with
    | "true" => some (.bool true)
    | "false" => some (.bool false)
    | _ =>
      if ["inf", "nan"].contains (String.ofList (splitSign cs).2) then some .real
      else decimal? cs <|> float? cs <|> moment? cs

/-- The node of an unquoted scalar, and what follows it.  A date and a time may have a blank
between them. -/
def bareScalar? (cs : List Char) : Option (Node × List Char) := do
  let first := cs.takeWhile isBare
  let rest := cs.dropWhile isBare
  match date? first, rest with
  | some [], ' ' :: c :: more =>
    if c.isDigit then
      let time := (c :: more).takeWhile isBare
      pure (← moment? (first ++ ' ' :: time), (c :: more).dropWhile isBare)
    else pure (← scalarNode? first, rest)
  | _, _ => pure (← scalarNode? first, rest)

end ContractHost.Toml
