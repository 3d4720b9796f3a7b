import ContractHost.Document.Node
import ContractHost.Text.Utf8

/-!
# Byte strings and texts in documents

A document may hold byte strings and long texts in a short form.

A byte string is written as a text of hexadecimal digits, two for each byte; as a table that
repeats digits, `{"rep": [digits, count]}`; as a table that gives the characters,
`{"t": text}`; or as a list of these, one after another.  A text is written as itself, as a table
that repeats a text, or as a list of these.

## Main definitions

* `Node.bytes?`, `Node.longText?` — the byte string and the text that a document writes down.
* `hexText` — the digits of a byte string.
-/

namespace ContractHost

/-- The value of a hexadecimal digit. -/
def hexDigit? (c : Char) : Option UInt8 :=
  if '0' ≤ c ∧ c ≤ '9' then some (UInt8.ofNat (c.toNat - '0'.toNat))
  else if 'a' ≤ c ∧ c ≤ 'f' then some (UInt8.ofNat (c.toNat - 'a'.toNat + 10))
  else if 'A' ≤ c ∧ c ≤ 'F' then some (UInt8.ofNat (c.toNat - 'A'.toNat + 10))
  else none

/-- The bytes that pairs of hexadecimal digits spell, in front of others that are given. -/
def hexBytesRev (done : Bytes) : List Char → Option Bytes
  | [] => some done
  | a :: b :: rest => do
    let byte := (← hexDigit? a) * 16 + (← hexDigit? b)
    hexBytesRev (byte :: done) rest
  | [_] => none

/-- The bytes that pairs of hexadecimal digits spell. -/
def hexBytes? (digits : String) : Option Bytes :=
  (hexBytesRev [] digits.toList).map List.reverse

/-- The digit of a number below sixteen. -/
def hexDigit (n : UInt8) : Char :=
  Char.ofNat (if n < 10 then '0'.toNat + n.toNat else 'a'.toNat + n.toNat - 10)

/-- The hexadecimal digits of a byte string. -/
def hexText (b : Bytes) : String :=
  String.ofList (b.flatMap fun x => [hexDigit (x / 16), hexDigit (x % 16)])

/-- A list repeated a number of times. -/
def repeated {α : Type} (l : List α) (count : Nat) : List α :=
  (List.replicate count l).flatten

namespace Node

/-- A byte string that is not written as a list. -/
def plainBytes? : Node → Option Bytes
  | .text digits => hexBytes? digits
  | .table [("t", .text s)] => some (Utf8.encode s)
  | .table [("rep", .list [.text digits, .integer n])] => do
    some (repeated (← hexBytes? digits) n.toNat)
  | .null => some []
  | _ => none

/-- The byte string that a document writes down. -/
def bytes? : Node → Option Bytes
  | .list parts => (parts.mapM plainBytes?).map List.flatten
  | n => n.plainBytes?

/-- A text that is not written as a list. -/
def plainText? : Node → Option String
  | .text s => some s
  | .table [("rep", .list [.text s, .integer n])] =>
    some (String.ofList (repeated s.toList n.toNat))
  | _ => none

/-- The text that a document writes down. -/
def longText? : Node → Option String
  | .list parts => (parts.mapM plainText?).map String.join
  | n => n.plainText?

end Node

end ContractHost
