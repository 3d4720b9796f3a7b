import ContractHost.Text.Graphic

/-!
# Quoted text

Diagnostics show a text between double quotes.  Quote, backslash, tab, line feed, carriage return
and the zero character have short escapes, every other character without a shape of its own is
written by its code point.

## Main definitions

* `Quoted.escape` — the written form of one character.
* `Quoted.quote` — the written form of a text.
-/

namespace ContractHost.Quoted

/-- The lower case hexadecimal digits of a number, without leading zeros. -/
def hexDigits (n : Nat) : String :=
  String.ofList (Nat.toDigits 16 n)

/-- The written form of one character. -/
def escape (c : Char) : String :=
  match c with
  | '\x00' => "\\0"
  | '\t' => "\\t"
  | '\n' => "\\n"
  | '\r' => "\\r"
  | '"' => "\\\""
  | '\\' => "\\\\"
  | c => if Graphic.isGraphic c then c.toString else "\\u\x7b" ++ hexDigits c.toNat ++ "\x7d"

/-- The written form of a text, quotes included. -/
def quote (s : String) : String :=
  "\"" ++ s.toList.foldl (fun done c => done ++ escape c) "" ++ "\""

end ContractHost.Quoted
