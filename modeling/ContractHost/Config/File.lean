import ContractHost.Config.Record
import ContractHost.Document.Toml.Reader

/-!
# Configuration files

A configuration file is a TOML document in UTF-8.

## Main definitions

* `ConfigFile.ofText` — what the text of a configuration file says.
* `ConfigFile.load` — the same from what the file system answers for its path.
-/

namespace ContractHost.ConfigFile

/-- What the text of a configuration file says. -/
def ofText (text : String) : Except ConfigFileError ConfigFile :=
  match (Toml.parse text).bind (read .ignored) with
  | some c => .ok c
  | none => .error .malformed

/-- Why bytes that are no text are refused. -/
def notText : String := "stream did not contain valid UTF-8"

/-- What a configuration file says, given its bytes or the reason why it cannot be read. -/
def load (path : String) (content : Except String Bytes) : Except ConfigFileError ConfigFile :=
  match content with
  | .error reason => .error (.unreadable path reason)
  | .ok b =>
    match Utf8.decode? b with
    | some text => ofText text
    | none => .error (.unreadable path notText)

end ContractHost.ConfigFile
