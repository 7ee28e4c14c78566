import EditGate.Disk
import EditGate.Settings
import EditGate.Text.Utf8
import EditGate.Yaml.Cursor

/-!
# Settings in a document

Settings are written as a YAML mapping. An empty document leaves the defaults, and so does
a missing file. How the value of a document is read is left open here.
-/

namespace EditGate.Settings

/-- A way to read the value of a document. -/
abbrev DocumentReader := List Char → Except Yaml.Fault Value

/-- Reads settings from a document. Beside them stand the remarks on unknown fields. A
document with a scalar that means nothing is no matter of settings. -/
def ofDocument (document : DocumentReader) (source : String) (text : List Char) :
    Except Yaml.Fault (List String × Except Error Settings) :=
  match document text with
  | .error .malformed => .ok ([], .error .unreadable)
  | .error fault => .error fault
  | .ok .null => .ok ([], .ok standard)
  | .ok value =>
      match value.entries? with
      | some entries => .ok (ofEntries source entries)
      | none => .ok ([], .error (.notMapping source value.typeName))

/-- The name of the file that holds the settings of a workspace. -/
def fileName : String := ".luaguard.yaml"

/-- What keeps a file with settings from being judged. -/
inductive Fault where
  /-- The place cannot be looked at. -/
  | disk (cause : Disk.Error)
  /-- The file is no text. -/
  | undecodable (cause : Utf8.Fault)
  /-- A scalar means nothing. -/
  | scalar (cause : Yaml.Fault)

/-- Reads settings from the file at the end of a route, which has to hold a text. -/
def ofDisk (document : DocumentReader) (disk : Disk) (base : Path) (route : Route) :
    Except Fault (List String × Except Error Settings) := do
  if ← (disk.holds base route).mapError .disk then
    match disk.read base route with
    | .error _ => .ok ([], .error .unreadable)
    | .ok octets =>
        let text ← (Utf8.decode octets).mapError .undecodable
        (ofDocument document route.text (Utf8.normalizeBreaks text)).mapError .scalar
  else .ok ([], .ok standard)

end EditGate.Settings
