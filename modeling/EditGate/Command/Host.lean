import EditGate.Console
import EditGate.Disk
import EditGate.Settings.Document
import EditGate.Yaml.Document

/-!
# Hosts

What a run meets that no file of the workspace decides: how a document is read, which levels
the log takes, how deeply a stored history may be nested, what the console can show and where
the device breaks off. A run is the same function for every host.
-/

namespace EditGate.Command

/-- What a run meets outside the workspace. -/
structure Host where
  /-- How the document with the settings is read. -/
  document : Settings.DocumentReader
  /-- Whether the log can be set up at a level. -/
  logs : String → Bool
  /-- How deeply lists and objects of a stored history may be nested. -/
  nesting : Nat
  /-- Whether the console shows an item, given those shown before, the latest first. -/
  shows : List Console.Item → Console.Item → Bool
  device : Disk.Device

namespace Host

/-- The capitals of a character that has plain ones. -/
def capitals : Char → List Char
  | 'ß' => ['S', 'S']
  | 'ı' => ['I']
  | 'ſ' => ['S']
  | 'ﬀ' => ['F', 'F']
  | 'ﬁ' => ['F', 'I']
  | 'ﬂ' => ['F', 'L']
  | 'ﬃ' => ['F', 'F', 'I']
  | 'ﬄ' => ['F', 'F', 'L']
  | 'ﬅ' | 'ﬆ' => ['S', 'T']
  | char => [char.toUpper]

/-- The names that look like levels of the log and are none. Every other name is a level or
stands for the usual one. -/
def falseLevels : List String := ["BASIC_FORMAT", "_STYLES"]

/-- Whether a name, in whatever case, can be used as a level of the log. -/
def isLevel (name : String) : Bool :=
  !falseLevels.contains (String.ofList (name.toList.flatMap capitals))

/-- The host that the program is made for: nothing breaks off. -/
def usual : Host where
  document := Yaml.document
  logs := isLevel
  nesting := 990
  shows := fun _ _ => true
  device := .sound

end Host

end EditGate.Command
