import EditGate.Value

/-!
# Settings

What can be set in a workspace, the defaults, and how settings are read from data
of any shape. Fields are checked in their order; unknown ones are set aside with a
remark. The capacity of the history is checked last.
-/

namespace EditGate

/-- The settings of a workspace. -/
structure Settings where
  /-- How many edits of a file can be undone. -/
  historyCapacity : Nat := 5
  /-- Whether missing `end` are offered to be added. -/
  autoFix : Bool := true
  /-- Whether advice is given. -/
  lint : Bool := true
  /-- Functions with the ones to use in their place. -/
  deprecatedApis : List (Value × Value) :=
    [(.str "wait", .str "task.wait"), (.str "spawn", .str "task.spawn"),
      (.str "delay", .str "task.delay")]
  /-- Standard names that locals should not reuse. -/
  builtinNames : List Value :=
    ["assert", "collectgarbage", "coroutine", "debug", "error", "getmetatable", "ipairs", "math",
      "next", "os", "pairs", "pcall", "print", "rawequal", "rawget", "rawset", "require", "select",
      "setmetatable", "string", "table", "tonumber", "tostring", "type", "unpack", "utf8",
      "xpcall"].map .str
  /-- The endings of the names of source files. -/
  extensions : List Value := [.str ".lua", .str ".luau"]
  /-- How much is logged. -/
  logLevel : String := "INFO"
  /-- Where the history is kept, from the workspace. -/
  historyFile : String := ".luaguard/history.json"
  /-- There is room for at least one edit. -/
  historyCapacity_pos : 0 < historyCapacity := by decide

namespace Settings

/-- The settings of a workspace that says nothing. -/
def standard : Settings := {}

/-- Why data make no settings. -/
inductive Error where
  /-- A field has a value of the wrong type. -/
  | wrongType (key source expected actual : String)
  /-- The history would have no room. -/
  | capacity (given : Value)
  /-- The data are no mapping. -/
  | notMapping (source actual : String)
  /-- There are no data to be read. -/
  | unreadable

/-- The wording of an error. -/
def Error.message : Error → String
  | wrongType key source expected actual =>
      s!"Config key '{key}' in {source} must be {expected}, got {actual}"
  | capacity given => "history_capacity must be a positive integer, got " ++ given.literal
  | notMapping source actual => s!"Config {source} must be a mapping, got {actual}"
  | unreadable => "Unable to read config"

/-- Settings as they are read: the capacity is not checked yet. -/
structure Draft where
  capacity : Int := 5
  settings : Settings := {}

/-- Reads one field into a draft. The result is nothing for an unknown field. -/
def Draft.set? (draft : Draft) (source key : String) (value : Value) :
    Option (Except Error Draft) :=
  let settings := draft.settings
  let wrong (expected : String) : Option (Except Error Draft) :=
    some (.error (.wrongType key source expected value.typeName))
  match key, value with
  | "history_capacity", .int number => some (.ok { draft with capacity := number })
  | "history_capacity", _ => wrong "int"
  | "auto_fix", .bool flag =>
      some (.ok { draft with settings := { settings with autoFix := flag } })
  | "auto_fix", _ => wrong "bool"
  | "lint", .bool flag => some (.ok { draft with settings := { settings with lint := flag } })
  | "lint", _ => wrong "bool"
  | "deprecated_apis", value =>
      match value.entries? with
      | some entries =>
          some (.ok { draft with settings := { settings with deprecatedApis := entries } })
      | none => wrong "dict"
  | "builtin_names", .list items =>
      some (.ok { draft with settings := { settings with builtinNames := items } })
  | "builtin_names", _ => wrong "list"
  | "extensions", .list items =>
      some (.ok { draft with settings := { settings with extensions := items } })
  | "extensions", _ => wrong "list"
  | "log_level", .str text =>
      some (.ok { draft with settings := { settings with logLevel := text } })
  | "log_level", _ => wrong "str"
  | "history_file", .str text =>
      some (.ok { draft with settings := { settings with historyFile := text } })
  | "history_file", _ => wrong "str"
  | _, _ => none

/-- Reads fields in their order. Beside the draft or the first error stand the remarks on
the unknown fields met on the way; a key that is no text is always unknown. -/
def Draft.read (draft : Draft) (source : String) :
    List (Value × Value) → List String × Except Error Draft
  | [] => ([], .ok draft)
  | (key, value) :: rest =>
      match key.text?.bind (draft.set? source · value) with
      | none =>
          let (remarks, outcome) := draft.read source rest
          (s!"Ignoring unknown config key '{key.display}' in {source}" :: remarks, outcome)
      | some (.ok next) => next.read source rest
      | some (.error error) => ([], .error error)

/-- Checks the capacity of a draft. -/
def Draft.finish (draft : Draft) : Except Error Settings :=
  if positive : 0 < draft.capacity.toNat then
    .ok { draft.settings with
      historyCapacity := draft.capacity.toNat
      historyCapacity_pos := positive }
  else .error (.capacity (.int draft.capacity))

/-- Reads settings from the entries of a mapping, layered over the defaults. Beside them
stand the remarks on unknown fields. -/
def ofEntries (source : String) (entries : List (Value × Value)) :
    List String × Except Error Settings :=
  let (remarks, outcome) := Draft.read {} source entries
  (remarks, outcome.bind Draft.finish)

/-- Settings as data. -/
def toValue (settings : Settings) : Value :=
  .object [("history_capacity", .int settings.historyCapacity),
    ("auto_fix", .bool settings.autoFix), ("lint", .bool settings.lint),
    ("deprecated_apis", .ofEntries settings.deprecatedApis),
    ("builtin_names", .list settings.builtinNames), ("extensions", .list settings.extensions),
    ("log_level", .str settings.logLevel), ("history_file", .str settings.historyFile)]

end Settings

end EditGate
