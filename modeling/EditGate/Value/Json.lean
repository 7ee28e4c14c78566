import EditGate.Text.Numeral
import EditGate.Value

/-!
# Writing JSON

Values as JSON text in ASCII. The compact form stands on one line, with a blank
after each comma and colon; the indented form gives every item a line of its own,
two more columns in than what holds it. A whole number with too many digits cannot be
written.
-/

namespace EditGate.Value

/-- A code unit as an escape. -/
def escapeUnit (code : Nat) : List Char :=
  '\\' :: 'u' :: Text.hex 4 code

/-- One character inside a JSON string. Characters beyond the first plane take two units. -/
def escapeChar (char : Char) : List Char :=
  if char = '"' then ['\\', '"']
  else if char = '\\' then ['\\', '\\']
  else if char = '\n' then ['\\', 'n']
  else if char = '\r' then ['\\', 'r']
  else if char = '\t' then ['\\', 't']
  else
    let code := char.toNat
    if code = 0x8 then ['\\', 'b']
    else if code = 0xc then ['\\', 'f']
    else if code < 0x20 then escapeUnit code
    else if code < 0x7f then [char]
    else if code < 0x10000 then escapeUnit code
    else escapeUnit (0xd800 + (code - 0x10000) / 0x400) ++
      escapeUnit (0xdc00 + (code - 0x10000) % 0x400)

/-- A text as a JSON string. -/
def jsonString (text : String) : List Char :=
  '"' :: text.toList.flatMap escapeChar ++ ['"']

/-- A floating-point number in JSON, which has names of its own for the infinite ones. -/
def jsonFloat : Binary64 → List Char
  | .infinite negative => if negative then "-Infinity".toList else "Infinity".toList
  | .notANumber => "NaN".toList
  | number => number.render.toList

/-- How the parts of a list or object are laid out. -/
inductive Layout where
  /-- All on one line. -/
  | compact
  /-- A line for each part, at the given depth. -/
  | indented (depth : Nat)

/-- The layout one level further in. -/
def Layout.deeper : Layout → Layout
  | compact => compact
  | indented depth => indented (depth + 1)

/-- What stands before the first part. -/
def Layout.lead : Layout → List Char
  | compact => []
  | indented depth => '\n' :: List.replicate (2 * depth) ' '

/-- What stands between two parts. -/
def Layout.separator : Layout → List Char
  | compact => [',', ' ']
  | indented depth => ',' :: (indented depth).lead

/-- The parts of a list or object between its brackets. Nothing is laid out if there are none. -/
def enclose (layout : Layout) (opening closing : Char) (parts : List (List Char)) : List Char :=
  match parts with
  | [] => [opening, closing]
  | parts =>
      opening :: layout.deeper.lead ++ layout.deeper.separator.intercalate parts ++
        layout.lead ++ [closing]

/-- A key as the name of a field. -/
def jsonName : Value → String
  | null => "null"
  | bool flag => if flag then "true" else "false"
  | float number => String.ofList (jsonFloat number)
  | key => key.display

mutual

/-- A value as JSON. What has no form of its own is written as its text. -/
def json (layout : Layout) : Value → List Char
  | null => "null".toList
  | bool flag => if flag then "true".toList else "false".toList
  | int number => (toString number).toList
  | float number => jsonFloat number
  | str text => jsonString text
  | list items | tuple items => enclose layout '[' ']' (jsonItems layout.deeper items)
  | object fields => enclose layout '\x7b' '\x7d' (jsonFields layout.deeper fields)
  | table entries | ordered entries =>
      enclose layout '\x7b' '\x7d' (jsonEntries layout.deeper entries)
  | special _ shown _ => jsonString shown

/-- The items of a list or tuple as JSON. -/
def jsonItems (layout : Layout) : List Value → List (List Char)
  | [] => []
  | item :: rest => json layout item :: jsonItems layout rest

/-- The fields of an object as JSON. -/
def jsonFields (layout : Layout) : List (String × Value) → List (List Char)
  | [] => []
  | (name, value) :: rest =>
      (jsonString name ++ ':' :: ' ' :: json layout value) :: jsonFields layout rest

/-- The entries of a mapping as JSON. -/
def jsonEntries (layout : Layout) : List (Value × Value) → List (List Char)
  | [] => []
  | (key, value) :: rest =>
      (jsonString key.jsonName ++ ':' :: ' ' :: json layout value) :: jsonEntries layout rest

end

mutual

/-- Whether every whole number of a value can be written. -/
def isWritable : Value → Bool
  | int number => Text.isWritable number
  | list items | tuple items => areWritable items
  | object fields => fieldsAreWritable fields
  | table entries | ordered entries => entriesAreWritable entries
  | null | bool _ | float _ | str _ | special _ _ _ => true

/-- Whether every whole number of the items of a list or tuple can be written. -/
def areWritable : List Value → Bool
  | [] => true
  | item :: rest => item.isWritable && areWritable rest

/-- Whether every whole number of the fields of an object can be written. -/
def fieldsAreWritable : List (String × Value) → Bool
  | [] => true
  | (_, value) :: rest => value.isWritable && fieldsAreWritable rest

/-- Whether every whole number of the entries of a mapping can be written. -/
def entriesAreWritable : List (Value × Value) → Bool
  | [] => true
  | (key, value) :: rest => key.isWritable && value.isWritable && entriesAreWritable rest

end

/-- A value as JSON on one line. -/
def toJson (value : Value) : String :=
  String.ofList (value.json .compact)

/-- A value as indented JSON. -/
def toIndentedJson (value : Value) : String :=
  String.ofList (value.json (.indented 0))

end EditGate.Value
