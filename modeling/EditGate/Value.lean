import EditGate.Number.Shortest
import EditGate.Assoc
import EditGate.Text.Quoted

/-!
# Dynamic values

Settings, edit requests and stored histories arrive as data of any shape. A value
keeps whole and floating-point numbers apart and the fields of an object in their
order. A tuple is a list that stays as it is, so that it can be a key. A mapping whose keys
are not all texts is kept apart from the objects, and what has
no data format of its own, such as a day, is known by its kind and its text. Values are
shown in messages as literals.
-/

namespace EditGate

/-- Data of any shape. -/
inductive Value where
  | null
  | bool (flag : Bool)
  | int (number : Int)
  | float (number : Binary64)
  | str (text : String)
  | list (items : List Value)
  /-- A list that stays as it is. -/
  | tuple (items : List Value)
  | object (fields : List (String × Value))
  /-- A mapping with keys that are not all texts. -/
  | table (entries : List (Value × Value))
  /-- A mapping that is written as a list of its entries. -/
  | ordered (entries : List (Value × Value))
  /-- Something of another kind. -/
  | special (kind shown spelled : String)
deriving Inhabited

namespace Value

/-- The name of a value's type in messages. -/
def typeName : Value → String
  | null => "NoneType"
  | bool _ => "bool"
  | int _ => "int"
  | float _ => "float"
  | str _ => "str"
  | list _ => "list"
  | tuple _ => "tuple"
  | object _ | table _ => "dict"
  | ordered _ => "ordereddict"
  | special kind _ _ => kind

/-- Whether a value counts as a yes: nothing, zero and whatever is empty do not. -/
def isTruthy : Value → Bool
  | null => false
  | bool flag => flag
  | int number => number != 0
  | float number => !number.isZero
  | str text => !text.isEmpty
  | list items | tuple items => !items.isEmpty
  | object fields => !fields.isEmpty
  | table entries | ordered entries => !entries.isEmpty
  | special _ _ _ => true

/-- The field of an object. A value that is no object has no fields. -/
def field? (name : String) : Value → Option Value
  | object fields => Assoc.find? name fields
  | _ => none

/-- The entries of a mapping. A value that is no mapping has none. -/
def entries? : Value → Option (List (Value × Value))
  | object fields => some (fields.map fun (name, value) => (str name, value))
  | table entries | ordered entries => some entries
  | _ => none

/-- The text of a value that is one. -/
def text? : Value → Option String
  | str text => some text
  | _ => none

/-- What one meets in going through a value: the items of a list or tuple, the characters of a
text or the keys of a mapping. -/
def items? : Value → Option (List Value)
  | list items | tuple items => some items
  | str text => some (text.toList.map fun char => str char.toString)
  | object fields => some (fields.map fun field => str field.1)
  | table entries | ordered entries => some (entries.map Prod.fst)
  | _ => none

/-- A mapping with given entries. -/
def ofEntries (entries : List (Value × Value)) : Value :=
  match entries.mapM fun (key, value) => key.text?.map (·, value) with
  | some fields => object fields
  | none => table entries

/-- The field of an object, or nothing. -/
def fieldD (name : String) (value : Value) : Value :=
  (value.field? name).getD null

mutual

/-- A value as a literal. -/
def literal : Value → String
  | null => "None"
  | bool flag => if flag then "True" else "False"
  | int number => toString number
  | float number => number.render
  | str text => Text.quoted text
  | list items => "[" ++ ", ".intercalate (literals items) ++ "]"
  | tuple [item] => "(" ++ literal item ++ ",)"
  | tuple items => "(" ++ ", ".intercalate (literals items) ++ ")"
  | object fields => "\x7b" ++ ", ".intercalate (fieldLiterals fields) ++ "\x7d"
  | table entries => "\x7b" ++ ", ".intercalate (entryLiterals entries) ++ "\x7d"
  | ordered [] => "ordereddict()"
  | ordered entries => "ordereddict([" ++ ", ".intercalate (pairLiterals entries) ++ "])"
  | special _ _ spelled => spelled

/-- The literals of the items of a list or tuple. -/
def literals : List Value → List String
  | [] => []
  | item :: rest => literal item :: literals rest

/-- The literals of the fields of an object. -/
def fieldLiterals : List (String × Value) → List String
  | [] => []
  | (name, value) :: rest => (Text.quoted name ++ ": " ++ literal value) :: fieldLiterals rest

/-- The literals of the entries of a mapping. -/
def entryLiterals : List (Value × Value) → List String
  | [] => []
  | (key, value) :: rest => (literal key ++ ": " ++ literal value) :: entryLiterals rest

/-- The literals of entries as tuples. -/
def pairLiterals : List (Value × Value) → List String
  | [] => []
  | (key, value) :: rest =>
      ("(" ++ literal key ++ ", " ++ literal value ++ ")") :: pairLiterals rest

end

/-- A value inside a sentence: a text stands for itself, and most else is a literal. -/
def display : Value → String
  | str text => text
  | special _ shown _ => shown
  | value => value.literal

end Value

end EditGate
