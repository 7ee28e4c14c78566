import EditGate.Value.Numeric

/-!
# Mappings with keys of any kind

Numbers are the same key if they have the same value, whatever their kind. Keys keep the
place and the form in which they were first written.
-/

namespace EditGate.Value

mutual

/-- Whether a value can be a key: what is made of other values cannot, except for a tuple of
keys. -/
def isKey : Value → Bool
  | list _ | object _ | table _ | ordered _ | special "set" _ _ => false
  | tuple items => areKeys items
  | _ => true

/-- Whether all of some values can be keys. -/
def areKeys : List Value → Bool
  | [] => true
  | item :: rest => isKey item && areKeys rest

end

mutual

/-- Whether two values are the same key. -/
def sameKey : Value → Value → Bool
  | null, null => true
  | str text, str other => text == other
  | tuple items, tuple others => sameKeys items others
  | special kind shown _, special kind' shown' _ => kind == kind' && shown == shown'
  | bool flag, key => sameNumber (bool flag) key
  | int number, key => sameNumber (int number) key
  | float number, key => sameNumber (float number) key
  | _, _ => false
where
  /-- Whether two values are the same number. -/
  sameNumber (left right : Value) : Bool :=
    match left.number?, right.number? with
    | some left, some right => left.same right
    | _, _ => false

/-- Whether the items of two tuples are the same keys. -/
def sameKeys : List Value → List Value → Bool
  | [], [] => true
  | key :: rest, other :: others => sameKey key other && sameKeys rest others
  | _, _ => false

end

/-- Writes a key: in its old place if it has one, else at the end. -/
def putEntry {α : Type} (key : Value) (value : α) : List (Value × α) → List (Value × α)
  | [] => [(key, value)]
  | (first, old) :: rest =>
      if first.sameKey key then (first, value) :: rest else (first, old) :: putEntry key value rest

/-- Whether a key is among those of some entries. -/
def hasKey {α : Type} (key : Value) (entries : List (Value × α)) : Bool :=
  entries.any fun entry => entry.1.sameKey key

end EditGate.Value
