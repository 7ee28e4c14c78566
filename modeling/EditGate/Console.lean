import EditGate.Value

/-!
# Console items

What is shown to the user, as data: texts with their markup, panels, tables, JSON and
prompts. How they are drawn is not settled here.
-/

namespace EditGate.Console

/-- What stands in a panel. -/
inductive Content where
  | text (text : String)
  /-- Rows of a text, one of which is highlighted. -/
  | snippet (text : List Char) (first last highlighted : Nat)
  /-- A difference of two texts. -/
  | difference (text : String)
deriving DecidableEq, Repr

/-- One thing that is shown. -/
inductive Item where
  | text (text : String)
  | panel (content : Content) (title : Option String)
  | table (title : String) (columns : List String) (rows : List (List String))
  | json (value : Value)
  | prompt (text : String)

end EditGate.Console
