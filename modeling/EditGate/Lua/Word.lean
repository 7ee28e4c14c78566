import EditGate.Lua.Token
import EditGate.Text.Blank
import EditGate.Text.Word

/-!
# Words of a line of code

A word is a longest run of word characters. It is qualified if a point or a colon
stands right before it, as in `a.end` or `a:end`; a qualified word is a field or a
method and never a keyword.

What stands before a word tells whether an `if` there is an expression: after an
operator, an opening bracket, a comma or one of a few keywords it is, and after
`then` and `else` it is if an earlier `if` of the same line was one.
-/

namespace EditGate.Lua

/-- A word, the characters before it on its line, the nearest first, and the column of its
first character, counted from one. -/
structure Word where
  chars : List Char
  before : List Char
  column : Nat

/-- Whether a point or a colon ends the characters before a place. -/
def endsQualifier (before : List Char) : Bool :=
  match before with
  | char :: _ => char == '.' || char == ':'
  | [] => false

namespace Word

/-- Whether the word names a field or a method. -/
def isQualified (word : Word) : Bool :=
  endsQualifier word.before

/-- The block keyword that the word is. -/
def keyword? (word : Word) : Option Keyword :=
  if word.isQualified then none else Keyword.ofWord? word.chars

end Word

/-- The words of a line after the characters `before`, from a column on. -/
def wordsFrom (before : List Char) (column : Nat) (chars : List Char) : List Word :=
  match chars with
  | [] => []
  | char :: rest =>
      if Text.isWord char then
        let run := char :: rest.takeWhile Text.isWord
        ⟨run, before, column⟩ ::
          wordsFrom (run.reverse ++ before) (column + run.length) (rest.dropWhile Text.isWord)
      else wordsFrom (char :: before) (column + 1) rest
termination_by chars.length
decreasing_by
  · have := (List.dropWhile_sublist (l := rest) Text.isWord).length_le
    simp only [List.length_cons]
    omega
  · simp

/-- The words of a line. -/
def words (line : List Char) : List Word :=
  wordsFrom [] 1 line

/-- Whether one of the given words, unqualified, ends the characters before a place. -/
def endsWithWord (names : List String) (before : List Char) : Bool :=
  names.contains (String.ofList (before.takeWhile Text.isWord).reverse) &&
    !endsQualifier (before.dropWhile Text.isWord)

/-- The characters after which an expression is expected. -/
def isOperator (char : Char) : Bool :=
  "=(,\x7b[+-*/%^#<>~".toList.contains char

/-- Whether an expression is expected after the characters before a place. -/
def expectsExpression (before : List Char) : Bool :=
  let before := before.dropWhile Text.isBlank
  (match before with
    | '.' :: '.' :: _ => true
    | char :: _ => isOperator char
    | [] => false) ||
  endsWithWord ["return", "and", "or", "not", "in"] before

/-- Whether a branch of a conditional starts after the characters before a place. -/
def startsBranch (before : List Char) : Bool :=
  endsWithWord ["then", "else"] (before.dropWhile Text.isBlank)

/-- Whether an `if` is an expression, given the number of such on its line so far. -/
def isExpressionIf (before : List Char) (expressions : Nat) : Bool :=
  expectsExpression before || (0 < expressions && startsBranch before)

/-- A block keyword at a column, counted from one. -/
structure KeywordAt where
  keyword : Keyword
  column : Nat
deriving DecidableEq, Repr

/-- The block keywords among the words of a line, without each `if` that is an
expression. -/
def keywordsOf (expressions : Nat) : List Word → List KeywordAt
  | [] => []
  | word :: rest =>
      match word.keyword? with
      | none => keywordsOf expressions rest
      | some keyword =>
          if keyword = .opener .conditional ∧ isExpressionIf word.before expressions then
            keywordsOf (expressions + 1) rest
          else ⟨keyword, word.column⟩ :: keywordsOf expressions rest

/-- The block keywords of a line of code, without each `if` that is an expression. -/
def lineKeywords (line : List Char) : List KeywordAt :=
  keywordsOf 0 (words line)

end EditGate.Lua
