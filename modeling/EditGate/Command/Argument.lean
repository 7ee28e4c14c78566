import EditGate.Text.Digit
import EditGate.Value

/-!
# Arguments

How the arguments of a command are taken apart. An argument that starts with a dash is a
flag, unless it is a lone dash, a negative number or has a space in it. A flag may be cut
short as long as only one has that beginning; its value stands behind an equals sign or in
the next argument. Flags of one letter can be written together, also behind an equals sign,
and the value of the last one follows its letter. After a double dash there are no more
flags.
-/

namespace EditGate.Command

/-- A flag that a command knows. -/
structure Flag where
  name : String
  short : Option String := none
  takesValue : Bool := false
deriving DecidableEq, Repr

/-- The ways to write a flag. -/
def Flag.spellings (flag : Flag) : List String :=
  flag.short.toList ++ [flag.name]

/-- The flag with a spelling. -/
def lookup? (flags : List Flag) (spelling : String) : Option Flag :=
  flags.find? fun flag => flag.spellings.contains spelling

/-- What an argument is taken for. -/
inductive Word where
  | plain (text : String)
  /-- The double dash. -/
  | marker
  /-- A known flag, and what is attached to it. -/
  | flag (flag : Flag) (isShort : Bool) (attached : Option String)
  | unknown
deriving DecidableEq, Repr

/-- A text without a line feed at its end. -/
def dropLineFeed (chars : List Char) : List Char :=
  if chars.getLast? = some '\n' then chars.dropLast else chars

/-- Whether a text is a negative number without a power of ten. A line feed may end it. -/
def isNegativeNumber (chars : List Char) : Bool :=
  let isDigit (char : Char) : Bool := (Text.digitValue? char).isSome
  match dropLineFeed chars with
  | '-' :: rest =>
      match rest.dropWhile isDigit with
      | [] => !rest.isEmpty
      | '.' :: fraction => !fraction.isEmpty && fraction.all isDigit
      | _ => false
  | _ => false

/-- A text up to its first equals sign, and what stands behind it. -/
def splitEquals (text : String) : String × Option String :=
  let chars := text.toList
  match chars.dropWhile (· != '=') with
  | _ :: value => (String.ofList (chars.takeWhile (· != '=')), some (String.ofList value))
  | [] => (text, none)

/-- The flags that an argument with a dash may be short for, with what is attached. -/
def guesses (flags : List Flag) (text : String) : List Word :=
  match text.toList with
  | '-' :: '-' :: _ =>
      let (beginning, attached) := splitEquals text
      flags.flatMap fun flag =>
        (flag.spellings.filter fun spelling =>
          beginning.toList.isPrefixOf spelling.toList).map fun _ => .flag flag false attached
  | dash :: letter :: rest =>
      match lookup? flags (String.ofList [dash, letter]) with
      | some flag => [.flag flag true (some (String.ofList rest))]
      | none => []
  | _ => []

/-- What an argument is taken for. The result is nothing if it may be short for several
flags. -/
def classify? (flags : List Flag) (text : String) : Option Word :=
  match text.toList with
  | '-' :: rest =>
      let isShort := rest.head? != some '-'
      match lookup? flags text, lookup? flags (splitEquals text).1 with
      | some flag, _ => some (.flag flag isShort none)
      | none, some flag => some (.flag flag isShort (splitEquals text).2)
      | none, none =>
          if rest.isEmpty then some (.plain text)
          else match guesses flags text with
            | [word] => some word
            | _ :: _ :: _ => none
            | [] =>
                if isNegativeNumber text.toList || text.toList.contains ' ' then some (.plain text)
                else some .unknown
  | _ => some (.plain text)

/-- What the arguments are taken for. -/
def classifyAll? (flags : List Flag) : List String → Option (List Word)
  | [] => some []
  | "--" :: rest => some (.marker :: rest.map .plain)
  | text :: rest => do some ((← classify? flags text) :: (← classifyAll? flags rest))

/-- One step of reading arguments. -/
inductive Step where
  | flag (name : String) (value : Option String)
  | positional (text : String)
  /-- An argument that nothing takes. -/
  | extra
deriving DecidableEq, Repr

/-- Flags of one letter that are written together, and the last one if it still awaits its
value. An unknown letter spoils them all. -/
def cluster? (flags : List Flag) : List Char → Option (List Step × Option Flag)
  | [] => some ([], none)
  | letter :: rest =>
      match lookup? flags (String.ofList ['-', letter]) with
      | none => none
      | some flag =>
          match flag.takesValue, rest with
          | true, [] => some ([], some flag)
          | true, value => some ([.flag flag.name (some (String.ofList value))], none)
          | false, rest => (cluster? flags rest).map fun (steps, awaiting) =>
              (.flag flag.name none :: steps, awaiting)

/-- The steps of a flag with what is attached to it, and the flag that still awaits its
value. A flag without a value can only have further letters attached. -/
def flagSteps? (flags : List Flag) (flag : Flag) (isShort : Bool) :
    Option String → Option (List Step × Option Flag)
  | none =>
      if flag.takesValue then some ([], some flag) else some ([.flag flag.name none], none)
  | some text =>
      if flag.takesValue then some ([.flag flag.name (some text)], none)
      else if isShort && !text.isEmpty then
        (cluster? flags text.toList).map fun (steps, awaiting) =>
          (.flag flag.name none :: steps, awaiting)
      else none

/-- The steps of reading arguments, and whether reading broke off behind them. -/
structure Reading where
  steps : List Step
  broken : Bool
deriving DecidableEq, Repr

/-- Puts steps in front. -/
def Reading.prepend (steps : List Step) (reading : Reading) : Reading :=
  { reading with steps := steps ++ reading.steps }

/-- Reads arguments, one of which may be positional. -/
def read (flags : List Flag) : (isOpen : Bool) → List Word → Reading
  | _, [] => ⟨[], false⟩
  | isOpen, .unknown :: rest => (read flags isOpen rest).prepend [.extra]
  | true, .plain text :: .marker :: rest => (read flags false rest).prepend [.positional text]
  | true, .plain text :: rest => (read flags false rest).prepend [.positional text]
  | true, .marker :: .plain text :: rest => (read flags false rest).prepend [.positional text]
  | isOpen, .plain _ :: rest => (read flags isOpen rest).prepend [.extra]
  | isOpen, .marker :: rest => (read flags isOpen rest).prepend [.extra]
  | isOpen, .flag flag isShort attached :: rest =>
      match flagSteps? flags flag isShort attached, rest with
      | none, _ => ⟨[], true⟩
      | some (steps, none), rest => (read flags isOpen rest).prepend steps
      | some (steps, some awaiting), .plain value :: rest =>
          (read flags isOpen rest).prepend (steps ++ [.flag awaiting.name (some value)])
      | some (_, some _), _ => ⟨[], true⟩

/-- The steps before the first plain argument, and that argument with all behind it. -/
structure Heading where
  steps : List Step
  broken : Bool
  rest : List String
deriving DecidableEq, Repr

/-- Puts steps in front. -/
def Heading.prepend (steps : List Step) (heading : Heading) : Heading :=
  { heading with steps := steps ++ heading.steps }

/-- Reads arguments up to the first plain one. A double dash before it is an error. -/
def readHeading (flags : List Flag) : List (String × Word) → Heading
  | [] => ⟨[], false, []⟩
  | (_, .unknown) :: rest => (readHeading flags rest).prepend [.extra]
  | (_, .marker) :: _ => ⟨[], true, []⟩
  | (text, .plain _) :: rest => ⟨[], false, text :: rest.map Prod.fst⟩
  | (_, .flag flag isShort attached) :: rest =>
      match flagSteps? flags flag isShort attached, rest with
      | none, _ => ⟨[], true, []⟩
      | some (steps, none), rest => (readHeading flags rest).prepend steps
      | some (steps, some awaiting), (_, .plain value) :: rest =>
          (readHeading flags rest).prepend (steps ++ [.flag awaiting.name (some value)])
      | some (_, some _), _ => ⟨[], true, []⟩

end EditGate.Command
