import EditGate.Proofs.Cursors
import EditGate.Proofs.Verdicts
import Mathlib

/-!
# Assignments that make a name global

The rule walks through the lines with a growing list of names: those that were declared and those
that it reported itself. What it reports can be said without that list. A line makes a name global
if it starts with an assignment to the name, neither this line nor one before it declares the name,
and no line before it starts with an assignment to the name.
-/

namespace EditGate

namespace Text

/-- The code points of white space. -/
def blankCodes : List Nat :=
  List.range' 0x9 5 ++ List.range' 0x1c 5 ++ [0x85, 0xa0, 0x1680] ++ List.range' 0x2000 11 ++
    [0x2028, 0x2029, 0x202f, 0x205f, 0x3000]

theorem toNat_mem_blankCodes {char : Char} (blank : isBlank char = true) :
    char.toNat ∈ blankCodes := by
  simp only [isBlank, Bool.or_eq_true, Bool.and_eq_true, decide_eq_true_eq, beq_iff_eq] at blank
  simp only [blankCodes, List.mem_append, List.mem_range'_1, List.mem_cons, List.not_mem_nil]
  omega

/-- White space is in no word. -/
theorem isWord_of_isBlank {char : Char} (blank : isBlank char = true) : isWord char = false := by
  have none : ∀ code ∈ blankCodes, isWord (Char.ofNat code) = false := by
    decide +kernel
  simpa using none char.toNat (toNat_mem_blankCodes blank)

theorem isWord_of_isNameStart {char : Char} (starts : isNameStart char = true) :
    isWord char = true := by
  rw [isNameStart, Bool.or_eq_true, beq_iff_eq] at starts
  rcases starts with letter | rfl
  · have ascii : char.toNat < 0x80 := by
      simp only [Char.isAlpha, Char.isUpper, Char.isLower, Bool.or_eq_true, Bool.and_eq_true,
        decide_eq_true_eq, ge_iff_le, UInt32.le_iff_toNat_le] at letter
      rw [Char.toNat]
      have upper : 'Z'.val.toNat = 90 := rfl
      have lower : 'z'.val.toNat = 122 := rfl
      omega
    rw [isWord, if_pos ascii, Char.isAlphanum, letter, Bool.true_or, Bool.true_or]
  · decide

end Text

namespace Lua

/-- Whether characters start with a run of some that pass a test, and the run is as long as it can
be. -/
structure IsRun (test : Char → Bool) (taken after chars : List Char) : Prop where
  joined : chars = taken ++ after
  passes : ∀ char ∈ taken, test char
  stops : after.head?.all (!test ·)

theorem isRun_takeWhile (test : Char → Bool) (chars : List Char) :
    IsRun test (chars.takeWhile test) (chars.dropWhile test) chars where
  joined := List.takeWhile_append_dropWhile.symm
  passes _ member := List.mem_takeWhile_imp member
  stops := by
    cases dropped : chars.dropWhile test with
    | nil => rfl
    | cons char rest =>
        have := List.head_dropWhile_not test (l := chars) (by simp [dropped])
        simpa [dropped] using this

namespace IsRun

variable {test : Char → Bool} {taken after chars : List Char}

theorem takeWhile_eq (run : IsRun test taken after chars) : chars.takeWhile test = taken := by
  rw [run.joined, List.takeWhile_append_of_pos run.passes]
  cases after with
  | nil => simp
  | cons char rest =>
      have fails : test char = false := by simpa using run.stops
      simp [fails]

theorem dropWhile_eq (run : IsRun test taken after chars) : chars.dropWhile test = after := by
  have whole := run.joined
  rw [← List.takeWhile_append_dropWhile (p := test) (l := chars), run.takeWhile_eq] at whole
  exact List.append_cancel_left whole

end IsRun

namespace Cursor

variable {cursor next : Cursor}

/-- What is passed over is the longest run of characters that pass the test. -/
theorem skipWhile_eq_iff {test : Char → Bool} :
    cursor.skipWhile test = next ↔
      ∃ taken after, IsRun test taken after cursor.rest ∧
        next = ⟨taken.reverse ++ cursor.before, after, cursor.column + taken.length⟩ := by
  constructor
  · rintro rfl
    exact ⟨_, _, isRun_takeWhile test cursor.rest, rfl⟩
  · rintro ⟨taken, after, run, rfl⟩
    rw [skipWhile, run.takeWhile_eq, run.dropWhile_eq]

theorem name?_eq_some_iff {found : NameAt} :
    cursor.name? = some (found, next) ↔
      found.column = cursor.column ∧ found.name.head?.any Text.isNameStart ∧
        ∃ after, IsRun Text.isWord found.name after cursor.rest ∧
          next = ⟨found.name.reverse ++ cursor.before, after,
            cursor.column + found.name.length⟩ := by
  constructor
  · intro named
    rw [name?.eq_def] at named
    split at named
    next char rest ahead =>
      split at named
      next starts =>
        cases named
        refine ⟨rfl, ?_, _, isRun_takeWhile Text.isWord cursor.rest, rfl⟩
        simp [ahead, Text.isWord_of_isNameStart starts, starts]
      · cases named
    · cases named
  · rintro ⟨column, starts, after, run, rfl⟩
    obtain ⟨name, _⟩ := found
    obtain rfl := column
    cases name with
    | nil => cases starts
    | cons char others =>
        have first : Text.isNameStart char = true := by simpa using starts
        have moved := skipWhile_eq_iff.2 ⟨_, _, run, rfl⟩
        have ahead : cursor.rest = char :: (others ++ after) := run.joined
        rw [← moved, name?.eq_def, run.takeWhile_eq]
        simp only [ahead, first, if_true]

theorem char?_eq_some_iff {char : Char} :
    cursor.char? char = some next ↔
      ∃ after, cursor.rest = char :: after ∧
        next = ⟨char :: cursor.before, after, cursor.column + 1⟩ := by
  obtain ⟨before, rest, column⟩ := cursor
  cases rest with
  | nil => simp [char?, chars?]
  | cons first others =>
      by_cases same : char = first
      · subst same
        simp [char?, chars?, eq_comm]
      · simp [char?, chars?, same, Ne.symm same]

end Cursor

/-- Whether a line starts with an assignment to a name, with white space around the name at
most. A comparison is no assignment. -/
def NameAt.AssignedBy (line : Line) (found : NameAt) : Prop :=
  ∃ indent gap value, line = indent ++ (found.name ++ (gap ++ '=' :: value)) ∧
    found.column = 1 + indent.length ∧ (∀ char ∈ indent, Text.isBlank char) ∧
    found.name.head?.any Text.isNameStart ∧ (∀ char ∈ found.name, Text.isWord char) ∧
    (∀ char ∈ gap, Text.isBlank char) ∧ value.head? ≠ some '='

theorem not_isBlank_head {name : List Char} (starts : name.head?.any Text.isNameStart)
    (after : List Char) : (name ++ after).head?.all (!Text.isBlank ·) := by
  cases name with
  | nil => cases starts
  | cons char others =>
      have isWord : Text.isWord char = true := Text.isWord_of_isNameStart (by simpa using starts)
      cases blank : Text.isBlank char with
      | false => simp [blank]
      | true =>
          rw [Text.isWord_of_isBlank blank] at isWord
          cases isWord

theorem not_isWord_head {gap : List Char} (blank : ∀ char ∈ gap, Text.isBlank char)
    (value : List Char) : (gap ++ '=' :: value).head?.all (!Text.isWord ·) := by
  cases gap with
  | nil => exact (by decide : (!Text.isWord '=') = true)
  | cons char others =>
      simp [Text.isWord_of_isBlank (blank char List.mem_cons_self)]

theorem assignedBy_of_assignedName? {line : Line} {found : NameAt}
    (assigned : assignedName? line = some found) : found.AssignedBy line := by
  obtain ⟨⟨name, next⟩, named, assigned⟩ := Option.bind_eq_some_iff.1 assigned
  obtain ⟨behind, equals, assigned⟩ := Option.bind_eq_some_iff.1 assigned
  obtain ⟨_, single, assigned⟩ := Option.bind_eq_some_iff.1 assigned
  cases assigned
  obtain ⟨indent, body, indented, start⟩ :=
    Cursor.skipWhile_eq_iff.1 (rfl : (Cursor.start line).skipBlanks = _)
  rw [start] at named
  obtain ⟨column, starts, after, run, rfl⟩ := Cursor.name?_eq_some_iff.1 named
  obtain ⟨gap, rest, apart, place⟩ := Cursor.skipWhile_eq_iff.1 (rfl : Cursor.skipBlanks _ = _)
  rw [place] at equals
  obtain ⟨value, ahead, rfl⟩ := Cursor.char?_eq_some_iff.1 equals
  refine ⟨indent, gap, value, ?_, column, indented.passes, starts, run.passes, apart.passes, ?_⟩
  · have line_eq : line = indent ++ body := indented.joined
    have body_eq : body = found.name ++ after := run.joined
    have after_eq : after = gap ++ rest := apart.joined
    have rest_eq : rest = '=' :: value := ahead
    rw [line_eq, body_eq, after_eq, rest_eq]
  · simpa using single

theorem assignedName?_of_assignedBy {line : Line} {found : NameAt}
    (assigned : found.AssignedBy line) : assignedName? line = some found := by
  obtain ⟨indent, gap, value, rfl, column, blank, starts, isWord, gapBlank, single⟩ := assigned
  have indented : IsRun Text.isBlank indent (found.name ++ (gap ++ '=' :: value)) _ :=
    ⟨rfl, blank, not_isBlank_head starts _⟩
  have run : IsRun Text.isWord found.name (gap ++ '=' :: value) _ :=
    ⟨rfl, isWord, not_isWord_head gapBlank value⟩
  have apart : IsRun Text.isBlank gap ('=' :: value) _ :=
    ⟨rfl, gapBlank, (by decide : (!Text.isBlank '=') = true)⟩
  have start : (Cursor.start (indent ++ (found.name ++ (gap ++ '=' :: value)))).skipBlanks =
      ⟨indent.reverse ++ [], found.name ++ (gap ++ '=' :: value), 1 + indent.length⟩ :=
    Cursor.skipWhile_eq_iff.2 ⟨_, _, indented, rfl⟩
  have named : Cursor.name?
      ⟨indent.reverse ++ [], found.name ++ (gap ++ '=' :: value), 1 + indent.length⟩ =
        some (found, ⟨found.name.reverse ++ (indent.reverse ++ []), gap ++ '=' :: value,
          1 + indent.length + found.name.length⟩) :=
    Cursor.name?_eq_some_iff.2 ⟨column, starts, _, run, rfl⟩
  have spaced (before : List Char) (place : Nat) :
      (⟨before, gap ++ '=' :: value, place⟩ : Cursor).skipBlanks =
        ⟨gap.reverse ++ before, '=' :: value, place + gap.length⟩ :=
    Cursor.skipWhile_eq_iff.2 ⟨_, _, apart, rfl⟩
  have equals (before : List Char) (place : Nat) :
      (⟨before, '=' :: value, place⟩ : Cursor).char? '=' =
        some ⟨'=' :: before, value, place + 1⟩ :=
    Cursor.char?_eq_some_iff.2 ⟨_, rfl, rfl⟩
  rw [assignedName?, start, named]
  simp [spaced, equals, single]

theorem assignedName?_eq_some_iff {line : Line} {found : NameAt} :
    assignedName? line = some found ↔ found.AssignedBy line :=
  ⟨assignedBy_of_assignedName?, assignedName?_of_assignedBy⟩

end Lua

namespace Lint

open Lua

/-- Whether the line with an index makes a name global. -/
structure MakesGlobal (code : List Line) (index : Nat) (found : NameAt) : Prop where
  assigned : ∃ line, code[index]? = some line ∧ found.AssignedBy line
  notReserved : String.ofList found.name ∉ reserved
  /-- No line up to this one declares the name, -/
  undeclared : ∀ line ∈ code.take (index + 1), found.name ∉ declaredNames line
  /-- and no line before it starts with an assignment to the name. -/
  unassigned : ∀ line ∈ code.take index, ∀ other : NameAt, other.AssignedBy line →
    other.name ≠ found.name

/-- The report of a name that the line with a number makes global. -/
def globalAt (line : Nat) (found : NameAt) : Finding where
  cause := .globalAssignment (String.ofList found.name)
  position := ⟨line, found.column⟩

/-! ## One line -/

/-- The name that a line makes global behind lines that declared or assigned some names. -/
def freshName? (declared : List (List Char)) (chars : Line) : Option NameAt :=
  (assignedName? chars).filter fun found =>
    !((declaredNames chars ++ declared).contains found.name ||
      reserved.contains (String.ofList found.name))

section Line

variable {declared : List (List Char)} {chars : Line} {rest : List Line} {found : NameAt}

/-- A line is reported once at most, and what it declares or makes global is known from then on. -/
theorem globalAssignments_cons (line : Nat) (declared : List (List Char)) (chars : Line)
    (rest : List Line) :
    globalAssignments line declared (chars :: rest) =
      ((freshName? declared chars).map (globalAt line)).toList ++
        globalAssignments (line + 1)
          (((freshName? declared chars).map NameAt.name).toList ++
            (declaredNames chars ++ declared)) rest := by
  simp only [globalAssignments, freshName?]
  cases assignedName? chars with
  | none => rfl
  | some found =>
      dsimp only
      split
      next known =>
        simp only [Option.filter_some, known, Bool.not_true, Bool.false_eq_true, if_false]
        rfl
      next unknown =>
        simp only [Option.filter_some, unknown, Bool.not_false, if_true]
        rfl

theorem freshName?_eq_some_iff :
    freshName? declared chars = some found ↔
      found.AssignedBy chars ∧ String.ofList found.name ∉ reserved ∧
        found.name ∉ declaredNames chars ∧ found.name ∉ declared := by
  rw [freshName?, Option.filter_eq_some_iff, assignedName?_eq_some_iff]
  simp [and_assoc, and_comm]

/-- A name that is known behind a line is declared or assigned by it, or was known before. -/
theorem notMem_known_iff (notReserved : String.ofList found.name ∉ reserved) :
    found.name ∉ ((freshName? declared chars).map NameAt.name).toList ++
        (declaredNames chars ++ declared) ↔
      (∀ other : NameAt, other.AssignedBy chars → other.name ≠ found.name) ∧
        found.name ∉ declaredNames chars ∧ found.name ∉ declared := by
  simp only [List.mem_append, Option.mem_toList, Option.map_eq_some_iff, freshName?_eq_some_iff,
    not_or]
  refine and_congr_left ?_
  rintro ⟨undeclared, new⟩
  constructor
  · intro unknown other assigned equal
    -- the assignment would have been reported
    refine unknown ⟨other, ⟨assigned, ?_⟩, equal⟩
    rw [equal]
    exact ⟨notReserved, undeclared, new⟩
  · rintro unassigned ⟨other, ⟨assigned, _⟩, equal⟩
    exact unassigned other assigned equal

theorem makesGlobal_zero_iff :
    MakesGlobal (chars :: rest) 0 found ↔
      found.AssignedBy chars ∧ String.ofList found.name ∉ reserved ∧
        found.name ∉ declaredNames chars := by
  constructor
  · rintro ⟨⟨line, here, assigned⟩, notReserved, undeclared, _⟩
    obtain rfl := Option.some.inj here
    exact ⟨assigned, notReserved, undeclared _ List.mem_cons_self⟩
  · rintro ⟨assigned, notReserved, undeclared⟩
    exact ⟨⟨chars, rfl, assigned⟩, notReserved, by simpa using undeclared, by simp⟩

theorem makesGlobal_succ_iff {index : Nat} :
    MakesGlobal (chars :: rest) (index + 1) found ↔
      MakesGlobal rest index found ∧ found.name ∉ declaredNames chars ∧
        ∀ other : NameAt, other.AssignedBy chars → other.name ≠ found.name := by
  constructor
  · rintro ⟨assigned, notReserved, undeclared, unassigned⟩
    rw [List.take_succ_cons, List.forall_mem_cons] at undeclared unassigned
    exact ⟨⟨assigned, notReserved, undeclared.2, unassigned.2⟩, undeclared.1, unassigned.1⟩
  · rintro ⟨⟨assigned, notReserved, undeclared, unassigned⟩, fresh, first⟩
    refine ⟨assigned, notReserved, ?_, ?_⟩
    · rw [List.take_succ_cons, List.forall_mem_cons]
      exact ⟨fresh, undeclared⟩
    · rw [List.take_succ_cons, List.forall_mem_cons]
      exact ⟨first, unassigned⟩

end Line

/-! ## All lines -/

/-- What the rule reports behind lines that declared or assigned some names. -/
theorem mem_globalAssignments_iff {line : Nat} {declared : List (List Char)} {code : List Line}
    {finding : Finding} :
    finding ∈ globalAssignments line declared code ↔
      ∃ index found, MakesGlobal code index found ∧ found.name ∉ declared ∧
        finding = globalAt (line + index) found := by
  induction code generalizing line declared with
  | nil =>
      constructor
      · intro member
        cases member
      · rintro ⟨index, found, ⟨⟨_, beyond, _⟩, _, _, _⟩, _⟩
        cases beyond
  | cons chars rest ih =>
      rw [globalAssignments_cons, List.mem_append, ih, Option.mem_toList, Option.map_eq_some_iff]
      constructor
      · rintro (⟨found, fresh, rfl⟩ | ⟨index, found, later, unknown, rfl⟩)
        · obtain ⟨assigned, notReserved, undeclared, new⟩ := freshName?_eq_some_iff.1 fresh
          exact ⟨0, found, makesGlobal_zero_iff.2 ⟨assigned, notReserved, undeclared⟩, new, rfl⟩
        · obtain ⟨unassigned, undeclared, new⟩ := (notMem_known_iff later.notReserved).1 unknown
          refine ⟨index + 1, found, makesGlobal_succ_iff.2 ⟨later, undeclared, unassigned⟩, new, ?_⟩
          rw [Nat.add_right_comm, Nat.add_assoc]
      · rintro ⟨index, found, global, new, rfl⟩
        cases index with
        | zero =>
            obtain ⟨assigned, notReserved, undeclared⟩ := makesGlobal_zero_iff.1 global
            exact .inl
              ⟨found, freshName?_eq_some_iff.2 ⟨assigned, notReserved, undeclared, new⟩, rfl⟩
        | succ index =>
            obtain ⟨later, undeclared, unassigned⟩ := makesGlobal_succ_iff.1 global
            have unknown := (notMem_known_iff later.notReserved).2 ⟨unassigned, undeclared, new⟩
            refine .inr ⟨index, found, later, unknown, ?_⟩
            rw [Nat.add_right_comm, Nat.add_assoc]

/-- The reports come line by line, and no two of them are about one name. -/
theorem pairwise_globalAssignments (line : Nat) (declared : List (List Char)) (code : List Line) :
    (globalAssignments line declared code).Pairwise fun first second =>
      first.position.line < second.position.line ∧ first.cause ≠ second.cause := by
  induction code generalizing line declared with
  | nil => exact .nil
  | cons chars rest ih =>
      rw [globalAssignments_cons]
      cases freshName? declared chars with
      | none => exact ih _ _
      | some name =>
          refine List.pairwise_cons.2 ⟨?_, ih _ _⟩
          intro finding later
          obtain ⟨index, found, _, unknown, rfl⟩ := mem_globalAssignments_iff.1 later
          constructor
          · simp only [globalAt]
            omega
          · intro same
            have equal : name.name = found.name :=
              String.ofList_injective (Cause.globalAssignment.inj same)
            exact unknown (equal ▸ List.mem_cons_self)

theorem filter_kind_eq_nil {findings : List Finding} {kind other : FindingKind}
    (ofKind : ∀ finding ∈ findings, finding.kind = kind ∧ finding.escalated = false)
    (different : kind ≠ other) : findings.filter (·.kind = other) = [] := by
  rw [List.filter_eq_nil_iff]
  intro finding member
  simpa [(ofKind finding member).1] using different

/-- Of all advice, the names that are made global are what this rule reports. -/
theorem filter_inspect_implicitGlobal (rules : Rules) (code : List Line) :
    (inspect rules code).filter (·.kind = .implicitGlobal) = globalAssignments 1 [] code := by
  have deprecated : (deprecatedCalls rules 1 code).filter (·.kind = .implicitGlobal) = [] :=
    filter_kind_eq_nil (fun _ => kind_of_mem_deprecatedCalls) (by decide)
  have shadowed : (shadowedBuiltins rules 1 code).filter (·.kind = .implicitGlobal) = [] :=
    filter_kind_eq_nil (fun _ => kind_of_mem_shadowedBuiltins) (by decide)
  have global : (globalAssignments 1 [] code).filter (·.kind = .implicitGlobal) =
      globalAssignments 1 [] code := by
    rw [List.filter_eq_self]
    intro finding member
    simp [(kind_of_mem_globalAssignments member).1]
  rw [inspect, Finding.filter_sort_eq_sort_filter, List.filter_append, List.filter_append,
    deprecated, global, shadowed, List.nil_append, List.append_nil]
  exact Finding.sort_eq_self
    ((pairwise_globalAssignments 1 [] code).imp fun before => .inl before.1)

/-- The account of the names that are made global: the rule reports the names that a line makes
global, each at that line and at the column of the name, and no name twice. -/
theorem globalAssignments_account (rules : Rules) (code : List Line) :
    (inspect rules code).filter (·.kind = .implicitGlobal) = globalAssignments 1 [] code ∧
    (∀ finding, finding ∈ globalAssignments 1 [] code ↔
      ∃ index found, MakesGlobal code index found ∧ finding = globalAt (index + 1) found) ∧
    (globalAssignments 1 [] code).Pairwise fun first second =>
      first.position.line < second.position.line ∧ first.cause ≠ second.cause := by
  refine ⟨filter_inspect_implicitGlobal rules code, ?_, pairwise_globalAssignments 1 [] code⟩
  intro finding
  simp only [mem_globalAssignments_iff, List.not_mem_nil, not_false_eq_true, true_and,
    Nat.add_comm 1]

-- A declaration counts from the start of its line on, and the second assignment is passed over.
example : globalAssignments 1 [] ["x = 1 local x".toList, "\ty = x".toList, "y = 2".toList] =
    [globalAt 2 ⟨['y'], 2⟩] := by
  decide +kernel

end Lint

end EditGate
