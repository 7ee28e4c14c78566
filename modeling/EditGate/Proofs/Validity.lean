import EditGate.Proofs.BlockBalance
import EditGate.Proofs.Buffer
import EditGate.Proofs.Reading
import EditGate.Report
import Mathlib

/-!
# Validity

A text has no errors exactly if no long bracket is open at its end and neither its blocks
nor its brackets are reported. All that the two balances report is an error; advice is
none, and a string that is cut off becomes one only on a line where a bracket is reported.
-/

namespace EditGate

/-- A finding of a severe kind is an error, escalated or not. -/
theorem Finding.isError_of_severity {finding : Finding} (severe : finding.kind.severity = .error) :
    finding.isError = true := by
  simp [isError, severity, severe]

/-! ## Advice -/

/-- What is found was recognised at some cursor. -/
theorem Lua.Cursor.exists_of_mem_findFrom {α : Type}
    {recognise : Lua.Cursor → Option (α × Lua.Cursor)} {bound : List Char} {cursor : Lua.Cursor}
    {found : α} (member : found ∈ findFrom recognise bound cursor) :
    ∃ place next, recognise place = some (found, next) := by
  induction bound generalizing cursor with
  | nil => simp [findFrom] at member
  | cons _ bound ih =>
      rw [findFrom] at member
      split at member
      · simp at member
      · split at member
        next first next recognised =>
          rcases List.mem_cons.1 member with rfl | later
          · exact ⟨cursor, next, recognised⟩
          · exact ih later
        next => exact ih member

/-- Whether a finding is advice, which is never escalated. -/
structure Finding.IsAdvice (finding : Finding) : Prop where
  kind : finding.kind ∈ [.deprecatedApi, .implicitGlobal, .namingConvention]
  plain : finding.escalated = false

theorem Finding.IsAdvice.isError_eq {finding : Finding} (isAdvice : finding.IsAdvice) :
    finding.isError = false := by
  have severity : ∀ kind ∈ [FindingKind.deprecatedApi, .implicitGlobal, .namingConvention],
      kind.severity = .warning := by
    decide
  simp [isError, Finding.severity, isAdvice.plain, severity _ isAdvice.kind]

namespace Lint

theorem kind_of_deprecatedCall? {deprecated : List (String × String)} {line : Nat}
    {cursor next : Lua.Cursor} {finding : Finding}
    (found : deprecatedCall? deprecated line cursor = some (some finding, next)) :
    finding.kind = .deprecatedApi ∧ finding.escalated = false := by
  simp only [deprecatedCall?] at found
  split at found
  · obtain ⟨entry, _, called⟩ := List.exists_of_findSome?_eq_some found
    obtain ⟨_, _, equal⟩ := Option.map_eq_some_iff.1 called
    simp only [Prod.mk.injEq] at equal
    obtain ⟨equal, -⟩ := equal
    split at equal
    · cases equal
    · cases equal
      exact ⟨rfl, rfl⟩
  · cases found

theorem kind_of_mem_deprecatedCalls {rules : Rules} {line : Nat} {code : List Line}
    {finding : Finding} (found : finding ∈ deprecatedCalls rules line code) :
    finding.kind = .deprecatedApi ∧ finding.escalated = false := by
  induction code generalizing line with
  | nil => simp [deprecatedCalls] at found
  | cons chars rest ih =>
      rw [deprecatedCalls, List.mem_append] at found
      rcases found with here | later
      · obtain ⟨entry, member, equal⟩ := List.mem_filterMap.1 here
        obtain ⟨place, next, recognised⟩ := Lua.Cursor.exists_of_mem_findFrom member
        rw [id_eq] at equal
        rw [equal] at recognised
        exact kind_of_deprecatedCall? recognised
      · exact ih later

theorem kind_of_mem_globalAssignments {line : Nat} {declared : List (List Char)}
    {code : List Line} {finding : Finding}
    (found : finding ∈ globalAssignments line declared code) :
    finding.kind = .implicitGlobal ∧ finding.escalated = false := by
  induction code generalizing line declared with
  | nil => simp [globalAssignments] at found
  | cons chars rest ih =>
      simp only [globalAssignments] at found
      split at found
      · exact ih found
      · split at found
        · exact ih found
        · rcases List.mem_cons.1 found with rfl | later
          · exact ⟨rfl, rfl⟩
          · exact ih later

theorem kind_of_mem_shadowedBuiltins {rules : Rules} {line : Nat} {code : List Line}
    {finding : Finding} (found : finding ∈ shadowedBuiltins rules line code) :
    finding.kind = .namingConvention ∧ finding.escalated = false := by
  induction code generalizing line with
  | nil => simp [shadowedBuiltins] at found
  | cons chars rest ih =>
      rw [shadowedBuiltins, List.mem_append] at found
      rcases found with here | later
      · obtain ⟨name, _, rfl⟩ := List.mem_map.1 here
        exact ⟨rfl, rfl⟩
      · exact ih later

theorem isAdvice_inspect {rules : Rules} {code : List Line} {finding : Finding}
    (found : finding ∈ inspect rules code) : finding.IsAdvice := by
  rw [inspect, Finding.sort, List.mem_mergeSort, List.mem_append, List.mem_append] at found
  rcases found with (deprecated | global) | shadowed
  · obtain ⟨kind, plain⟩ := kind_of_mem_deprecatedCalls deprecated
    exact ⟨by simp [kind], plain⟩
  · obtain ⟨kind, plain⟩ := kind_of_mem_globalAssignments global
    exact ⟨by simp [kind], plain⟩
  · obtain ⟨kind, plain⟩ := kind_of_mem_shadowedBuiltins shadowed
    exact ⟨by simp [kind], plain⟩

end Lint

/-! ## Balances -/

namespace Lua

/-- The kinds of findings about brackets. -/
def isBracketFinding (finding : Finding) : Prop :=
  finding.kind ∈ [.unexpectedCloser, .bracketMismatch, .unclosedBracket]

theorem BracketState.step_findings {state : BracketState}
    (brackets : ∀ finding ∈ state.findings, isBracketFinding finding) (bracket : Bracket)
    (position : Position) :
    ∀ finding ∈ (state.step bracket position).findings, isBracketFinding finding := by
  fun_cases step with
  | case1 => exact brackets
  | case2 => exact List.forall_mem_cons.2 ⟨.head _, brackets⟩
  | case3 => exact brackets
  | case4 => exact List.forall_mem_cons.2 ⟨.tail _ (.head _), brackets⟩

theorem readBrackets_findings {state : BracketState}
    (brackets : ∀ finding ∈ state.findings, isBracketFinding finding)
    (sequence : List (Bracket × Position)) :
    ∀ finding ∈ (readBrackets state sequence).findings, isBracketFinding finding := by
  induction sequence generalizing state with
  | nil => exact brackets
  | cons found rest ih => exact ih (state.step_findings brackets found.1 found.2)

/-- What can be reported about brackets. -/
theorem BracketAnalysis.kind_ofCode (code : List Line) :
    ∀ finding ∈ (ofCode code).findings, isBracketFinding finding := by
  intro finding found
  rcases List.mem_append.1 found with read | left
  · exact readBrackets_findings (by simp) _ finding (List.mem_reverse.1 read)
  · obtain ⟨bracket, _, rfl⟩ := List.mem_map.1 left
    exact .tail _ (.tail _ (.head _))

/-- All that is reported about brackets is an error. -/
theorem BracketAnalysis.isError_ofCode (code : List Line) :
    ∀ finding ∈ (ofCode code).findings, finding.isError := by
  intro finding found
  have severe : ∀ kind ∈ [FindingKind.unexpectedCloser, .bracketMismatch, .unclosedBracket],
      kind.severity = .error := by
    decide
  exact Finding.isError_of_severity (severe _ (kind_ofCode code finding found))

/-- What can be reported about blocks. -/
theorem BlockAnalysis.kind_ofCode (code : List Line) :
    ∀ finding ∈ (ofCode code).findings,
      finding.kind ∈ [.extraCloser, .mismatchedUntil, .unclosedBlock] := by
  intro finding found
  rcases List.mem_append.1 found with read | left
  · rcases readKeywords_findings (by simp) _ finding (List.mem_reverse.1 read) with kind | kind
    · rw [kind]
      exact .head _
    · rw [kind]
      exact .tail _ (.head _)
  · obtain ⟨block, _, rfl⟩ := List.mem_map.1 left
    exact .tail _ (.tail _ (.head _))

/-- All that is reported about blocks is an error. -/
theorem BlockAnalysis.isError_ofCode (code : List Line) :
    ∀ finding ∈ (ofCode code).findings, finding.isError := by
  intro finding found
  have severe : ∀ kind ∈ [FindingKind.extraCloser, .mismatchedUntil, .unclosedBlock],
      kind.severity = .error := by
    decide
  exact Finding.isError_of_severity (severe _ (kind_ofCode code finding found))

/-- Of what the scanner reports, only a long bracket left open is an error. -/
theorem Scan.filter_isError_findings (scan : Scan) :
    scan.findings.filter (·.isError) = [] ↔ scan.openBracket = none := by
  have strings : (openStrings 1 scan.scans).filter (·.isError) = [] := by
    rw [List.filter_eq_nil_iff]
    intro finding found
    obtain ⟨quote, position, rfl⟩ := exists_of_mem_openStrings found
    exact Bool.false_ne_true
  rw [findings, List.filter_append, strings, List.nil_append]
  cases scan.openBracket with
  | none => simp
  | some bracket => simp [Finding.isError, Finding.severity, Finding.kind, Cause.kind,
      FindingKind.severity]

end Lua

/-! ## Texts without errors -/

/-- The state in which the balance of blocks is at the end of a text. -/
def Lua.finalState (text : List Char) : Lua.BlockState :=
  Lua.readKeywords {} (Lua.readText text).keywords

namespace Analysis

open Lua

section OfText

variable (rules : Option Lint.Rules) (text : List Char)

theorem openBracket_ofText : (Scan.ofText text).openBracket = (readText text).carry :=
  readLines_carry 1 none (Line.split_ne_nil text)

theorem blocks_ofText : (ofText rules text).blocks = .ofState (finalState text) :=
  congrArg (fun sequence => BlockAnalysis.ofState (readKeywords {} sequence))
    (readLines_eq 1 none (Line.split text)).1

theorem brackets_ofText :
    (ofText rules text).brackets = .ofState (readBrackets {} (readText text).brackets) :=
  congrArg (fun sequence => BracketAnalysis.ofState (readBrackets {} sequence))
    (readLines_eq 1 none (Line.split text)).2

theorem regions_ofText :
    (ofText rules text).regions =
      (Scan.ofText text).findings.map
        (escalate (touchedLines (ofText rules text).brackets.findings)) :=
  rfl

/-- Escalating a finding changes neither what it is about nor where it is. -/
theorem cause_escalate (lines : List Nat) (finding : Finding) :
    (escalate lines finding).cause = finding.cause := by
  rw [escalate]
  split <;> rfl

theorem position_escalate (lines : List Nat) (finding : Finding) :
    (escalate lines finding).position = finding.position := by
  rw [escalate]
  split <;> rfl

/-- Where no bracket is reported, no string is escalated. -/
theorem escalate_nil : escalate [] = id := by
  funext finding
  simp [escalate]

theorem isAdvice_advice {finding : Finding} (found : finding ∈ (ofText rules text).advice) :
    finding.IsAdvice := by
  cases rules with
  | none => cases found
  | some rules => exact Lint.isAdvice_inspect found

/-- Advice is never an error. -/
theorem isError_advice {finding : Finding} (found : finding ∈ (ofText rules text).advice) :
    finding.isError = false :=
  (isAdvice_advice rules text found).isError_eq

/-- A text has no errors exactly if no long bracket is open at its end and neither its blocks
nor its brackets are reported. -/
theorem errors_ofText_eq_nil_iff :
    (ofText rules text).errors = [] ↔
      (readText text).carry = none ∧ (ofText rules text).blocks.findings = [] ∧
        (ofText rules text).brackets.findings = [] := by
  have blocks : (ofText rules text).blocks.findings.filter (·.isError) =
      (ofText rules text).blocks.findings :=
    List.filter_eq_self.2 (BlockAnalysis.isError_ofCode _)
  have brackets : (ofText rules text).brackets.findings.filter (·.isError) =
      (ofText rules text).brackets.findings :=
    List.filter_eq_self.2 (BracketAnalysis.isError_ofCode _)
  have advice : (ofText rules text).advice.filter (·.isError) = [] := by
    rw [List.filter_eq_nil_iff]
    intro finding found
    simp [isError_advice rules text found]
  have regions (balanced : (ofText rules text).brackets.findings = []) :
      (ofText rules text).regions = (Scan.ofText text).findings := by
    have untouched : touchedLines [] = [] := rfl
    rw [regions_ofText, balanced, untouched, escalate_nil, List.map_id]
  simp only [errors, findings, List.filter_append, blocks, brackets, advice,
    List.append_eq_nil_iff, and_true, and_assoc]
  constructor
  · rintro ⟨clean, balancedBlocks, balanced⟩
    rw [regions balanced, Scan.filter_isError_findings, openBracket_ofText] at clean
    exact ⟨clean, balancedBlocks, balanced⟩
  · rintro ⟨closed, balancedBlocks, balanced⟩
    rw [regions balanced, Scan.filter_isError_findings, openBracket_ofText]
    exact ⟨closed, balancedBlocks, balanced⟩

end OfText

end Analysis

end EditGate
