import EditGate.Proofs.Places
import Mathlib

/-!
# Verdicts

A report puts together what four analyses find. It is a stable sort of their findings: none is
lost or added, and those at one place stay in the order of the analyses. Only a string that is cut
off may change its severity on the way. It does so exactly on the lines that a finding about
brackets points at, with its own place or with that of the bracket it met.
-/

namespace EditGate

/-! ## The order of findings -/

/-- The order of places in a text, in which a place is also before itself. -/
instance Position.instLE : LE Position where
  le first second :=
    first.line < second.line ∨ first.line = second.line ∧ first.column ≤ second.column

theorem Position.le_def {first second : Position} :
    first ≤ second ↔
      first.line < second.line ∨ first.line = second.line ∧ first.column ≤ second.column :=
  Iff.rfl

theorem Position.le_antisymm {first second : Position} (left : first ≤ second)
    (right : second ≤ first) : first = second := by
  obtain ⟨line, column⟩ := first
  obtain ⟨otherLine, otherColumn⟩ := second
  simp only [Position.le_def, Position.mk.injEq] at *
  omega

namespace Finding

theorem notAfter_iff {first second : Finding} :
    first.notAfter second = true ↔ first.position ≤ second.position := by
  simp [notAfter, Position.le_def]

theorem notAfter_trans (first second third : Finding) (left : first.notAfter second = true)
    (right : second.notAfter third = true) : first.notAfter third = true := by
  simp only [notAfter_iff, Position.le_def] at *
  omega

theorem notAfter_total (first second : Finding) :
    (first.notAfter second || second.notAfter first) = true := by
  simp only [Bool.or_eq_true, notAfter_iff, Position.le_def]
  omega

theorem pairwise_sort (findings : List Finding) :
    (sort findings).Pairwise fun first second => first.position ≤ second.position :=
  (List.pairwise_mergeSort notAfter_trans notAfter_total findings).imp notAfter_iff.1

theorem sort_perm (findings : List Finding) : (sort findings).Perm findings :=
  List.mergeSort_perm findings notAfter

/-- Findings at one place stay in their order. -/
theorem filter_sort (findings : List Finding) (position : Position) :
    (sort findings).filter (·.position = position) = findings.filter (·.position = position) := by
  have together : (findings.filter (·.position = position)).Pairwise (notAfter · ·) := by
    refine List.pairwise_of_forall_mem_list ?_
    intro first inFirst second inSecond
    have here := of_decide_eq_true (List.mem_filter.1 inFirst).2
    have there := of_decide_eq_true (List.mem_filter.1 inSecond).2
    rw [notAfter_iff, here, there]
    exact .inr ⟨rfl, le_rfl⟩
  -- The sort keeps them as a sublist, and it has no more of them.
  have kept : (findings.filter (·.position = position)).Sublist
      ((sort findings).filter (·.position = position)) := by
    have within : (findings.filter (·.position = position)).Sublist (sort findings) :=
      List.sublist_mergeSort notAfter_trans notAfter_total together List.filter_sublist
    simpa only [List.filter_filter, Bool.and_self] using within.filter (·.position = position)
  exact (kept.eq_of_length ((sort_perm findings).filter _).length_eq.symm).symm

theorem head_position_le {finding other : Finding} {rest : List Finding}
    (inOrder : (finding :: rest).Pairwise fun first second => first.position ≤ second.position)
    (member : other ∈ finding :: rest) : finding.position ≤ other.position := by
  rcases List.mem_cons.1 member with rfl | behind
  · exact .inr ⟨rfl, le_rfl⟩
  · exact List.rel_of_pairwise_cons inOrder behind

/-- A list in order is made up of what it has at each place. -/
theorem eq_of_filter_position_eq {findings others : List Finding}
    (inOrder : findings.Pairwise fun first second => first.position ≤ second.position)
    (othersInOrder : others.Pairwise fun first second => first.position ≤ second.position)
    (same : ∀ position,
      findings.filter (·.position = position) = others.filter (·.position = position)) :
    findings = others := by
  induction findings generalizing others with
  | nil =>
      cases others with
      | nil => rfl
      | cons other rest => simpa using same other.position
  | cons finding rest ih =>
      have mem_iff (found : Finding) : found ∈ finding :: rest ↔ found ∈ others := by
        simpa using congrArg (found ∈ ·) (same found.position)
      cases others with
      | nil => exact absurd ((mem_iff finding).1 List.mem_cons_self) List.not_mem_nil
      | cons other behind =>
          -- Each head is in the other list, so they are at one place and the first ones there.
          have together : other.position = finding.position :=
            Position.le_antisymm
              (head_position_le othersInOrder ((mem_iff finding).1 List.mem_cons_self))
              (head_position_le inOrder ((mem_iff other).2 List.mem_cons_self))
          have heads := same finding.position
          rw [List.filter_cons_of_pos (by simp),
            List.filter_cons_of_pos (by simp [together])] at heads
          obtain rfl := (List.cons.inj heads).1
          refine congrArg (finding :: ·) (ih inOrder.of_cons othersInOrder.of_cons ?_)
          intro position
          have tails := same position
          rw [List.filter_cons, List.filter_cons] at tails
          split at tails
          · exact (List.cons.inj tails).2
          · exact tails

/-- A stable sort may as well come after a choice among the findings. -/
theorem filter_sort_eq_sort_filter (findings : List Finding) (keep : Finding → Bool) :
    (sort findings).filter keep = sort (findings.filter keep) := by
  refine eq_of_filter_position_eq ((pairwise_sort findings).filter keep) (pairwise_sort _) ?_
  intro position
  rw [List.filter_comm, filter_sort, filter_sort, List.filter_comm]

theorem sort_eq_self {findings : List Finding}
    (inOrder : findings.Pairwise fun first second => first.position ≤ second.position) :
    sort findings = findings :=
  List.mergeSort_of_pairwise (inOrder.imp notAfter_iff.2)

/-! ## Escalation -/

/-- A finding as it was before any escalation. -/
def asFound (finding : Finding) : Finding :=
  { finding with escalated := false }

theorem asFound_eq_self {finding : Finding} (plain : finding.escalated = false) :
    finding.asFound = finding := by
  obtain ⟨cause, position, escalated⟩ := finding
  cases plain
  rfl

theorem map_asFound_eq_self {findings : List Finding}
    (plain : ∀ finding ∈ findings, finding.escalated = false) : findings.map asFound = findings :=
  (List.map_congr_left fun finding member => asFound_eq_self (plain finding member)).trans
    (List.map_id findings)

/-- Whether a finding is one that is never escalated. -/
structure IsFixed (finding : Finding) : Prop where
  kind : finding.kind ≠ .unterminatedString
  plain : finding.escalated = false

theorem IsAdvice.isFixed {finding : Finding} (isAdvice : finding.IsAdvice) : finding.IsFixed :=
  ⟨ne_of_mem_of_not_mem isAdvice.kind (by decide), isAdvice.plain⟩

end Finding

namespace Lua

variable {code : List Line} {finding : Finding}

theorem BlockAnalysis.isFixed_of_mem_findings (member : finding ∈ (ofCode code).findings) :
    finding.IsFixed :=
  ⟨ne_of_mem_of_not_mem (kind_ofCode code finding member) (by decide),
    (drawn_of_mem_findings member).1⟩

theorem BracketAnalysis.isFixed_of_mem_findings (member : finding ∈ (ofCode code).findings) :
    finding.IsFixed :=
  ⟨ne_of_mem_of_not_mem (kind_ofCode code finding member) (by decide),
    (drawn_of_mem_findings member).1⟩

/-- The scanner escalates nothing. -/
theorem Scan.plain_of_mem_findings {scan : Scan} (member : finding ∈ scan.findings) :
    finding.escalated = false := by
  rcases List.mem_append.1 member with cutOff | left
  · obtain ⟨quote, position, rfl⟩ := exists_of_mem_openStrings cutOff
    rfl
  · split at left
    · rw [List.mem_singleton] at left
      rw [left]
    · cases left

end Lua

namespace Analysis

open Lua

theorem asFound_escalate (lines : List Nat) (finding : Finding) :
    (escalate lines finding).asFound = finding.asFound := by
  rw [escalate]
  split <;> rfl

theorem escalate_eq_self {finding : Finding} (lines : List Nat)
    (kind : finding.kind ≠ .unterminatedString) : escalate lines finding = finding :=
  if_neg fun escalates => kind escalates.1

/-- A string that is cut off becomes an error on just the lines in question. -/
theorem isError_escalate_iff {lines : List Nat} {finding : Finding}
    (kind : finding.kind = .unterminatedString) (plain : finding.escalated = false) :
    (escalate lines finding).isError = true ↔ finding.position.line ∈ lines := by
  by_cases touched : finding.position.line ∈ lines
  · simp [escalate, kind, touched, Finding.isError, Finding.severity]
  · simp [escalate, touched, Finding.isError, Finding.severity, plain, kind, FindingKind.severity]

/-- The lines in question are those of both places of the findings. -/
theorem mem_touchedLines_iff {findings : List Finding} {line : Nat} :
    line ∈ touchedLines findings ↔ ∃ finding ∈ findings, finding.position.line = line ∨
      ∃ other ∈ finding.cause.related, other.line = line := by
  simp only [touchedLines, List.mem_append, List.mem_map, List.mem_filterMap,
    Option.map_eq_some_iff, Option.mem_def, and_or_left, exists_or]

section OfText

variable {rules : Option Lint.Rules} {text : List Char} {finding : Finding}

theorem advice_ofText (rules : Option Lint.Rules) (text : List Char) :
    (ofText rules text).advice = rules.elim [] (Lint.inspect · (Scan.ofText text).code) := by
  cases rules with
  | none => rfl
  | some rules => rfl

/-- Escalation aside, the findings are those of the analyses one after the other. -/
theorem map_asFound_findings (rules : Option Lint.Rules) (text : List Char) :
    (ofText rules text).findings.map Finding.asFound =
      (Scan.ofText text).findings ++ (BlockAnalysis.ofCode (Scan.ofText text).code).findings ++
        (BracketAnalysis.ofCode (Scan.ofText text).code).findings ++
        rules.elim [] (Lint.inspect · (Scan.ofText text).code) := by
  have regions : (ofText rules text).regions.map Finding.asFound = (Scan.ofText text).findings := by
    rw [regions_ofText, List.map_map]
    refine Eq.trans (List.map_congr_left ?_)
      (Finding.map_asFound_eq_self fun finding => Scan.plain_of_mem_findings)
    intro finding _
    exact asFound_escalate _ finding
  have blocks : (ofText rules text).blocks.findings.map Finding.asFound =
      (BlockAnalysis.ofCode (Scan.ofText text).code).findings :=
    Finding.map_asFound_eq_self fun finding member =>
      (BlockAnalysis.isFixed_of_mem_findings member).plain
  have brackets : (ofText rules text).brackets.findings.map Finding.asFound =
      (BracketAnalysis.ofCode (Scan.ofText text).code).findings :=
    Finding.map_asFound_eq_self fun finding member =>
      (BracketAnalysis.isFixed_of_mem_findings member).plain
  have advice := Finding.map_asFound_eq_self fun finding
    (member : finding ∈ (ofText rules text).advice) => (isAdvice_advice rules text member).plain
  rw [findings, List.map_append, List.map_append, List.map_append, regions, blocks, brackets,
    advice, advice_ofText]

/-- What becomes of a finding depends only on how it was found. -/
theorem escalate_asFound (member : finding ∈ (ofText rules text).findings) :
    escalate (touchedLines (ofText rules text).brackets.findings) finding.asFound = finding := by
  have fixed (isFixed : finding.IsFixed) :
      escalate (touchedLines (ofText rules text).brackets.findings) finding.asFound = finding := by
    rw [Finding.asFound_eq_self isFixed.plain, escalate_eq_self _ isFixed.kind]
  simp only [findings, List.mem_append] at member
  rcases member with ((region | block) | bracket) | advice
  · obtain ⟨found, inScan, rfl⟩ := List.mem_map.1 region
    rw [asFound_escalate, Finding.asFound_eq_self (Scan.plain_of_mem_findings inScan)]
    rfl
  · exact fixed (BlockAnalysis.isFixed_of_mem_findings block)
  · exact fixed (BracketAnalysis.isFixed_of_mem_findings bracket)
  · exact fixed (isAdvice_advice rules text advice).isFixed

/-- What the scanner finds is reported, perhaps escalated. -/
theorem escalate_mem_findings (rules : Option Lint.Rules)
    (member : finding ∈ (Scan.ofText text).findings) :
    escalate (touchedLines (BracketAnalysis.ofCode (Scan.ofText text).code).findings) finding ∈
      (ofText rules text).findings := by
  simp only [findings, List.mem_append]
  exact .inl (.inl (.inl (List.mem_map_of_mem member)))

end OfText

end Analysis

/-! ## The account -/

/-- Whether findings are in the order of the text, and at one place in the order in which they
were found. -/
structure Finding.Arranged (found findings : List Finding) : Prop where
  inOrder : findings.Pairwise fun first second => first.position ≤ second.position
  ties : ∀ position,
    ((findings.filter (·.position = position)).map asFound).Sublist found

theorem Finding.arranged_sort_filter (findings : List Finding) (wanted : Finding → Bool) :
    Arranged (findings.map asFound) (sort (findings.filter wanted)) := by
  refine ⟨pairwise_sort _, ?_⟩
  intro position
  rw [filter_sort]
  exact (List.filter_sublist.trans List.filter_sublist).map asFound

namespace Report

open Lua

/-- What a report makes of the findings about strings and long brackets, blocks, brackets, and of
the advice. -/
structure Gathers (regions blocks brackets advice : List Finding) (report : Report) : Prop where
  /-- Escalation aside, nothing is lost and nothing is added, -/
  perm : ((report.errors ++ report.warnings).map Finding.asFound).Perm
    (regions ++ blocks ++ brackets ++ advice)
  /-- and nothing is both an error and a warning. -/
  disjoint : (report.errors.map Finding.asFound).Disjoint (report.warnings.map Finding.asFound)
  errors_arranged : Finding.Arranged (regions ++ blocks ++ brackets ++ advice) report.errors
  warnings_arranged : Finding.Arranged (regions ++ blocks ++ brackets ++ advice) report.warnings
  valid_iff : report.valid = true ↔ report.errors = []
  block_mem : ∀ finding ∈ blocks, finding ∈ report.errors
  bracket_mem : ∀ finding ∈ brackets, finding ∈ report.errors
  longBracket_mem : ∀ finding ∈ regions, finding.kind = .unterminatedLongBracket →
    finding ∈ report.errors
  advice_mem : ∀ finding ∈ advice, finding ∈ report.warnings
  /-- A string that is cut off is an error exactly if a finding about brackets has one of its places
  on the same line. -/
  string_mem_iff : ∀ finding ∈ regions, finding.kind = .unterminatedString →
    (finding ∈ report.errors.map Finding.asFound ↔
      ∃ bracket ∈ brackets, bracket.position.line = finding.position.line ∨
        ∃ other ∈ bracket.cause.related, other.line = finding.position.line)

variable {policy : Policy} {text : List Char} {finding : Finding}

theorem perm_findings (policy : Policy) (text : List Char) :
    ((ofText policy text).errors ++ (ofText policy text).warnings).Perm
      (Analysis.ofText policy.rules text).findings :=
  ((Finding.sort_perm _).append (Finding.sort_perm _)).trans (List.filter_append_perm _ _)

/-- A finding that is reported as an error is not reported as a warning elsewhere. -/
theorem disjoint_asFound (policy : Policy) (text : List Char) :
    ((ofText policy text).errors.map Finding.asFound).Disjoint
      ((ofText policy text).warnings.map Finding.asFound) := by
  intro found inErrors inWarnings
  obtain ⟨error, isError, rfl⟩ := List.mem_map.1 inErrors
  obtain ⟨warning, isWarning, same⟩ := List.mem_map.1 inWarnings
  rw [mem_errors_iff] at isError
  rw [mem_warnings_iff] at isWarning
  have equal : warning = error := by
    rw [← Analysis.escalate_asFound isWarning.1, same, Analysis.escalate_asFound isError.1]
  rw [equal, isError.2] at isWarning
  exact Bool.false_ne_true isWarning.2

/-- A string that is cut off is an error exactly if its line is touched by a finding about
brackets. -/
theorem mem_map_asFound_errors_iff (member : finding ∈ (Scan.ofText text).findings)
    (kind : finding.kind = .unterminatedString) :
    finding ∈ (ofText policy text).errors.map Finding.asFound ↔
      finding.position.line ∈
        Analysis.touchedLines (BracketAnalysis.ofCode (Scan.ofText text).code).findings := by
  have plain := Scan.plain_of_mem_findings member
  rw [← Analysis.isError_escalate_iff kind plain, List.mem_map]
  constructor
  · rintro ⟨error, reported, rfl⟩
    rw [mem_errors_iff] at reported
    exact (congrArg Finding.isError (Analysis.escalate_asFound reported.1)).trans reported.2
  · intro isError
    refine ⟨_, mem_errors_iff.2 ⟨Analysis.escalate_mem_findings _ member, isError⟩, ?_⟩
    rw [Analysis.asFound_escalate, Finding.asFound_eq_self plain]

-- The bracket on the second line meets one that stands on the line of the string.
example : ({ cause := .openString '\'', position := ⟨1, 6⟩, escalated := true } : Finding) ∈
    (Analysis.ofText none "f(x, 'a\n]".toList).errors := by
  decide +kernel

/-- A report is made of just what the analyses find. -/
theorem gathers_findings (policy : Policy) (text : List Char) :
    (ofText policy text).Gathers (Scan.ofText text).findings
      (BlockAnalysis.ofCode (Scan.ofText text).code).findings
      (BracketAnalysis.ofCode (Scan.ofText text).code).findings
      (policy.rules.elim [] (Lint.inspect · (Scan.ofText text).code)) where
  perm := by
    rw [← Analysis.map_asFound_findings]
    exact (perm_findings policy text).map Finding.asFound
  disjoint := disjoint_asFound policy text
  errors_arranged := by
    rw [← Analysis.map_asFound_findings]
    exact Finding.arranged_sort_filter _ _
  warnings_arranged := by
    rw [← Analysis.map_asFound_findings]
    exact Finding.arranged_sort_filter _ _
  valid_iff := List.isEmpty_iff
  block_mem finding member := by
    refine mem_errors_iff.2 ⟨?_, BlockAnalysis.isError_ofCode _ finding member⟩
    exact List.mem_append_left _ (List.mem_append_left _ (List.mem_append_right _ member))
  bracket_mem finding member := by
    refine mem_errors_iff.2 ⟨?_, BracketAnalysis.isError_ofCode _ finding member⟩
    exact List.mem_append_left _ (List.mem_append_right _ member)
  longBracket_mem finding member kind := by
    have severe : finding.isError = true := Finding.isError_of_severity (by rw [kind]; rfl)
    have reported := Analysis.escalate_mem_findings policy.rules member
    rw [Analysis.escalate_eq_self _ (by rw [kind]; decide)] at reported
    exact mem_errors_iff.2 ⟨reported, severe⟩
  advice_mem finding member := by
    rw [← Analysis.advice_ofText] at member
    refine mem_warnings_iff.2 ⟨List.mem_append_right _ member, ?_⟩
    rw [Analysis.isError_advice policy.rules text member, Bool.not_false]
  string_mem_iff finding member kind := by
    rw [mem_map_asFound_errors_iff member kind, Analysis.mem_touchedLines_iff]

end Report

end EditGate
