import EditGate.Proofs.Verdicts
import Mathlib

/-!
# What advice depends on, and what depends on it

Of the deprecated functions that are called at a place, the one with the longest name is found. Two
names of one length that stand at one place are the same, so the order in which the functions are
listed does not matter.

Nothing but the warnings of a report depends on advice. No advice is an error, so the verdict, the
errors and the repair are what they are without it, and taking the advice out of the warnings
leaves the others as they were.
-/

namespace EditGate

theorem Value.eq_str_of_text? {value : Value} {text : String} (isText : value.text? = some text) :
    value = .str text := by
  cases value <;> cases isText
  rfl

namespace Lint

open Lua

/-! ## The longest name -/

/-- Whether an entry has the longest name of all that are called at a cursor, where `next` is
behind the call. -/
structure LongestCall (entries : List (String × String)) (cursor next : Cursor)
    (entry : String × String) : Prop where
  mem : entry ∈ entries
  called : call? entry.1 cursor = some next
  longest : ∀ other ∈ entries, (call? other.1 cursor).isSome → other.1.length ≤ entry.1.length

theorem prefix_of_call? {name : String} {cursor : Cursor} (called : (call? name cursor).isSome) :
    name.toList <+: cursor.rest := by
  obtain ⟨next, called⟩ := Option.isSome_iff_exists.1 called
  obtain ⟨behind, spelled, _⟩ := Option.bind_eq_some_iff.1 called
  exact Cursor.prefix_of_chars? spelled

/-- At one place there is one name of each length. -/
theorem eq_of_call? {name other : String} {cursor : Cursor} (called : (call? name cursor).isSome)
    (otherCalled : (call? other cursor).isSome) (same : name.length = other.length) :
    name = other := by
  rw [← String.length_toList, ← String.length_toList] at same
  have within := List.prefix_of_prefix_length_le (prefix_of_call? called)
    (prefix_of_call? otherCalled) same.le
  exact String.toList_inj.1 (within.eq_of_length same)

theorem longestFirst_perm (entries : List (String × String)) :
    (longestFirst entries).Perm entries :=
  List.mergeSort_perm _ _

theorem pairwise_longestFirst (entries : List (String × String)) :
    (longestFirst entries).Pairwise fun first second => second.1.length ≤ first.1.length := by
  refine (List.pairwise_mergeSort ?_ ?_ entries).imp of_decide_eq_true
  · intro first second third left right
    simp only [decide_eq_true_eq] at *
    omega
  · intro first second
    simp only [Bool.or_eq_true, decide_eq_true_eq]
    omega

namespace LongestCall

variable {entries others : List (String × String)} {cursor next : Cursor}
  {entry other : String × String}

theorem perm (longest : LongestCall entries cursor next entry) (reordered : entries.Perm others) :
    LongestCall others cursor next entry where
  mem := reordered.mem_iff.1 longest.mem
  called := longest.called
  longest other member := longest.longest other (reordered.mem_iff.2 member)

/-- If no two entries share a name, there is one with the longest name at most. -/
theorem unique {behind : Cursor} (distinct : (entries.map Prod.fst).Nodup)
    (longest : LongestCall entries cursor next entry)
    (otherLongest : LongestCall entries cursor behind other) : entry = other := by
  have called : (call? entry.1 cursor).isSome := Option.isSome_of_eq_some longest.called
  have otherCalled : (call? other.1 cursor).isSome := Option.isSome_of_eq_some otherLongest.called
  have same : entry.1.length = other.1.length :=
    Nat.le_antisymm (otherLongest.longest entry longest.mem called)
      (longest.longest other otherLongest.mem otherCalled)
  exact List.inj_on_of_nodup_map distinct longest.mem otherLongest.mem
    (eq_of_call? called otherCalled same)

end LongestCall

/-- Where longer names come first, the first one that is called is the longest. -/
theorem longestCall_of_findSome? {β : Type} {entries : List (String × String)} {cursor : Cursor}
    {yield : String × String → Cursor → β} {found : β}
    (first : (longestFirst entries).findSome?
      (fun entry => (call? entry.1 cursor).map (yield entry)) = some found) :
    ∃ entry next, LongestCall entries cursor next entry ∧ found = yield entry next := by
  obtain ⟨before, entry, after, split, yields, skipped⟩ := List.findSome?_eq_some_iff.1 first
  obtain ⟨next, called, rfl⟩ := Option.map_eq_some_iff.1 yields
  have mem_iff (other : String × String) :
      other ∈ entries ↔ other ∈ before ++ entry :: after := by
    rw [← split]
    exact (longestFirst_perm entries).mem_iff.symm
  refine ⟨entry, next, ⟨(mem_iff entry).2 (by simp), called, ?_⟩, rfl⟩
  intro other member otherCalled
  have inOrder := split ▸ pairwise_longestFirst entries
  rcases List.mem_append.1 ((mem_iff other).1 member) with earlier | later
  · have none := Option.map_eq_none_iff.1 (skipped other earlier)
    rw [none] at otherCalled
    cases otherCalled
  · rcases List.mem_cons.1 later with rfl | behind
    · exact le_rfl
    · exact List.rel_of_pairwise_cons (List.pairwise_append.1 inOrder).2.1 behind

/-- What is reported of a call of a deprecated function, and the place behind the call. -/
def callFinding (line : Nat) (cursor : Cursor) (entry : String × String) (next : Cursor) :
    Option Finding × Cursor :=
  (if definesName cursor then none
    else some {
      cause := .deprecatedCall entry.1 entry.2
      position := ⟨line, cursor.column⟩ }, next)

/-- A call is found exactly for the longest name. -/
theorem deprecatedCall?_longestFirst_eq_some_iff {entries : List (String × String)}
    (distinct : (entries.map Prod.fst).Nodup) {line : Nat} {cursor : Cursor}
    {found : Option Finding × Cursor} :
    deprecatedCall? (longestFirst entries) line cursor = some found ↔
      atCall cursor ∧ ∃ entry next, LongestCall entries cursor next entry ∧
        found = callFinding line cursor entry next := by
  have unfolded : deprecatedCall? (longestFirst entries) line cursor =
      if atCall cursor then (longestFirst entries).findSome? fun entry =>
        (call? entry.1 cursor).map (callFinding line cursor entry) else none :=
    rfl
  rw [unfolded]
  constructor
  · intro first
    split at first
    next starts => exact ⟨starts, longestCall_of_findSome? first⟩
    · cases first
  · rintro ⟨starts, entry, next, longest, rfl⟩
    rw [if_pos starts]
    have called : ((longestFirst entries).findSome? fun entry =>
        (call? entry.1 cursor).map (callFinding line cursor entry)).isSome := by
      refine List.findSome?_isSome_iff.2 ⟨entry, ?_, ?_⟩
      · exact (longestFirst_perm entries).mem_iff.2 longest.mem
      · rw [longest.called]
        rfl
    obtain ⟨found, first⟩ := Option.isSome_iff_exists.1 called
    obtain ⟨other, behind, otherLongest, rfl⟩ := longestCall_of_findSome? first
    obtain rfl := longest.unique distinct otherLongest
    obtain rfl := Option.some.inj (longest.called.symm.trans otherLongest.called)
    exact first

/-! ## The order of the functions -/

section Reordered

variable {entries others : List (String × String)} (distinct : (entries.map Prod.fst).Nodup)
  (reordered : entries.Perm others)

include distinct reordered

theorem deprecatedCall?_reordered (line : Nat) :
    deprecatedCall? (longestFirst entries) line = deprecatedCall? (longestFirst others) line := by
  have otherDistinct : (others.map Prod.fst).Nodup := (reordered.map Prod.fst).nodup_iff.1 distinct
  funext cursor
  refine Option.ext fun found => ?_
  rw [deprecatedCall?_longestFirst_eq_some_iff distinct,
    deprecatedCall?_longestFirst_eq_some_iff otherDistinct]
  constructor
  · rintro ⟨starts, entry, next, longest, rfl⟩
    exact ⟨starts, entry, next, longest.perm reordered, rfl⟩
  · rintro ⟨starts, entry, next, longest, rfl⟩
    exact ⟨starts, entry, next, longest.perm reordered.symm, rfl⟩

theorem deprecatedCalls_reordered (builtins otherBuiltins : List String) (line : Nat)
    (code : List Line) :
    deprecatedCalls ⟨longestFirst entries, builtins⟩ line code =
      deprecatedCalls ⟨longestFirst others, otherBuiltins⟩ line code := by
  induction code generalizing line with
  | nil => rfl
  | cons chars rest ih =>
      simp only [deprecatedCalls, deprecatedCall?_reordered distinct reordered line, ih]

end Reordered

/-- The standard names are looked up and nothing else is done with them. -/
theorem shadowedBuiltins_congr {rules others : Rules}
    (same : ∀ name, name ∈ rules.builtins ↔ name ∈ others.builtins) (line : Nat)
    (code : List Line) : shadowedBuiltins rules line code = shadowedBuiltins others line code := by
  have found (name : String) : rules.builtins.contains name = others.builtins.contains name := by
    rw [Bool.eq_iff_iff, List.contains_iff_mem, List.contains_iff_mem, same]
  induction code generalizing line with
  | nil => rfl
  | cons chars rest ih => simp only [shadowedBuiltins, found, ih]

/-- The text of a deprecated function's entry, where the name is one. -/
def entryTexts (entry : Value × Value) : String × String :=
  (entry.1.text?.getD "", entry.2.display)

theorem mapM_entryTexts {entries : List (Value × Value)}
    (named : ∀ entry ∈ entries, entry.1.text?.isSome) :
    entries.mapM (fun (name, replacement) => name.text?.map (·, replacement.display)) =
      some (entries.map entryTexts) := by
  induction entries with
  | nil => rfl
  | cons entry rest ih =>
      rw [List.forall_mem_cons] at named
      obtain ⟨text, isText⟩ := Option.isSome_iff_exists.1 named.1
      simp [List.mapM_cons, ih named.2, isText, entryTexts]

/-- Where all functions have names and all standard names can be looked up, there are rules. -/
theorem ofSettings?_eq_some {settings : Settings}
    (named : ∀ entry ∈ settings.deprecatedApis, entry.1.text?.isSome)
    (lookedUp : ∀ name ∈ settings.builtinNames, name.isKey) :
    Rules.ofSettings? settings = some {
      deprecated := longestFirst (settings.deprecatedApis.map entryTexts)
      builtins := settings.builtinNames.filterMap Value.text? } := by
  rw [Rules.ofSettings?, mapM_entryTexts named]
  exact if_pos (List.all_eq_true.2 lookedUp)

theorem nodup_entryTexts {entries : List (Value × Value)}
    (named : ∀ entry ∈ entries, entry.1.text?.isSome)
    (distinct : (entries.map Prod.fst).Nodup) :
    ((entries.map entryTexts).map Prod.fst).Nodup := by
  have texts : (entries.map entryTexts).map Prod.fst =
      (entries.map Prod.fst).map fun name => name.text?.getD "" := by
    simp [entryTexts]
  rw [texts]
  refine distinct.map_on ?_
  intro name member other otherMember same
  rw [List.mem_map] at member otherMember
  obtain ⟨entry, inEntries, rfl⟩ := member
  obtain ⟨otherEntry, otherInEntries, rfl⟩ := otherMember
  obtain ⟨text, isText⟩ := Option.isSome_iff_exists.1 (named entry inEntries)
  obtain ⟨otherText, otherIsText⟩ := Option.isSome_iff_exists.1 (named otherEntry otherInEntries)
  rw [isText, otherIsText] at same
  rw [Value.eq_str_of_text? isText, Value.eq_str_of_text? otherIsText]
  exact congrArg Value.str same

/-- The order in which deprecated functions are listed does not matter. -/
theorem inspect_of_reordered (settings others : Settings)
    (named : ∀ entry ∈ settings.deprecatedApis, entry.1.text?.isSome)
    (distinct : (settings.deprecatedApis.map Prod.fst).Nodup)
    (reordered : settings.deprecatedApis.Perm others.deprecatedApis)
    (lookedUp : ∀ name ∈ settings.builtinNames, name.isKey)
    (sameNames : ∀ name, name ∈ settings.builtinNames ↔ name ∈ others.builtinNames) :
    ∃ rules otherRules, Rules.ofSettings? settings = some rules ∧
      Rules.ofSettings? others = some otherRules ∧
      ∀ code, inspect rules code = inspect otherRules code := by
  have otherNamed : ∀ entry ∈ others.deprecatedApis, entry.1.text?.isSome := by
    intro entry member
    exact named entry (reordered.mem_iff.2 member)
  have otherLookedUp : ∀ name ∈ others.builtinNames, name.isKey := by
    intro name member
    exact lookedUp name ((sameNames name).2 member)
  refine ⟨_, _, ofSettings?_eq_some named lookedUp,
    ofSettings?_eq_some otherNamed otherLookedUp, ?_⟩
  intro code
  have calls := deprecatedCalls_reordered (nodup_entryTexts named distinct)
    (reordered.map entryTexts) (settings.builtinNames.filterMap Value.text?)
    (others.builtinNames.filterMap Value.text?) 1 code
  rw [inspect, inspect, calls, shadowedBuiltins_congr ?_ 1 code]
  intro name
  simp only [List.mem_filterMap, sameNames]

/-- One name starts like the other and goes on with the bracket of a call. -/
theorem inspect_of_reordered_brackets :
    ∃ rules otherRules,
      Rules.ofSettings? { Settings.standard with
        deprecatedApis := [(.str "f", .str "g"), (.str "f(", .str "h")]
        builtinNames := [.str "print"] } = some rules ∧
      Rules.ofSettings? { Settings.standard with
        deprecatedApis := [(.str "f(", .str "h"), (.str "f", .str "g")]
        builtinNames := [.str "print"] } = some otherRules ∧
      ∀ code, inspect rules code = inspect otherRules code :=
  inspect_of_reordered _ _ (by simp [Value.text?]) (by simp) (.swap _ _ _) (by simp [Value.isKey])
    fun _ => Iff.rfl

end Lint

/-! ## Reports without advice -/

/-- The kinds of advice. -/
def FindingKind.isAdvice : FindingKind → Bool
  | deprecatedApi | implicitGlobal | namingConvention => true
  | _ => false

theorem Finding.IsAdvice.isAdvice_kind {finding : Finding} (isAdvice : finding.IsAdvice) :
    finding.kind.isAdvice = true := by
  have kinds : ∀ kind ∈ [FindingKind.deprecatedApi, .implicitGlobal, .namingConvention],
      kind.isAdvice = true := by
    decide
  exact kinds _ isAdvice.kind

namespace Analysis

variable (rules : Option Lint.Rules) (text : List Char)

/-- Advice comes behind all else that is found. -/
theorem findings_ofText :
    (ofText rules text).findings = (ofText none text).findings ++ (ofText rules text).advice := by
  have without : (ofText none text).findings = (ofText none text).regions ++
      (ofText none text).blocks.findings ++ (ofText none text).brackets.findings :=
    List.append_nil _
  rw [without]
  rfl

/-- The errors are what they are without advice. -/
theorem errors_ofText : (ofText rules text).errors = (ofText none text).errors := by
  have advice : (ofText rules text).advice.filter (·.isError) = [] := by
    rw [List.filter_eq_nil_iff]
    intro finding member
    simp [isError_advice rules text member]
  rw [errors, findings_ofText, List.filter_append, advice, List.append_nil]
  rfl

/-- So are the warnings that are no advice. -/
theorem filter_warnings_ofText :
    (ofText rules text).warnings.filter (!·.kind.isAdvice) =
      (ofText none text).warnings.filter (!·.kind.isAdvice) := by
  have advice :
      ((ofText rules text).advice.filter (!·.isError)).filter (!·.kind.isAdvice) = [] := by
    rw [List.filter_eq_nil_iff]
    intro finding member
    simp [(isAdvice_advice rules text (List.mem_of_mem_filter member)).isAdvice_kind]
  rw [warnings, findings_ofText, List.filter_append, List.filter_append, advice, List.append_nil]
  rfl

end Analysis

theorem Settings.autoFix_of_policy? {settings : Settings} {policy : Policy}
    (made : settings.policy? = some policy) : policy.autoFix = settings.autoFix := by
  rw [policy?] at made
  split at made
  · obtain ⟨rules, _, rfl⟩ := Option.map_eq_some_iff.1 made
    rfl
  · cases made
    rfl

namespace Report

/-- Whether two reports differ in nothing but advice. -/
structure AgreesButForAdvice (first second : Report) : Prop where
  valid : first.valid = second.valid
  errors : first.errors = second.errors
  blocks : first.blocks = second.blocks
  brackets : first.brackets = second.brackets
  candidate : first.candidate = second.candidate
  fixed : first.fixed = second.fixed
  warnings : first.warnings.filter (!·.kind.isAdvice) = second.warnings.filter (!·.kind.isAdvice)

/-- Whether a repair is offered does not depend on advice, on the text itself or on the repaired
one. -/
theorem repaired_ofText (policy : Policy) (text : List Char) :
    repaired policy (Analysis.ofText policy.rules text) text =
      repaired ⟨policy.autoFix, none⟩ (Analysis.ofText none text) text := by
  have applies : Repair.applies (Analysis.ofText policy.rules text).blocks
      (Analysis.ofText policy.rules text).brackets =
        Repair.applies (Analysis.ofText none text).blocks (Analysis.ofText none text).brackets :=
    rfl
  have close : Repair.close (Analysis.ofText policy.rules text).blocks text =
      Repair.close (Analysis.ofText none text).blocks text :=
    rfl
  simp only [repaired, Analysis.errors_ofText policy.rules, applies, close]

/-- Two policies that agree on repairs give reports that agree but for advice. -/
theorem agreesButForAdvice_ofText {policy other : Policy} (sameFix : policy.autoFix = other.autoFix)
    (text : List Char) : (ofText policy text).AgreesButForAdvice (ofText other text) := by
  have errors : (ofText policy text).errors = (ofText other text).errors := by
    simp only [ofText, Analysis.errors_ofText policy.rules, Analysis.errors_ofText other.rules]
  constructor
  case valid => rw [valid, valid, errors]
  case errors => exact errors
  case blocks => rfl
  case brackets => rfl
  case candidate => rfl
  case fixed =>
    simp only [ofText, repaired_ofText policy, repaired_ofText other, sameFix]
  case warnings =>
    simp only [ofText, Finding.filter_sort_eq_sort_filter,
      Analysis.filter_warnings_ofText policy.rules, Analysis.filter_warnings_ofText other.rules]

/-- Advice cannot change a verdict: whatever two settings say about it, if they agree on repairs,
their reports on a text agree but for advice. -/
theorem agreesButForAdvice_of_settings (settings others : Settings) (policy otherPolicy : Policy)
    (made : settings.policy? = some policy) (otherMade : others.policy? = some otherPolicy)
    (sameFix : settings.autoFix = others.autoFix) (text : List Char) :
    (ofText policy text).AgreesButForAdvice (ofText otherPolicy text) := by
  refine agreesButForAdvice_ofText ?_ text
  rw [Settings.autoFix_of_policy? made, Settings.autoFix_of_policy? otherMade, sameFix]

/-- Settings that advise against one function and one name. -/
def Sample.advised : Settings :=
  { Settings.standard with
    deprecatedApis := [(.str "wait", .str "task.wait")]
    builtinNames := [.str "print"] }

/-- Settings without advice. -/
def Sample.unadvised : Settings :=
  { Settings.standard with lint := false }

/-- The text has a call of a deprecated function, a string that is cut off and no `end`. -/
theorem agreesButForAdvice_of_settings_sample :
    ∃ policy otherPolicy, Sample.advised.policy? = some policy ∧
      Sample.unadvised.policy? = some otherPolicy ∧
      (ofText policy "if wait() then x = 'a".toList).AgreesButForAdvice
        (ofText otherPolicy "if wait() then x = 'a".toList) := by
  obtain ⟨policy, made⟩ : ∃ policy, Sample.advised.policy? = some policy := ⟨_, rfl⟩
  obtain ⟨other, otherMade⟩ : ∃ policy, Sample.unadvised.policy? = some policy := ⟨_, rfl⟩
  exact ⟨policy, other, made, otherMade,
    agreesButForAdvice_of_settings _ _ _ _ made otherMade rfl _⟩

end Report

end EditGate
