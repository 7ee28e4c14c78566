import EditGate.Proofs.Atomicity
import Mathlib

/-!
# Rollbacks that add up

Taking edits back in two goes is taking them back in one. On the way the text between the two goes
is the head of the file, and the second go starts from there with the entries that are left; in one
go it is only handed from one recipe to the next. Nothing is asked of the entries: they may come
from elsewhere and need not fit the text or each other.
-/

namespace EditGate.History

theorem undoAll_append (text : List Char) (first second : List Entry) :
    undoAll text (first ++ second) = (undoAll text first).bind (undoAll · second) := by
  induction first generalizing text with
  | nil => rfl
  | cons entry rest ih =>
      rw [List.cons_append, undoAll, undoAll]
      cases entry.undo text with
      | error cause => rfl
      | ok earlier => exact ih earlier

theorem undoAll_append_eq_ok_iff {text last : List Char} {first second : List Entry} :
    undoAll text (first ++ second) = .ok last ↔
      ∃ middle, undoAll text first = .ok middle ∧ undoAll middle second = .ok last := by
  rw [undoAll_append]
  cases undoAll text first <;> simp [Except.bind]

/-- Whether a rollback starts from a text: the given one, or else the head. -/
def StartsFrom (history : History) (key : String) (current : Value) (text : List Char) : Prop :=
  ∃ start, history.start? key current = some start ∧ textOf start = .ok text

/-- The head that a rollback leaves is what the next one starts from. -/
theorem startsFrom_drop_iff {history : History} {key : String} {steps : ℕ}
    {text origin : List Char} :
    (history.drop key steps text).StartsFrom key .null origin ↔ text = origin := by
  have start : (history.drop key steps text).start? key .null =
      some (.str (String.ofList text)) := by
    simp only [start?, head?_drop_self, startFrom?]
  simp [StartsFrom, start, textOf]

/-- Dropping entries twice is dropping them at once, and only the last head stays. -/
theorem drop_drop (history : History) (key : String) (first second : ℕ)
    (middle text : List Char) :
    (history.drop key first middle).drop key second text =
      history.drop key (first + second) text := by
  refine History.ext rfl ?_ (Assoc.put_put ..)
  refine (Assoc.put_put ..).trans ?_
  rw [entriesOf_drop_self, List.drop_drop]
  rfl

theorem number?_of_whole? {value : Value} {number : ℤ} (whole : value.whole? = some number) :
    value.number? = some (.whole number) := by
  rw [Value.whole?] at whole
  split at whole
  next found isNumber =>
    cases whole
    exact isNumber
  · cases whole

variable {history next : History} {key : String} {steps current : Value} {count : ℕ}
  {text : List Char}

theorem previewCount_eq_ok_iff (whole : steps.whole? = some (count : ℤ)) {found : ℕ} :
    history.previewCount key steps current = .ok (text, found) ↔
      found = count ∧ 1 ≤ count ∧ count ≤ (history.entriesOf key).length ∧
      ∃ origin, history.StartsFrom key current origin ∧
        undoAll origin ((history.entriesOf key).take count) = .ok text := by
  simp only [previewCount, number?_of_whole? whole, less_whole, decide_eq_true_eq, whole,
    StartsFrom]
  by_cases few : (count : ℤ) < 1
  · rw [if_pos few]
    constructor
    · rintro ⟨⟩
    · rintro ⟨-, enough, -⟩
      omega
  by_cases many : ((history.entriesOf key).length : ℤ) < count
  · rw [if_neg few, if_pos many]
    constructor
    · rintro ⟨⟩
    · rintro ⟨-, -, enough, -⟩
      omega
  have enough : 1 ≤ count ∧ count ≤ (history.entriesOf key).length := by omega
  rw [if_neg few, if_neg many]
  cases history.start? key current with
  | none => simp
  | some start =>
  simp only [Int.toNat_natCast, Option.some.injEq, exists_eq_left']
  cases textOf start with
  | error cause => simp [Except.mapError, bind, Except.bind]
  | ok origin =>
  simp only [Except.mapError, bind, Except.bind, Except.ok.injEq, exists_eq_left']
  cases undoAll origin ((history.entriesOf key).take count) with
  | error cause => simp
  | ok before => simp [enough, and_comm, eq_comm]

/-- When a rollback succeeds, and what it leaves. -/
theorem rollback_eq_ok_iff (whole : steps.whole? = some (count : ℤ)) :
    history.rollback key steps current = .ok (text, next) ↔
      (1 ≤ count ∧ count ≤ (history.entriesOf key).length ∧
        ∃ origin, history.StartsFrom key current origin ∧
          undoAll origin ((history.entriesOf key).take count) = .ok text) ∧
      next = history.drop key count text := by
  constructor
  · intro restored
    rw [rollback] at restored
    cases previewed : history.previewCount key steps current with
    | error cause =>
        rw [previewed] at restored
        cases restored
    | ok outcome =>
        rw [previewed] at restored
        cases restored
        obtain ⟨counted, rest⟩ := (previewCount_eq_ok_iff whole).1 previewed
        exact ⟨rest, counted ▸ rfl⟩
  · rintro ⟨rest, rfl⟩
    rw [rollback, (previewCount_eq_ok_iff whole).2 ⟨rfl, rest⟩]
    rfl

/-- A preview answers as the rollback would. -/
theorem preview_eq_map_rollback (history : History) (key : String) (steps current : Value) :
    history.preview key steps current = (history.rollback key steps current).map Prod.fst := by
  rw [preview, rollback]
  cases history.previewCount key steps current <;> rfl

/-- Edits are taken back in one go as they are in two, of which the second starts from the head that
the first one leaves: one way succeeds if the other does, with the same text and the same history.
A preview gives the text or the error that the rollback would, and leaves the history as it is. -/
theorem rollback_add_account (history : History) (key : String) (current : Value)
    {first second total : Value} {m n : ℕ} (wholeFirst : first.whole? = some (m : ℤ))
    (wholeSecond : second.whole? = some (n : ℤ))
    (wholeTotal : total.whole? = some ((m + n : ℕ) : ℤ))
    (firstSome : 1 ≤ m) (secondSome : 1 ≤ n) :
    (∀ text next, history.rollback key total current = .ok (text, next) ↔
      ∃ middle between, history.rollback key first current = .ok (middle, between) ∧
        between.rollback key second .null = .ok (text, next)) ∧
    ∀ steps,
      history.preview key steps current = (history.rollback key steps current).map Prod.fst ∧
      (Procedure.preview key steps current).run history.store =
        Procedure.settle history.store
          (((history.rollback key steps current).map Prod.fst).mapError .undo) := by
  refine ⟨fun text next => ?_, fun steps => ?_⟩
  · constructor
    · intro restored
      obtain ⟨⟨-, enough, origin, starts, undone⟩, rfl⟩ :=
        (rollback_eq_ok_iff wholeTotal).1 restored
      rw [List.take_add, undoAll_append_eq_ok_iff] at undone
      obtain ⟨middle, undoneFirst, undoneSecond⟩ := undone
      refine ⟨middle, history.drop key m middle, ?_, ?_⟩
      · have enoughFirst : m ≤ (history.entriesOf key).length := by omega
        exact (rollback_eq_ok_iff wholeFirst).2
          ⟨⟨firstSome, enoughFirst, origin, starts, undoneFirst⟩, rfl⟩
      · rw [rollback_eq_ok_iff wholeSecond, entriesOf_drop_self, drop_drop, List.length_drop]
        have enoughSecond : n ≤ (history.entriesOf key).length - m := by omega
        exact ⟨⟨secondSome, enoughSecond, middle, startsFrom_drop_iff.2 rfl, undoneSecond⟩, rfl⟩
    · rintro ⟨middle, between, restoredFirst, restoredSecond⟩
      obtain ⟨⟨-, enoughFirst, origin, starts, undoneFirst⟩, rfl⟩ :=
        (rollback_eq_ok_iff wholeFirst).1 restoredFirst
      rw [rollback_eq_ok_iff wholeSecond, entriesOf_drop_self, drop_drop,
        List.length_drop] at restoredSecond
      obtain ⟨⟨-, enoughSecond, _, startsSecond, undoneSecond⟩, rfl⟩ := restoredSecond
      obtain rfl := startsFrom_drop_iff.1 startsSecond
      have undone : undoAll origin ((history.entriesOf key).take (m + n)) = .ok text := by
        rw [List.take_add]
        exact undoAll_append_eq_ok_iff.2 ⟨middle, undoneFirst, undoneSecond⟩
      exact (rollback_eq_ok_iff wholeTotal).2
        ⟨⟨by omega, by omega, origin, starts, undone⟩, rfl⟩
  · rw [Procedure.run_preview, preview_eq_map_rollback]
    exact ⟨rfl, rfl⟩

/-- A file whose entries were made for other texts than its head. -/
def foreign : History where
  capacity := (ofSettings .standard).capacity
  entries := [("a", [⟨.finite false 0 0, ⟨[], [], [(0, .str "x")], false⟩, 1, none⟩,
    ⟨.finite false 0 0, ⟨[(1, .str "w")], [], [], true⟩, 1, none⟩])]
  heads := [("a", .str "y")]
  fits := List.forall_mem_singleton.2
    (Capacity.holds_ofNat Settings.standard.historyCapacity_pos (Nat.le_of_ble_eq_true rfl))

theorem rollback_foreign :
    foreign.rollback "a" (.int 2) (.str "p\nq") =
      .ok ("x\nw\nq\n".toList, foreign.drop "a" 2 "x\nw\nq\n".toList) := by
  cbv

/-- Neither entry was made for the text that is given, and a truth value counts as a number. -/
theorem rollback_add_account_foreign :
    ∃ middle between, foreign.rollback "a" (.int 1) (.str "p\nq") = .ok (middle, between) ∧
      between.rollback "a" (.bool true) .null =
        .ok ("x\nw\nq\n".toList, foreign.drop "a" 2 "x\nw\nq\n".toList) :=
  ((rollback_add_account (m := 1) (n := 1) foreign "a" (.str "p\nq") rfl rfl rfl le_rfl le_rfl).1
    _ _).1 rollback_foreign

end EditGate.History
