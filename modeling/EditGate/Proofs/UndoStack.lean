import EditGate.History
import EditGate.Proofs.Reversal
import Mathlib

/-!
# Histories as stacks of texts

A history stores recipes and one text for each file. Seen from outside it is a stack of
whole texts: the text now, and the texts before the latest commits, as many as the capacity
allows. This holds along every run of calls in which a commit starts from the head of its
file.

The two are joined by chains: each recipe turns one text of a stack into the next. A commit
puts a link in front, room for it is made at the far end, and taking edits back walks
along the links.
-/

namespace EditGate.History

/-! ## Calls -/

/-- A call on a history. -/
inductive Call where
  /-- Records an edit. The text that it left is given, or else is what the edit makes of the
  text before. -/
  | commit (now : Binary64) (key : String) (before : List Char) (edit : Edit)
      (after : Option (List Char))
  /-- Takes the latest edits of a file back, from its head. -/
  | rollback (key : String) (steps : Int)
  /-- Forgets a file, or every file. -/
  | clear (key : Option String)

/-- What a call gives back. -/
inductive Answer where
  | recorded
  | refused (cause : Edit.Error)
  | restored (text : List Char)
  | failed (cause : Error)
  | cleared

namespace Call

/-- Carries a call out. A call that fails leaves the history as it is. -/
def perform (history : History) : Call → Answer × History
  | commit now key before edit (some after) =>
      (.recorded, history.record now key before after (some edit))
  | commit now key before edit none =>
      match history.recordEdit now key before edit with
      | .ok next => (.recorded, next)
      | .error cause => (.refused cause, history)
  | rollback key steps =>
      match history.rollback key (.int steps) .null with
      | .ok (text, next) => (.restored text, next)
      | .error cause => (.failed cause, history)
  | clear (some key) => (.cleared, history.forget key)
  | clear none => (.cleared, history.forgetAll)

/-- Whether a call starts from the head of its file, if that has one. -/
def StartsFromHead (history : History) : Call → Prop
  | commit _ key before _ _ =>
      ∀ head, history.head? key = some head → head = .str (String.ofList before)
  | _ => True

end Call

/-- Carries calls out one after the other, with their answers. -/
def run (history : History) : List Call → List Answer × History
  | [] => ([], history)
  | call :: rest =>
      let (answer, next) := call.perform history
      let (answers, final) := next.run rest
      (answer :: answers, final)

/-- Whether each call of a run starts from the head of its file. -/
def FollowsHeads (history : History) : List Call → Prop
  | [] => True
  | call :: rest => call.StartsFromHead history ∧ FollowsHeads (call.perform history).2 rest

/-! ## Stacks of texts -/

/-- The text of a file now, and those before its latest commits, the latest first. -/
structure TextStack where
  current : Option (List Char) := none
  earlier : List (List Char) := []

/-- The texts of every file. -/
abbrev TextStacks := String → TextStack

namespace TextStack

/-- Commits a text. Of the texts before, only the latest `bound` are kept. -/
def commit (bound : Option Nat) (before after : List Char) (stack : TextStack) : TextStack where
  current := some after
  earlier := match bound with
    | some most => (before :: stack.earlier).take most
    | none => before :: stack.earlier

/-- Takes commits back. -/
def rollback (key : String) (steps : Int) (stack : TextStack) : Answer × TextStack :=
  if steps < 1 then (.failed .stepsTooFew, stack)
  else if (stack.earlier.length : Int) < steps then
    (.failed (.insufficient key (.int steps) stack.earlier.length), stack)
  else
    let text := stack.earlier.getD (steps.toNat - 1) []
    (.restored text, ⟨some text, stack.earlier.drop steps.toNat⟩)

end TextStack

namespace TextStacks

/-- The texts of every file after those of one have changed. -/
def set (files : TextStacks) (key : String) (stack : TextStack) : TextStacks :=
  fun other => if other = key then stack else files other

/-- Carries a call out on whole texts. -/
def perform (bound : Option Nat) (files : TextStacks) : Call → Answer × TextStacks
  | .commit _ key before _ (some after) =>
      (.recorded, files.set key ((files key).commit bound before after))
  | .commit _ key before edit none =>
      match edit.apply before with
      | .ok after => (.recorded, files.set key ((files key).commit bound before after))
      | .error cause => (.refused cause, files)
  | .rollback key steps =>
      let (answer, stack) := (files key).rollback key steps
      (answer, files.set key stack)
  | .clear (some key) => (.cleared, files.set key {})
  | .clear none => (.cleared, fun _ => {})

/-- Carries calls out on whole texts one after the other. -/
def run (bound : Option Nat) (files : TextStacks) : List Call → List Answer × TextStacks
  | [] => ([], files)
  | call :: rest =>
      let (answer, next) := perform bound files call
      let (answers, final) := run bound next rest
      (answer :: answers, final)

end TextStacks

/-! ## What an operation does to the files -/

theorem Capacity.holds_singleton (capacity : Capacity) (entry : Entry) : capacity.Holds [entry] :=
  capacity.bound_pos

theorem Capacity.holds_ofNat {most : ℕ} (positive : 0 < most) {entries : List Entry}
    (few : entries.length ≤ most) : (Capacity.ofNat most positive).Holds entries := by
  rintro _ ⟨⟩
  exact few

/-- Entries that fit are all kept. -/
theorem Capacity.Holds.keep_eq {capacity : Capacity} {entries : List Entry}
    (holds : capacity.Holds entries) : capacity.keep entries = entries := by
  rw [keep]
  split
  next most bounded => exact List.take_of_length_le (holds most bounded)
  · rfl

/-- Where all entries fit, a new one pushes out at most one, so that the latest ones are kept. -/
theorem Capacity.Holds.takeIn_eq {capacity : Capacity} {entries : List Entry}
    (holds : capacity.Holds entries) (entry : Entry) :
    capacity.takeIn entry entries = capacity.keep (entry :: entries) := by
  rw [Capacity.takeIn, keep]
  cases bounded : capacity.bound with
  | none => rfl
  | some most =>
      have room := holds most bounded
      rw [Option.any_some]
      split
      next full =>
        obtain rfl : most = entries.length := by
          rw [decide_eq_true_iff] at full
          omega
        exact List.dropLast_eq_take
      next fits =>
        rw [decide_eq_true_iff, not_lt] at fits
        exact (List.take_of_length_le fits).symm

section Writing

variable (history : History) (key : String) {entries : List Entry} (head : Value)
  (holds : history.capacity.Holds entries)

@[simp] theorem head?_write_self : (history.write key entries head holds).head? key = some head :=
  Assoc.find?_put_self ..

@[simp] theorem entriesOf_write_self :
    (history.write key entries head holds).entriesOf key = entries := by
  rw [entriesOf, write, Assoc.find?_put_self, Option.getD_some]

end Writing

@[simp] theorem head?_record_self (history : History) (now : Binary64) (key : String)
    (before after : List Char) (edit : Option Edit) :
    (history.record now key before after edit).head? key = some (.str (String.ofList after)) :=
  head?_write_self _ _ _ ((history.holds_entriesOf key).takeIn _)

@[simp] theorem entriesOf_record_self (history : History) (now : Binary64) (key : String)
    (before after : List Char) (edit : Option Edit) :
    (history.record now key before after edit).entriesOf key =
      history.capacity.keep (Entry.ofTexts now before after edit :: history.entriesOf key) := by
  rw [record, push, entriesOf_write_self, (history.holds_entriesOf key).takeIn_eq]

@[simp] theorem head?_drop_self (history : History) (key : String) (steps : Nat)
    (text : List Char) :
    (history.drop key steps text).head? key = some (.str (String.ofList text)) :=
  head?_write_self ..

@[simp] theorem entriesOf_drop_self (history : History) (key : String) (steps : Nat)
    (text : List Char) :
    (history.drop key steps text).entriesOf key = (history.entriesOf key).drop steps :=
  entriesOf_write_self ..

/-- What is known of a file is the same in two histories. -/
def SameFile (key : String) (first second : History) : Prop :=
  second.head? key = first.head? key ∧ second.entriesOf key = first.entriesOf key

theorem sameFile_write {key other : String} (different : other ≠ key) (history : History)
    {entries : List Entry} (head : Value) (holds : history.capacity.Holds entries) :
    SameFile other history (history.write key entries head holds) := by
  simp [SameFile, write, head?, entriesOf, different]

theorem sameFile_record {key other : String} (different : other ≠ key) (history : History)
    (now : Binary64) (before after : List Char) (edit : Option Edit) :
    SameFile other history (history.record now key before after edit) :=
  sameFile_write different _ _ ((history.holds_entriesOf key).takeIn _)

theorem sameFile_drop {key other : String} (different : other ≠ key) (history : History)
    (steps : Nat) (text : List Char) : SameFile other history (history.drop key steps text) :=
  sameFile_write different ..

theorem sameFile_forget {key other : String} (different : other ≠ key) (history : History) :
    SameFile other history (history.forget key) := by
  simp [SameFile, forget, head?, entriesOf, different]

/-- A rollback that succeeds drops the entries of one file. -/
theorem rollback_eq_ok {history next : History} {key : String} {steps current : Value}
    {text : List Char} (restored : history.rollback key steps current = .ok (text, next)) :
    ∃ count, next = history.drop key count text := by
  simp only [rollback] at restored
  cases preview : history.previewCount key steps current with
  | error cause =>
      rw [preview] at restored
      cases restored
  | ok outcome =>
      rw [preview] at restored
      cases restored
      exact ⟨outcome.2, rfl⟩

/-- A commit that succeeds records what the edit makes of the text before it. -/
theorem recordEdit_eq (history : History) (now : Binary64) (key : String) (before : List Char)
    (edit : Edit) :
    history.recordEdit now key before edit =
      match edit.apply before with
      | .ok after => .ok (history.record now key before after (some edit))
      | .error cause => .error cause := by
  simp only [recordEdit]
  cases edit.apply before <;> rfl

/-- Entries that lead from a text back through earlier ones, the latest first. -/
inductive Chain : List Char → List Entry → List (List Char) → Prop where
  | nil (text : List Char) : Chain text [] []
  | cons {text before : List Char} {entry : Entry} {entries : List Entry}
      {earlier : List (List Char)} :
      entry.undo text = .ok before → Chain before entries earlier →
      Chain text (entry :: entries) (before :: earlier)

namespace Chain

variable {text : List Char} {entries : List Entry} {earlier : List (List Char)}

theorem length_eq (chain : Chain text entries earlier) : entries.length = earlier.length := by
  induction chain with
  | nil => rfl
  | cons _ _ ih => simp [ih]

/-- Room is made at the far end of a chain. -/
theorem take (chain : Chain text entries earlier) (count : Nat) :
    Chain text (entries.take count) (earlier.take count) := by
  induction chain generalizing count with
  | nil text => simpa using Chain.nil text
  | cons undone _ ih =>
      cases count with
      | zero => exact .nil _
      | succ count => exact .cons undone (ih count)

/-- Taking edits back walks along a chain and leaves its rest. -/
theorem undoAll_take (chain : Chain text entries earlier) {count : Nat}
    (bound : count < earlier.length) :
    undoAll text (entries.take (count + 1)) = .ok (earlier.getD count []) ∧
      Chain (earlier.getD count []) (entries.drop (count + 1)) (earlier.drop (count + 1)) := by
  induction chain generalizing count with
  | nil => simp at bound
  | @cons text before entry entries earlier undone rest ih =>
      have step : undoAll text ((entry :: entries).take (count + 1)) =
          undoAll before (entries.take count) := by
        simp only [List.take_succ_cons, undoAll, undone]
        rfl
      rw [step]
      cases count with
      | zero => exact ⟨rfl, by simpa using rest⟩
      | succ count => simpa using ih (by simpa using bound)

end Chain

/-- The head and the entries of a file stand for a stack of texts. -/
inductive Represents : Option Value → List Entry → TextStack → Prop where
  | unknown : Represents none [] {}
  | known {text : List Char} {entries : List Entry} {earlier : List (List Char)} :
      Chain text entries earlier →
      Represents (some (.str (String.ofList text))) entries ⟨some text, earlier⟩

namespace Represents

variable {head : Option Value} {entries : List Entry} {stack : TextStack}

theorem length_eq (represents : Represents head entries stack) :
    entries.length = stack.earlier.length := by
  cases represents with
  | unknown => rfl
  | known chain => exact chain.length_eq

/-- A commit that starts from the head puts a link in front of the chain. -/
theorem commit (represents : Represents head entries stack) {before : List Char}
    (starts : ∀ value, head = some value → value = .str (String.ofList before))
    (capacity : Capacity) (now : Binary64) (after : List Char) (edit : Option Edit) :
    Represents (some (.str (String.ofList after)))
      (capacity.keep (Entry.ofTexts now before after edit :: entries))
      (stack.commit capacity.bound before after) := by
  have rest : Chain before entries stack.earlier := by
    cases represents with
    | unknown => exact .nil before
    | known chain =>
        have same := starts _ rfl
        rw [Value.str.injEq, String.ofList_inj] at same
        exact same ▸ chain
  have chain : Chain after (Entry.ofTexts now before after edit :: entries)
      (before :: stack.earlier) := .cons (Diff.Recipe.restore_ofTexts before after) rest
  refine .known ?_
  simp only [Capacity.keep]
  cases capacity.bound with
  | none => exact chain
  | some most => exact chain.take most

end Represents

/-! ## Taking edits back -/

theorem less_whole (left right : Int) :
    Number.less (.whole left) (.whole right) = decide (left < right) := by
  simp [Number.less, Number.position?, Number.Position.before]

/-- Taking edits back from the head fails for two reasons only, and else walks along the
chain. -/
theorem rollback_of_represents {history : History} {key : String} {stack : TextStack}
    (represents : Represents (history.head? key) (history.entriesOf key) stack) (steps : Int) :
    history.rollback key (.int steps) .null =
      if steps < 1 then .error .stepsTooFew
      else if (stack.earlier.length : Int) < steps then
        .error (.insufficient key (.int steps) stack.earlier.length)
      else
        .ok (stack.earlier.getD (steps.toNat - 1) [],
          history.drop key steps.toNat (stack.earlier.getD (steps.toNat - 1) [])) := by
  have lengths := represents.length_eq
  simp only [rollback, previewCount, Value.number?, less_whole, decide_eq_true_eq, lengths]
  by_cases tooFew : steps < 1
  · rw [if_pos tooFew, if_pos tooFew]
    rfl
  rw [if_neg tooFew, if_neg tooFew]
  by_cases tooMany : (stack.earlier.length : Int) < steps
  · rw [if_pos tooMany, if_pos tooMany]
    rfl
  rw [if_neg tooMany, if_neg tooMany]
  generalize headIs : history.head? key = head at represents
  generalize entriesAre : history.entriesOf key = entries at represents
  cases represents with
  | unknown =>
      -- An unknown file has no edits, so asking for one was already too many.
      rw [List.length_nil] at tooMany
      omega
  | @known text entries earlier chain =>
      obtain ⟨count, positive⟩ : ∃ count, steps.toNat = count + 1 := ⟨steps.toNat - 1, by omega⟩
      have start : history.start? key .null = some (.str (String.ofList text)) := by
        simp only [start?, headIs, startFrom?]
      have inside : count < earlier.length := by
        simp only at tooMany
        omega
      have undone := (chain.undoAll_take inside).1
      simp only [start, Value.whole?, Value.number?, textOf, String.toList_ofList, positive,
        Nat.add_sub_cancel, bind, Except.bind, Except.mapError, undone, Except.map]

/-- The stack that is left when edits are taken back. -/
theorem Represents.rollback {head : Option Value} {entries : List Entry} {stack : TextStack}
    (represents : Represents head entries stack) {steps : Int} (positive : ¬ steps < 1)
    (enough : ¬ (stack.earlier.length : Int) < steps) :
    Represents (some (.str (String.ofList (stack.earlier.getD (steps.toNat - 1) []))))
      (entries.drop steps.toNat)
      ⟨some (stack.earlier.getD (steps.toNat - 1) []), stack.earlier.drop steps.toNat⟩ := by
  obtain ⟨count, isCount⟩ : ∃ count, steps.toNat = count + 1 := ⟨steps.toNat - 1, by omega⟩
  rw [isCount, Nat.add_sub_cancel]
  cases represents with
  | unknown =>
      rw [List.length_nil] at enough
      omega
  | known chain =>
      refine .known (chain.undoAll_take ?_).2
      simp only at enough
      omega

/-! ## Runs -/

/-- A history stands for stacks of texts, file by file. -/
def Simulates (history : History) (files : TextStacks) : Prop :=
  ∀ key, Represents (history.head? key) (history.entriesOf key) (files key)

/-- What one file has become is seen in both, and the others have stayed the same. -/
theorem Simulates.set {history next : History} {files : TextStacks}
    (simulates : Simulates history files) {key : String} {stack : TextStack}
    (changed : Represents (next.head? key) (next.entriesOf key) stack)
    (others : ∀ other, other ≠ key → SameFile other history next) :
    Simulates next (files.set key stack) := by
  intro other
  by_cases same : other = key
  · subst same
    simpa [TextStacks.set] using changed
  · obtain ⟨head, entries⟩ := others other same
    rw [head, entries]
    simpa [TextStacks.set, same] using simulates other

theorem TextStacks.set_self (files : TextStacks) (key : String) :
    files.set key (files key) = files := by
  funext other
  by_cases same : other = key
  · subst same
    exact if_pos rfl
  · exact if_neg same

theorem capacity_perform (history : History) (call : Call) :
    (call.perform history).2.capacity = history.capacity := by
  cases call with
  | commit now key before edit after =>
      cases after with
      | some after => rfl
      | none =>
          simp only [Call.perform, recordEdit_eq]
          cases edit.apply before <;> rfl
  | rollback key steps =>
      simp only [Call.perform]
      cases restored : history.rollback key (.int steps) .null with
      | error cause => rfl
      | ok outcome =>
          obtain ⟨count, dropped⟩ := rollback_eq_ok restored
          rw [dropped]
          rfl
  | clear key => cases key <;> rfl

/-- A commit is seen in the stack of its file. -/
theorem Simulates.record {history : History} {files : TextStacks}
    (simulates : Simulates history files) {key : String} {before : List Char}
    (starts : ∀ head, history.head? key = some head → head = .str (String.ofList before))
    (now : Binary64) (after : List Char) (edit : Option Edit) :
    Simulates (history.record now key before after edit)
      (files.set key ((files key).commit history.capacity.bound before after)) := by
  refine simulates.set ?_ fun other different =>
    sameFile_record different history now before after edit
  simpa using (simulates key).commit starts history.capacity now after edit

/-- One call has the same answer on a history and on the stacks it stands for, and leads to
such again. -/
theorem Simulates.perform {history : History} {files : TextStacks}
    (simulates : Simulates history files) {call : Call} (starts : call.StartsFromHead history) :
    (call.perform history).1 = (files.perform history.capacity.bound call).1 ∧
      Simulates (call.perform history).2 (files.perform history.capacity.bound call).2 := by
  cases call with
  | commit now key before edit after =>
      cases after with
      | some after => exact ⟨rfl, simulates.record starts now after (some edit)⟩
      | none =>
          simp only [Call.perform, TextStacks.perform, recordEdit_eq]
          cases edit.apply before with
          | ok after => exact ⟨rfl, simulates.record starts now after (some edit)⟩
          | error cause => exact ⟨rfl, simulates⟩
  | rollback key steps =>
      simp only [Call.perform, TextStacks.perform, TextStack.rollback,
        rollback_of_represents (simulates key)]
      by_cases tooFew : steps < 1
      · simp only [if_pos tooFew, TextStacks.set_self, true_and]
        exact simulates
      by_cases tooMany : ((files key).earlier.length : Int) < steps
      · simp only [if_neg tooFew, if_pos tooMany, TextStacks.set_self, true_and]
        exact simulates
      simp only [if_neg tooFew, if_neg tooMany, true_and]
      refine simulates.set ?_ fun other different => sameFile_drop different history _ _
      simpa using (simulates key).rollback tooFew tooMany
  | clear key =>
      cases key with
      | some key =>
          refine ⟨rfl, simulates.set ?_ fun other different => sameFile_forget different history⟩
          simpa [Call.perform, forget, head?, entriesOf] using Represents.unknown
      | none => exact ⟨rfl, fun _ => .unknown⟩

/-- A run has the same answers on a history and on the stacks it stands for, and leads to such
again. -/
theorem Simulates.run {history : History} {files : TextStacks}
    (simulates : Simulates history files) {calls : List Call}
    (follows : FollowsHeads history calls) :
    (history.run calls).1 = (files.run history.capacity.bound calls).1 ∧
      Simulates (history.run calls).2 (files.run history.capacity.bound calls).2 := by
  induction calls generalizing history files with
  | nil => exact ⟨rfl, simulates⟩
  | cons call rest ih =>
      obtain ⟨starts, restFollows⟩ := follows
      obtain ⟨answer, next⟩ := simulates.perform starts
      obtain ⟨answers, final⟩ := ih next restFollows
      rw [capacity_perform] at answers final
      exact ⟨congrArg₂ List.cons answer answers, final⟩

/-- Stacks hold no more texts than there is room for. -/
def TextStacks.Bounded (most : Nat) (files : TextStacks) : Prop :=
  ∀ key, (files key).earlier.length ≤ most

theorem TextStacks.Bounded.set {most : Nat} {files : TextStacks} (bounded : files.Bounded most)
    {key : String} {stack : TextStack} (fits : stack.earlier.length ≤ most) :
    (files.set key stack).Bounded most := by
  intro other
  by_cases same : other = key
  · simpa [TextStacks.set, same] using fits
  · simpa [TextStacks.set, same] using bounded other

theorem TextStacks.Bounded.perform {most : Nat} {files : TextStacks}
    (bounded : files.Bounded most) (call : Call) :
    (files.perform (some most) call).2.Bounded most := by
  have committed : ∀ key before after,
      ((files key).commit (some most) before after).earlier.length ≤ most := by
    intro key before after
    simp only [TextStack.commit, List.length_take]
    exact Nat.min_le_left _ _
  cases call with
  | commit now key before edit after =>
      cases after with
      | some after => exact bounded.set (committed key before after)
      | none =>
          simp only [TextStacks.perform]
          cases edit.apply before with
          | ok after => exact bounded.set (committed key before after)
          | error cause => exact bounded
  | rollback key steps =>
      have fits : ((files key).rollback key steps).2.earlier.length ≤ most := by
        have := bounded key
        simp only [TextStack.rollback]
        split
        · exact this
        · split
          · exact this
          · rw [List.length_drop]
            omega
      exact bounded.set fits
  | clear key =>
      cases key with
      | some key => exact bounded.set (Nat.zero_le most)
      | none => exact fun _ => Nat.zero_le most

theorem TextStacks.Bounded.run {most : Nat} {files : TextStacks} (bounded : files.Bounded most)
    (calls : List Call) : (files.run (some most) calls).2.Bounded most := by
  induction calls generalizing files with
  | nil => exact bounded
  | cons call rest ih => exact ih (bounded.perform call)

end EditGate.History
