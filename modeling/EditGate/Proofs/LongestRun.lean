import EditGate.Diff.Script
import Mathlib

/-!
# The search for the longest run

The search keeps the runs that end with the last old element and the best run so far. It
finds a run that takes precedence over every other one, and nothing only if the two
sequences have no element in common. Extending such a run changes nothing.

The recursion around the longest runs is described by a relation of its own, which
mentions neither the index of places nor the search. A script of two sequences is the
tidied form of a list of parts in that relation.
-/

namespace EditGate.Diff

variable {α : Type}

/-! ## Precedence of runs -/

/-- A run takes precedence if it is longer, or of the same size and starts earlier in the
old sequence, or starts there at the same place and not later in the new sequence. -/
def Run.Precedes (first second : Run) : Prop :=
  second.size < first.size ∨
    (second.size = first.size ∧
      (first.oldStart < second.oldStart ∨
        (first.oldStart = second.oldStart ∧ first.newStart ≤ second.newStart)))

theorem Run.Precedes.refl (run : Run) : run.Precedes run :=
  .inr ⟨rfl, .inr ⟨rfl, Nat.le_refl _⟩⟩

theorem Run.Precedes.trans {first second third : Run}
    (left : first.Precedes second) (right : second.Precedes third) : first.Precedes third := by
  unfold Precedes at *
  omega

/-- A longest run: it fits, and it takes precedence over all runs that fit. -/
structure Run.IsLongest (old new : List α) (run : Run) : Prop where
  fits : run.Fits old new
  precedes : ∀ other : Run, other.Fits old new → run.Precedes other

/-- The parts of two sequences around their longest runs. Where nothing fits, all is
changed. -/
inductive Aligned : List α → List α → List (Segment α) → Prop where
  | apart {old new : List α} :
      (∀ run : Run, ¬ run.Fits old new) → Aligned old new [.change old new]
  | around {old new : List α} {before behind : List (Segment α)} {run : Run} :
      run.IsLongest old new →
      Aligned (old.take run.oldStart) (new.take run.newStart) before →
      Aligned (old.drop (run.oldStart + run.size)) (new.drop (run.newStart + run.size)) behind →
      Aligned old new (before ++ .keep (slice old run.oldStart run.size) :: behind)

/-- There is one longest run at most. -/
theorem Run.IsLongest.unique {old new : List α} {first second : Run}
    (left : first.IsLongest old new) (right : second.IsLongest old new) : first = second := by
  have forward := left.precedes second right.fits
  have backward := right.precedes first left.fits
  obtain ⟨firstOld, firstNew, firstSize⟩ := first
  obtain ⟨secondOld, secondNew, secondSize⟩ := second
  simp only [Precedes, Run.mk.injEq] at *
  omega

/-- Two sequences have only one list of parts. -/
theorem Aligned.unique {old new : List α} {first second : List (Segment α)}
    (left : Aligned old new first) (right : Aligned old new second) : first = second := by
  induction left generalizing second with
  | apart nothing =>
      cases right with
      | apart => rfl
      | around longest => exact absurd longest.fits (nothing _)
  | around longest _ _ beforeUnique behindUnique =>
      cases right with
      | apart nothing => exact absurd longest.fits (nothing _)
      | around otherLongest before behind =>
          obtain rfl := longest.unique otherLongest
          rw [beforeUnique before, behindUnique behind]

/-! ## Common starts and slices -/

theorem slice_append_left {sequence : List α} {start size : Nat}
    (bound : start + size ≤ sequence.length) (more : List α) :
    slice (sequence ++ more) start size = slice sequence start size := by
  simp only [slice]
  rw [List.drop_append_of_le_length (by omega), List.take_append_of_le_length]
  rw [List.length_drop]
  omega

theorem slice_add (sequence : List α) (start first second : Nat) :
    slice sequence start (first + second) =
      slice sequence start first ++ slice sequence (start + first) second := by
  simp only [slice, List.take_add, List.drop_drop]

theorem take_append_slice_append_drop (sequence : List α) (start size : Nat) :
    sequence.take start ++ slice sequence start size ++ sequence.drop (start + size) =
      sequence := by
  rw [slice, ← List.take_add, List.take_append_drop]

variable [DecidableEq α]

theorem le_commonStart_iff (size : Nat) (left right : List α) :
    size ≤ commonStart left right ↔
      size ≤ left.length ∧ size ≤ right.length ∧ left.take size = right.take size := by
  induction left generalizing right size with
  | nil => cases right <;> cases size <;> simp [commonStart]
  | cons first firsts ih =>
      cases right with
      | nil => cases size <;> simp [commonStart]
      | cons second seconds =>
          cases size with
          | zero => simp
          | succ size =>
              by_cases same : first = second
              · simp [commonStart, same, ih]
              · simp [commonStart, same]

/-- The common end of two initial parts, as slices that end where the parts do. -/
theorem le_commonStart_reverse_take_iff (size : Nat) {old new : List α} {oldStop newStop : Nat}
    (oldBound : oldStop ≤ old.length) (newBound : newStop ≤ new.length) :
    size ≤ commonStart (old.take oldStop).reverse (new.take newStop).reverse ↔
      size ≤ oldStop ∧ size ≤ newStop ∧
        slice old (oldStop - size) size = slice new (newStop - size) size := by
  rw [le_commonStart_iff]
  simp only [List.length_reverse, List.length_take, Nat.min_eq_left oldBound,
    Nat.min_eq_left newBound]
  refine and_congr_right fun inOld => and_congr_right fun inNew => ?_
  rw [List.take_reverse, List.take_reverse, List.reverse_inj, List.length_take, List.length_take,
    Nat.min_eq_left oldBound, Nat.min_eq_left newBound, List.drop_take, List.drop_take]
  rw [Nat.sub_sub_self inOld, Nat.sub_sub_self inNew]
  rfl

/-- The common start of two final parts, as slices that start where the parts do. -/
theorem le_commonStart_drop_iff {old new : List α} {size oldStart newStart : Nat} :
    size ≤ commonStart (old.drop oldStart) (new.drop newStart) ↔
      size ≤ old.length - oldStart ∧ size ≤ new.length - newStart ∧
        slice old oldStart size = slice new newStart size := by
  rw [le_commonStart_iff]
  simp only [List.length_drop]
  rfl

/-- The common end of all old elements and an initial part of the new ones is a run. -/
theorem le_commonStart_reverse_iff_fits {old new : List α} {size newStop : Nat}
    (positive : 0 < size) (newBound : newStop ≤ new.length) :
    size ≤ commonStart old.reverse (new.take newStop).reverse ↔
      size ≤ old.length ∧ size ≤ newStop ∧
        (⟨old.length - size, newStop - size, size⟩ : Run).Fits old new := by
  have common := le_commonStart_reverse_take_iff size (Nat.le_refl old.length) newBound
  rw [List.take_length] at common
  rw [common]
  refine and_congr_right fun inOld => and_congr_right fun inNew => ?_
  simp only [Run.Fits]
  constructor
  · intro equal
    exact ⟨positive, by omega, by omega, equal⟩
  · exact fun fits => fits.2.2.2

/-! ## Runs that end with an old element -/

/-- The runs that end with the old element read last, which are given the nearest first. -/
structure Ending (behind new : List α) (runs : List (Nat × Nat)) : Prop where
  sorted : runs.Pairwise fun first second => first.1 < second.1
  mem_iff : ∀ place size, (place, size) ∈ runs ↔
    place < new.length ∧ 0 < size ∧ size = commonStart behind (new.take (place + 1)).reverse

theorem Ending.nil (new : List α) : Ending [] new [] where
  sorted := .nil
  mem_iff := by
    intro place size
    simp only [List.not_mem_nil, commonStart, false_iff]
    omega

/-- One more old element makes a run longer exactly at the places where it stands. -/
theorem commonStart_cons_reverse_take {behind new : List α} {element : α} {place : Nat}
    (bound : place < new.length) :
    commonStart (element :: behind) (new.take (place + 1)).reverse =
      if new[place]? = some element then commonStart behind (new.take place).reverse + 1
      else 0 := by
  rw [List.take_succ_eq_append_getElem bound, List.reverse_append, List.getElem?_eq_getElem bound]
  simp only [List.reverse_cons, List.reverse_nil, List.nil_append, List.cons_append, commonStart,
    Option.some.injEq, eq_comm]

/-- In a sorted list, an initial part is passed over exactly by leaving its items out. -/
theorem dropWhile_eq_filter {β : Type} {related : β → β → Prop} (accept : β → Bool)
    {items : List β} (sorted : items.Pairwise related)
    (closed : ∀ first second, related first second → accept second = true → accept first = true) :
    items.dropWhile accept = items.filter fun item => !accept item := by
  induction items with
  | nil => rfl
  | cons item rest ih =>
      obtain ⟨before, restSorted⟩ := List.pairwise_cons.1 sorted
      cases accepted : accept item with
      | true => simp [accepted, ih restSorted]
      | false =>
          have refused : ∀ later ∈ rest, accept later = false := by
            intro later member
            by_contra other
            have := closed item later (before later member) (by simpa using other)
            simp [accepted] at this
          simp only [List.dropWhile_cons, accepted, Bool.false_eq_true, ↓reduceIte,
            List.filter_cons, Bool.not_false, List.cons.injEq, true_and]
          exact (List.filter_eq_self.2 fun later member => by simp [refused later member]).symm

/-- In a sorted list, an initial part is taken exactly by leaving the other items out. -/
theorem takeWhile_eq_filter {β : Type} {related : β → β → Prop} (accept : β → Bool)
    {items : List β} (sorted : items.Pairwise related)
    (closed : ∀ first second, related first second → accept second = true → accept first = true) :
    items.takeWhile accept = items.filter accept := by
  induction items with
  | nil => rfl
  | cons item rest ih =>
      obtain ⟨before, restSorted⟩ := List.pairwise_cons.1 sorted
      cases accepted : accept item with
      | true => simp [accepted, ih restSorted]
      | false =>
          have refused : ∀ later ∈ rest, ¬ accept later = true := by
            intro later member other
            have := closed item later (before later member) other
            simp [accepted] at this
          simp only [List.takeWhile_cons, accepted, Bool.false_eq_true, ↓reduceIte,
            List.filter_cons]
          exact (List.filter_eq_nil_iff.2 refused).symm

/-- The size of the run that ends before a place, if it is looked up in sorted runs of which
none ends earlier than that. -/
theorem sizeAt_of_sorted {sizeBefore : Nat → Nat} {place : Nat} {kept : List (Nat × Nat)}
    (sorted : kept.Pairwise fun first second => first.1 < second.1)
    (notEarlier : ∀ run ∈ kept, place ≤ run.1 + 1)
    (sound : ∀ run ∈ kept, run.2 = sizeBefore (run.1 + 1))
    (complete : 0 < sizeBefore place → ∃ run ∈ kept, run.1 + 1 = place) :
    sizeAt place kept = sizeBefore place + 1 := by
  cases kept with
  | nil =>
      have none : ¬ 0 < sizeBefore place := fun positive => by simpa using complete positive
      simp only [sizeAt]
      omega
  | cons first others =>
      obtain ⟨last, size⟩ := first
      by_cases ends : last + 1 = place
      · have firstSize := sound (last, size) List.mem_cons_self
        simp only at firstSize
        simp only [sizeAt, ends, ↓reduceIte, firstSize]
      · -- The first run ends behind the place, and all others end behind the first.
        have none : ¬ 0 < sizeBefore place := by
          intro positive
          obtain ⟨run, found, runEnds⟩ := complete positive
          have firstBehind := notEarlier (last, size) List.mem_cons_self
          rcases List.mem_cons.1 found with rfl | later
          · exact ends runEnds
          · have := (List.pairwise_cons.1 sorted).1 run later
            simp only at this firstBehind
            omega
        simp only [sizeAt, ends, ↓reduceIte]
        omega

/-- The sizes of runs are looked up in those that end one old element earlier. Both lists are
sorted, so what is passed over for one place is not missed at a later one. -/
theorem endingRuns_eq_map (sizeBefore : Nat → Nat) {places : List Nat} {previous : List (Nat × Nat)}
    (placesSorted : places.Pairwise (· < ·))
    (sorted : previous.Pairwise fun first second => first.1 < second.1)
    (sound : ∀ run ∈ previous, run.2 = sizeBefore (run.1 + 1))
    (complete : ∀ place ∈ places, 0 < sizeBefore place → ∃ run ∈ previous, run.1 + 1 = place) :
    endingRuns places previous = places.map fun place => (place, sizeBefore place + 1) := by
  induction places generalizing previous with
  | nil => rfl
  | cons place rest ih =>
      obtain ⟨behind, restSorted⟩ := List.pairwise_cons.1 placesSorted
      have kept : previous.dropWhile (fun run => run.1 + 1 < place) =
          previous.filter fun run => place ≤ run.1 + 1 := by
        rw [dropWhile_eq_filter _ sorted (by simp only [decide_eq_true_eq]; omega)]
        exact List.filter_congr fun run _ => by simp only [← decide_not, Nat.not_lt]
      have keptSorted := sorted.filter fun run => place ≤ run.1 + 1
      have keptSound : ∀ run ∈ previous.filter fun run => place ≤ run.1 + 1,
          run.2 = sizeBefore (run.1 + 1) :=
        fun run member => sound run (List.mem_filter.1 member).1
      have keptComplete : ∀ later ∈ place :: rest, 0 < sizeBefore later →
          ∃ run ∈ previous.filter fun run => place ≤ run.1 + 1, run.1 + 1 = later := by
        intro later member positive
        obtain ⟨run, found, ends⟩ := complete later member positive
        refine ⟨run, List.mem_filter.2 ⟨found, ?_⟩, ends⟩
        rcases List.mem_cons.1 member with rfl | isLater
        · simp [ends]
        · have := behind later isLater
          simp only [decide_eq_true_eq]
          omega
      simp only [endingRuns, kept, List.map_cons, List.cons.injEq, Prod.mk.injEq, true_and]
      constructor
      · exact sizeAt_of_sorted keptSorted
          (fun run member => by simpa using (List.mem_filter.1 member).2) keptSound
          (keptComplete place List.mem_cons_self)
      · exact ih restSorted keptSorted keptSound
          fun later member => keptComplete later (List.mem_cons_of_mem _ member)

/-- The runs that end with one more old element, given where that stands. -/
theorem Ending.endingRuns {behind new : List α} {previous : List (Nat × Nat)} {element : α}
    {places : List Nat} (ending : Ending behind new previous)
    (placesSorted : places.Pairwise (· < ·))
    (mem_places : ∀ place, place ∈ places ↔ new[place]? = some element) :
    Ending (element :: behind) new (Diff.endingRuns places previous) := by
  have inNew : ∀ place ∈ places, place < new.length := fun place member =>
    (List.getElem?_eq_some_iff.1 ((mem_places place).1 member)).1
  rw [endingRuns_eq_map (fun place => commonStart behind (new.take place).reverse) placesSorted
    ending.sorted]
  · constructor
    · rw [List.pairwise_map]
      exact placesSorted
    · intro place size
      simp only [List.mem_map, Prod.mk.injEq]
      constructor
      · rintro ⟨other, member, rfl, rfl⟩
        refine ⟨inNew other member, Nat.succ_pos _, ?_⟩
        rw [commonStart_cons_reverse_take (inNew other member),
          if_pos ((mem_places other).1 member)]
      · rintro ⟨bound, positive, equal⟩
        rw [commonStart_cons_reverse_take bound] at equal
        split at equal
        next stands => exact ⟨place, (mem_places place).2 stands, rfl, equal.symm⟩
        next => omega
  · exact fun run member => ((ending.mem_iff run.1 run.2).1 member).2.2
  · intro place member positive
    have bound := inNew place member
    cases place with
    | zero => simp [commonStart] at positive
    | succ last =>
        exact ⟨(last, _), (ending.mem_iff last _).2 ⟨by omega, positive, rfl⟩, rfl⟩

/-! ## The best run so far -/

/-- What the search has found: a longest run, or nothing if there is none. -/
def Best (old new : List α) (best : Run) : Prop :=
  best.IsLongest old new ∨ (best = ⟨0, 0, 0⟩ ∧ ∀ run : Run, ¬ run.Fits old new)

omit [DecidableEq α] in
theorem Run.Fits.append {old new : List α} {run : Run} (fits : run.Fits old new)
    (more : List α) : run.Fits (old ++ more) new := by
  obtain ⟨positive, oldBound, newBound, equal⟩ := fits
  refine ⟨positive, ?_, newBound, ?_⟩
  · rw [List.length_append]
    omega
  · rw [slice_append_left oldBound, equal]

/-- A run that fits with one more old element fitted before or ends with that element. -/
theorem Run.Fits.append_singleton_cases {old new : List α} {element : α} {run : Run}
    (fits : run.Fits (old ++ [element]) new) :
    run.Fits old new ∨
      (run.oldStart + run.size = old.length + 1 ∧
        run.size ≤ commonStart (element :: old.reverse)
          (new.take (run.newStart + run.size)).reverse) := by
  obtain ⟨positive, oldBound, newBound, equal⟩ := fits
  rw [List.length_append, List.length_singleton] at oldBound
  by_cases inside : run.oldStart + run.size ≤ old.length
  · left
    exact ⟨positive, inside, newBound, by rw [← equal, slice_append_left inside]⟩
  · right
    have stop : run.oldStart + run.size = old.length + 1 := by omega
    refine ⟨stop, ?_⟩
    have reversed : element :: old.reverse = (old ++ [element]).reverse := by simp
    rw [reversed, le_commonStart_reverse_iff_fits positive newBound]
    have start : (old ++ [element]).length - run.size = run.oldStart := by
      rw [List.length_append, List.length_singleton]
      omega
    refine ⟨by rw [List.length_append, List.length_singleton]; omega, by omega, ?_⟩
    rw [start, Nat.add_sub_cancel]
    exact ⟨positive, by rw [List.length_append, List.length_singleton]; exact oldBound,
      newBound, equal⟩

/-- The longer run is the best one so far or one of those that end with the last element. -/
theorem longerRun_cases (oldEnd : Nat) (best : Run) (runs : List (Nat × Nat)) :
    longerRun oldEnd best runs = best ∨
      ∃ run ∈ runs, longerRun oldEnd best runs =
        ⟨oldEnd + 1 - run.2, run.1 + 1 - run.2, run.2⟩ := by
  induction runs generalizing best with
  | nil => exact .inl rfl
  | cons run rest ih =>
      simp only [longerRun]
      split
      next =>
        rcases ih ⟨oldEnd + 1 - run.2, run.1 + 1 - run.2, run.2⟩ with same | ⟨other, member, equal⟩
        · exact .inr ⟨run, List.mem_cons_self, same⟩
        · exact .inr ⟨other, List.mem_cons_of_mem _ member, equal⟩
      next =>
        rcases ih best with same | ⟨other, member, equal⟩
        · exact .inl same
        · exact .inr ⟨other, List.mem_cons_of_mem _ member, equal⟩

/-- The longer run takes precedence over all it was chosen from, provided that the best one so
far ends with an earlier old element, or with the same one at an earlier place. -/
theorem longerRun_precedes {oldEnd : Nat} {best : Run} {runs : List (Nat × Nat)}
    (sorted : runs.Pairwise fun first second => first.1 < second.1)
    (bounds : ∀ run ∈ runs, run.2 ≤ oldEnd + 1 ∧ run.2 ≤ run.1 + 1)
    (settled : best.oldStart + best.size ≤ oldEnd ∨
      (best.oldStart + best.size = oldEnd + 1 ∧
        ∀ run ∈ runs, best.newStart + best.size ≤ run.1 + 1)) :
    (longerRun oldEnd best runs).Precedes best ∧
      ∀ run ∈ runs, (longerRun oldEnd best runs).Precedes
        ⟨oldEnd + 1 - run.2, run.1 + 1 - run.2, run.2⟩ := by
  induction runs generalizing best with
  | nil => exact ⟨.refl best, by simp⟩
  | cons run rest ih =>
      obtain ⟨before, restSorted⟩ := List.pairwise_cons.1 sorted
      obtain ⟨⟨oldBound, newBound⟩, restBounds⟩ := List.forall_mem_cons.1 bounds
      simp only [longerRun]
      split
      next longer =>
        -- From here on the best run ends with this old element, so `sorted` is what settles ties.
        have replaced : (⟨oldEnd + 1 - run.2, run.1 + 1 - run.2, run.2⟩ : Run).Precedes best :=
          .inl longer
        obtain ⟨first, others⟩ := @ih ⟨oldEnd + 1 - run.2, run.1 + 1 - run.2, run.2⟩
          restSorted restBounds <| .inr ⟨by simp only; omega, fun later member => by
            have := before later member
            simp only
            omega⟩
        exact ⟨first.trans replaced, List.forall_mem_cons.2 ⟨first, others⟩⟩
      next notLonger =>
        have kept : best.Precedes ⟨oldEnd + 1 - run.2, run.1 + 1 - run.2, run.2⟩ := by
          have atRun :=
            settled.imp_right fun same => And.intro same.1 (same.2 run List.mem_cons_self)
          simp only [Run.Precedes]
          omega
        obtain ⟨first, others⟩ := @ih best restSorted restBounds <|
          settled.imp_right fun same =>
            ⟨same.1, fun later member => same.2 later (List.mem_cons_of_mem _ member)⟩
        exact ⟨first, List.forall_mem_cons.2 ⟨first.trans kept, others⟩⟩

/-- The search stays right when one more old element is read. -/
theorem Best.longerRun {old new : List α} {best : Run} {element : α} {runs : List (Nat × Nat)}
    (found : Best old new best) (ending : Ending (element :: old.reverse) new runs) :
    Best (old ++ [element]) new (Diff.longerRun old.length best runs) := by
  have reversed : element :: old.reverse = (old ++ [element]).reverse := by simp
  have runFits : ∀ run ∈ runs, run.2 ≤ old.length + 1 ∧ run.2 ≤ run.1 + 1 ∧
      (⟨old.length + 1 - run.2, run.1 + 1 - run.2, run.2⟩ : Run).Fits (old ++ [element]) new := by
    intro run member
    obtain ⟨bound, positive, equal⟩ := (ending.mem_iff run.1 run.2).1 member
    have common := Nat.le_of_eq equal
    rw [reversed, le_commonStart_reverse_iff_fits positive bound] at common
    simpa using common
  have settled : best.oldStart + best.size ≤ old.length := by
    rcases found with longest | ⟨rfl, -⟩
    · exact longest.fits.2.1
    · exact Nat.zero_le _
  obtain ⟨overBest, overRuns⟩ := longerRun_precedes ending.sorted
    (fun run member => ⟨(runFits run member).1, (runFits run member).2.1⟩) (.inl settled)
  have precedes : ∀ other : Run, other.Fits (old ++ [element]) new →
      (Diff.longerRun old.length best runs).Precedes other := by
    intro other fits
    rcases fits.append_singleton_cases with earlier | ⟨oldStop, common⟩
    · rcases found with longest | ⟨-, none⟩
      · exact overBest.trans (longest.precedes other earlier)
      · exact absurd earlier (none other)
    · -- A run that ends with the element is no longer than the one recorded at its place.
      obtain ⟨positive, -, newBound, -⟩ := fits
      obtain ⟨place, stop⟩ : ∃ place, place + 1 = other.newStart + other.size :=
        ⟨other.newStart + other.size - 1, by omega⟩
      rw [← stop] at common
      have recorded := (ending.mem_iff place _).2 ⟨by omega, by omega, rfl⟩
      refine (overRuns _ recorded).trans ?_
      simp only [Run.Precedes]
      omega
  rcases longerRun_cases old.length best runs with same | ⟨run, member, equal⟩
  · rw [same] at precedes ⊢
    rcases found with longest | ⟨rfl, -⟩
    · exact .inl ⟨longest.fits.append [element], precedes⟩
    · refine .inr ⟨rfl, fun other fits => ?_⟩
      have := precedes other fits
      have := fits.1
      simp only [Run.Precedes] at *
      omega
  · refine .inl ⟨?_, precedes⟩
    rw [equal]
    exact (runFits run member).2.2

/-- An extended run still fits. -/
theorem Run.Fits.extend {old new : List α} {run : Run} (fits : run.Fits old new) :
    (run.extend old new).Fits old new := by
  obtain ⟨positive, oldBound, newBound, equal⟩ := fits
  obtain ⟨leftInOld, leftInNew, leftEqual⟩ :=
    (le_commonStart_reverse_take_iff _ (by omega) (by omega)).1
      (Nat.le_refl (commonStart (old.take run.oldStart).reverse (new.take run.newStart).reverse))
  obtain ⟨rightInOld, rightInNew, rightEqual⟩ := le_commonStart_drop_iff.1
    (Nat.le_refl (commonStart (old.drop (run.oldStart + run.size))
      (new.drop (run.newStart + run.size))))
  simp only [Run.extend, Run.Fits]
  refine ⟨by omega, by omega, by omega, ?_⟩
  rw [slice_add, slice_add, slice_add, slice_add]
  rw [Nat.sub_add_cancel leftInOld, Nat.sub_add_cancel leftInNew]
  rw [← Nat.add_assoc, ← Nat.add_assoc, Nat.sub_add_cancel leftInOld, Nat.sub_add_cancel leftInNew]
  rw [leftEqual, equal, rightEqual]

/-- Extending what the search has found changes nothing. -/
theorem Best.extend_eq {old new : List α} {best : Run} (found : Best old new best) :
    best.extend old new = best := by
  rcases found with longest | ⟨rfl, none⟩
  · have := longest.precedes _ longest.fits.extend
    simp only [Run.extend, Run.Precedes] at this ⊢
    obtain ⟨oldStart, newStart, size⟩ := best
    simp only [Run.mk.injEq] at this ⊢
    omega
  · have right : commonStart old new = 0 := by
      by_contra other
      obtain ⟨inOld, inNew, equal⟩ :=
        (le_commonStart_iff (commonStart old new) old new).1 (Nat.le_refl _)
      exact none ⟨0, 0, commonStart old new⟩ ⟨by simp only; omega, by simpa using inOld,
        by simpa using inNew, equal⟩
    simp [Run.extend, commonStart, right]

/-! ## The whole search -/

variable [Hashable α]

/-- The places of a sequence are known from `start` on: for each element those where it
stands, in order. -/
def Located (places : Places α) (start : Nat) (new : List α) : Prop :=
  ∀ element, (placesIn start new.length (places.getD element [])).Pairwise (· < ·) ∧
    ∀ place, place ∈ placesIn start new.length (places.getD element []) ↔
      new[place]? = some element

theorem best_longestFrom {places : Places α} {start : Nat} {old new : List α} {best : Run}
    {runs : List (Nat × Nat)} (located : Located places start new)
    (found : Best old new best) (ending : Ending old.reverse new runs) (rest : List α) :
    Best (old ++ rest) new (longestFrom places start new.length old.length best runs rest) := by
  induction rest generalizing old best runs with
  | nil => simpa [longestFrom] using found
  | cons element rest ih =>
      obtain ⟨sorted, mem_places⟩ := located element
      have nextEnding := ending.endingRuns sorted mem_places
      have nextFound := found.longerRun nextEnding
      have tail := ih nextFound (by simpa using nextEnding)
      simpa [longestFrom] using tail

/-- The search for a longest run finds one, unless there is none. -/
theorem best_longestRun {places : Places α} {start : Nat} {new : List α}
    (located : Located places start new) (old : List α) :
    Best old new (longestRun places start old new) := by
  have nothing : Best ([] : List α) new ⟨0, 0, 0⟩ := by
    refine .inr ⟨rfl, fun run fits => ?_⟩
    obtain ⟨positive, oldBound, -, -⟩ := fits
    rw [List.length_nil] at oldBound
    omega
  have found := best_longestFrom located nothing (Ending.nil new) old
  rw [List.nil_append, List.length_nil] at found
  rw [longestRun, found.extend_eq]
  exact found

/-! ## Places of elements -/

/-- An index of a sequence: the places of each element, in order. -/
def Places.Indexes (places : Places α) (sequence : List α) : Prop :=
  ∀ element, (places.getD element []).Pairwise (· < ·) ∧
    ∀ place, place ∈ places.getD element [] ↔ sequence[place]? = some element

theorem getD_foldr_insert (pairs : List (α × Nat)) (element : α) :
    (pairs.foldr (fun (element, place) (found : Places α) =>
        found.insert element (place :: found.getD element [])) ∅).getD element [] =
      (pairs.filter fun pair => pair.1 = element).map Prod.snd := by
  induction pairs with
  | nil => simp
  | cons pair rest ih =>
      obtain ⟨other, place⟩ := pair
      rw [List.foldr_cons, Std.HashMap.getD_insert]
      by_cases same : other = element
      · subst same
        simp [ih]
      · simp [same, ih]

theorem Places.indexes_upTo_none (sequence : List α) :
    (Places.upTo none sequence).Indexes sequence := by
  intro element
  have places : (Places.upTo none sequence).getD element [] =
      (sequence.zipIdx.filter fun pair => pair.1 = element).map Prod.snd := by
    rw [← getD_foldr_insert, Places.upTo, Std.HashMap.getD_filter']
    rw [Std.HashMap.getD_eq_getD_getElem?]
    change ((Places.ofList sequence)[element]?.filter fun _ => true).getD [] =
      (Places.ofList sequence)[element]?.getD []
    cases (Places.ofList sequence)[element]? <;> rfl
  rw [places]
  constructor
  · rw [List.pairwise_map]
    refine List.Pairwise.filter _ ?_
    have ordered := List.pairwise_lt_range' (s := 0) (n := sequence.length)
    rw [← List.zipIdx_map_snd, List.pairwise_map] at ordered
    exact ordered
  · intro place
    simp only [List.mem_map, List.mem_filter, Prod.exists, decide_eq_true_eq]
    constructor
    · rintro ⟨other, _, ⟨member, rfl⟩, rfl⟩
      exact List.mem_zipIdx_iff_getElem?.1 member
    · intro stands
      exact ⟨element, place, ⟨List.mem_zipIdx_iff_getElem?.2 stands, rfl⟩, rfl⟩

/-- An index of a whole sequence locates the elements of each of its parts. -/
theorem Places.Indexes.located {places : Places α} {before new behind : List α}
    (indexes : places.Indexes (before ++ new ++ behind)) :
    Located places before.length new := by
  intro element
  obtain ⟨sorted, mem_places⟩ := indexes element
  have cut : placesIn before.length new.length (places.getD element []) =
      (((places.getD element []).filter fun place => before.length ≤ place).filter
        fun place => place < before.length + new.length).map (· - before.length) := by
    have passed := dropWhile_eq_filter (fun place => decide (place < before.length)) sorted
      (by simp only [decide_eq_true_eq]; omega)
    have notPassed :
        ((places.getD element []).filter fun place => !decide (place < before.length)) =
        (places.getD element []).filter fun place => before.length ≤ place :=
      List.filter_congr fun place _ => by simp only [← decide_not, Nat.not_lt]
    rw [placesIn, passed, notPassed,
      takeWhile_eq_filter _ (sorted.filter _) (by simp only [decide_eq_true_eq]; omega)]
  rw [cut]
  constructor
  · rw [List.pairwise_map]
    refine ((sorted.filter _).filter _).imp_of_mem fun left right less => ?_
    simp only [List.mem_filter, decide_eq_true_eq] at left right
    omega
  · intro place
    simp only [List.mem_map, List.mem_filter, decide_eq_true_eq, mem_places, List.append_assoc]
    constructor
    · rintro ⟨whole, ⟨⟨stands, notBefore⟩, inside⟩, rfl⟩
      rwa [List.getElem?_append_right notBefore, List.getElem?_append_left (by omega)] at stands
    · intro stands
      have inside := (List.getElem?_eq_some_iff.1 stands).1
      refine ⟨before.length + place, ⟨⟨?_, by omega⟩, by omega⟩, by omega⟩
      rwa [List.getElem?_append_right (by omega), List.getElem?_append_left (by omega),
        Nat.add_sub_cancel_left]

/-! ## Scripts -/

/-- The run that is taken is a longest one, and none is taken only if nothing fits. -/
theorem fittingRun?_spec {places : Places α} {start : Nat} {new : List α}
    (located : Located places start new) (old : List α) :
    (∃ run fits, fittingRun? places start old new = some ⟨run, fits⟩ ∧ run.IsLongest old new) ∨
      (fittingRun? places start old new = none ∧ ∀ run : Run, ¬ run.Fits old new) := by
  rcases best_longestRun located old with longest | ⟨-, nothing⟩
  · left
    exact ⟨_, longest.fits, by rw [fittingRun?, dif_pos longest.fits], longest⟩
  · right
    exact ⟨by rw [fittingRun?, dif_neg (nothing _)], nothing⟩

/-- Aligning two sequences recurses around their longest runs. -/
theorem aligned_align {places : Places α} {start : Nat} {new : List α} (old before behind : List α)
    (indexes : places.Indexes (before ++ new ++ behind)) (starts : before.length = start) :
    Aligned old new (align places start old new) := by
  fun_induction align places start old new generalizing before behind with
  | case1 start old new none =>
      subst starts
      rcases fittingRun?_spec indexes.located old with ⟨run, fits, found, -⟩ | ⟨-, nothing⟩
      · rw [none] at found
        cases found
      · exact .apart nothing
  | case2 start old new run fits found left right =>
      subst starts
      have newBound := fits.2.2.1
      have longest : run.IsLongest old new := by
        rcases fittingRun?_spec indexes.located old with ⟨_, _, other, longest⟩ | ⟨none, -⟩
        · rw [found] at other
          cases other
          exact longest
        · rw [none] at found
          cases found
      have cut : ∀ count, before ++ new.take count ++ (new.drop count ++ behind) =
          before ++ new ++ behind := by
        intro count
        rw [List.append_assoc before, ← List.append_assoc (new.take count), List.take_append_drop,
          List.append_assoc]
      refine .around longest (@left before (new.drop run.newStart ++ behind) ?_ rfl)
        (@right (before ++ new.take (run.newStart + run.size)) behind ?_ ?_)
      · rw [cut]
        exact indexes
      · rw [List.append_assoc, cut]
        exact indexes
      · rw [List.length_append, List.length_take, Nat.min_eq_left newBound, Nat.add_assoc]

/-- The script of two sequences is the tidied form of their parts around longest runs. -/
theorem script_none (old new : List α) :
    ∃ parts, Aligned old new parts ∧ script none old new = parts.foldr Segment.join [] := by
  refine ⟨_, aligned_align old [] [] ?_ rfl, rfl⟩
  simpa using Places.indexes_upTo_none new

end EditGate.Diff
