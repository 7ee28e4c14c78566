import Std.Data.HashMap

/-!
# Edit scripts

Two sequences are aligned by their longest common run: of all longest runs the one
that starts earliest in the old sequence, and of those the one that starts earliest
in the new one. What lies before and behind it is aligned in the same way. The
outcome is a script of parts that are kept and parts that are changed; its old
sides make up the old sequence and its new sides the new one.

Elements may be set aside as too common to start a run. A run found without them is
still extended over them on both sides.

Where the elements of the new sequence stand is looked up once. A run is taken only if it is
checked to be one, so a script never depends on that search to be right.
-/

namespace EditGate.Diff

/-- A part of a script. -/
inductive Segment (α : Type) where
  | keep (lines : List α)
  | change (old new : List α)
deriving DecidableEq, Repr

/-- What a part says of the old sequence. -/
def Segment.old {α : Type} : Segment α → List α
  | keep lines => lines
  | change old _ => old

/-- What a part says of the new sequence. -/
def Segment.new {α : Type} : Segment α → List α
  | keep lines => lines
  | change _ new => new

/-- A run of `size` elements in both sequences. -/
structure Run where
  oldStart : Nat
  newStart : Nat
  size : Nat
deriving DecidableEq, Repr

/-- How often an element may occur in a new sequence of the given length and still start a
run. If the length is two hundred or more, that is once in each full hundred and once
besides; otherwise there is no limit. -/
def commonLimit (length : Nat) : Option Nat :=
  if length < 200 then none else some (length / 100 + 1)

variable {α : Type} [DecidableEq α] [Hashable α]

/-- Where the elements of a sequence stand. -/
abbrev Places (α : Type) [BEq α] [Hashable α] : Type :=
  Std.HashMap α (List Nat)

/-- The places of each element of a sequence, in order. -/
def Places.ofList (sequence : List α) : Places α :=
  sequence.zipIdx.foldr
    (fun (element, place) found => found.insert element (place :: found.getD element [])) ∅

/-- The places at which the elements of a new sequence can be in a run. -/
def Places.upTo (limit : Option Nat) (new : List α) : Places α :=
  (Places.ofList new).filter fun _ places => !limit.any (· < places.length)

/-- The places in a part of a sequence, counted from where it starts. -/
def placesIn (start size : Nat) (places : List Nat) : List Nat :=
  ((places.dropWhile (· < start)).takeWhile (· < start + size)).map (· - start)

/-- The size of the run that ends at a place, given the runs that end one old element earlier,
the first of them not before that place. -/
def sizeAt (place : Nat) : (previous : List (Nat × Nat)) → Nat
  | (last, size) :: _ => if last + 1 = place then size + 1 else 1
  | [] => 1

/-- The runs that end with an old element, each as its last place in the new sequence and its
size. `places` are those of the element, and `previous` are the runs that end one old
element earlier. -/
def endingRuns : (places : List Nat) → (previous : List (Nat × Nat)) → List (Nat × Nat)
  | [], _ => []
  | place :: rest, previous =>
      let previous := previous.dropWhile fun run => run.1 + 1 < place
      (place, sizeAt place previous) :: endingRuns rest previous

/-- The longer of a run and those that end with the old element at `oldEnd`. A run is
replaced by a longer one only, so the earliest of several stays. -/
def longerRun (oldEnd : Nat) (best : Run) : List (Nat × Nat) → Run
  | [] => best
  | (newEnd, size) :: rest =>
      let best := if best.size < size then ⟨oldEnd + 1 - size, newEnd + 1 - size, size⟩ else best
      longerRun oldEnd best rest

/-- The longest run, given the best one so far and those that end with the last old element.
The new sequence is the part of the places that starts at `start` and has `size` elements. -/
def longestFrom (places : Places α) (start size : Nat) (oldEnd : Nat) (best : Run)
    (runs : List (Nat × Nat)) : List α → Run
  | [] => best
  | element :: rest =>
      let runs := endingRuns (placesIn start size (places.getD element [])) runs
      longestFrom places start size (oldEnd + 1) (longerRun oldEnd best runs) runs rest

/-- How many elements two sequences have in common at their start. -/
def commonStart : List α → List α → Nat
  | first :: firsts, second :: seconds =>
      if first = second then commonStart firsts seconds + 1 else 0
  | _, _ => 0

/-- Extends a run over equal elements on both sides. -/
def Run.extend (old new : List α) (run : Run) : Run :=
  let left := commonStart (old.take run.oldStart).reverse (new.take run.newStart).reverse
  let right := commonStart (old.drop (run.oldStart + run.size)) (new.drop (run.newStart + run.size))
  ⟨run.oldStart - left, run.newStart - left, left + run.size + right⟩

/-- The longest run of two sequences, of which the new one starts at `start` among the
places. -/
def longestRun (places : Places α) (start : Nat) (old new : List α) : Run :=
  (longestFrom places start new.length 0 ⟨0, 0, 0⟩ [] old).extend old new

/-- The elements of a run in the sequence where it starts at `start`. -/
def slice (sequence : List α) (start size : Nat) : List α :=
  (sequence.drop start).take size

/-- Whether a run is not empty, lies within both sequences and has equal elements in them. -/
def Run.Fits (old new : List α) (run : Run) : Prop :=
  0 < run.size ∧ run.oldStart + run.size ≤ old.length ∧ run.newStart + run.size ≤ new.length ∧
    slice old run.oldStart run.size = slice new run.newStart run.size

instance (old new : List α) (run : Run) : Decidable (run.Fits old new) :=
  inferInstanceAs (Decidable (_ ∧ _ ∧ _ ∧ _))

/-- The longest run of two sequences, if there is one. -/
def fittingRun? (places : Places α) (start : Nat) (old new : List α) :
    Option { run : Run // run.Fits old new } :=
  let run := longestRun places start old new
  if fits : run.Fits old new then some ⟨run, fits⟩ else none

/-- Aligns two sequences, of which the new one starts at `start` among the places. Where there
is no run, all is changed. -/
def align (places : Places α) (start : Nat) (old new : List α) : List (Segment α) :=
  match fittingRun? places start old new with
  | none => [.change old new]
  | some ⟨run, _fits⟩ =>
      align places start (old.take run.oldStart) (new.take run.newStart) ++
        .keep (slice old run.oldStart run.size) ::
        align places (start + run.newStart + run.size)
          (old.drop (run.oldStart + run.size)) (new.drop (run.newStart + run.size))
termination_by old.length + new.length
decreasing_by
  · obtain ⟨positive, oldBound, newBound, -⟩ := _fits
    simp only [List.length_take]
    omega
  · obtain ⟨positive, oldBound, newBound, -⟩ := _fits
    simp only [List.length_drop]
    omega

/-- Puts a part in front of a tidy script: an empty change is left out, and a kept part
is joined to the kept part behind it. -/
def Segment.join (segment : Segment α) (script : List (Segment α)) : List (Segment α) :=
  match segment, script with
  | .change [] [], script => script
  | .keep lines, .keep more :: rest => .keep (lines ++ more) :: rest
  | segment, script => segment :: script

/-- The tidy script between two sequences. Elements that occur in the new one more often than
a limit start no run. -/
def script (limit : Option Nat) (old new : List α) : List (Segment α) :=
  (align (.upTo limit new) 0 old new).foldr Segment.join []

end EditGate.Diff
