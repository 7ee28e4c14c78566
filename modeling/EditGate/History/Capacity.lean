import EditGate.Value.Numeric

/-!
# The capacity of a history

How many entries a file keeps. Any number that is at least one will do. Of a fraction the
whole part counts, and without an upper bound no entry ever makes room.
-/

namespace EditGate.History

/-- How many entries a file keeps. -/
structure Capacity where
  /-- The number as it was given. -/
  given : Value
  /-- How many entries fit, unless there is no bound. -/
  bound : Option Nat
  /-- There is room for at least one entry. -/
  bound_pos : ∀ most ∈ bound, 0 < most

namespace Capacity

/-- Room for a positive number of entries. -/
def ofNat (most : Nat) (positive : 0 < most) : Capacity :=
  { given := .int most
    bound := some most
    bound_pos := by
      intro other found
      cases found
      exact positive }

/-- Why a value is no capacity. -/
inductive Error where
  /-- It is no number. -/
  | notNumber
  /-- It is less than one. -/
  | tooSmall
deriving DecidableEq, Repr

/-- The wording of an error. -/
def Error.message : Error → String
  | notNumber => "History capacity must be a number"
  | tooSmall => "History capacity must be at least 1"

/-- A bound is never less than one. -/
theorem pos_of_mem_map_max (floor : Option Int) :
    ∀ most ∈ floor.map fun most => max 1 most.toNat, 0 < most := by
  intro most found
  obtain ⟨whole, _, rfl⟩ := Option.map_eq_some_iff.1 found
  omega

/-- The capacity that a value means. -/
def ofValue (given : Value) : Except Error Capacity :=
  match given.number? with
  | none => .error .notNumber
  | some number =>
      if number.less (.whole 1) then .error .tooSmall
      else .ok {
        given := given
        bound := number.floor?.map fun most => max 1 most.toNat
        bound_pos := pos_of_mem_map_max number.floor? }

/-- Whether stored entries can be cut to the capacity: only a whole number can be counted
off. -/
def isWhole (capacity : Capacity) : Bool :=
  capacity.given.whole?.isSome

variable {α : Type}

/-- The first items of a list, as many as fit. -/
def keep (capacity : Capacity) (items : List α) : List α :=
  match capacity.bound with
  | some most => items.take most
  | none => items

/-- Puts an item in front. If there are too many then, the last one makes room. -/
def takeIn (capacity : Capacity) (item : α) (items : List α) : List α :=
  if capacity.bound.any (· < items.length + 1) then (item :: items).dropLast else item :: items

/-- Whether the items of a list fit. -/
def Holds (capacity : Capacity) (items : List α) : Prop :=
  ∀ most ∈ capacity.bound, items.length ≤ most

variable {capacity : Capacity} {items : List α}

theorem holds_nil : capacity.Holds ([] : List α) :=
  fun _ _ => Nat.zero_le _

/-- As many items as fit do fit. -/
theorem holds_keep (capacity : Capacity) (items : List α) :
    capacity.Holds (capacity.keep items) := by
  intro most bounded
  rw [keep, Option.mem_def.1 bounded]
  exact List.length_take_le most items

theorem Holds.takeIn (holds : capacity.Holds items) (item : α) :
    capacity.Holds (capacity.takeIn item items) := by
  intro most bounded
  have room := holds most bounded
  rw [Capacity.takeIn, Option.mem_def.1 bounded, Option.any_some]
  split
  next => simpa using room
  next fits => simpa using fits

theorem Holds.drop (holds : capacity.Holds items) (count : Nat) :
    capacity.Holds (items.drop count) := by
  intro most bounded
  rw [List.length_drop]
  exact Nat.le_trans (Nat.sub_le _ _) (holds most bounded)

end Capacity

end EditGate.History
