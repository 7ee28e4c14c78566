/-!
# Ordered associations

Finite maps as lists of pairs that keep the order in which their keys were first
written. Writing a key again replaces its value and leaves it in its place.
-/

namespace EditGate

/-- Pairs of keys and values, in the order of their first writing. -/
abbrev Assoc (κ : Type) (α : Type) := List (κ × α)

namespace Assoc

variable {κ α : Type} [DecidableEq κ]

/-- The value of a key. -/
def find? (key : κ) : Assoc κ α → Option α
  | [] => none
  | (other, value) :: rest => if other = key then some value else find? key rest

/-- Writes a key: in its old place if it has one, else at the end. -/
def put (key : κ) (value : α) : Assoc κ α → Assoc κ α
  | [] => [(key, value)]
  | (other, old) :: rest =>
      if other = key then (key, value) :: rest else (other, old) :: put key value rest

/-- Forgets a key. -/
def erase (key : κ) (entries : Assoc κ α) : Assoc κ α :=
  entries.filter fun entry => entry.1 ≠ key

/-- Writes pairs one after the other, so that the last value of a key counts. -/
def ofPairs (pairs : List (κ × α)) : Assoc κ α :=
  pairs.foldl (fun entries pair => put pair.1 pair.2 entries) []

/-- Reading back a key that was just written. -/
@[simp] theorem find?_put_self (key : κ) (value : α) (entries : Assoc κ α) :
    find? key (put key value entries) = some value := by
  induction entries with
  | nil => simp [put, find?]
  | cons entry rest ih =>
      obtain ⟨other, old⟩ := entry
      by_cases same : other = key <;> simp [put, find?, same, ih]

/-- Writing one key leaves the others alone. -/
@[simp] theorem find?_put_of_ne {key other : κ} (different : other ≠ key) (value : α)
    (entries : Assoc κ α) : find? other (put key value entries) = find? other entries := by
  induction entries with
  | nil => simp [put, find?, Ne.symm different]
  | cons entry rest ih =>
      obtain ⟨first, old⟩ := entry
      by_cases same : first = key
      · subst same
        simp [put, find?, Ne.symm different]
      · simp [put, find?, same, ih]

theorem erase_cons (key other : κ) (value : α) (rest : Assoc κ α) :
    erase key ((other, value) :: rest) =
      if other = key then erase key rest else (other, value) :: erase key rest := by
  by_cases same : other = key
  · rw [if_pos same]
    exact List.filter_cons_of_neg (by simp [same])
  · rw [if_neg same]
    exact List.filter_cons_of_pos (by simp [same])

/-- A key that was forgotten has no value. -/
@[simp] theorem find?_erase_self (key : κ) (entries : Assoc κ α) :
    find? key (erase key entries) = none := by
  induction entries with
  | nil => rfl
  | cons entry rest ih =>
      obtain ⟨other, value⟩ := entry
      by_cases same : other = key <;> simp [erase_cons, find?, same, ih]

/-- Forgetting one key leaves the others alone. -/
@[simp] theorem find?_erase_of_ne {key other : κ} (different : other ≠ key)
    (entries : Assoc κ α) : find? other (erase key entries) = find? other entries := by
  induction entries with
  | nil => rfl
  | cons entry rest ih =>
      obtain ⟨first, value⟩ := entry
      by_cases same : first = key
      · subst same
        simp [erase_cons, find?, Ne.symm different, ih]
      · simp [erase_cons, find?, same, ih]

/-- What is found is among the pairs. -/
theorem mem_of_find? {key : κ} {value : α} {entries : Assoc κ α}
    (found : find? key entries = some value) : (key, value) ∈ entries := by
  induction entries with
  | nil => cases found
  | cons first rest ih =>
      rw [find?] at found
      split at found
      next same =>
        cases found
        exact same ▸ List.mem_cons_self
      next => exact List.mem_cons_of_mem _ (ih found)

/-- Writing a key brings one pair. -/
theorem mem_of_mem_put {key : κ} {value : α} {entries : Assoc κ α} {entry : κ × α}
    (among : entry ∈ put key value entries) : entry = (key, value) ∨ entry ∈ entries := by
  induction entries with
  | nil => exact Or.inl (List.mem_singleton.1 among)
  | cons first rest ih =>
      rw [put] at among
      split at among
      · rcases List.mem_cons.1 among with rfl | behind
        · exact Or.inl rfl
        · exact Or.inr (List.mem_cons_of_mem _ behind)
      · rcases List.mem_cons.1 among with rfl | behind
        · exact Or.inr List.mem_cons_self
        · exact (ih behind).imp_right (List.mem_cons_of_mem _)

end Assoc

end EditGate
