import EditGate.Assoc
import Mathlib

/-!
# Keys of ordered associations

Which keys an association has after one of them was written or forgotten, and that an association
without a key that comes twice is determined by its pairs.
-/

namespace EditGate.Assoc

variable {κ α : Type}

theorem notMem_of_nodup_append {entry : κ × α} {before after : Assoc κ α}
    (distinct : ((before ++ entry :: after).map Prod.fst).Nodup) :
    entry.1 ∉ before.map Prod.fst := by
  intro earlier
  rw [List.map_append] at distinct
  exact (List.nodup_append.1 distinct).2.2 _ earlier _ List.mem_cons_self rfl

variable [DecidableEq κ]

theorem put_of_notMem {key : κ} {value : α} {entries : Assoc κ α}
    (new : key ∉ entries.map Prod.fst) : put key value entries = entries ++ [(key, value)] := by
  induction entries with
  | nil => rfl
  | cons entry rest ih =>
      rw [List.map_cons, List.mem_cons, not_or] at new
      rw [put, if_neg (Ne.symm new.1), ih new.2, List.cons_append]

theorem foldl_put_of_nodup {before pairs : Assoc κ α}
    (distinct : ((before ++ pairs).map Prod.fst).Nodup) :
    pairs.foldl (fun entries pair => put pair.1 pair.2 entries) before = before ++ pairs := by
  induction pairs generalizing before with
  | nil => simp
  | cons pair rest ih =>
      rw [List.foldl_cons, put_of_notMem (notMem_of_nodup_append distinct)]
      rw [List.append_cons] at distinct
      rw [List.append_cons before pair rest]
      exact ih distinct

/-- Pairs without a key that comes twice stay as they are. -/
theorem ofPairs_of_nodup {pairs : Assoc κ α} (distinct : (pairs.map Prod.fst).Nodup) :
    ofPairs pairs = pairs :=
  foldl_put_of_nodup distinct

theorem find?_of_mem {entries : Assoc κ α} (distinct : (entries.map Prod.fst).Nodup)
    {entry : κ × α} (among : entry ∈ entries) : find? entry.1 entries = some entry.2 := by
  induction entries with
  | nil => cases among
  | cons first rest ih =>
      rw [List.map_cons, List.nodup_cons] at distinct
      rcases List.mem_cons.1 among with rfl | behind
      · rw [find?, if_pos rfl]
      · have differs : first.1 ≠ entry.1 := by
          intro equal
          exact distinct.1 (equal ▸ List.mem_map_of_mem behind)
        rw [find?, if_neg differs, ih distinct.2 behind]

theorem put_put (key : κ) (value old : α) (entries : Assoc κ α) :
    put key value (put key old entries) = put key value entries := by
  induction entries with
  | nil => simp [put]
  | cons entry rest ih => by_cases same : entry.1 = key <;> simp [put, same, ih]

theorem map_fst_put (key : κ) (value : α) (entries : Assoc κ α) :
    (put key value entries).map Prod.fst =
      if key ∈ entries.map Prod.fst then entries.map Prod.fst
      else entries.map Prod.fst ++ [key] := by
  induction entries with
  | nil => rfl
  | cons entry rest ih =>
      rw [put]
      split
      next same => simp [same]
      next differs =>
        rw [List.map_cons, ih, List.map_cons]
        simp only [List.mem_cons, Ne.symm differs, false_or]
        split <;> rfl

theorem nodup_map_fst_put {key : κ} {value : α} {entries : Assoc κ α}
    (distinct : (entries.map Prod.fst).Nodup) :
    ((put key value entries).map Prod.fst).Nodup := by
  rw [map_fst_put]
  split
  · exact distinct
  next new =>
    refine List.nodup_append.2 ⟨distinct, List.nodup_singleton key, ?_⟩
    intro other among last isLast equal
    exact new ((equal.trans (List.mem_singleton.1 isLast)) ▸ among)

theorem map_fst_erase (key : κ) (entries : Assoc κ α) :
    (erase key entries).map Prod.fst = (entries.map Prod.fst).filter (· ≠ key) := by
  rw [erase, List.filter_map]
  rfl

end EditGate.Assoc
