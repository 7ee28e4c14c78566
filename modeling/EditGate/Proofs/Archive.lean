import EditGate.History.Archive
import EditGate.Proofs.Json
import EditGate.Proofs.Reversal
import EditGate.Proofs.UndoStack
import Mathlib

/-!
# Stored histories read back

A history that was built up by commits, rollbacks, forgetting and reading back is itself read back
from the text that it is stored as: with the same heads, and with as many of the latest entries of
each file as the reader has room for. A reader of the same capacity gets the very history.
-/

namespace EditGate.Diff.Recipe

variable {α : Type}

/-! ## Recipes -/

/-- Lines whose places ascend, from a given one on. -/
def Ascends (least : ℕ) (entries : Assoc Int α) : Prop :=
  (∀ entry ∈ entries, (least : ℤ) ≤ entry.1) ∧
    entries.Pairwise fun first second => first.1 < second.1

theorem Ascends.mono {least less : ℕ} {entries : Assoc Int α} (ascends : Ascends least entries)
    (below : less ≤ least) : Ascends less entries := by
  refine ⟨fun entry among => ?_, ascends.2⟩
  have bound := ascends.1 entry among
  omega

theorem ascends_numbered_append {start : ℕ} {lines : List α} {later : Assoc Int α}
    (ascends : Ascends (start + lines.length) later) :
    Ascends start (numbered start lines ++ later) := by
  induction lines generalizing start with
  | nil => exact ascends
  | cons line rest ih =>
      rw [List.length_cons, ← Nat.add_assoc, Nat.add_right_comm] at ascends
      have tail := ih ascends
      constructor
      · intro entry among
        rcases List.mem_cons.1 among with rfl | behind
        · exact le_refl _
        · have bound := tail.1 entry behind
          omega
      · refine List.pairwise_cons.2 ⟨fun entry behind => ?_, tail.2⟩
        have bound := tail.1 entry behind
        simp only
        omega

/-- The places of a script ascend. -/
theorem ascends_ofScript (oldPlace newPlace : ℕ) (parts : List (Segment α)) :
    Ascends newPlace (ofScript oldPlace newPlace parts).additions ∧
      Ascends oldPlace (ofScript oldPlace newPlace parts).deletions ∧
      Ascends oldPlace (ofScript oldPlace newPlace parts).modifications := by
  induction parts generalizing oldPlace newPlace with
  | nil =>
      exact ⟨⟨List.forall_mem_nil _, .nil⟩, ⟨List.forall_mem_nil _, .nil⟩,
        ⟨List.forall_mem_nil _, .nil⟩⟩
  | cons segment rest ih =>
      cases segment with
      | keep lines =>
          obtain ⟨additions, deletions, modifications⟩ :=
            ih (oldPlace + lines.length) (newPlace + lines.length)
          exact ⟨additions.mono (by omega), deletions.mono (by omega),
            modifications.mono (by omega)⟩
      | change old new =>
          obtain ⟨additions, deletions, modifications⟩ :=
            ih (oldPlace + old.length) (newPlace + new.length)
          refine ⟨Ascends.mono (ascends_numbered_append ?_) (Nat.le_add_right _ _),
            Ascends.mono (ascends_numbered_append ?_) (Nat.le_add_right _ _),
            ascends_numbered_append ?_⟩
          · apply additions.mono
            rw [List.length_drop]
            omega
          · apply deletions.mono
            rw [List.length_drop]
            omega
          · apply modifications.mono
            rw [List.length_take]
            omega

/-- Lines that are read back from data: no place is written twice, and every line is a text. -/
structure HoldsTexts (entries : Assoc Int Value) : Prop where
  distinct : (entries.map Prod.fst).Nodup
  texts : ∀ entry ∈ entries, ∃ text, entry.2 = .str text

theorem Ascends.holdsTexts {least : ℕ} {entries : Assoc Int Line}
    (ascends : Ascends least entries) :
    HoldsTexts (entries.map fun entry => (entry.1, lineValue entry.2)) where
  distinct := by
    rw [List.map_map, List.Nodup, List.pairwise_map]
    exact ascends.2.imp fun below => ne_of_lt below
  texts := by
    intro entry among
    obtain ⟨line, _, rfl⟩ := List.mem_map.1 among
    exact ⟨_, rfl⟩

/-- A recipe that is read back from data. -/
structure IsStorable (recipe : Recipe Value) : Prop where
  additions : HoldsTexts recipe.additions
  deletions : HoldsTexts recipe.deletions
  modifications : HoldsTexts recipe.modifications

theorem isStorable_ofTexts (before after : List Char) :
    IsStorable ((ofTexts before after).map lineValue) := by
  obtain ⟨parts, -, recipe⟩ := ofTexts_eq_ofScript before after
  rw [recipe]
  obtain ⟨additions, deletions, modifications⟩ :=
    ascends_ofScript 0 0 (parts.foldr Segment.join [])
  exact ⟨additions.holdsTexts, deletions.holdsTexts, modifications.holdsTexts⟩

end EditGate.Diff.Recipe

namespace EditGate.Diff.Recipe

theorem toString_injective {first second : ℤ} (writable : Text.isWritable first = true)
    (others : Text.isWritable second = true) (equal : toString first = toString second) :
    first = second := by
  have read := Text.readInt?_toString writable
  rw [equal, Text.readInt?_toString others] at read
  exact (Option.some.inj read).symm

/-- Items that are all read back are read back as a list. -/
theorem mapM_map_eq_pure {m : Type → Type} [Monad m] [LawfulMonad m] {α β : Type} {read : β → m α}
    {write : α → β} {items : List α} (each : ∀ item ∈ items, read (write item) = pure item) :
    (items.map write).mapM read = pure items := by
  induction items with
  | nil => rfl
  | cons item rest ih =>
      rw [List.map_cons, List.mapM_cons, each item List.mem_cons_self,
        ih fun other among => each other (List.mem_cons_of_mem _ among)]
      simp

theorem readEntries_entriesValue {entries : Assoc Int Value} (holds : HoldsTexts entries)
    (writable : ∀ entry ∈ entries, Text.isWritable entry.1 = true) :
    readEntries (entriesValue entries) = .ok entries := by
  have read : (entries.map fun entry => (toString entry.1, entry.2)).mapM
      (fun field : String × Value => (Text.readInt? field.1.toList).map (·, field.2)) =
        some entries := by
    apply mapM_map_eq_pure
    intro entry among
    rw [Text.readInt?_toString (writable entry among)]
    rfl
  simp only [readEntries, entriesValue, read, Assoc.ofPairs_of_nodup holds.distinct]

theorem isPlain_entriesValue {entries : Assoc Int Value} (holds : HoldsTexts entries)
    (writable : ∀ entry ∈ entries, Text.isWritable entry.1 = true) :
    (entriesValue entries).IsPlain 1 := by
  refine .object ?_ ?_
  · have names : (entries.map fun entry => (toString entry.1, entry.2)).map Prod.fst =
        (entries.map Prod.fst).map toString := by simp
    rw [names]
    apply List.Nodup.map_on _ holds.distinct
    intro first firstAmong second secondAmong equal
    obtain ⟨entry, among, rfl⟩ := List.mem_map.1 firstAmong
    obtain ⟨other, otherAmong, rfl⟩ := List.mem_map.1 secondAmong
    exact toString_injective (writable entry among) (writable other otherAmong) equal
  · intro field among
    obtain ⟨entry, entryAmong, rfl⟩ := List.mem_map.1 among
    obtain ⟨text, isText⟩ := holds.texts entry entryAmong
    rw [isText]
    exact .str 0 text

variable {recipe : Recipe Value}

/-- The three parts of a recipe can be written if the recipe can. -/
theorem isWritable_parts (writable : recipe.isWritable = true) :
    (∀ entry ∈ recipe.additions, Text.isWritable entry.1 = true) ∧
      (∀ entry ∈ recipe.deletions, Text.isWritable entry.1 = true) ∧
      ∀ entry ∈ recipe.modifications, Text.isWritable entry.1 = true := by
  rw [isWritable, List.all_eq_true] at writable
  exact ⟨fun entry among => writable entry (by simp [among]),
    fun entry among => writable entry (by simp [among]),
    fun entry among => writable entry (by simp [among])⟩

theorem ofValue_object {fields : List (String × Value)}
    (additions : readEntries (((Value.object fields).field? "additions").getD (.object [])) =
      .ok recipe.additions)
    (deletions : readEntries (((Value.object fields).field? "deletions").getD (.object [])) =
      .ok recipe.deletions)
    (modifications :
      readEntries (((Value.object fields).field? "modifications").getD (.object [])) =
        .ok recipe.modifications)
    (ended : ((Value.object fields).fieldD "trailing_newline").isTruthy = recipe.endsLine) :
    ofValue (.object fields) = .ok recipe := by
  simp only [ofValue, additions, deletions, modifications, ended, bind, Except.bind]

theorem ofValue_toValue (storable : recipe.IsStorable) (writable : recipe.isWritable = true) :
    ofValue recipe.toValue = .ok recipe := by
  obtain ⟨additions, deletions, modifications⟩ := isWritable_parts writable
  have first := readEntries_entriesValue storable.additions additions
  have second := readEntries_entriesValue storable.deletions deletions
  have third := readEntries_entriesValue storable.modifications modifications
  have added : recipe.toValue.field? "additions" = some (entriesValue recipe.additions) := by
    simp [toValue, Value.field?, Assoc.find?]
  have deleted : recipe.toValue.field? "deletions" = some (entriesValue recipe.deletions) := by
    simp [toValue, Value.field?, Assoc.find?]
  have modified :
      recipe.toValue.field? "modifications" = some (entriesValue recipe.modifications) := by
    simp [toValue, Value.field?, Assoc.find?]
  have ended : recipe.toValue.fieldD "trailing_newline" = .bool recipe.endsLine := by
    simp [toValue, Value.fieldD, Value.field?, Assoc.find?]
  exact ofValue_object (by rw [← toValue, added]; exact first)
    (by rw [← toValue, deleted]; exact second) (by rw [← toValue, modified]; exact third)
    (by rw [← toValue, ended]; rfl)

theorem isPlain_toValue (storable : recipe.IsStorable) (writable : recipe.isWritable = true) :
    recipe.toValue.IsPlain 2 := by
  obtain ⟨additions, deletions, modifications⟩ := isWritable_parts writable
  refine .object (by simp) ?_
  simp only [List.forall_mem_cons]
  exact ⟨isPlain_entriesValue storable.additions additions,
    isPlain_entriesValue storable.deletions deletions,
    isPlain_entriesValue storable.modifications modifications, .bool 1 _, List.forall_mem_nil _⟩

end EditGate.Diff.Recipe

namespace EditGate.Edit

/-! ## Edits and entries -/

/-- An edit that is read back from data: its lines are whole numbers, and its new text, which a
deletion never looks at, is a text or other simple data. -/
structure IsStorable (edit : Edit) : Prop where
  last : edit.last = .null ∨ ∃ line, edit.last = .int line
  payload : edit.payload.IsPlain 1

variable {edit : Edit}

theorem ofName?_name (operation : Operation) :
    Operation.ofName? operation.name = some operation := by
  cases operation <;> decide +kernel

theorem ofValue_toValue (storable : edit.IsStorable) : ofValue edit.toValue = .ok edit := by
  obtain ⟨operation, first, last, payload⟩ := edit
  have named : Operation.ofValue? (.str operation.name) = some operation := ofName?_name operation
  rcases storable.last with rfl | ⟨line, rfl⟩
  · simp [ofValue, toValue, Value.field?, Value.fieldD, Assoc.find?, named]
  · simp [ofValue, toValue, Value.field?, Value.fieldD, Assoc.find?, named]

theorem isPlain_toValue (storable : edit.IsStorable) (writable : edit.toValue.isWritable = true) :
    edit.toValue.IsPlain 2 := by
  obtain ⟨operation, first, last, payload⟩ := edit
  simp only [toValue, Value.isWritable, Value.fieldsAreWritable, Bool.and_eq_true] at writable
  obtain ⟨-, firstWritable, lastWritable, -⟩ := writable
  refine .object (by simp) ?_
  simp only [List.forall_mem_cons]
  refine ⟨.str 1 _, .int 1 firstWritable, ?_, storable.payload, List.forall_mem_nil _⟩
  rcases storable.last with rfl | ⟨line, rfl⟩
  · exact .null 1
  · exact .int 1 lastWritable

end EditGate.Edit

namespace EditGate.History

/-- An entry that is read back from data. -/
structure Entry.IsStorable (entry : Entry) : Prop where
  timestamp : entry.timestamp.IsCanonical
  recipe : entry.recipe.IsStorable
  edit : ∀ edit ∈ entry.edit, edit.IsStorable

theorem Entry.isStorable_ofTexts {now : Binary64} (canonical : now.IsCanonical)
    (before after : List Char) {edit : Option Edit} (storable : ∀ given ∈ edit, given.IsStorable) :
    (ofTexts now before after edit).IsStorable :=
  ⟨canonical, Diff.Recipe.isStorable_ofTexts before after, storable⟩

theorem Entry.ofValue_toValue {entry : Entry} (storable : entry.IsStorable)
    (writable : entry.recipe.isWritable = true) : ofValue entry.toValue = .ok entry := by
  obtain ⟨timestamp, recipe, sizeCost, edit⟩ := entry
  have recipe_read := Diff.Recipe.ofValue_toValue storable.recipe writable
  cases edit with
  | none =>
      simp [ofValue, toValue, required, Value.field?, Value.fieldD, Assoc.find?, recipe_read,
        Value.toFloat, Value.toInt, Except.mapError, bind, Except.bind, editValue, Value.isTruthy]
  | some edit =>
      have edit_read := Edit.ofValue_toValue (storable.edit edit rfl)
      have truthy : edit.toValue.isTruthy = true := rfl
      simp [ofValue, toValue, required, Value.field?, Value.fieldD, Assoc.find?, recipe_read,
        Value.toFloat, Value.toInt, Except.mapError, bind, Except.bind, editValue, truthy,
        edit_read]

theorem Entry.isPlain_toValue {entry : Entry} (storable : entry.IsStorable)
    (places : entry.recipe.isWritable = true) (writable : entry.toValue.isWritable = true) :
    entry.toValue.IsPlain 3 := by
  obtain ⟨timestamp, recipe, sizeCost, edit⟩ := entry
  simp only [toValue, Value.isWritable, Value.fieldsAreWritable, Bool.and_eq_true] at writable
  obtain ⟨-, -, costWritable, editWritable, -⟩ := writable
  refine .object (by simp) ?_
  simp only [List.forall_mem_cons]
  refine ⟨.float 2 storable.timestamp, Diff.Recipe.isPlain_toValue storable.recipe places,
    .int 2 costWritable, ?_, List.forall_mem_nil _⟩
  cases edit with
  | none => exact .null 2
  | some edit => exact Edit.isPlain_toValue (storable.edit edit rfl) editWritable

/-! ## Histories -/

theorem Capacity.mem_of_mem_keep {α : Type} {capacity : Capacity} {items : List α} {item : α}
    (among : item ∈ capacity.keep items) : item ∈ items := by
  rw [keep] at among
  split at among
  · exact List.mem_of_mem_take among
  · exact among

/-- A history that is read back from the text it is stored as. -/
structure IsStorable (history : History) : Prop where
  /-- Every file that has entries has a head, and they come in the same order. -/
  aligned : history.heads.map Prod.fst = history.entries.map Prod.fst
  distinct : (history.entries.map Prod.fst).Nodup
  heads : ∀ file ∈ history.heads, ∃ text, file.2 = .str text
  entries : ∀ file ∈ history.entries, ∀ entry ∈ file.2, entry.IsStorable
  whole : history.capacity.isWhole = true

theorem mem_of_mem_entriesOf {history : History} {key : String} {entry : Entry}
    (among : entry ∈ history.entriesOf key) : ∃ file ∈ history.entries, entry ∈ file.2 := by
  rw [entriesOf] at among
  cases found : Assoc.find? key history.entries with
  | none => simp [found] at among
  | some entries => exact ⟨(key, entries), Assoc.mem_of_find? found, by simpa [found] using among⟩

theorem isStorable_empty {capacity : Capacity} (whole : capacity.isWhole = true) :
    (empty capacity).IsStorable where
  aligned := rfl
  distinct := .nil
  heads := List.forall_mem_nil _
  entries := List.forall_mem_nil _
  whole := whole

namespace IsStorable

variable {history : History}

/-- A file gets other entries and another head. -/
theorem write (storable : history.IsStorable) (key : String) {entries : List Entry}
    (each : ∀ entry ∈ entries, entry.IsStorable) (text : String)
    (holds : history.capacity.Holds entries) :
    (history.write key entries (.str text) holds).IsStorable where
  aligned := by
    simp only [History.write, Assoc.map_fst_put, storable.aligned]
  distinct := Assoc.nodup_map_fst_put storable.distinct
  heads := by
    intro file among
    rcases Assoc.mem_of_mem_put among with rfl | old
    · exact ⟨text, rfl⟩
    · exact storable.heads file old
  entries := by
    intro file among
    rcases Assoc.mem_of_mem_put among with rfl | old
    · exact each
    · exact storable.entries file old
  whole := storable.whole

theorem of_mem_entriesOf (storable : history.IsStorable) {key : String} {entry : Entry}
    (among : entry ∈ history.entriesOf key) : entry.IsStorable := by
  obtain ⟨file, found, inside⟩ := mem_of_mem_entriesOf among
  exact storable.entries file found entry inside

theorem record (storable : history.IsStorable) {now : Binary64} (canonical : now.IsCanonical)
    (key : String) (before after : List Char) {edit : Option Edit}
    (plain : ∀ given ∈ edit, given.IsStorable) :
    (history.record now key before after edit).IsStorable := by
  refine storable.write key ?_ _ ((history.holds_entriesOf key).takeIn _)
  intro entry among
  rw [(history.holds_entriesOf key).takeIn_eq] at among
  rcases List.mem_cons.1 (Capacity.mem_of_mem_keep among) with rfl | old
  · exact Entry.isStorable_ofTexts canonical before after plain
  · exact storable.of_mem_entriesOf old

theorem drop (storable : history.IsStorable) (key : String) (steps : ℕ) (text : List Char) :
    (history.drop key steps text).IsStorable :=
  storable.write key (fun _ among => storable.of_mem_entriesOf (List.mem_of_mem_drop among)) _ _

theorem forget (storable : history.IsStorable) (key : String) :
    (history.forget key).IsStorable where
  aligned := by
    simp only [History.forget, Assoc.map_fst_erase, storable.aligned]
  distinct := by
    simp only [History.forget, Assoc.map_fst_erase]
    exact storable.distinct.filter _
  heads := fun file among => storable.heads file (List.mem_of_mem_filter among)
  entries := fun file among => storable.entries file (List.mem_of_mem_filter among)
  whole := storable.whole

end IsStorable

/-- What a reader gets from a stored history: as many of the latest entries of each file as it has
room for, and the heads. -/
def readBy (source : History) (target : History) : History :=
  { target with
    entries := source.entries.map fun file => (file.1, target.capacity.keep file.2)
    heads := source.heads
    fits := by
      intro file among
      obtain ⟨old, _, rfl⟩ := List.mem_map.1 among
      exact target.capacity.holds_keep old.2 }

theorem IsStorable.readBy {source target : History} (storable : source.IsStorable)
    (whole : target.capacity.isWhole = true) : (source.readBy target).IsStorable where
  aligned := by
    simp [History.readBy, storable.aligned]
  distinct := by
    rw [History.readBy, List.map_map]
    exact storable.distinct
  heads := storable.heads
  entries := by
    intro file among entry inside
    obtain ⟨old, oldAmong, rfl⟩ := List.mem_map.1 among
    exact storable.entries old oldAmong entry (Capacity.mem_of_mem_keep inside)
  whole := whole

/-- A reader of the same capacity gets the history itself. -/
theorem readBy_eq_self {source target : History} (same : target.capacity = source.capacity) :
    source.readBy target = source := by
  refine History.ext same ?_ rfl
  have kept : ∀ file ∈ source.entries, (file.1, target.capacity.keep file.2) = file := by
    intro file among
    rw [same, (source.fits file among).keep_eq]
  exact (List.map_congr_left kept).trans (List.map_id _)

/-- A file of a history as data. -/
def fileValue (history : History) (file : String × List Entry) : String × Value :=
  (file.1, .object [("head", headValue (history.head? file.1)),
    ("entries", .list (file.2.map Entry.toValue))])

theorem toValue_eq (history : History) :
    history.toValue = .object [("capacity", history.capacity.given),
      ("files", .object (history.entries.map history.fileValue))] :=
  rfl

theorem field?_fileValue (history : History) (file : String × List Entry) :
    (history.fileValue file).2.fieldD "head" = headValue (history.head? file.1) ∧
      (history.fileValue file).2.field? "entries" = some (.list (file.2.map Entry.toValue)) := by
  simp [fileValue, Value.fieldD, Value.field?, Assoc.find?]

/-- The entries of a file are read back from data. -/
theorem readEntries_list {entries : List Entry} (each : ∀ entry ∈ entries, entry.IsStorable)
    (places : ∀ entry ∈ entries, entry.recipe.isWritable = true) :
    readEntries (.list (entries.map Entry.toValue)) = .ok entries := by
  rw [readEntries]
  apply Diff.Recipe.mapM_map_eq_pure
  intro entry among
  rw [Entry.ofValue_toValue (each entry among) (places entry among)]
  rfl

theorem readFiles_map {history : History} {capacity : Capacity} (whole : capacity.isWhole = true)
    {files : Assoc String (List Entry)}
    (each : ∀ file ∈ files, ∀ entry ∈ file.2, entry.IsStorable)
    (places : ∀ file ∈ files, ∀ entry ∈ file.2, entry.recipe.isWritable = true) :
    readFiles capacity (files.map history.fileValue) =
      .ok (files.map fun file => (file.1, capacity.keep file.2)) := by
  induction files with
  | nil => rfl
  | cons file rest ih =>
      have later := ih (fun other among => each other (List.mem_cons_of_mem _ among))
        fun other among => places other (List.mem_cons_of_mem _ among)
      have first := readEntries_list (each file List.mem_cons_self) (places file List.mem_cons_self)
      have found := (history.field?_fileValue file).2
      simp only [fileValue, Value.field?] at found
      rw [List.map_cons, fileValue, readFiles, found]
      simp only [Option.getD_some, first, later, whole, if_true, bind, Except.bind, List.map_cons]

theorem readHeads_cons {text : String} {file : String × Value} {files : List (String × Value)}
    (head : file.2.fieldD "head" = .str text) :
    readHeads (file :: files) = (file.1, .str text) :: readHeads files := by
  simp [readHeads, head]

theorem readHeads_map {history : History} {files : Assoc String (List Entry)}
    {heads : Assoc String Value} (aligned : heads.map Prod.fst = files.map Prod.fst)
    (found : ∀ head ∈ heads, history.head? head.1 = some head.2)
    (texts : ∀ head ∈ heads, ∃ text, head.2 = .str text) :
    readHeads (files.map history.fileValue) = heads := by
  induction heads generalizing files with
  | nil =>
      rw [List.map_nil, eq_comm, List.map_eq_nil_iff] at aligned
      rw [aligned]
      rfl
  | cons head others ih =>
      obtain ⟨file, rest, rfl⟩ := List.exists_cons_of_ne_nil
        (show files ≠ [] by rintro rfl; cases aligned)
      rw [List.map_cons, List.map_cons, List.cons.injEq] at aligned
      have later := ih aligned.2 (fun other among => found other (List.mem_cons_of_mem _ among))
        fun other among => texts other (List.mem_cons_of_mem _ among)
      obtain ⟨text, isText⟩ := texts head List.mem_cons_self
      have first := (history.field?_fileValue file).1
      rw [← aligned.1, found head List.mem_cons_self, isText] at first
      rw [List.map_cons, readHeads_cons first, later, ← isText]
      exact congrArg (· :: others) (Prod.ext aligned.1.symm rfl)

/-- A history is restored from its files if these can be read. -/
theorem restoreValue_of_readFiles {history next : History} {fields files : List (String × Value)}
    (found : (Assoc.find? "files" fields).getD (.object []) = .object files)
    (capacity : next.capacity = history.capacity)
    (read : readFiles history.capacity files = .ok next.entries)
    (heads : next.heads = readHeads files) :
    history.restoreValue (.object fields) = .ok next := by
  simp only [restoreValue, found]
  split
  next entries other =>
    rw [read] at other
    cases other
    exact congrArg Except.ok (History.ext capacity.symm rfl heads.symm)
  next cause other =>
    rw [read] at other
    cases other

/-- A history is read back from data. -/
theorem IsStorable.restoreValue_toValue {source : History} (storable : source.IsStorable)
    (places : ∀ file ∈ source.entries, ∀ entry ∈ file.2, entry.recipe.isWritable = true)
    {target : History} (whole : target.capacity.isWhole = true) :
    target.restoreValue source.toValue = .ok (source.readBy target) := by
  have distinct : (source.heads.map Prod.fst).Nodup := storable.aligned ▸ storable.distinct
  have heads := readHeads_map storable.aligned
    (fun head among => Assoc.find?_of_mem distinct among) storable.heads
  rw [toValue_eq]
  refine restoreValue_of_readFiles ?_ rfl (readFiles_map whole storable.entries places) heads.symm
  simp [Assoc.find?]

/-! ## Numbers that can be written -/

/-- The whole number that a value is, if it is one. -/
def wholeOf : Value → List ℤ
  | .int number => [number]
  | _ => []

/-- The whole numbers of a stored entry: its cost, the lines of its edit and the places of its
recipe. -/
def Entry.numbers (entry : Entry) : List ℤ :=
  entry.sizeCost :: (entry.edit.toList.flatMap (fun edit => edit.first :: wholeOf edit.last) ++
    (entry.recipe.additions ++ entry.recipe.deletions ++ entry.recipe.modifications).map Prod.fst)

/-- The whole numbers of a stored history: its capacity and those of its entries. -/
def numbers (history : History) : List ℤ :=
  wholeOf history.capacity.given ++
    history.entries.flatMap fun file => file.2.flatMap Entry.numbers

theorem isWritable_entriesValue {entries : Assoc Int Value}
    (holds : Diff.Recipe.HoldsTexts entries) :
    (Diff.Recipe.entriesValue entries).isWritable = true := by
  rw [Diff.Recipe.entriesValue, Value.isWritable, Value.fieldsAreWritable_iff]
  intro field among
  obtain ⟨entry, entryAmong, rfl⟩ := List.mem_map.1 among
  obtain ⟨text, isText⟩ := holds.texts entry entryAmong
  simp only [isText, Value.isWritable]

theorem isWritable_edit_iff {edit : Edit} (storable : edit.IsStorable) :
    edit.toValue.isWritable = true ↔
      ∀ number ∈ edit.first :: wholeOf edit.last, Text.isWritable number = true := by
  obtain ⟨operation, first, last, payload⟩ := edit
  have payload_writable : payload.isWritable = true := storable.payload.isWritable
  rcases storable.last with rfl | ⟨line, rfl⟩
  · simp [Edit.toValue, Value.isWritable, Value.fieldsAreWritable, wholeOf, payload_writable]
  · simp [Edit.toValue, Value.isWritable, Value.fieldsAreWritable, wholeOf, payload_writable]

/-- An entry can be written if its numbers can. -/
theorem Entry.isWritable_iff {entry : Entry} (storable : entry.IsStorable) :
    entry.toValue.isWritable = true ∧ entry.recipe.isWritable = true ↔
      ∀ number ∈ entry.numbers, Text.isWritable number = true := by
  have additions := isWritable_entriesValue storable.recipe.additions
  have deletions := isWritable_entriesValue storable.recipe.deletions
  have modifications := isWritable_entriesValue storable.recipe.modifications
  have edit : (editValue entry.edit).isWritable = true ↔
      ∀ number ∈ entry.edit.toList.flatMap (fun edit => edit.first :: wholeOf edit.last),
        Text.isWritable number = true := by
    cases given : entry.edit with
    | none => simp [editValue, Value.isWritable]
    | some edit => simpa [editValue] using isWritable_edit_iff (storable.edit edit given)
  have places : entry.recipe.isWritable = true ↔
      ∀ number ∈ (entry.recipe.additions ++ entry.recipe.deletions ++
        entry.recipe.modifications).map Prod.fst, Text.isWritable number = true := by
    rw [Diff.Recipe.isWritable, List.all_eq_true, List.forall_mem_map]
  rw [numbers, List.forall_mem_cons, List.forall_mem_append, ← edit, ← places]
  simp [toValue, Diff.Recipe.toValue, Value.isWritable, Value.fieldsAreWritable, additions,
    deletions, modifications, and_assoc]

theorem isWritable_iff_wholeOf {capacity : Capacity} (whole : capacity.isWhole = true) :
    capacity.given.isWritable = true ↔
      ∀ number ∈ wholeOf capacity.given, Text.isWritable number = true := by
  rw [Capacity.isWhole, Value.whole?] at whole
  cases given : capacity.given with
  | int number => simp [Value.isWritable, wholeOf]
  | bool flag => simp [Value.isWritable, wholeOf]
  | _ => simp [given, Value.number?] at whole

theorem IsStorable.exists_headValue_eq {history : History} (storable : history.IsStorable)
    {file : String × List Entry} (among : file ∈ history.entries) :
    ∃ text, headValue (history.head? file.1) = .str text := by
  have known : file.1 ∈ history.heads.map Prod.fst := by
    rw [storable.aligned]
    exact List.mem_map_of_mem among
  obtain ⟨head, headAmong, same⟩ := List.mem_map.1 known
  have distinct : (history.heads.map Prod.fst).Nodup := storable.aligned ▸ storable.distinct
  obtain ⟨text, isText⟩ := storable.heads head headAmong
  refine ⟨text, ?_⟩
  rw [head?, ← same, Assoc.find?_of_mem distinct headAmong, isText]
  rfl

/-- A history can be written if its capacity and its entries can. -/
theorem IsStorable.isWritable_iff_entries {history : History} (storable : history.IsStorable) :
    history.isWritable = true ↔ history.capacity.given.isWritable = true ∧
      ∀ file ∈ history.entries, ∀ entry ∈ file.2,
        entry.toValue.isWritable = true ∧ entry.recipe.isWritable = true := by
  simp only [isWritable, toValue_eq, Value.isWritable, Bool.and_eq_true, List.all_eq_true,
    Value.fieldsAreWritable_iff, List.forall_mem_cons, List.forall_mem_map, fileValue,
    Value.areWritable_iff]
  constructor
  · rintro ⟨⟨capacity, files, -⟩, places⟩
    exact ⟨capacity, fun file among entry inside =>
      ⟨(files file among).2.1 entry inside, places file among entry inside⟩⟩
  · rintro ⟨capacity, files⟩
    refine ⟨⟨capacity, fun file among => ⟨?_, fun entry inside => (files file among entry inside).1,
      List.forall_mem_nil _⟩, List.forall_mem_nil _⟩,
      fun file among entry inside => (files file among entry inside).2⟩
    obtain ⟨text, isText⟩ := storable.exists_headValue_eq among
    rw [isText]
    rfl

/-- A history can be written if its numbers can. -/
theorem IsStorable.isWritable_iff {history : History} (storable : history.IsStorable) :
    history.isWritable = true ↔ ∀ number ∈ history.numbers, Text.isWritable number = true := by
  rw [storable.isWritable_iff_entries, isWritable_iff_wholeOf storable.whole, numbers,
    List.forall_mem_append]
  simp only [List.mem_flatMap]
  constructor
  · rintro ⟨capacity, entries⟩
    refine ⟨capacity, ?_⟩
    rintro number ⟨file, among, entry, inside, numberAmong⟩
    exact (Entry.isWritable_iff (storable.entries file among entry inside)).1
      (entries file among entry inside) number numberAmong
  · rintro ⟨capacity, all⟩
    refine ⟨capacity, fun file among entry inside => ?_⟩
    exact (Entry.isWritable_iff (storable.entries file among entry inside)).2
      fun number numberAmong => all number ⟨file, among, entry, inside, numberAmong⟩

theorem isPlain_given {capacity : Capacity} (whole : capacity.isWhole = true)
    (writable : capacity.given.isWritable = true) (depth : ℕ) : capacity.given.IsPlain depth := by
  rw [Capacity.isWhole, Value.whole?] at whole
  cases given : capacity.given with
  | int number =>
      simp only [given, Value.isWritable] at writable
      exact .int depth writable
  | bool flag => exact .bool depth flag
  | _ => simp [given, Value.number?] at whole

/-- How deeply the data of a history are nested at most. -/
def levels : ℕ := 7

/-- A history whose numbers can be written is plain data. -/
theorem IsStorable.isPlain_toValue {history : History} (storable : history.IsStorable)
    (writable : history.isWritable = true) : history.toValue.IsPlain levels := by
  obtain ⟨capacity, entries⟩ := storable.isWritable_iff_entries.1 writable
  rw [toValue_eq]
  refine .object (by simp) ?_
  simp only [List.forall_mem_cons]
  refine ⟨isPlain_given storable.whole capacity 6, .object ?_ ?_, List.forall_mem_nil _⟩
  · rw [List.map_map]
    exact storable.distinct
  · intro field fieldAmong
    obtain ⟨file, among, rfl⟩ := List.mem_map.1 fieldAmong
    refine .object (by simp) ?_
    simp only [List.forall_mem_cons]
    refine ⟨?_, .list ?_, List.forall_mem_nil _⟩
    · obtain ⟨text, isText⟩ := storable.exists_headValue_eq among
      rw [isText]
      exact .str 4 text
    · intro value valueAmong
      obtain ⟨entry, inside, rfl⟩ := List.mem_map.1 valueAmong
      exact Entry.isPlain_toValue (storable.entries file among entry inside)
        (entries file among entry inside).2 (entries file among entry inside).1

/-- A history is read back from its text. -/
theorem IsStorable.restore_toText {source : History} (storable : source.IsStorable)
    (writable : source.isWritable = true) {target : History}
    (whole : target.capacity.isWhole = true) {nesting : ℕ} (deep : levels ≤ nesting) :
    target.restore nesting source.toText = .ok (source.readBy target) := by
  obtain ⟨-, entries⟩ := storable.isWritable_iff_entries.1 writable
  have read : Value.ofJsonChars nesting source.toText = .ok source.toValue := by
    rw [toText, Value.toIndentedJson, String.toList_ofList]
    exact Value.ofJsonChars_json ((storable.isPlain_toValue writable).mono deep) _
  rw [restore, read]
  exact storable.restoreValue_toValue
    (fun file among entry inside => (entries file among entry inside).2) whole

/-! ## Reached histories -/

/-- A history that was built up from an empty one: by commits with timestamps of the number format
and edits with whole lines and texts, by rollbacks, by forgetting, and by reading back what other
such histories were stored as. -/
inductive Reached : History → Prop where
  | empty {capacity : Capacity} : capacity.isWhole = true → Reached (.empty capacity)
  | record {history : History} {now : Binary64} {edit : Option Edit} (key : String)
      (before after : List Char) : Reached history → now.IsCanonical →
      (∀ given ∈ edit, given.IsStorable) → Reached (history.record now key before after edit)
  | rollback {history next : History} {key : String} {steps current : Value} {text : List Char} :
      Reached history → history.rollback key steps current = .ok (text, next) → Reached next
  | forget {history : History} (key : String) : Reached history → Reached (history.forget key)
  | forgetAll {history : History} : Reached history → Reached history.forgetAll
  | restore {history source next : History} {text : List Char} {nesting : ℕ} :
      Reached history → Reached source → source.toText? = some text → levels ≤ nesting →
      history.restore nesting text = .ok next → Reached next

theorem toText?_eq_some {history : History} {text : List Char}
    (stored : history.toText? = some text) : history.isWritable = true ∧ text = history.toText := by
  rw [toText?] at stored
  split at stored
  next writable => exact ⟨writable, (Option.some.inj stored).symm⟩
  next => cases stored

theorem toText?_eq_none_iff {history : History} :
    history.toText? = none ↔ history.isWritable = false := by
  rw [toText?]
  cases history.isWritable <;> simp

/-- A number cannot be written if it has more digits than may be written. -/
theorem not_isWritable_iff (number : ℤ) :
    ¬ Text.isWritable number = true ↔ 10 ^ Text.maxDigits ≤ number.natAbs := by
  rw [Text.isWritable, decide_eq_true_eq, not_lt, Nat.pow_eq]

/-- Whatever is reached can be read back. -/
theorem Reached.isStorable {history : History} (reached : Reached history) :
    history.IsStorable := by
  induction reached with
  | empty whole => exact isStorable_empty whole
  | record key before after _ canonical plain ih => exact ih.record canonical key before after plain
  | rollback _ restored ih =>
      obtain ⟨count, rfl⟩ := rollback_eq_ok restored
      exact ih.drop _ count _
  | forget key _ ih => exact ih.forget key
  | forgetAll _ ih => exact isStorable_empty ih.whole
  | restore _ _ stored deep read ih sourceIh =>
      obtain ⟨writable, rfl⟩ := toText?_eq_some stored
      rw [sourceIh.restore_toText writable ih.whole deep] at read
      cases read
      exact sourceIh.readBy ih.whole

/-- A reached history is stored unless one of its numbers has too many digits. From the text a
reader that allows for its levels gets the heads and the latest entries, as many as it has room for;
with the same capacity it gets the very history, which is stored as the same text. -/
theorem Reached.storage_roundTrip {source : History} (reached : Reached source) :
    (source.toText? = none ↔ ∃ number ∈ source.numbers, 10 ^ Text.maxDigits ≤ number.natAbs) ∧
      ∀ text, source.toText? = some text → ∀ target : History, target.capacity.isWhole = true →
        ∀ nesting ≥ levels, ∃ restored, target.restore nesting text = .ok restored ∧
          restored.capacity = target.capacity ∧
          restored.entries = source.entries.map (fun file =>
            (file.1, target.capacity.keep file.2)) ∧
          restored.heads = source.heads ∧
          (target.capacity = source.capacity →
            restored = source ∧ restored.toText? = some text) := by
  have storable := reached.isStorable
  constructor
  · rw [toText?_eq_none_iff, ← Bool.not_eq_true, storable.isWritable_iff]
    simp only [not_forall, exists_prop, not_isWritable_iff]
  · intro text stored target whole nesting deep
    obtain ⟨writable, rfl⟩ := toText?_eq_some stored
    refine ⟨source.readBy target, storable.restore_toText writable whole deep, rfl, rfl, rfl, ?_⟩
    intro same
    rw [readBy_eq_self same]
    exact ⟨rfl, stored⟩

namespace Sample

/-- The number one. -/
def now : Binary64 := .finite false 4503599627370496 (-52)

/-- The only line of a file was replaced, and then once more by someone who gave no edit. -/
def replaced : History :=
  ((History.empty (.ofNat 2 Nat.two_pos)).record now "main.lua" "a".toList "\u00e9".toList
    (some ⟨.replace, 1, .null, .str "\u00e9"⟩)).record now "main.lua" "\u00e9".toList
      "c".toList none

theorem reached_replaced : Reached replaced :=
  .record _ _ _ (.record _ _ _ (.empty rfl) (by decide) (by
    rintro given ⟨⟩
    exact ⟨Or.inl rfl, .str 1 _⟩)) (by decide) nofun

/-- The recipe for a text of one line that is replaced. -/
theorem ofTexts_line {before after : Char} (differ : [after] ≠ [before])
    (plain : Buffer.ofText [before] = ⟨[[before]], false⟩)
    (other : Buffer.ofText [after] = ⟨[[after]], false⟩) :
    Diff.Recipe.ofTexts [before] [after] = ⟨[], [], [(0, [before])], false⟩ := by
  rw [Diff.Recipe.ofTexts_of_disjoint (by simpa [plain, other] using differ), plain, other]
  rfl

theorem numbers_replaced : replaced.numbers = [2, 1, 0, 1, 1, 0] := by
  have first : Diff.Recipe.ofTexts "a".toList "\u00e9".toList = ⟨[], [], [(0, ['a'])], false⟩ :=
    ofTexts_line (by decide) (by decide +kernel) (by decide +kernel)
  have second : Diff.Recipe.ofTexts "\u00e9".toList "c".toList =
      ⟨[], [], [(0, ['\u00e9'])], false⟩ :=
    ofTexts_line (by decide) (by decide +kernel) (by decide +kernel)
  simp only [replaced, record, Entry.ofTexts, first, second]
  rfl

end Sample

/-- A file was changed twice; a reader with room for one entry gets the later one. -/
theorem Reached.storage_roundTrip_replaced :
    Reached Sample.replaced ∧ ∃ text restored, Sample.replaced.toText? = some text ∧
      (History.empty (.ofNat 1 Nat.one_pos)).restore levels text = .ok restored ∧
      restored.entries = Sample.replaced.entries.map (fun file => (file.1, file.2.take 1)) ∧
      restored.heads = Sample.replaced.heads := by
  refine ⟨Sample.reached_replaced, ?_⟩
  obtain ⟨stored, reads⟩ := Sample.reached_replaced.storage_roundTrip
  have few : ∀ number ∈ ([2, 1, 0, 1, 1, 0] : List ℤ), number.natAbs < 10 := by decide
  have least : 10 ≤ 10 ^ Text.maxDigits := Nat.le_self_pow (by decide) 10
  cases text : Sample.replaced.toText? with
  | none =>
      obtain ⟨number, among, large⟩ := stored.1 text
      rw [Sample.numbers_replaced] at among
      exact absurd (least.trans large) (not_le.2 (few number among))
  | some chars =>
      obtain ⟨restored, read, -, entries, heads, -⟩ :=
        reads chars text (History.empty (.ofNat 1 Nat.one_pos)) rfl levels (le_refl _)
      exact ⟨chars, restored, rfl, read, entries, heads⟩

/-- A history of too large a capacity is never stored. -/
theorem toText?_of_le_capacity {most : ℕ} (positive : 0 < most)
    (large : 10 ^ Text.maxDigits ≤ most) : (empty (.ofNat most positive)).toText? = none := by
  rw [toText?_eq_none_iff, ← Bool.not_eq_true, (isStorable_empty rfl).isWritable_iff]
  intro all
  exact (not_isWritable_iff most).2 large (all most List.mem_cons_self)

theorem not_stored_at_vast_capacity :
    Reached (empty (.ofNat (10 ^ Text.maxDigits) (Nat.pow_pos Nat.succ_pos'))) ∧
      (empty (.ofNat (10 ^ Text.maxDigits) (Nat.pow_pos Nat.succ_pos'))).toText? = none :=
  ⟨.empty rfl, toText?_of_le_capacity _ (le_refl _)⟩

end EditGate.History
