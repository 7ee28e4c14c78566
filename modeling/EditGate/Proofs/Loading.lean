import EditGate.Gate
import EditGate.Proofs.Archive
import EditGate.Proofs.Files
import EditGate.Proofs.Octets
import Mathlib

/-!
# Saved histories are loaded

JSON is written in plain ASCII without carriage returns, so that its octets are read as the same
text. A gate that saves its history leaves a disk from which a gate of the same settings loads that
history; beside the file that holds it, only directories on the way there have come about.
-/

namespace EditGate

/-! ## Characters of JSON -/

/-- A character that is one octet and no line break to be changed. -/
def IsSafe (char : Char) : Prop :=
  char.toNat < 0x80 ∧ char ≠ '\r'

instance (char : Char) : Decidable (IsSafe char) :=
  inferInstanceAs (Decidable (_ ∧ _))

theorem isSafe_of_isDigit {char : Char} (digit : char.isDigit = true) : IsSafe char := by
  have bounds := Text.toNat_of_isDigit digit
  exact ⟨by omega, Value.ne_of_isDigit digit (by decide)⟩

theorem isSafe_of_all {chars : List Char} (all : chars.all (fun char => IsSafe char) = true) :
    ∀ char ∈ chars, IsSafe char := by
  simpa using all

namespace Value

theorem isSafe_escapeUnit {code : ℕ} (small : code < 0x10000) :
    ∀ char ∈ escapeUnit code, IsSafe char := by
  have digits : ∀ digit < 16, IsSafe (Nat.digitChar digit) := by decide
  rw [escapeUnit, hex_four small]
  simp only [List.forall_mem_cons]
  exact ⟨by decide, by decide, digits _ (by omega), digits _ (by omega), digits _ (by omega),
    digits _ (by omega), List.forall_mem_nil _⟩

theorem isSafe_escapeChar (char : Char) : ∀ escaped ∈ escapeChar char, IsSafe escaped := by
  have most := toNat_lt char
  rw [escapeChar]
  split
  · exact isSafe_of_all (by decide)
  split
  · exact isSafe_of_all (by decide)
  split
  · exact isSafe_of_all (by decide)
  split
  · exact isSafe_of_all (by decide)
  next notReturn =>
  split
  · exact isSafe_of_all (by decide)
  simp only
  split
  · exact isSafe_of_all (by decide)
  split
  · exact isSafe_of_all (by decide)
  split
  · exact isSafe_escapeUnit (by omega)
  split
  · intro other among
    rw [List.mem_singleton.1 among]
    exact ⟨by omega, notReturn⟩
  split
  · exact isSafe_escapeUnit (by omega)
  · rw [List.forall_mem_append]
    exact ⟨isSafe_escapeUnit (by omega), isSafe_escapeUnit (by omega)⟩

theorem isSafe_jsonString (text : String) : ∀ char ∈ jsonString text, IsSafe char := by
  rw [jsonString, List.cons_append, List.forall_mem_cons, List.forall_mem_append]
  refine ⟨by decide, ?_, isSafe_of_all (by decide)⟩
  intro char among
  obtain ⟨source, -, escaped⟩ := List.mem_flatMap.1 among
  exact isSafe_escapeChar source char escaped

theorem isSafe_toDigits (number : ℕ) : ∀ char ∈ Nat.toDigits 10 number, IsSafe char :=
  fun char among => isSafe_of_isDigit ((isWhole_toDigits number).digits char among)

theorem isSafe_int (number : ℤ) : ∀ char ∈ (toString number).toList, IsSafe char := by
  rw [toList_toString, List.forall_mem_append]
  refine ⟨?_, isSafe_toDigits number.natAbs⟩
  split
  · exact isSafe_of_all (by decide)
  · exact List.forall_mem_nil _

theorem isSafe_place {digits : List Char} (all : ∀ char ∈ digits, IsSafe char) (point : ℤ) :
    ∀ char ∈ Binary64.place digits point, IsSafe char := by
  have zero : IsSafe '0' := by decide
  have dot : IsSafe '.' := by decide
  have zeros : ∀ count, ∀ char ∈ List.replicate count '0', IsSafe char := by
    intro count char among
    rwa [List.eq_of_mem_replicate among]
  have some : ∀ count, ∀ char ∈ digits.take count, IsSafe char :=
    fun count char among => all char (List.mem_of_mem_take among)
  have others : ∀ count, ∀ char ∈ digits.drop count, IsSafe char :=
    fun count char among => all char (List.mem_of_mem_drop among)
  have power : ∀ char ∈ (toString (point - 1).natAbs).toList, IsSafe char := by
    rw [Nat.toString_eq_repr, Nat.toList_repr]
    exact isSafe_toDigits _
  have sign : IsSafe (if point - 1 < 0 then '-' else '+') := by
    split <;> decide
  rw [Binary64.place]
  split
  · split
    · simp only [List.cons_append, List.forall_mem_cons, List.forall_mem_append]
      exact ⟨zero, dot, zeros _, all⟩
    · split
      · simp only [List.forall_mem_append, List.forall_mem_cons]
        exact ⟨⟨all, zeros _⟩, dot, zero, List.forall_mem_nil _⟩
      · simp only [List.forall_mem_append, List.forall_mem_cons]
        exact ⟨some _, dot, others _⟩
  · simp only [List.forall_mem_append, List.forall_mem_cons]
    refine ⟨⟨some 1, ?_⟩, by decide, sign, ?_⟩
    · split
      · exact List.forall_mem_nil _
      · rw [List.forall_mem_cons]
        exact ⟨dot, others 1⟩
    · split
      · rw [List.forall_mem_cons]
        exact ⟨zero, power⟩
      · exact power

theorem isSafe_jsonFloat (number : Binary64) : ∀ char ∈ jsonFloat number, IsSafe char := by
  cases number with
  | infinite negative => cases negative <;> exact isSafe_of_all (by decide)
  | notANumber => exact isSafe_of_all (by decide)
  | finite negative mantissa exponent =>
      have stripped : ∀ digits, (∀ char ∈ digits, IsSafe char) →
          ∀ char ∈ (Binary64.stripZeros digits).1, IsSafe char := by
        intro digits all char among
        rw [Binary64.stripZeros, List.mem_reverse] at among
        exact all char (List.mem_reverse.1 (List.dropWhile_subset _ among))
      simp only [jsonFloat, Binary64.render, String.toList_ofList]
      have body : ∀ char ∈ (if mantissa = 0 then ['0', '.', '0'] else
          Binary64.place (Binary64.stripZeros (Nat.toDigits 10
            (Binary64.shortest mantissa exponent).digits)).1
            ((Binary64.shortest mantissa exponent).exponent +
              ((Binary64.stripZeros (Nat.toDigits 10
                (Binary64.shortest mantissa exponent).digits)).2 : ℤ) +
              ((Binary64.stripZeros (Nat.toDigits 10
                (Binary64.shortest mantissa exponent).digits)).1.length : ℤ))), IsSafe char := by
        split
        · exact isSafe_of_all (by decide)
        · exact isSafe_place (stripped _ (isSafe_toDigits _)) _
      split
      · rw [List.forall_mem_cons]
        exact ⟨by decide, body⟩
      · exact body

theorem Layout.isSafe_lead (layout : Layout) : ∀ char ∈ layout.lead, IsSafe char := by
  cases layout with
  | compact => exact List.forall_mem_nil _
  | indented depth =>
      rw [lead, List.forall_mem_cons]
      refine ⟨by decide, fun char among => ?_⟩
      rw [List.eq_of_mem_replicate among]
      decide

theorem Layout.isSafe_separator (layout : Layout) : ∀ char ∈ layout.separator, IsSafe char := by
  cases layout with
  | compact => exact isSafe_of_all (by decide)
  | indented depth =>
      rw [separator, List.forall_mem_cons]
      exact ⟨by decide, isSafe_lead _⟩

theorem isSafe_intercalate {separator : List Char} (apart : ∀ char ∈ separator, IsSafe char)
    {parts : List (List Char)} (all : ∀ part ∈ parts, ∀ char ∈ part, IsSafe char) :
    ∀ char ∈ separator.intercalate parts, IsSafe char := by
  induction parts with
  | nil => exact List.forall_mem_nil _
  | cons part rest ih =>
      cases rest with
      | nil =>
          rw [List.intercalate_singleton]
          exact all part List.mem_cons_self
      | cons next others =>
          rw [List.intercalate_cons_cons, List.forall_mem_append, List.forall_mem_append]
          exact ⟨⟨all part List.mem_cons_self, apart⟩,
            ih fun other among => all other (List.mem_cons_of_mem _ among)⟩

theorem isSafe_enclose {layout : Layout} {opening closing : Char} (opens : IsSafe opening)
    (closes : IsSafe closing) {parts : List (List Char)}
    (all : ∀ part ∈ parts, ∀ char ∈ part, IsSafe char) :
    ∀ char ∈ enclose layout opening closing parts, IsSafe char := by
  cases parts with
  | nil =>
      simp only [enclose, List.forall_mem_cons]
      exact ⟨opens, closes, List.forall_mem_nil _⟩
  | cons part others =>
      rw [← List.append_nil (enclose _ _ _ _), enclose_cons]
      simp only [List.forall_mem_cons, List.forall_mem_append]
      exact ⟨opens, layout.deeper.isSafe_lead,
        isSafe_intercalate layout.deeper.isSafe_separator all, layout.isSafe_lead, closes,
        List.forall_mem_nil _⟩

/-- The JSON of plain data has only safe characters. -/
theorem IsPlain.isSafe_json {depth : ℕ} {value : Value} (plain : IsPlain depth value)
    (layout : Layout) : ∀ char ∈ value.json layout, IsSafe char := by
  induction plain generalizing layout with
  | null =>
      rw [json]
      exact isSafe_of_all (by decide)
  | bool _ flag =>
      rw [json]
      cases flag <;> exact isSafe_of_all (by decide)
  | @int _ number _ =>
      rw [json]
      exact isSafe_int number
  | @float _ number _ =>
      rw [json]
      exact isSafe_jsonFloat number
  | str _ text =>
      rw [json]
      exact isSafe_jsonString text
  | list _ ih =>
      rw [json, jsonItems_eq_map]
      apply isSafe_enclose (by decide) (by decide)
      rw [List.forall_mem_map]
      exact fun item among => ih item among layout.deeper
  | object _ _ ih =>
      rw [json, jsonFields_eq_map]
      apply isSafe_enclose (by decide) (by decide)
      rw [List.forall_mem_map]
      intro field among
      simp only [jsonField, List.forall_mem_append, List.forall_mem_cons]
      exact ⟨isSafe_jsonString field.1, by decide, by decide, ih field among layout.deeper⟩

end Value

namespace Utf8

/-! ## Line breaks -/

theorem normalizeBreaks_of_isSafe {chars : List Char} (safe : ∀ char ∈ chars, IsSafe char) :
    normalizeBreaks chars = chars := by
  induction chars with
  | nil => rfl
  | cons char rest ih =>
      rw [List.forall_mem_cons] at safe
      rw [normalizeBreaks, if_neg safe.1.2, ih safe.2]
      rintro tail rfl
      exact absurd rfl safe.1.2

end Utf8

namespace Disk

/-! ## Directories on the way -/

variable {disk after : Disk} {path : Path}

/-- From one disk to another, only directories have come about. -/
def Grows (before after : Disk) : Prop :=
  ∀ place, after.item? place = before.item? place ∨
    before.item? place = none ∧ after.item? place = some .directory

theorem Grows.refl (disk : Disk) : Grows disk disk :=
  fun _ => Or.inl rfl

theorem Grows.trans {first second third : Disk} (grows : Grows first second)
    (further : Grows second third) : Grows first third := by
  intro place
  rcases grows place with same | ⟨missing, made⟩
  · rw [← same]
    exact further place
  · rcases further place with same | ⟨gone, -⟩
    · exact Or.inr ⟨missing, same.trans made⟩
    · rw [gone] at made
      cases made

theorem grows_put (missing : disk.item? path = none) : Grows disk (disk.put path .directory) := by
  intro place
  by_cases same : place = path
  · subst same
    have nonempty : place ≠ [] := by
      rintro rfl
      cases missing
    exact Or.inr ⟨missing, item?_put_self nonempty _⟩
  · exact Or.inl (item?_put_of_ne same _)

theorem grows_of_makeDirectory {base : Path} {route : Route}
    (made : disk.makeDirectory base route = .ok after) : Grows disk after := by
  rw [makeDirectory] at made
  split at made
  · split at made
    · cases made
      exact .refl disk
    · cases made
    next missing =>
      cases made
      exact grows_put missing
  · cases made

theorem grows_makeDirectoriesTo (disk : Disk) (base : Path) (route : Route) (count : ℕ) :
    Grows disk (disk.makeDirectoriesTo base route count).1 := by
  induction count with
  | zero => exact .refl disk
  | succ count ih =>
      rw [makeDirectoriesTo]
      split
      next made => exact grows_of_makeDirectory made
      · split
        next failed =>
          rw [failed] at ih
          exact ih
        next shorter =>
          rw [shorter] at ih
          split
          next made => exact ih.trans (grows_of_makeDirectory made)
          · exact ih
      · exact .refl disk

theorem grows_makeDirectories (disk : Disk) (base : Path) (route : Route) :
    Grows disk (disk.makeDirectories base route).1 :=
  grows_makeDirectoriesTo disk base route _

/-- A walk leads to the same place on a disk that keeps the directories. -/
theorem walk_of_directories {parts : List String} {start finish : Path}
    (kept : ∀ place, disk.item? place = some .directory → after.item? place = some .directory)
    (walked : disk.walk start parts = .ok finish) : after.walk start parts = .ok finish := by
  induction parts generalizing start with
  | nil => exact walked
  | cons part rest ih =>
      rw [walk] at walked ⊢
      split at walked
      next directory =>
        rw [kept start directory]
        simp only
        split at walked
        · cases walked
        next short =>
          rw [if_neg short]
          exact ih walked
      · cases walked
      · cases walked

theorem locate_of_directories {route : Route}
    (kept : ∀ place, disk.item? place = some .directory → after.item? place = some .directory)
    (located : disk.locate [] route = .ok path) : after.locate [] route = .ok path := by
  rw [locate] at located ⊢
  split at located
  · cases located
  next nameable =>
    rw [if_neg nameable]
    split at located
    · cases located
    next short =>
      rw [if_neg short]
      exact walk_of_directories kept located

/-- Where a route leads, whatever exists on the way. -/
theorem eq_resolve_of_locate {route : Route} (absolute : route.isAbsolute = true)
    (located : disk.locate [] route = .ok path) : path = route.resolve [] := by
  rw [locate] at located
  split at located
  · cases located
  · split at located
    · cases located
    · rw [Route.under, if_pos absolute] at located
      rw [walk_eq_ok located, Route.resolve, if_pos absolute]

/-- A file that was written is found again. -/
theorem lookup_of_write {route : Route} {octets : List UInt8}
    (wrote : disk.write [] route octets = .ok after) :
    ∃ place, disk.locate [] route = .ok place ∧ disk.item? place ≠ some .directory ∧
      after = disk.put place (.file octets) ∧ after.lookup [] route = .ok (.file octets) := by
  rw [write] at wrote
  split at wrote
  next place located =>
    split at wrote
    · cases wrote
    next notDirectory =>
      cases wrote
      have differs : disk.item? place ≠ some .directory := notDirectory
      refine ⟨place, located, differs, rfl, lookup_eq_ok_iff.2 ⟨place, ?_, ?_⟩⟩
      · apply locate_of_directories _ located
        intro other directory
        have different : other ≠ place := by
          rintro rfl
          exact differs directory
        rw [item?_put_of_ne different, directory]
      · exact item?_put_self (ne_nil_of_item? differs) _
  · cases wrote

end Disk

namespace Gate

/-! ## Saving and loading -/

theorem isAbsolute_historyRoute (gate : Gate) : gate.historyRoute.isAbsolute = true := by
  rw [historyRoute, Route.under]
  split
  next absolute => exact absolute
  · rfl

/-- All that can come of saving a history: directories on the way come about. Then it fails on
every device, or the file can be written, and what comes of it is for the device to say. -/
theorem saveOn_cases (gate : Gate) (disk : Disk) :
    ∃ middle, Disk.Grows disk middle ∧
      ((∃ cause, ∀ device, gate.saveOn device disk = (middle, .error cause)) ∨
        ∃ text, gate.history.toText? = some text ∧
          middle.item? gate.historyPath ≠ some .directory ∧
          (middle.put gate.historyPath (.file (Utf8.encode text))).lookup [] gate.historyRoute =
            .ok (.file (Utf8.encode text)) ∧
          ∀ device, gate.saveOn device disk = gate.deliver middle (Utf8.encode text)
            (device gate.historyPath (Utf8.encode text))) := by
  have grows := Disk.grows_makeDirectories disk [] gate.historyRoute.parent
  simp only [saveOn]
  rcases made : disk.makeDirectories [] gate.historyRoute.parent with ⟨middle, cause | ⟨⟩⟩
  · rw [made] at grows
    exact ⟨middle, grows, .inl ⟨.disk cause, fun _ => rfl⟩⟩
  · rw [made] at grows
    refine ⟨middle, grows, ?_⟩
    cases stored : gate.history.toText? with
    | none => exact .inl ⟨.unwritable, fun _ => rfl⟩
    | some text =>
    cases wrote : middle.write [] gate.historyRoute (Utf8.encode text) with
    | error cause => exact .inl ⟨.disk cause, fun _ => by simp only [wrote]⟩
    | ok written =>
        obtain ⟨place, located, notDirectory, rfl, found⟩ := Disk.lookup_of_write wrote
        obtain rfl : place = gate.historyPath :=
          Disk.eq_resolve_of_locate gate.isAbsolute_historyRoute located
        exact .inr ⟨text, rfl, notDirectory, found, fun _ => by simp only [wrote]⟩

/-- A gate that saved its history: directories on the way have come about, and then the file. -/
theorem save_eq_ok {gate : Gate} {disk after : Disk} (saved : gate.save disk = (after, .ok ())) :
    ∃ middle text, Disk.Grows disk middle ∧ gate.history.toText? = some text ∧
      middle.item? gate.historyPath ≠ some .directory ∧
      after = middle.put gate.historyPath (.file (Utf8.encode text)) ∧
      after.lookup [] gate.historyRoute = .ok (.file (Utf8.encode text)) := by
  rw [save] at saved
  obtain ⟨middle, grows, ⟨cause, failed⟩ | ⟨text, stored, notDirectory, found, delivered⟩⟩ :=
    gate.saveOn_cases disk
  · rw [failed] at saved
    cases saved
  · rw [delivered] at saved
    obtain rfl : _ = after := congrArg Prod.fst saved
    exact ⟨middle, text, grows, stored, notDirectory, rfl, found⟩

/-- What is saved on a device is saved where nothing breaks off. -/
theorem save_of_saveOn {gate : Gate} {device : Disk.Device} {disk after : Disk}
    (saved : gate.saveOn device disk = (after, .ok ())) : gate.save disk = (after, .ok ()) := by
  rw [save]
  obtain ⟨middle, grows, ⟨cause, failed⟩ | ⟨text, stored, notDirectory, found, delivered⟩⟩ :=
    gate.saveOn_cases disk
  · rw [failed] at saved
    cases saved
  · rw [delivered] at saved ⊢
    cases came : device gate.historyPath (Utf8.encode text) with
    | whole => rwa [came] at saved
    | cut count reason =>
        rw [came] at saved
        cases count <;> cases saved

theorem holds_of_lookup {disk : Disk} {route : Route} {item : Disk.Item}
    (found : disk.lookup [] route = .ok item) : disk.holds [] route = .ok true := by
  rw [Disk.holds, found]

/-- What a gate makes of the text in the history file. -/
theorem load_of_lookup {gate : Gate} {disk : Disk} {text : List Char}
    (found : disk.lookup [] gate.historyRoute = .ok (.file (Utf8.encode text))) (nesting : ℕ) :
    gate.load nesting disk =
      gate.takeOver (gate.history.restore nesting (Utf8.normalizeBreaks text)) := by
  have octets : disk.read [] gate.historyRoute = .ok (Utf8.encode text) :=
    Disk.read_eq_ok_iff.2 found
  simp only [load, holds_of_lookup found, octets, Utf8.decode_encode, Except.mapError, bind,
    Except.bind, if_true]

end Gate

theorem History.toText_eq_json (history : History) :
    history.toText = history.toValue.json (.indented 0) := by
  rw [toText, Value.toIndentedJson, String.toList_ofList]

/-- What a gate saved is what a gate of the same settings finds, if it is plain data. -/
theorem Gate.load_of_save_plain {gate saver : Gate} {disk after : Disk} {nesting : ℕ}
    (saved : saver.save disk = (after, .ok ())) (route : gate.historyRoute = saver.historyRoute)
    (plain : saver.history.toValue.IsPlain nesting) :
    gate.load nesting after =
      gate.takeOver (gate.history.restoreValue saver.history.toValue) := by
  obtain ⟨middle, text, -, stored, -, -, found⟩ := save_eq_ok saved
  obtain ⟨-, rfl⟩ := History.toText?_eq_some stored
  rw [← route, History.toText_eq_json] at found
  rw [load_of_lookup found, Utf8.normalizeBreaks_of_isSafe (plain.isSafe_json _), History.restore,
    Value.ofJsonChars_json plain]

/-- What a gate saved, a gate of the same settings loads. -/
theorem Gate.load_of_save {gate saver : Gate} {disk after : Disk} {nesting : ℕ}
    (deep : History.levels ≤ nesting) (saved : saver.save disk = (after, .ok ()))
    (storable : saver.history.IsStorable) (route : gate.historyRoute = saver.historyRoute)
    (capacity : gate.history.capacity = saver.history.capacity) :
    gate.load nesting after = .ok ({ gate with history := saver.history }, true) := by
  obtain ⟨middle, text, -, stored, -, -, -⟩ := save_eq_ok saved
  obtain ⟨writable, -⟩ := History.toText?_eq_some stored
  obtain ⟨-, entries⟩ := storable.isWritable_iff_entries.1 writable
  rw [load_of_save_plain saved route ((storable.isPlain_toValue writable).mono deep),
    storable.restoreValue_toValue (fun file among entry inside =>
      (entries file among entry inside).2) (capacity ▸ storable.whole),
    History.readBy_eq_self capacity, takeOver]

end EditGate
