import EditGate.Proofs.Associations
import EditGate.Proofs.Numerals
import Mathlib

/-!
# JSON that reads back

A value of plain data that is written as JSON is read back as it is, in either layout: a string by
its escapes, a number by its digits, a list or object part by part. Plain data have only the kinds
that JSON tells apart, name every field of an object once, and hold only numbers that can be
written.
-/

namespace EditGate.Value

/-! ## Strings -/

theorem hex_four {code : ℕ} (small : code < 0x10000) :
    Text.hex 4 code = [(code / 4096).digitChar, (code / 256 % 16).digitChar,
      (code / 16 % 16).digitChar, (code % 16).digitChar] := by
  have digits : ∀ number, Nat.toDigits 16 number =
      if number < 16 then [number.digitChar] else
        Nat.toDigits 16 (number / 16) ++ [(number % 16).digitChar] :=
    fun number => Nat.toDigits_eq_if (by decide)
  have zero : '0' = (0 : ℕ).digitChar := rfl
  rw [Text.hex, digits code]
  split
  next one =>
    simp only [List.length_singleton, zero]
    rw [show code / 4096 = 0 by omega, show code / 256 % 16 = 0 by omega,
      show code / 16 % 16 = 0 by omega, show code % 16 = code by omega]
    rfl
  next more =>
    rw [digits (code / 16)]
    split
    next two =>
      rw [show code / 4096 = 0 by omega, show code / 256 % 16 = 0 by omega,
        show code / 16 % 16 = code / 16 by omega]
      rfl
    next more =>
      rw [digits (code / 16 / 16)]
      split
      next three =>
        rw [show code / 4096 = 0 by omega, show code / 256 % 16 = code / 16 / 16 by omega]
        rfl
      next more =>
        rw [digits (code / 16 / 16 / 16), if_pos (by omega),
          show code / 4096 = code / 16 / 16 / 16 by omega,
          show code / 256 % 16 = code / 16 / 16 % 16 by omega]
        rfl

theorem hexValue?_digitChar : ∀ digit < 16, hexValue? (Nat.digitChar digit) = some digit := by
  decide

theorem codeUnit?_hex {code : ℕ} (small : code < 0x10000) (rest : List Char) :
    codeUnit? (Text.hex 4 code ++ rest) = some (code, rest) := by
  rw [hex_four small]
  simp only [List.cons_append, List.nil_append, codeUnit?,
    hexValue?_digitChar (code / 4096) (by omega), hexValue?_digitChar (code / 256 % 16) (by omega),
    hexValue?_digitChar (code / 16 % 16) (by omega), hexValue?_digitChar (code % 16) (by omega)]
  have value : ((code / 4096 * 16 + code / 256 % 16) * 16 + code / 16 % 16) * 16 + code % 16 =
      code := by omega
  exact congrArg (fun code => some (code, rest)) value

/-- No character is half of a pair. -/
theorem toNat_lt_or_lt (char : Char) : char.toNat < 0xd800 ∨ 0xe000 ≤ char.toNat := by
  rcases char.valid with low | ⟨high, -⟩
  · exact Or.inl low
  · exact Or.inr high

theorem toNat_lt (char : Char) : char.toNat < 0x110000 := by
  rcases char.valid with low | ⟨-, high⟩
  · exact Nat.lt_trans low (by decide)
  · exact high

theorem unitChar_toNat (char : Char) (rest : List Char) :
    unitChar char.toNat rest = (some char, rest) := by
  have single := toNat_lt_or_lt char
  unfold unitChar
  rw [if_neg (by omega), if_neg (by omega), Char.ofNat_toNat]

theorem unitChar_of_codeUnit? {high low : ℕ} {rest after : List Char}
    (isHigh : 0xd800 ≤ high ∧ high < 0xdc00) (isLow : 0xdc00 ≤ low ∧ low < 0xe000)
    (read : codeUnit? rest = some (low, after)) :
    unitChar high ('\\' :: 'u' :: rest) =
      (some (Char.ofNat (0x10000 + (high - 0xd800) * 0x400 + (low - 0xdc00))), after) := by
  simp only [unitChar, if_pos isHigh, read, if_pos isLow]

theorem unitChar_pair {char : Char} (large : 0x10000 ≤ char.toNat) (rest : List Char) :
    unitChar (0xd800 + (char.toNat - 0x10000) / 0x400)
        (escapeUnit (0xdc00 + (char.toNat - 0x10000) % 0x400) ++ rest) = (some char, rest) := by
  have most := toNat_lt char
  set offset := char.toNat - 0x10000
  have high : 0xd800 ≤ 0xd800 + offset / 0x400 ∧ 0xd800 + offset / 0x400 < 0xdc00 := by omega
  have low : 0xdc00 ≤ 0xdc00 + offset % 0x400 ∧ 0xdc00 + offset % 0x400 < 0xe000 := by omega
  have whole : 0x10000 + (0xd800 + offset / 0x400 - 0xd800) * 0x400 +
      (0xdc00 + offset % 0x400 - 0xdc00) = char.toNat := by omega
  have second := codeUnit?_hex (show 0xdc00 + offset % 0x400 < 0x10000 by omega) rest
  rw [escapeUnit, List.cons_append, List.cons_append, unitChar_of_codeUnit? high low second,
    whole, Char.ofNat_toNat]

theorem stringBody?_unit (fuel : ℕ) {code : ℕ} (small : code < 0x10000) {char : Char}
    {rest after : List Char} (stands : unitChar code rest = (some char, after)) :
    stringBody? (fuel + 1) (escapeUnit code ++ rest) =
      (stringBody? fuel after).map fun (units, rest) => (some char :: units, rest) := by
  rw [escapeUnit, List.cons_append, List.cons_append, stringBody?, codeUnit?_hex small]
  simp only [Option.bind_eq_bind, Option.bind_some, stands]
  cases stringBody? fuel after <;> rfl

theorem stringBody?_mark (fuel : ℕ) {mark char : Char} (notUnit : mark ≠ 'u')
    (stands : escaped? mark = some char) (rest : List Char) :
    stringBody? (fuel + 1) ('\\' :: mark :: rest) =
      (stringBody? fuel rest).map fun (units, rest) => (some char :: units, rest) := by
  rw [stringBody?, stands]
  · simp only [Option.bind_eq_bind, Option.bind_some]
    cases stringBody? fuel rest <;> rfl
  · exact notUnit

theorem stringBody?_plain (fuel : ℕ) {char : Char} (notControl : 0x20 ≤ char.toNat)
    (notQuote : char ≠ '"') (notSlash : char ≠ '\\') (rest : List Char) :
    stringBody? (fuel + 1) (char :: rest) =
      (stringBody? fuel rest).map fun (units, rest) => (some char :: units, rest) := by
  rw [stringBody?, if_neg (by rintro (small | slash); omega; exact notSlash slash)]
  · simp only [Option.bind_eq_bind]
    cases stringBody? fuel rest <;> rfl
  · exact notQuote
  · exact fun tail equal => absurd equal notSlash
  · exact fun mark tail equal => absurd equal notSlash

/-- A character is read back from its escape. -/
theorem stringBody?_escapeChar (fuel : ℕ) (char : Char) (rest : List Char) :
    stringBody? (fuel + 1) (escapeChar char ++ rest) =
      (stringBody? fuel rest).map fun (units, rest) => (some char :: units, rest) := by
  rw [escapeChar]
  split
  next quote =>
    subst quote
    exact stringBody?_mark fuel (by decide) rfl rest
  next notQuote =>
  split
  next slash =>
    subst slash
    exact stringBody?_mark fuel (by decide) rfl rest
  next notSlash =>
  split
  next feed =>
    subst feed
    exact stringBody?_mark fuel (by decide) rfl rest
  next =>
  split
  next back =>
    subst back
    exact stringBody?_mark fuel (by decide) rfl rest
  next =>
  split
  next tab =>
    subst tab
    exact stringBody?_mark fuel (by decide) rfl rest
  next =>
  have code_eq : ∀ code, char.toNat = code → Char.ofNat code = char := by
    rintro code rfl
    exact Char.ofNat_toNat char
  simp only
  split
  next bell =>
    rw [← code_eq _ bell]
    exact stringBody?_mark fuel (by decide) rfl rest
  next =>
  split
  next form =>
    rw [← code_eq _ form]
    exact stringBody?_mark fuel (by decide) rfl rest
  next =>
  split
  next control =>
    exact stringBody?_unit fuel (by omega) (unitChar_toNat char rest)
  next notControl =>
  split
  next ascii =>
    exact stringBody?_plain fuel (not_lt.1 notControl) notQuote notSlash rest
  next =>
  split
  next single =>
    exact stringBody?_unit fuel single (unitChar_toNat char rest)
  next pair =>
    have most := toNat_lt char
    rw [List.append_assoc]
    exact stringBody?_unit fuel (by omega) (unitChar_pair (not_lt.1 pair) rest)

/-- A text is read back from its escapes up to the closing quote. -/
theorem stringBody?_flatMap {fuel : ℕ} (chars : List Char) (rest : List Char)
    (enough : chars.length < fuel) :
    stringBody? fuel (chars.flatMap escapeChar ++ '"' :: rest) = some (chars.map some, rest) := by
  obtain ⟨fuel, rfl⟩ := Nat.exists_eq_succ_of_ne_zero (Nat.ne_zero_of_lt enough)
  induction chars generalizing fuel with
  | nil => rfl
  | cons char others ih =>
      rw [List.length_cons] at enough
      obtain ⟨fuel, rfl⟩ := Nat.exists_eq_succ_of_ne_zero (show fuel ≠ 0 by omega)
      rw [List.flatMap_cons, List.append_assoc, stringBody?_escapeChar, ih fuel (by omega)]
      rfl

/-- Without an escape nothing could be read back. -/
theorem escapeChar_ne_nil (char : Char) : escapeChar char ≠ [] := by
  intro empty
  have read := stringBody?_escapeChar 0 char ['"']
  rw [empty] at read
  cases read

theorem length_le_flatMap_escapeChar (chars : List Char) :
    chars.length ≤ (chars.flatMap escapeChar).length := by
  induction chars with
  | nil => exact Nat.le_refl 0
  | cons char rest ih =>
      have some := List.length_pos_of_ne_nil (escapeChar_ne_nil char)
      rw [List.flatMap_cons, List.length_append, List.length_cons]
      omega

theorem wholeChars?_map_some (chars : List Char) : wholeChars? (chars.map some) = some chars := by
  induction chars with
  | nil => rfl
  | cons char rest ih => rw [List.map_cons, wholeChars?, ih, Option.map_some]

/-- A JSON string is read back. -/
theorem readString_jsonString {fuel : ℕ} (text : String) (rest : List Char)
    (enough : (jsonString text).length ≤ fuel + 1) :
    ∃ body, jsonString text ++ rest = '"' :: body ∧ readString fuel body = .ok (text, rest) := by
  refine ⟨text.toList.flatMap escapeChar ++ '"' :: rest, by simp [jsonString], ?_⟩
  have long := length_le_flatMap_escapeChar text.toList
  simp only [jsonString, List.cons_append, List.length_cons, List.length_append,
    List.length_nil] at enough
  simp only [readString, stringBody?_flatMap _ _ (show text.toList.length < fuel by omega),
    wholeChars?_map_some, String.ofList_toList]

/-! ## Lists and objects -/

/-- What cannot be taken for white space or for the end of a list or object. -/
def Opens (chars : List Char) : Prop :=
  ∃ char rest, chars = char :: rest ∧ isJsonBlank char = false ∧ char ≠ ']' ∧ char ≠ '\x7d'

theorem Opens.append {chars : List Char} (opens : Opens chars) (rest : List Char) :
    Opens (chars ++ rest) := by
  obtain ⟨char, others, rfl, marks⟩ := opens
  exact ⟨char, others ++ rest, rfl, marks⟩

theorem ne_of_isDigit {char other : Char} (digit : char.isDigit = true)
    (notDigit : other.isDigit = false) : char ≠ other := by
  rintro rfl
  rw [digit] at notDigit
  cases notDigit

theorem opens_of_isDigit {char : Char} (digit : char.isDigit = true) (rest : List Char) :
    Opens (char :: rest) := by
  have differs : ∀ {other : Char}, other.isDigit = false → char ≠ other := ne_of_isDigit digit
  refine ⟨char, rest, rfl, ?_, differs (by decide), differs (by decide)⟩
  simp only [isJsonBlank, Bool.or_eq_false_iff, beq_eq_false_iff_ne]
  exact ⟨⟨⟨differs (by decide), differs (by decide)⟩, differs (by decide)⟩, differs (by decide)⟩

/-- A numeral with its sign cannot be taken for anything else. -/
theorem opens_signed (negative : Bool) {char : Char} (digit : char.isDigit = true)
    (rest : List Char) : Opens ((if negative then ['-'] else []) ++ char :: rest) := by
  cases negative with
  | false => exact opens_of_isDigit digit rest
  | true => exact ⟨'-', char :: rest, rfl, by decide, by decide, by decide⟩

theorem skipJsonBlanks_append {blanks : List Char}
    (all : ∀ char ∈ blanks, isJsonBlank char = true) (chars : List Char) :
    skipJsonBlanks (blanks ++ chars) = skipJsonBlanks chars :=
  List.dropWhile_append_of_pos all

theorem skipJsonBlanks_of_not {char : Char} (notBlank : isJsonBlank char = false)
    (rest : List Char) : skipJsonBlanks (char :: rest) = char :: rest :=
  List.dropWhile_cons_of_neg (by simp [notBlank])

theorem Opens.skipJsonBlanks_eq {chars : List Char} (opens : Opens chars) :
    skipJsonBlanks chars = chars := by
  obtain ⟨char, rest, rfl, notBlank, -⟩ := opens
  exact skipJsonBlanks_of_not notBlank rest

theorem Layout.isJsonBlank_of_mem_lead {layout : Layout} {char : Char}
    (found : char ∈ layout.lead) :
    isJsonBlank char = true := by
  cases layout with
  | compact => cases found
  | indented depth =>
      rcases List.mem_cons.1 found with rfl | space
      · rfl
      · rw [List.eq_of_mem_replicate space]
        rfl

/-- Parts are kept apart by a comma and white space. -/
theorem Layout.exists_separator_eq (layout : Layout) :
    ∃ blanks, layout.separator = ',' :: blanks ∧ ∀ char ∈ blanks, isJsonBlank char = true := by
  cases layout with
  | compact => exact ⟨[' '], rfl, by simp [isJsonBlank]⟩
  | indented depth => exact ⟨(indented depth).lead, rfl, fun _ => isJsonBlank_of_mem_lead⟩

theorem opens_intercalate {part : List Char} (opens : Opens part) (separator : List Char)
    (parts : List (List Char)) : Opens (separator.intercalate (part :: parts)) := by
  cases parts with
  | nil => rwa [List.intercalate_singleton]
  | cons next others =>
      rw [List.intercalate_cons_cons, List.append_assoc]
      exact opens.append _

theorem skipJsonBlanks_separator (layout : Layout) {chars : List Char} (opens : Opens chars) :
    ∃ rest, skipJsonBlanks (layout.separator ++ chars) = ',' :: rest ∧
      skipJsonBlanks rest = chars := by
  obtain ⟨blanks, text, blank⟩ := layout.exists_separator_eq
  refine ⟨blanks ++ chars, ?_, ?_⟩
  · rw [text, List.cons_append, skipJsonBlanks_of_not (by decide)]
  · rw [skipJsonBlanks_append blank, opens.skipJsonBlanks_eq]

theorem endsNumeral_cons {char : Char}
    (ends : char.isDigit = false ∧ char ≠ '.' ∧ char ≠ 'e' ∧ char ≠ 'E') (rest : List Char) :
    EndsNumeral (char :: rest) := by
  rintro other ⟨⟩
  exact ends

theorem endsNumeral_lead (layout : Layout) {rest : List Char} (ends : EndsNumeral rest) :
    EndsNumeral (layout.lead ++ rest) := by
  cases layout with
  | compact => exact ends
  | indented depth => exact endsNumeral_cons (by decide) _

theorem endsNumeral_separator (layout : Layout) (rest : List Char) :
    EndsNumeral (layout.separator ++ rest) := by
  obtain ⟨blanks, text, -⟩ := layout.exists_separator_eq
  rw [text]
  exact endsNumeral_cons (by decide) _

theorem jsonItems_eq_map (layout : Layout) (items : List Value) :
    jsonItems layout items = items.map (json layout) := by
  induction items with
  | nil => rfl
  | cons item rest ih => rw [jsonItems, ih, List.map_cons]

/-- A field as JSON. -/
def jsonField (layout : Layout) (field : String × Value) : List Char :=
  jsonString field.1 ++ ':' :: ' ' :: json layout field.2

theorem jsonFields_eq_map (layout : Layout) (fields : List (String × Value)) :
    jsonFields layout fields = fields.map (jsonField layout) := by
  induction fields with
  | nil => rfl
  | cons field rest ih => rw [jsonFields, ih, List.map_cons, jsonField]

theorem opens_jsonField (layout : Layout) (field : String × Value) :
    Opens (jsonField layout field) :=
  ⟨'"', _, rfl, by decide, by decide, by decide⟩

/-- A value is read back from its JSON, whatever follows it. -/
def ReadsBack (depth : ℕ) (layout : Layout) (value : Value) : Prop :=
  ∀ fuel rest, EndsNumeral rest → (value.json layout).length ≤ fuel →
    readValue depth fuel (value.json layout ++ rest) = .ok (value, rest)

/-- The items of a list are read back one after the other. -/
theorem readItems_intercalate {depth : ℕ} {layout outer : Layout} {item : Value}
    {items : List Value} (reads : ∀ each ∈ item :: items, ReadsBack depth layout each)
    (opens : ∀ each ∈ items, Opens (each.json layout)) (found : List Value) (rest : List Char)
    {fuel : ℕ} (enough :
      (layout.separator.intercalate ((item :: items).map (json layout))).length < fuel) :
    readItems depth fuel found
        (layout.separator.intercalate ((item :: items).map (json layout)) ++
          (outer.lead ++ ']' :: rest)) =
      .ok (list (found.reverse ++ item :: items), rest) := by
  obtain ⟨fuel, rfl⟩ := Nat.exists_eq_succ_of_ne_zero (Nat.ne_zero_of_lt enough)
  induction items generalizing item found fuel with
  | nil =>
      rw [List.map_cons, List.map_nil, List.intercalate_singleton] at enough ⊢
      have ends : EndsNumeral (outer.lead ++ ']' :: rest) :=
        endsNumeral_lead outer (endsNumeral_cons (by decide) rest)
      have first := reads item List.mem_cons_self fuel _ ends (by omega)
      rw [readItems, first]
      simp only [bind, Except.bind, skipJsonBlanks_append fun _ => Layout.isJsonBlank_of_mem_lead]
      rw [skipJsonBlanks_of_not (by decide)]
      simp
  | cons next others ih =>
      obtain ⟨blanks, comma, blank⟩ := layout.exists_separator_eq
      rw [List.map_cons, List.map_cons, List.intercalate_cons_cons] at enough ⊢
      rw [← List.map_cons] at enough ⊢
      simp only [comma, List.length_append, List.length_cons] at enough
      rw [← comma] at enough
      obtain ⟨fuel, rfl⟩ := Nat.exists_eq_succ_of_ne_zero (show fuel ≠ 0 by omega)
      have first := reads item List.mem_cons_self (fuel + 1) _
        (endsNumeral_separator layout
          (layout.separator.intercalate ((next :: others).map (json layout)) ++
            (outer.lead ++ ']' :: rest))) (by omega)
      have later := ih (fun each among => reads each (List.mem_cons_of_mem _ among))
        (fun each among => opens each (List.mem_cons_of_mem _ among)) (item :: found) fuel
        (by omega)
      rw [List.append_assoc, List.append_assoc, readItems, first]
      obtain ⟨tail, split, rest_eq⟩ := skipJsonBlanks_separator layout
        ((opens_intercalate (opens next List.mem_cons_self) layout.separator
          (others.map (json layout))).append (outer.lead ++ ']' :: rest))
      simp only [bind, Except.bind, List.map_cons] at later ⊢
      rw [split]
      simp only [rest_eq, later]
      simp

/-- A field is read back, and the mark after it says whether others follow. -/
theorem readFields_field {depth : ℕ} {layout : Layout} {field : String × Value}
    (reads : ReadsBack depth layout field.2) (opens : Opens (field.2.json layout))
    {found : List (String × Value)} (new : field.1 ∉ found.map Prod.fst)
    {fuel : ℕ} (enough : (jsonField layout field).length ≤ fuel)
    {after tail : List Char} {mark : Char} (ends : EndsNumeral after)
    (skips : skipJsonBlanks after = mark :: tail) :
    (mark = ',' → readFields depth (fuel + 1) found (jsonField layout field ++ after) =
      readFields depth fuel (found ++ [field]) (skipJsonBlanks tail)) ∧
    (mark = '\x7d' → readFields depth (fuel + 1) found (jsonField layout field ++ after) =
      .ok (object (found ++ [field]), tail)) := by
  obtain ⟨name, value⟩ := field
  simp only [jsonField, List.length_append, List.length_cons] at enough reads opens
  obtain ⟨body, quoted, named⟩ := readString_jsonString name
    (':' :: ' ' :: (value.json layout ++ after)) (show _ ≤ fuel + 1 by omega)
  have text : jsonField layout (name, value) ++ after = '"' :: body := by
    rw [← quoted]
    simp [jsonField]
  have value_read : readValue depth fuel (skipJsonBlanks (' ' :: (value.json layout ++ after))) =
      .ok (value, after) := by
    rw [← List.singleton_append, skipJsonBlanks_append (by simp [isJsonBlank]),
      (opens.append after).skipJsonBlanks_eq]
    exact reads fuel after ends (by omega)
  rw [text, readFields, named]
  simp only [skipJsonBlanks_of_not (show isJsonBlank ':' = false by decide), value_read, bind,
    Except.bind, Assoc.put_of_notMem new, skips]
  constructor
  · rintro rfl
    rfl
  · rintro rfl
    rfl

/-- The fields of an object are read back one after the other. -/
theorem readFields_intercalate {depth : ℕ} {layout outer : Layout} {field : String × Value}
    {fields : List (String × Value)}
    (reads : ∀ each ∈ field :: fields, ReadsBack depth layout each.2)
    (opens : ∀ each ∈ field :: fields, Opens (each.2.json layout))
    (found : List (String × Value)) (rest : List Char)
    (distinct : ((found ++ field :: fields).map Prod.fst).Nodup) {fuel : ℕ} (enough :
      (layout.separator.intercalate ((field :: fields).map (jsonField layout))).length < fuel) :
    readFields depth fuel found
        (layout.separator.intercalate ((field :: fields).map (jsonField layout)) ++
          (outer.lead ++ '\x7d' :: rest)) =
      .ok (object (found ++ field :: fields), rest) := by
  obtain ⟨fuel, rfl⟩ := Nat.exists_eq_succ_of_ne_zero (Nat.ne_zero_of_lt enough)
  induction fields generalizing field found fuel with
  | nil =>
      rw [List.map_cons, List.map_nil, List.intercalate_singleton] at enough ⊢
      have new : field.1 ∉ found.map Prod.fst := Assoc.notMem_of_nodup_append distinct
      have ends : EndsNumeral (outer.lead ++ '\x7d' :: rest) :=
        endsNumeral_lead outer (endsNumeral_cons (by decide) rest)
      have skips : skipJsonBlanks (outer.lead ++ '\x7d' :: rest) = '\x7d' :: rest := by
        rw [skipJsonBlanks_append fun _ => Layout.isJsonBlank_of_mem_lead,
          skipJsonBlanks_of_not (by decide)]
      exact (readFields_field (reads field List.mem_cons_self) (opens field List.mem_cons_self) new
        (Nat.le_of_lt_succ enough) ends skips).2 rfl
  | cons next others ih =>
      obtain ⟨blanks, comma, -⟩ := layout.exists_separator_eq
      rw [List.map_cons, List.map_cons, List.intercalate_cons_cons] at enough ⊢
      rw [← List.map_cons] at enough ⊢
      simp only [comma, List.length_append, List.length_cons] at enough
      rw [← comma] at enough
      obtain ⟨fuel, rfl⟩ := Nat.exists_eq_succ_of_ne_zero (show fuel ≠ 0 by omega)
      have new : field.1 ∉ found.map Prod.fst := Assoc.notMem_of_nodup_append distinct
      rw [List.append_cons] at distinct
      have later := ih (fun each among => reads each (List.mem_cons_of_mem _ among))
        (fun each among => opens each (List.mem_cons_of_mem _ among)) (found ++ [field]) distinct
        fuel (by omega)
      obtain ⟨tail, split, rest_eq⟩ := skipJsonBlanks_separator layout
        ((opens_intercalate (opens_jsonField layout next) layout.separator
          (others.map (jsonField layout))).append (outer.lead ++ '\x7d' :: rest))
      have first := (readFields_field (reads field List.mem_cons_self)
        (opens field List.mem_cons_self) new (show _ ≤ fuel + 1 by omega)
        (endsNumeral_separator layout _) split).1 rfl
      simp only [List.map_cons] at later ⊢
      rw [List.append_assoc, List.append_assoc, first, rest_eq, later, List.append_assoc,
        List.singleton_append]

theorem enclose_cons (layout : Layout) (opening closing : Char) (part : List Char)
    (parts : List (List Char)) (rest : List Char) :
    enclose layout opening closing (part :: parts) ++ rest =
      opening :: (layout.deeper.lead ++ (layout.deeper.separator.intercalate (part :: parts) ++
        (layout.lead ++ closing :: rest))) := by
  simp [enclose]

theorem skipJsonBlanks_lead (layout : Layout) {chars : List Char} (opens : Opens chars) :
    skipJsonBlanks (layout.lead ++ chars) = chars := by
  rw [skipJsonBlanks_append fun _ => Layout.isJsonBlank_of_mem_lead, opens.skipJsonBlanks_eq]

theorem readValue_list {depth fuel : ℕ} {chars body : List Char}
    (skips : skipJsonBlanks chars = body) (opens : Opens body) :
    readValue (depth + 1) (fuel + 1) ('[' :: chars) = readItems depth fuel [] body := by
  obtain ⟨char, rest, rfl, -, notEnd, -⟩ := opens
  rw [readValue, if_neg (Nat.succ_ne_zero depth), skips]
  split
  next closed => exact absurd (List.cons.inj closed).1 notEnd
  next => rfl

theorem readValue_object {depth fuel : ℕ} {chars body : List Char}
    (skips : skipJsonBlanks chars = body) (opens : Opens body) :
    readValue (depth + 1) (fuel + 1) ('\x7b' :: chars) = readFields depth fuel [] body := by
  obtain ⟨char, rest, rfl, -, -, notEnd⟩ := opens
  rw [readValue, if_neg (Nat.succ_ne_zero depth), skips]
  split
  next closed => exact absurd (List.cons.inj closed).1 notEnd
  next => rfl

theorem readsBack_list {depth : ℕ} {layout : Layout} {items : List Value}
    (reads : ∀ item ∈ items, ReadsBack depth layout.deeper item)
    (opens : ∀ item ∈ items, Opens (item.json layout.deeper)) :
    ReadsBack (depth + 1) layout (list items) := by
  intro fuel rest _ enough
  rw [json, jsonItems_eq_map] at enough ⊢
  cases items with
  | nil =>
      obtain ⟨fuel, rfl⟩ := Nat.exists_eq_add_of_le' (Nat.le_of_succ_le enough)
      rfl
  | cons item others =>
      have length_eq := congrArg List.length (enclose_cons layout '[' ']' (item.json layout.deeper)
        (others.map (json layout.deeper)) [])
      simp only [List.append_nil, List.length_cons, List.length_append] at length_eq
      rw [List.map_cons] at enough ⊢
      obtain ⟨fuel, rfl⟩ := Nat.exists_eq_succ_of_ne_zero (show fuel ≠ 0 by omega)
      have starts := ((opens_intercalate (opens item List.mem_cons_self) layout.deeper.separator
        (others.map (json layout.deeper))).append (layout.lead ++ ']' :: rest))
      rw [enclose_cons, readValue_list (skipJsonBlanks_lead _ starts) starts]
      exact readItems_intercalate reads
        (fun each among => opens each (List.mem_cons_of_mem _ among)) [] rest (by
          rw [List.map_cons]
          omega)

theorem readsBack_object {depth : ℕ} {layout : Layout} {fields : List (String × Value)}
    (distinct : (fields.map Prod.fst).Nodup)
    (reads : ∀ field ∈ fields, ReadsBack depth layout.deeper field.2)
    (opens : ∀ field ∈ fields, Opens (field.2.json layout.deeper)) :
    ReadsBack (depth + 1) layout (object fields) := by
  intro fuel rest _ enough
  rw [json, jsonFields_eq_map] at enough ⊢
  cases fields with
  | nil =>
      obtain ⟨fuel, rfl⟩ := Nat.exists_eq_add_of_le' (Nat.le_of_succ_le enough)
      rfl
  | cons field others =>
      have length_eq := congrArg List.length (enclose_cons layout '\x7b' '\x7d'
        (jsonField layout.deeper field) (others.map (jsonField layout.deeper)) [])
      simp only [List.append_nil, List.length_cons, List.length_append] at length_eq
      rw [List.map_cons] at enough ⊢
      obtain ⟨fuel, rfl⟩ := Nat.exists_eq_succ_of_ne_zero (show fuel ≠ 0 by omega)
      have starts := ((opens_intercalate (opens_jsonField layout.deeper field)
        layout.deeper.separator (others.map (jsonField layout.deeper))).append
          (layout.lead ++ '\x7d' :: rest))
      rw [enclose_cons, readValue_object (skipJsonBlanks_lead _ starts) starts]
      exact readFields_intercalate reads opens [] rest distinct (by
        rw [List.map_cons]
        omega)

/-- Data that are read back from their JSON, nested at most `depth` levels deep. -/
inductive IsPlain : ℕ → Value → Prop where
  | null (depth : ℕ) : IsPlain depth null
  | bool (depth : ℕ) (flag : Bool) : IsPlain depth (bool flag)
  | int (depth : ℕ) {number : ℤ} : Text.isWritable number = true → IsPlain depth (int number)
  | float (depth : ℕ) {number : Binary64} : number.IsCanonical → IsPlain depth (float number)
  | str (depth : ℕ) (text : String) : IsPlain depth (str text)
  | list {depth : ℕ} {items : List Value} :
      (∀ item ∈ items, IsPlain depth item) → IsPlain (depth + 1) (list items)
  | object {depth : ℕ} {fields : List (String × Value)} :
      (fields.map Prod.fst).Nodup → (∀ field ∈ fields, IsPlain depth field.2) →
      IsPlain (depth + 1) (object fields)

/-- A numeral as the text of a value: a sign, a digit, and more. -/
theorem exists_json_int (number : ℤ) (layout : Layout) :
    ∃ (negative : Bool) (char : Char) (body : List Char), (Value.int number).json layout =
      (if negative then ['-'] else []) ++ char :: body ∧ char.isDigit = true := by
  have whole := isWhole_toDigits number.natAbs
  obtain ⟨char, body, digits⟩ := List.exists_cons_of_ne_nil whole.nonempty
  refine ⟨decide (number < 0), char, body, ?_, whole.digits char (by simp [digits])⟩
  rw [json, toList_toString, digits]
  simp only [decide_eq_true_eq]

theorem IsPlain.opens {depth : ℕ} {value : Value} (plain : IsPlain depth value) (layout : Layout) :
    Opens (value.json layout) := by
  cases plain with
  | null => exact ⟨'n', _, rfl, by decide, by decide, by decide⟩
  | bool depth flag =>
      cases flag with
      | false => exact ⟨'f', _, rfl, by decide, by decide, by decide⟩
      | true => exact ⟨'t', _, rfl, by decide, by decide, by decide⟩
  | @int _ number writable =>
      obtain ⟨negative, char, body, text, digit⟩ := exists_json_int number layout
      rw [text]
      exact opens_signed negative digit body
  | @float _ number canonical =>
      cases number with
      | infinite negative =>
          cases negative with
          | false => exact ⟨'I', _, rfl, by decide, by decide, by decide⟩
          | true => exact ⟨'-', _, rfl, by decide, by decide, by decide⟩
      | notANumber => exact ⟨'N', _, rfl, by decide, by decide, by decide⟩
      | finite negative mantissa exponent =>
          obtain ⟨char, body, text, digit, -⟩ := exists_render_finite canonical
          rw [json, jsonFloat, text]
          · exact opens_signed negative digit body
          · exact nofun
          · exact nofun
  | str depth text =>
      rw [json]
      exact ⟨'"', _, rfl, by decide, by decide, by decide⟩
  | @list depth items =>
      rw [json, jsonItems_eq_map]
      cases items with
      | nil => exact ⟨'[', _, rfl, by decide, by decide, by decide⟩
      | cons item others => exact ⟨'[', _, rfl, by decide, by decide, by decide⟩
  | @object depth fields =>
      rw [json, jsonFields_eq_map]
      cases fields with
      | nil => exact ⟨'\x7b', _, rfl, by decide, by decide, by decide⟩
      | cons field others => exact ⟨'\x7b', _, rfl, by decide, by decide, by decide⟩

theorem readValue_signed (depth fuel : ℕ) (negative : Bool) {char : Char}
    (digit : char.isDigit = true) (rest : List Char) :
    readValue depth (fuel + 1) ((if negative then ['-'] else []) ++ char :: rest) =
      readScalar ((if negative then ['-'] else []) ++ char :: rest) := by
  cases negative with
  | true => rfl
  | false =>
      simp only [Bool.false_eq_true, if_false, List.nil_append]
      rw [readValue]
      · exact fun tail equal => ne_of_isDigit digit (by decide) (List.cons.inj equal).1
      · exact fun tail equal => ne_of_isDigit digit (by decide) (List.cons.inj equal).1
      · exact fun tail equal => ne_of_isDigit digit (by decide) (List.cons.inj equal).1

theorem readsBack_signed {depth : ℕ} {layout : Layout} {value : Value} {negative : Bool}
    {char : Char} {body : List Char} (digit : char.isDigit = true)
    (text : value.json layout = (if negative then ['-'] else []) ++ char :: body)
    (reads : ∀ rest, EndsNumeral rest →
      readScalar (value.json layout ++ rest) = .ok (value, rest)) :
    ReadsBack depth layout value := by
  intro fuel rest ends enough
  have read := reads rest ends
  rw [text, List.length_append, List.length_cons] at enough
  obtain ⟨fuel, rfl⟩ := Nat.exists_eq_succ_of_ne_zero (show fuel ≠ 0 by omega)
  rw [text, List.append_assoc, List.cons_append] at read ⊢
  rw [readValue_signed depth fuel negative digit, read]

/-- A number of the format is read back, also one that is written as a word. -/
theorem readsBack_float {number : Binary64} (canonical : number.IsCanonical) (depth : ℕ)
    (layout : Layout) : ReadsBack depth layout (float number) := by
  cases number with
  | infinite negative =>
      intro fuel rest _ enough
      cases negative with
      | false =>
          obtain ⟨fuel, rfl⟩ := Nat.exists_eq_add_of_le' enough
          rfl
      | true =>
          obtain ⟨fuel, rfl⟩ := Nat.exists_eq_add_of_le' enough
          rfl
  | notANumber =>
      intro fuel rest _ enough
      obtain ⟨fuel, rfl⟩ := Nat.exists_eq_add_of_le' enough
      rfl
  | finite negative mantissa exponent =>
      obtain ⟨char, body, text, digit, -⟩ := exists_render_finite canonical
      refine readsBack_signed digit (by rw [json]; exact text) ?_
      intro rest ends
      rw [json]
      exact readScalar_float canonical ends

/-- Plain data are read back. -/
theorem IsPlain.readsBack {depth : ℕ} {value : Value} (plain : IsPlain depth value)
    (layout : Layout) : ReadsBack depth layout value := by
  induction plain generalizing layout with
  | null depth =>
      intro fuel rest _ enough
      obtain ⟨fuel, rfl⟩ := Nat.exists_eq_add_of_le' enough
      rfl
  | bool depth flag =>
      intro fuel rest _ enough
      cases flag with
      | false =>
          obtain ⟨fuel, rfl⟩ := Nat.exists_eq_add_of_le' enough
          rfl
      | true =>
          obtain ⟨fuel, rfl⟩ := Nat.exists_eq_add_of_le' enough
          rfl
  | @int depth number writable =>
      obtain ⟨negative, char, body, text, digit⟩ := exists_json_int number layout
      apply readsBack_signed digit text
      intro rest ends
      rw [json]
      exact readScalar_int writable ends
  | float depth canonical => exact readsBack_float canonical depth layout
  | str depth text =>
      intro fuel rest _ enough
      rw [json] at enough ⊢
      obtain ⟨fuel, rfl⟩ := Nat.exists_eq_succ_of_ne_zero
        (show fuel ≠ 0 by rintro rfl; cases enough)
      obtain ⟨body, quoted, named⟩ := readString_jsonString text rest enough
      rw [quoted, readValue, named]
      rfl
  | list plain ih =>
      exact readsBack_list (fun item among => ih item among layout.deeper)
        fun item among => (plain item among).opens layout.deeper
  | object distinct plain ih =>
      exact readsBack_object distinct (fun field among => ih field among layout.deeper)
        fun field among => (plain field among).opens layout.deeper

/-- Plain data of no more than the allowed nesting are read back from their JSON. -/
theorem ofJsonChars_json {nesting : ℕ} {value : Value} (plain : IsPlain nesting value)
    (layout : Layout) : ofJsonChars nesting (value.json layout) = .ok value := by
  have read := plain.readsBack layout (2 * (value.json layout).length + 2) [] nofun (by omega)
  rw [List.append_nil] at read
  rw [ofJsonChars, (plain.opens layout).skipJsonBlanks_eq, read]
  rfl

theorem IsPlain.mono {depth more : ℕ} {value : Value} (plain : IsPlain depth value)
    (least : depth ≤ more) : IsPlain more value := by
  induction plain generalizing more with
  | null => exact .null more
  | bool _ flag => exact .bool more flag
  | int _ writable => exact .int more writable
  | float _ canonical => exact .float more canonical
  | str _ text => exact .str more text
  | list _ ih =>
      obtain ⟨more, rfl⟩ := Nat.exists_eq_succ_of_ne_zero (Nat.ne_zero_of_lt least)
      exact .list fun item among => ih item among (Nat.le_of_succ_le_succ least)
  | object distinct _ ih =>
      obtain ⟨more, rfl⟩ := Nat.exists_eq_succ_of_ne_zero (Nat.ne_zero_of_lt least)
      exact .object distinct fun field among => ih field among (Nat.le_of_succ_le_succ least)

/-! ## Numbers that can be written -/

theorem fieldsAreWritable_iff {fields : List (String × Value)} :
    fieldsAreWritable fields = true ↔ ∀ field ∈ fields, field.2.isWritable = true := by
  induction fields with
  | nil => simp [fieldsAreWritable]
  | cons field rest ih => simp [fieldsAreWritable, ih]

theorem areWritable_iff {items : List Value} :
    areWritable items = true ↔ ∀ item ∈ items, item.isWritable = true := by
  induction items with
  | nil => simp [areWritable]
  | cons item rest ih => simp [areWritable, ih]

/-- Plain data hold only numbers that can be written. -/
theorem IsPlain.isWritable {depth : ℕ} {value : Value} (plain : IsPlain depth value) :
    value.isWritable = true := by
  induction plain with
  | null | bool | float | str => rfl
  | int _ writable => exact writable
  | list _ ih =>
      rw [Value.isWritable, areWritable_iff]
      exact ih
  | object _ _ ih =>
      rw [Value.isWritable, fieldsAreWritable_iff]
      exact ih

end EditGate.Value
