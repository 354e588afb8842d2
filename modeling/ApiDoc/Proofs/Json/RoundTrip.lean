import ApiDoc.Json.Printer
import ApiDoc.Json.Reader
import ApiDoc.Proofs.Numerals

/-!
# Values read back from their texts

A value is written so that its text ends by itself: strings, lists and objects close, and a number stops where no digit
follows (`Stops`).  So the reader takes off exactly the letters of the value, whatever comes behind them (`Reads`), and
a list or an object is read if its items or its fields are (`reads_list`, `reads_object`).  The fuel of the reader is
enough because every step inside takes at least one letter.

Main statement: `IsPlain.parse?`, that the text of a value without floating point numbers stands for that value.
-/

namespace ApiDoc.Json

open EnumValue (IsDigit Sign toList_toString)

/-- A text that a number before it does not run into. -/
def Stops (rest : List Char) : Prop := ∀ c ∈ rest.head?, c ∈ [',', ']', '\x7d', '\n']

variable {rest : List Char}

theorem Stops.cases (h : Stops rest) : rest = [] ∨
    ∃ c more, rest = c :: more ∧ isDigitOf 10 c = false ∧ c ≠ '.' ∧ c ≠ 'e' ∧ c ≠ 'E' := by
  cases rest with
  | nil => exact .inl rfl
  | cons c more =>
    have hc : c = ',' ∨ c = ']' ∨ c = '\x7d' ∨ c = '\n' := by simpa using h c rfl
    refine .inr ⟨c, more, rfl, ?_⟩
    rcases hc with rfl | rfl | rfl | rfl <;> decide

/-! ### Numbers -/

theorem ofDigits_append_singleton (base : Nat) (cs : List Char) (c : Char) :
    ofDigits base (cs ++ [c]) = ofDigits base cs * base + (digitValue? base c).getD 0 := by
  simp [ofDigits]

theorem isDigit_digitChar {d : Nat} (h : d < 10) : IsDigit 10 d d.digitChar := ⟨h, .inl rfl⟩

/-- A number is written in digits, without a zero before them, and these stand for the number. -/
theorem digits_toDigits (n : Nat) : (∀ c ∈ Nat.toDigits 10 n, isDigitOf 10 c = true) ∧
    ofDigits 10 (Nat.toDigits 10 n) = n ∧ ((Nat.toDigits 10 n).head? = some '0' → n = 0) := by
  induction n using Nat.strongRecOn with
  | ind n ih =>
    rw [Nat.toDigits_eq_if (by decide)]
    split
    · next hlt =>
      have hd := isDigit_digitChar hlt
      refine ⟨by simpa using hd.isDigitOf (by decide), by simp [ofDigits, hd.digitValue? (by decide)], fun hzero => ?_⟩
      have hvalue := hd.digitValue? (by decide)
      rw [Option.some.inj hzero] at hvalue
      exact (Option.some.inj hvalue).symm
    · next hge =>
      obtain ⟨hdigits, hvalue, hfirst⟩ := ih (n / 10) (by omega)
      have hd := isDigit_digitChar (Nat.mod_lt n (by decide : 10 > 0))
      refine ⟨?_, ?_, fun hzero => ?_⟩
      · simpa [or_imp, forall_and] using ⟨hdigits, hd.isDigitOf (by decide)⟩
      · rw [ofDigits_append_singleton, hvalue, hd.digitValue? (by decide), Option.getD_some]
        omega
      · rw [List.head?_append_of_ne_nil _ Nat.toDigits_ne_nil] at hzero
        have := hfirst hzero
        omega

theorem span_digits (n : Nat) (hrest : Stops rest) :
    (Nat.toDigits 10 n ++ rest).takeWhile (isDigitOf 10) = Nat.toDigits 10 n ∧
      (Nat.toDigits 10 n ++ rest).dropWhile (isDigitOf 10) = rest := by
  obtain ⟨hdigits, -⟩ := digits_toDigits n
  have hnone : rest.takeWhile (isDigitOf 10) = [] ∧ rest.dropWhile (isDigitOf 10) = rest := by
    rcases hrest.cases with rfl | ⟨c, more, rfl, hc, -⟩
    · exact ⟨rfl, rfl⟩
    · exact ⟨List.takeWhile_cons_of_neg (by simp [hc]), List.dropWhile_cons_of_neg (by simp [hc])⟩
  rw [List.takeWhile_append_of_pos hdigits, List.dropWhile_append_of_pos hdigits, hnone.1, hnone.2, List.append_nil]
  exact ⟨rfl, rfl⟩

theorem readNumber_toString {i : Int} (hi : fitsWord i = true) (hrest : Stops rest) :
    readNumber ((toString i).toList ++ rest) = some (integer i, rest) := by
  obtain ⟨hdigits, hvalue, hfirst⟩ := digits_toDigits i.natAbs
  obtain ⟨htake, hdrop⟩ := span_digits i.natAbs hrest
  have hsome : (Nat.toDigits 10 i.natAbs).isEmpty = false := List.isEmpty_eq_false_iff.2 Nat.toDigits_ne_nil
  have hlone : ((Nat.toDigits 10 i.natAbs).length > 1 && (Nat.toDigits 10 i.natAbs).head? == some '0') = false := by
    rw [Bool.and_eq_false_iff, beq_eq_false_iff_ne, decide_eq_false_iff_not]
    by_cases hzero : i.natAbs = 0
    · exact .inl (by rw [hzero]; decide)
    · exact .inr (mt hfirst hzero)
  rw [toList_toString, Sign.ofInt]
  split
  · next hpos =>
    have hminus : ∀ more, Nat.toDigits 10 i.natAbs ++ rest ≠ '-' :: more := by
      intro more h
      rw [h] at htake
      rw [← htake] at hsome
      simp [isDigitOf, digitValue?] at hsome
    have hsize : (i.natAbs : Int) = i := Int.natAbs_of_nonneg hpos
    rw [Sign.write, List.nil_append, readNumber]
    · rcases hrest.cases with rfl | ⟨c, more, rfl, -, hdot, he, hE⟩ <;>
        simp only [htake, hdrop, hvalue, hsome, hlone, hsize]
      · simp [hi]
      · simp [hi, hdot, he, hE]
    · exact hminus
  · next hneg =>
    have hsize : -(i.natAbs : Int) = i := by omega
    have hne : i ≠ 0 := by omega
    rw [Sign.write, List.append_assoc, List.singleton_append, readNumber]
    rcases hrest.cases with rfl | ⟨c, more, rfl, -, hdot, he, hE⟩ <;>
      simp only [htake, hdrop, hvalue, hsome, hlone, hsize]
    · simp [hi, hne]
    · simp [hi, hne, hdot, he, hE]

/-! ### Strings -/

theorem fourHex?_twoHexDigits {n : Nat} (h : n < 0x20) : ∃ high low, twoHexDigits n = [high, low] ∧
    fourHex? '0' '0' high low = some n := by
  have hall : ∀ n : Fin 0x20,
      fourHex? '0' '0' (Nat.digitChar (n / 16 % 16)) (Nat.digitChar (n % 16)) = some (n : Nat) := by decide
  exact ⟨_, _, rfl, hall ⟨n, h⟩⟩

theorem readText_escape {c char : Char} (h : escape? c = some char) (cs : List Char) :
    readText ('\\' :: c :: cs) = (readText cs).map fun (chars, left) => (char :: chars, left) := by
  have hcode : c ≠ 'u' := by
    rintro rfl
    simp [escape?] at h
  rw [Option.map_eq_bind]
  simp [readText, h, hcode]

theorem readText_code {n : Nat} (h : n < 0x20) (cs : List Char) :
    readText (['\\', 'u', '0', '0'] ++ twoHexDigits n ++ cs) =
      (readText cs).map fun (chars, left) => (Char.ofNat n :: chars, left) := by
  obtain ⟨high, low, hdigits, hvalue⟩ := fourHex?_twoHexDigits h
  have hplain : ¬ 0xD800 ≤ n := by omega
  rw [hdigits, Option.map_eq_bind]
  simp [readText, hvalue, hplain]

/-- A character is read back from how it stands in a string. -/
theorem readText_escapedChar (c : Char) (cs : List Char) :
    readText (escapedChar c ++ cs) = (readText cs).map fun (chars, left) => (c :: chars, left) := by
  rw [escapedChar]
  split
  · next h =>
    have hself : escape? c = some c := by
      rcases (by simpa using h : c = '"' ∨ c = '\\') with rfl | rfl <;> rfl
    exact readText_escape hself cs
  split
  · next h => exact beq_iff_eq.1 h ▸ readText_escape rfl cs
  split
  · next h => exact beq_iff_eq.1 h ▸ readText_escape rfl cs
  split
  · next h => exact beq_iff_eq.1 h ▸ readText_escape rfl cs
  split
  · next h => exact beq_iff_eq.1 h ▸ readText_escape rfl cs
  split
  · next h => exact beq_iff_eq.1 h ▸ readText_escape rfl cs
  split
  · next h =>
    have hread := readText_code h cs
    rwa [Char.ofNat_toNat] at hread
  · next hmarks _ _ _ _ _ h =>
    obtain ⟨hquote, hslash⟩ : c ≠ '"' ∧ c ≠ '\\' := by simpa using hmarks
    rw [Option.map_eq_bind]
    simp [readText, hslash, h]

theorem readText_flatMap (cs rest : List Char) :
    readText (cs.flatMap escapedChar ++ '"' :: rest) = some (cs, rest) := by
  induction cs with
  | nil => simp [readText]
  | cons c cs ih => rw [List.flatMap_cons, List.append_assoc, readText_escapedChar, ih]; rfl

/-! ### Blanks -/

variable {blanks : List Char}

theorem skipSpaces_append (h : ∀ c ∈ blanks, isSpace c = true) (cs : List Char) :
    skipSpaces (blanks ++ cs) = skipSpaces cs := List.dropWhile_append_of_pos h

theorem readValue_append (h : ∀ c ∈ blanks, isSpace c = true) (fuel : Nat) (cs : List Char) :
    readValue fuel (blanks ++ cs) = readValue fuel cs := by
  cases fuel with
  | zero => rfl
  | succ fuel => rw [readValue, readValue, skipSpaces_append h]

theorem readItems_append (h : ∀ c ∈ blanks, isSpace c = true) (fuel : Nat) (cs : List Char) :
    readItems fuel (blanks ++ cs) = readItems fuel cs := by
  cases fuel with
  | zero => rfl
  | succ fuel => rw [readItems, readItems, readValue_append h]

theorem readFields_append (h : ∀ c ∈ blanks, isSpace c = true) (fuel : Nat) (cs : List Char)
    (before : List (String × Json)) : readFields fuel (blanks ++ cs) before = readFields fuel cs before := by
  cases fuel with
  | zero => rfl
  | succ fuel => rw [readFields, readFields, skipSpaces_append h]

theorem toList_lineBreak (spread : Bool) (depth : Nat) : (lineBreak spread depth).toList =
    if spread then '\n' :: List.replicate (2 * depth) ' ' else [] := by
  cases spread <;> simp [lineBreak]

theorem isSpace_lineBreak (spread : Bool) (depth : Nat) : ∀ c ∈ (lineBreak spread depth).toList, isSpace c = true := by
  rw [toList_lineBreak]
  split
  · simp +contextual [isSpace]
  · nofun

theorem Stops.lineBreak (spread : Bool) (depth : Nat) (h : Stops rest) :
    Stops ((lineBreak spread depth).toList ++ rest) := by
  rw [toList_lineBreak]
  split
  · simp [Stops]
  · exact h

/-! ### Values -/

/-- The letters of a value are read as the value, whatever follows that does not run into a number. -/
def Reads (v : Json) (cs : List Char) : Prop :=
  ∀ (rest : List Char) (fuel : Nat), Stops rest → cs.length < fuel → readValue fuel (cs ++ rest) = some (v, rest)

/-- The letters of a value. -/
def letters (spread : Bool) (depth : Nat) (v : Json) : List Char := (v.write spread depth).toList

/-- The letters of items after the first, up to the closing bracket. -/
def itemsLetters (spread : Bool) (depth : Nat) (items : List Json) : List Char :=
  (writeItems spread (depth + 1) items).toList ++ ((lineBreak spread depth).toList ++ [']'])

theorem itemsLetters_cons (spread : Bool) (depth : Nat) (item : Json) (items : List Json) :
    itemsLetters spread depth (item :: items) = ',' :: ((lineBreak spread (depth + 1)).toList ++
      (item.letters spread (depth + 1) ++ itemsLetters spread depth items)) := by
  simp [itemsLetters, writeItems, letters]

theorem stops_itemsLetters (spread : Bool) (depth : Nat) (items : List Json) (rest : List Char) :
    Stops (itemsLetters spread depth items ++ rest) := by
  cases items with
  | nil => 
    rw [itemsLetters, writeItems, String.toList_empty, List.nil_append, List.append_assoc]
    exact .lineBreak spread depth (by simp [Stops])
  | cons item items => simp [itemsLetters_cons, Stops]

/-- The items of a list are read up to its closing bracket. -/
theorem readItems_letters {spread : Bool} {depth : Nat} {item : Json} {items : List Json}
    (h : ∀ i ∈ item :: items, Reads i (i.letters spread (depth + 1))) (rest : List Char) {fuel : Nat}
    (hfuel : (item.letters spread (depth + 1) ++ itemsLetters spread depth items).length < fuel) :
    readItems fuel (item.letters spread (depth + 1) ++ (itemsLetters spread depth items ++ rest)) =
      some (item :: items, rest) := by
  induction items generalizing item fuel with
  | nil =>
    obtain ⟨fuel, rfl⟩ : ∃ n, fuel = n + 1 := ⟨fuel - 1, by omega⟩
    have hend : skipSpaces (itemsLetters spread depth [] ++ rest) = ']' :: rest := by
      rw [itemsLetters, writeItems, String.toList_empty, List.nil_append, List.append_assoc,
        skipSpaces_append (isSpace_lineBreak spread depth)]
      rfl
    have hsome : 0 < (itemsLetters spread depth []).length := by simp [itemsLetters]
    rw [List.length_append] at hfuel
    rw [readItems, h item (by simp) _ _ (stops_itemsLetters spread depth _ rest) (by omega)]
    simp [hend]
  | cons next items ih =>
    obtain ⟨fuel, rfl⟩ : ∃ n, fuel = n + 1 := ⟨fuel - 1, by omega⟩
    rw [itemsLetters_cons] at hfuel
    simp only [List.length_append, List.length_cons] at hfuel
    have hnext : readItems fuel (next.letters spread (depth + 1) ++ (itemsLetters spread depth items ++ rest)) =
        some (next :: items, rest) :=
      ih (fun i hi => h i (List.mem_cons_of_mem _ hi)) (by rw [List.length_append]; omega)
    have hcomma : skipSpaces (itemsLetters spread depth (next :: items) ++ rest) =
        ',' :: ((lineBreak spread (depth + 1)).toList ++
          (next.letters spread (depth + 1) ++ (itemsLetters spread depth items ++ rest))) := by
      rw [itemsLetters_cons, List.cons_append, List.append_assoc, List.append_assoc]
      rfl
    rw [readItems, h item (by simp) _ _ (stops_itemsLetters spread depth _ rest) (by omega)]
    simp [hcomma, readItems_append (isSpace_lineBreak spread (depth + 1)), hnext]

/-! ### Objects -/

/-- The letters of a field. -/
def fieldLetters (spread : Bool) (depth : Nat) (field : String × Json) : List Char :=
  (writeText field.1).toList ++ ((if spread then ": " else ":").toList ++ field.2.letters spread depth)

/-- The letters of fields after the first, up to the closing brace. -/
def fieldsLetters (spread : Bool) (depth : Nat) (fields : List (String × Json)) : List Char :=
  (writeFields spread (depth + 1) fields).toList ++ ((lineBreak spread depth).toList ++ ['\x7d'])

theorem fieldsLetters_cons (spread : Bool) (depth : Nat) (field : String × Json) (fields : List (String × Json)) :
    fieldsLetters spread depth (field :: fields) = ',' :: ((lineBreak spread (depth + 1)).toList ++
      (fieldLetters spread (depth + 1) field ++ fieldsLetters spread depth fields)) := by
  simp [fieldsLetters, fieldLetters, writeFields, letters]

theorem stops_fieldsLetters (spread : Bool) (depth : Nat) (fields : List (String × Json)) (rest : List Char) :
    Stops (fieldsLetters spread depth fields ++ rest) := by
  cases fields with
  | nil =>
    rw [fieldsLetters, writeFields, String.toList_empty, List.nil_append, List.append_assoc]
    exact .lineBreak spread depth (by simp [Stops])
  | cons field fields => simp [fieldsLetters_cons, Stops]

/-- A new name comes last. -/
theorem putField_of_not_mem {name : String} {fields : List (String × Json)} (h : name ∉ fields.map Prod.fst)
    (value : Json) : putField name value fields = fields ++ [(name, value)] := by
  induction fields with
  | nil => rfl
  | cons field fields ih =>
    obtain ⟨hne, hrest⟩ : ¬ name = field.1 ∧ name ∉ fields.map Prod.fst := by simpa using h
    rw [putField, if_neg (Ne.symm hne), ih hrest, List.cons_append]

theorem toList_writeText (s : String) (rest : List Char) :
    (writeText s).toList ++ rest = '"' :: (s.toList.flatMap escapedChar ++ '"' :: rest) := by
  simp [writeText]

/-- The letters of a field are read as its name, and then its value. -/
theorem readFields_fieldLetters {spread : Bool} {depth : Nat} {field : String × Json}
    (h : Reads field.2 (field.2.letters spread depth)) (hrest : Stops rest) {fuel : Nat}
    (hfuel : (fieldLetters spread depth field).length < fuel) (before : List (String × Json)) :
    (∀ more, skipSpaces rest = ',' :: more → readFields (fuel + 1) (fieldLetters spread depth field ++ rest) before =
      readFields fuel more (putField field.1 field.2 before)) ∧
    (∀ left, skipSpaces rest = '\x7d' :: left → readFields (fuel + 1) (fieldLetters spread depth field ++ rest) before =
      some (putField field.1 field.2 before, left)) := by
  have hcolon : ∃ blank, (if spread then ": " else ":").toList = ':' :: blank ∧ ∀ c ∈ blank, isSpace c = true := by
    cases spread
    · exact ⟨[], rfl, nofun⟩
    · exact ⟨[' '], rfl, List.forall_mem_singleton.2 rfl⟩
  obtain ⟨blank, hcolon, hblank⟩ := hcolon
  have hvalue : readValue fuel (blank ++ (field.2.letters spread depth ++ rest)) = some (field.2, rest) := by
    rw [readValue_append hblank]
    refine h rest fuel hrest ?_
    rw [fieldLetters] at hfuel
    simp only [List.length_append] at hfuel
    omega
  have hquote (cs : List Char) : skipSpaces ('"' :: cs) = '"' :: cs := rfl
  have hmark (cs : List Char) : skipSpaces (':' :: cs) = ':' :: cs := rfl
  rw [fieldLetters, List.append_assoc, List.append_assoc, toList_writeText, hcolon, List.cons_append, readFields]
  constructor
  · intro more hmore
    simp [hquote, readText_flatMap, hmark, hvalue, hmore]
  · intro left hleft
    simp [hquote, readText_flatMap, hmark, hvalue, hleft]

theorem not_mem_of_nodup {field : String × Json} {fields before : List (String × Json)}
    (h : ((before ++ field :: fields).map Prod.fst).Nodup) : field.1 ∉ before.map Prod.fst := by
  rw [List.map_append, List.map_cons, List.nodup_middle, List.nodup_cons] at h
  exact fun hmem => h.1 (List.mem_append_left _ hmem)

/-- The fields of an object with different names are read up to its closing brace. -/
theorem readFields_letters {spread : Bool} {depth : Nat} {field : String × Json} {fields before : List (String × Json)}
    (h : ∀ f ∈ field :: fields, Reads f.2 (f.2.letters spread (depth + 1)))
    (hnames : ((before ++ field :: fields).map Prod.fst).Nodup) (rest : List Char) {fuel : Nat}
    (hfuel : (fieldLetters spread (depth + 1) field ++ fieldsLetters spread depth fields).length < fuel) :
    readFields fuel (fieldLetters spread (depth + 1) field ++ (fieldsLetters spread depth fields ++ rest)) before =
      some (before ++ field :: fields, rest) := by
  -- on the fields after the first, which is read with whatever stands behind it
  induction fields generalizing field before fuel with
  | nil =>
    obtain ⟨fuel, rfl⟩ : ∃ n, fuel = n + 1 := ⟨fuel - 1, by omega⟩
    have hend : skipSpaces (fieldsLetters spread depth [] ++ rest) = '\x7d' :: rest := by
      rw [fieldsLetters, writeFields, String.toList_empty, List.nil_append, List.append_assoc,
        skipSpaces_append (isSpace_lineBreak spread depth)]
      rfl
    have hsome : 0 < (fieldsLetters spread depth []).length := by simp [fieldsLetters]
    rw [List.length_append] at hfuel
    rw [(readFields_fieldLetters (h field (by simp)) (stops_fieldsLetters spread depth _ rest) (by omega) _).2 _ hend,
      putField_of_not_mem (not_mem_of_nodup hnames)]
  | cons next fields ih =>
    obtain ⟨fuel, rfl⟩ : ∃ n, fuel = n + 1 := ⟨fuel - 1, by omega⟩
    rw [fieldsLetters_cons] at hfuel
    simp only [List.length_append, List.length_cons] at hfuel
    have hnext : readFields fuel (fieldLetters spread (depth + 1) next ++ (fieldsLetters spread depth fields ++ rest))
        (before ++ [field]) = some (before ++ [field] ++ next :: fields, rest) :=
      ih (fun f hf => h f (List.mem_cons_of_mem _ hf)) (by rwa [List.append_assoc]) (by rw [List.length_append]; omega)
    have hcomma : skipSpaces (fieldsLetters spread depth (next :: fields) ++ rest) =
        ',' :: ((lineBreak spread (depth + 1)).toList ++
          (fieldLetters spread (depth + 1) next ++ (fieldsLetters spread depth fields ++ rest))) := by
      rw [fieldsLetters_cons, List.cons_append, List.append_assoc, List.append_assoc]
      rfl
    rw [(readFields_fieldLetters (h field (by simp)) (stops_fieldsLetters spread depth _ rest) (by omega) _).1 _ hcomma,
      putField_of_not_mem (not_mem_of_nodup hnames), readFields_append (isSpace_lineBreak spread (depth + 1)), hnext,
      List.append_assoc, List.singleton_append]

/-! ### Whole texts -/

/-- A value that its text gives back: its whole numbers fit a word, the names of an object differ, and no number is a
floating point number. -/
inductive IsPlain : Json → Prop
  | null : IsPlain null
  | bool (value : Bool) : IsPlain (bool value)
  | integer {value : Int} (h : fitsWord value = true) : IsPlain (integer value)
  | text (value : String) : IsPlain (text value)
  | list {items : List Json} (h : ∀ item ∈ items, IsPlain item) : IsPlain (list items)
  | object {fields : List (String × Json)} (hnames : (fields.map Prod.fst).Nodup)
      (h : ∀ field ∈ fields, IsPlain field.2) : IsPlain (object fields)

theorem reads_of_succ {v : Json} {cs : List Char} (h : ∀ (rest : List Char) (fuel : Nat), Stops rest →
    cs.length ≤ fuel → readValue (fuel + 1) (cs ++ rest) = some (v, rest)) : Reads v cs := by
  rintro rest (_ | fuel) hrest hfuel
  · exact absurd hfuel (Nat.not_lt_zero _)
  · exact h rest fuel hrest (Nat.le_of_lt_succ hfuel)

/-- What starts like a number is read as a number. -/
theorem readValue_number {c : Char} (h : c = '-' ∨ isDigitOf 10 c = true) (fuel : Nat) (cs : List Char) :
    readValue (fuel + 1) (c :: cs) = readNumber (c :: cs) := by
  have hother : [' ', '\n', '\r', '\t', '"', '[', '\x7b', 't', 'f', 'n'].all
      (fun c' => !decide (c' = '-' ∨ isDigitOf 10 c' = true)) = true := by decide
  have hne : ∀ c' ∈ [' ', '\n', '\r', '\t', '"', '[', '\x7b', 't', 'f', 'n'], c ≠ c' := by
    rintro c' hc' rfl
    have hc := List.all_eq_true.1 hother c hc'
    rw [decide_eq_true h] at hc
    exact nomatch hc
  simp only [List.mem_cons, List.not_mem_nil, or_false, forall_eq_or_imp, forall_eq] at hne
  simp [readValue, skipSpaces, isSpace, hne]

/-- No item starts with the bracket that closes a list. -/
theorem readItems_closed {cs left : List Char} (h : skipSpaces cs = ']' :: left) (fuel : Nat) :
    readItems fuel cs = none := by
  have hnumber : readNumber (']' :: left) = none := by simp [readNumber, isDigitOf, digitValue?]
  rcases fuel with _ | _ | fuel
  · rfl
  · simp [readItems, readValue]
  · simp [readItems, readValue, h, hnumber]

theorem readValue_list {cs : List Char} (h : ∀ left, skipSpaces cs ≠ ']' :: left) (fuel : Nat) :
    readValue (fuel + 1) ('[' :: cs) = (readItems fuel cs).map fun (items, left) => (list items, left) := by
  simp [readValue, skipSpaces, isSpace]
  split
  · next left hclosed => exact absurd hclosed (h left)
  · rfl

/-- No field starts with the brace that closes an object. -/
theorem readFields_closed {cs left : List Char} (h : skipSpaces cs = '\x7d' :: left) (fuel : Nat)
    (before : List (String × Json)) : readFields fuel cs before = none := by
  cases fuel with
  | zero => rfl
  | succ fuel => simp [readFields, h]

theorem readValue_object {cs : List Char} (h : ∀ left, skipSpaces cs ≠ '\x7d' :: left) (fuel : Nat) :
    readValue (fuel + 1) ('\x7b' :: cs) = (readFields fuel cs []).map fun (fields, left) => (object fields, left) := by
  simp [readValue, skipSpaces, isSpace]
  split
  · next left hclosed => exact absurd hclosed (h left)
  · rfl

/-- A list is read if its items are. -/
theorem reads_list {spread : Bool} {depth : Nat} {items : List Json}
    (h : ∀ item ∈ items, Reads item (item.letters spread (depth + 1))) :
    Reads (list items) ((list items).letters spread depth) := by
  refine reads_of_succ fun rest fuel _ hfuel => ?_
  cases items with
  | nil => simp [letters, write, readValue, skipSpaces, isSpace]
  | cons item items =>
    have hletters : (list (item :: items)).letters spread depth = '[' :: ((lineBreak spread (depth + 1)).toList ++
        (item.letters spread (depth + 1) ++ itemsLetters spread depth items)) := by
      simp [letters, write, itemsLetters]
    rw [hletters] at hfuel
    simp only [List.length_cons, List.length_append] at hfuel
    have hitems : readItems fuel ((lineBreak spread (depth + 1)).toList ++ (item.letters spread (depth + 1) ++
        (itemsLetters spread depth items ++ rest))) = some (item :: items, rest) := by
      rw [readItems_append (isSpace_lineBreak spread (depth + 1))]
      exact readItems_letters h rest (by rw [List.length_append]; omega)
    rw [hletters, List.cons_append, List.append_assoc, List.append_assoc]
    generalize (lineBreak spread (depth + 1)).toList ++ (item.letters spread (depth + 1) ++
      (itemsLetters spread depth items ++ rest)) = cs at hitems
    have hopen : ∀ left, skipSpaces cs ≠ ']' :: left := fun left hclosed => by
      rw [readItems_closed hclosed] at hitems
      exact nomatch hitems
    rw [readValue_list hopen, hitems]
    rfl

/-- An object with different names is read if its fields are. -/
theorem reads_object {spread : Bool} {depth : Nat} {fields : List (String × Json)}
    (hnames : (fields.map Prod.fst).Nodup) (h : ∀ field ∈ fields, Reads field.2 (field.2.letters spread (depth + 1))) :
    Reads (object fields) ((object fields).letters spread depth) := by
  refine reads_of_succ fun rest fuel _ hfuel => ?_
  cases fields with
  | nil => simp [letters, write, readValue, skipSpaces, isSpace]
  | cons field fields =>
    have hletters : (object (field :: fields)).letters spread depth = '\x7b' ::
        ((lineBreak spread (depth + 1)).toList ++
          (fieldLetters spread (depth + 1) field ++ fieldsLetters spread depth fields)) := by
      simp [letters, write, fieldLetters, fieldsLetters]
    rw [hletters] at hfuel
    simp only [List.length_cons, List.length_append] at hfuel
    have hfields : readFields fuel ((lineBreak spread (depth + 1)).toList ++ (fieldLetters spread (depth + 1) field ++
        (fieldsLetters spread depth fields ++ rest))) [] = some (field :: fields, rest) := by
      rw [readFields_append (isSpace_lineBreak spread (depth + 1))]
      exact readFields_letters h (by simpa using hnames) rest (by rw [List.length_append]; omega)
    rw [hletters, List.cons_append, List.append_assoc, List.append_assoc]
    generalize (lineBreak spread (depth + 1)).toList ++ (fieldLetters spread (depth + 1) field ++
      (fieldsLetters spread depth fields ++ rest)) = cs at hfields
    have hopen : ∀ left, skipSpaces cs ≠ '\x7d' :: left := fun left hclosed => by
      rw [readFields_closed hclosed] at hfields
      exact nomatch hfields
    rw [readValue_object hopen, hfields]
    rfl

/-- **Plain values are read back**, on one line or spread over lines, as far inside of other values as they may be. -/
theorem IsPlain.reads {v : Json} (h : IsPlain v) (spread : Bool) (depth : Nat) : Reads v (v.letters spread depth) := by
  induction h generalizing depth with
  | null => exact reads_of_succ fun rest fuel _ _ => by simp [letters, write, readValue, skipSpaces, isSpace, expect]
  | bool value =>
    refine reads_of_succ fun rest fuel _ _ => ?_
    cases value <;> simp [letters, write, readValue, skipSpaces, isSpace, expect]
  | @integer i hi =>
    refine reads_of_succ fun rest fuel hrest _ => ?_
    obtain ⟨c, cs, hfirst, hc⟩ : ∃ c cs, (toString i).toList = c :: cs ∧ (c = '-' ∨ isDigitOf 10 c = true) := by
      rw [toList_toString, Sign.ofInt]
      split
      · obtain ⟨hdigits, -⟩ := digits_toDigits i.natAbs
        obtain ⟨c, cs, hcons⟩ := List.exists_cons_of_ne_nil (Nat.toDigits_ne_nil (b := 10) (n := i.natAbs))
        exact ⟨c, cs, hcons, .inr (hdigits c (hcons ▸ List.mem_cons_self))⟩
      · exact ⟨'-', _, rfl, .inl rfl⟩
    rw [letters, write, ← readNumber_toString hi hrest, hfirst, List.cons_append, readValue_number hc]
  | text value =>
    refine reads_of_succ fun rest fuel _ _ => ?_
    rw [letters, write, toList_writeText]
    simp [readValue, skipSpaces, isSpace, readText_flatMap]
  | list _ ih => exact reads_list fun item hitem => ih item hitem (depth + 1)
  | object hnames _ ih => exact reads_object hnames fun field hfield => ih field hfield (depth + 1)

/-- **The text of a plain value stands for that value.** -/
theorem IsPlain.parse? {v : Json} (h : IsPlain v) (spread : Bool) (depth : Nat) :
    parse? (v.write spread depth) = some v := by
  have hread := h.reads spread depth [] (2 * (v.letters spread depth).length + 2) (by simp [Stops]) (by omega)
  rw [List.append_nil] at hread
  have hread' : readValue (2 * (v.write spread depth).toList.length + 2) (v.write spread depth).toList = some (v, []) :=
    hread
  rw [Json.parse?]
  simp [hread', skipSpaces]

end ApiDoc.Json
