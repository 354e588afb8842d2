import ApiDoc.Proofs.EnumLiterals
import ApiDoc.Proofs.Number.Integers
import Mathlib.Data.List.TakeWhile
import Mathlib.Data.Nat.Digits.Defs

/-!
# Whole numbers in many spellings

A whole number below 2 ^ 53 can be written in four bases, in either case, with zeros before it and underscores in it,
and with a sign that blanks may follow.  It is read as that number however it is written, and an integer of up to
fifteen digits that is written as source text is one of these spellings (`EnumValue.numerals_agree`).

Digits are looked at in turn: what is read as a number is the number that Mathlib has for them (`ofDigits_eq`).  A
decimal goes through rounding, a number of another base through a machine word, and neither loses anything
(`wholeNumber?_of_writes`, `ofDecimal_of_lt`).
-/

namespace ApiDoc.EnumValue

open Text

/-! ### Spellings -/

/-- A character that stands for a digit of a base, in either case. -/
def IsDigit (base d : Nat) (c : Char) : Prop := d < base ∧ (c = d.digitChar ∨ c = d.digitChar.toUpper)

/-- Characters that stand for digits, with underscores anywhere. -/
inductive Writes (base : Nat) : List Nat → List Char → Prop
  | nil : Writes base [] []
  | digit {d : Nat} {c : Char} {ds : List Nat} {cs : List Char} (hd : IsDigit base d c) (h : Writes base ds cs) :
      Writes base (d :: ds) (c :: cs)
  | underscore {ds : List Nat} {cs : List Char} (h : Writes base ds cs) : Writes base ds ('_' :: cs)

/-- The number with the given digits, the first of which counts most. -/
def numberOf (base : Nat) (ds : List Nat) : Nat := Nat.ofDigits base ds.reverse

/-- The spellings of a whole number without a sign. -/
inductive Spells : Nat → List Char → Prop
  | decimal {d : Nat} {c : Char} {ds : List Nat} {cs : List Char} (hd : IsDigit 10 d c) (h : Writes 10 ds cs) :
      Spells (numberOf 10 (d :: ds)) (c :: cs)
  | radix {mark : Char} {base : Nat} {ds : List Nat} {cs : List Char} (hmark : (mark, base) ∈ radixMarks)
      (hsome : ds ≠ []) (h : Writes base ds cs) : Spells (numberOf base ds) ('0' :: mark :: cs)

/-- The sign before a number. -/
inductive Sign where
  | none
  | plus
  | minus

namespace Sign

/-- The sign as it is written. -/
def write : Sign → List Char
  | none => []
  | plus => ['+']
  | minus => ['-']

/-- A number with the sign before it. -/
def apply : Sign → Binary64 → Binary64
  | none, x => x
  | plus, x => x
  | minus, x => x.negate

/-- A whole number with the sign before it. -/
def signed : Sign → Nat → Int
  | none, n => n
  | plus, n => n
  | minus, n => -n

end Sign

variable {base d n : Nat} {c : Char} {ds : List Nat} {cs blanks : List Char}

/-! ### Digits -/

theorem IsDigit.digitValue? (hbase : base ≤ 16) (h : IsDigit base d c) : ApiDoc.digitValue? base c = some d := by
  have hsixteen : ∀ d : Fin 16, ApiDoc.digitValue? 16 (d : Nat).digitChar = some (d : Nat) ∧
      ApiDoc.digitValue? 16 (d : Nat).digitChar.toUpper = some (d : Nat) := by decide
  have hvalue : ApiDoc.digitValue? 16 c = some d := by
    obtain ⟨hd, rfl | rfl⟩ := h
    · exact (hsixteen ⟨d, by omega⟩).1
    · exact (hsixteen ⟨d, by omega⟩).2
  obtain ⟨hsome, -⟩ := Option.filter_eq_some_iff.1 hvalue
  exact Option.filter_eq_some_iff.2 ⟨hsome, by simpa using h.1⟩

theorem IsDigit.isDigitOf (hbase : base ≤ 16) (h : IsDigit base d c) : ApiDoc.isDigitOf base c = true := by
  rw [ApiDoc.isDigitOf, h.digitValue? hbase, Option.isSome_some]

theorem IsDigit.isBlank (hbase : base ≤ 16) (h : IsDigit base d c) : isBlank c = false := by
  have hsixteen : ∀ d : Fin 16, Text.isBlank (d : Nat).digitChar = false ∧
      Text.isBlank (d : Nat).digitChar.toUpper = false := by decide
  obtain ⟨hd, rfl | rfl⟩ := h
  · exact (hsixteen ⟨d, by omega⟩).1
  · exact (hsixteen ⟨d, by omega⟩).2

theorem notUnderscore_of_isDigitOf (h : isDigitOf base c = true) : notUnderscore c = true := by
  have hne : c ≠ '_' := by
    rintro rfl
    exact absurd h (by simp [isDigitOf, digitValue?])
  simpa [notUnderscore] using hne

/-- Digits are read as the number that they are the digits of. -/
theorem ofDigits_eq (base : Nat) (cs : List Char) :
    ofDigits base cs = numberOf base (cs.map fun c => (digitValue? base c).getD 0) := by
  have hstep : (fun (n : Nat) (c : Char) => n * base + (digitValue? base c).getD 0) =
      fun n c => (digitValue? base c).getD 0 + base * n := by
    funext n c
    rw [Nat.add_comm, Nat.mul_comm]
  rw [numberOf, Nat.ofDigits_eq_foldr, List.foldr_reverse, List.foldl_map, ofDigits, hstep]
  simp

namespace Writes

theorem isSpacedDigit (hbase : base ≤ 16) (h : Writes base ds cs) : ∀ c ∈ cs, isSpacedDigit base c = true := by
  induction h with
  | nil => simp
  | digit hd _ ih => simpa [EnumValue.isSpacedDigit, hd.isDigitOf hbase] using ih
  | underscore _ ih => simpa [EnumValue.isSpacedDigit] using ih

theorem isBlank (hbase : base ≤ 16) (h : Writes base ds cs) : ∀ c ∈ cs, isBlank c = false := by
  induction h with
  | nil => simp
  | digit hd _ ih => simpa [hd.isBlank hbase] using ih
  | underscore _ ih => simpa using ⟨by decide, ih⟩

/-- Without the underscores, the digits are left. -/
theorem digits (hbase : base ≤ 16) (h : Writes base ds cs) :
    (cs.filter notUnderscore).map (fun c => (digitValue? base c).getD 0) = ds := by
  induction h with
  | nil => rfl
  | digit hd _ ih =>
    rw [List.filter_cons_of_pos (notUnderscore_of_isDigitOf (hd.isDigitOf hbase)), List.map_cons, ih,
      hd.digitValue? hbase, Option.getD_some]
  | underscore _ ih => rw [List.filter_cons_of_neg (by decide), ih]

theorem append {ds' : List Nat} {cs' : List Char} (h : Writes base ds cs) (h' : Writes base ds' cs') :
    Writes base (ds ++ ds') (cs ++ cs') := by
  induction h with
  | nil => exact h'
  | digit hd _ ih => exact .digit hd ih
  | underscore _ ih => exact .underscore ih

end Writes

theorem wholeNumber?_of_writes (hbase : base ≤ 16) (h : Writes base ds cs) (hsome : ds ≠ [])
    (hlt : numberOf base ds < signedWordEnd) : wholeNumber? base cs = some (Binary64.ofInt (numberOf base ds)) := by
  have hvalue : ofDigits base (cs.filter notUnderscore) = numberOf base ds := by rw [ofDigits_eq, h.digits hbase]
  have hdigits : (cs.filter notUnderscore).isEmpty = false := by
    rw [List.isEmpty_eq_false_iff, ne_eq, ← List.map_eq_nil_iff, h.digits hbase]
    exact hsome
  have hall : cs.all (isSpacedDigit base) = true := List.all_eq_true.2 (h.isSpacedDigit hbase)
  simp only [wholeNumber?, hvalue, hdigits, hall]
  simpa using hlt

/-! ### Decimals -/

/-- A whole number of few digits is read off without a power of ten. -/
theorem ofDecimal_of_lt (h : n < 2 ^ 53) : Binary64.ofDecimal false n 0 = Binary64.ofInt n := by
  have hlength : (Nat.toDigits 10 n).length ≤ 16 := Nat.toDigits_length 10 n 16 (by decide) (by omega)
  have hfew : ¬ Binary64.mostPlaces < (Nat.toDigits 10 n).length := by unfold Binary64.mostPlaces; omega
  have hmany : ¬ ((Nat.toDigits 10 n).length : Int) < Binary64.leastPlaces := by unfold Binary64.leastPlaces; omega
  by_cases hn : n = 0
  · subst hn
    decide
  · have hpositive : ¬ (n : Int) < 0 := by omega
    simp [Binary64.ofDecimal, hn, hfew, hmany, Binary64.ofInt, hpositive]

/-- Digits alone are a whole number. -/
theorem unsigned?_of_digits (h : ∀ c ∈ cs, isDigitOf 10 c = true) (hsome : cs ≠ []) :
    Binary64.unsigned? false cs = some (Binary64.ofDecimal false (ofDigits 10 cs) 0) := by
  have htake : cs.takeWhile (isDigitOf 10) = cs := List.takeWhile_eq_self_iff.2 h
  have hdrop : cs.dropWhile (isDigitOf 10) = [] := List.dropWhile_eq_nil_iff.2 h
  simp [Binary64.unsigned?, htake, hdrop, hsome]

theorem isDecimal_of_spaced (hc : isDigitOf 10 c = true) (hcs : ∀ c ∈ cs, isSpacedDigit 10 c = true) :
    isDecimal (c :: cs) = true := by
  have hdrop : (c :: cs).dropWhile (isSpacedDigit 10) = [] := by
    refine List.dropWhile_eq_nil_iff.2 ?_
    simpa [isSpacedDigit, hc] using hcs
  simp [isDecimal, hdrop, hc, isPower]

/-! ### Numbers -/

theorem Spells.isBlank (h : Spells n cs) : ∀ c ∈ cs, isBlank c = false := by
  have hmarks : ∀ p ∈ radixMarks, Text.isBlank p.1 = false ∧ p.2 ≤ 16 := by decide
  cases h with
  | decimal hd h => simpa [hd.isBlank (by decide)] using h.isBlank (by decide)
  | radix hmark hsome h =>
    obtain ⟨hblank, hbase⟩ := hmarks _ hmark
    simpa [hblank] using ⟨by decide, h.isBlank hbase⟩

/-- A number without a sign begins with a digit. -/
theorem Spells.head (h : Spells n cs) : ∃ c rest, cs = c :: rest ∧ isDigitOf 10 c = true := by
  cases h with
  | decimal hd h => exact ⟨_, _, rfl, hd.isDigitOf (by decide)⟩
  | radix hmark hsome h => exact ⟨_, _, rfl, by decide⟩

/-- Without a sign, a number is read in any base. -/
theorem unsigned?_of_spells (h : Spells n cs) (hn : n < 2 ^ 53) : unsigned? cs = some (Binary64.ofInt n) := by
  cases h with
  | @decimal d c ds cs hd h =>
    have hspaced := (Writes.digit hd h).isSpacedDigit (by decide)
    have hc := hd.isDigitOf (by decide)
    -- behind a first digit no mark of a base stands
    have hunmarked : ∀ mark ∈ radixMarks.map Prod.fst, ∀ rest, c :: cs ≠ '0' :: mark :: rest := by
      intro mark hmark rest heq
      have hnot : ∀ mark ∈ radixMarks.map Prod.fst, isSpacedDigit 10 mark = false :=
        List.forall_iff_forall_mem.1 (by decide)
      exact absurd (hspaced mark (by simp [heq])) (by simp [hnot mark hmark])
    have hdefault : unsigned? (c :: cs) = if isDecimal (c :: cs) = true then
        Binary64.unsigned? false ((c :: cs).filter notUnderscore) else none := by
      rw [unsigned?.eq_def]
      split
      iterate 6
        · next heq => exact absurd heq (hunmarked _ (by decide) _)
      · rfl
    have hdigits : ∀ e ∈ (c :: cs).filter notUnderscore, isDigitOf 10 e = true := by
      intro e he
      obtain ⟨hmem, hnot⟩ := List.mem_filter.1 he
      have hne : e ≠ '_' := by simpa [notUnderscore] using hnot
      simpa [isSpacedDigit, hne] using hspaced e hmem
    have hsome : (c :: cs).filter notUnderscore ≠ [] :=
      List.ne_nil_of_mem (List.mem_filter.2 ⟨List.mem_cons_self, notUnderscore_of_isDigitOf hc⟩)
    have hdecimal := isDecimal_of_spaced hc fun e he => hspaced e (List.mem_cons_of_mem c he)
    rw [hdefault, if_pos hdecimal, unsigned?_of_digits hdigits hsome, ofDigits_eq,
      (Writes.digit hd h).digits (by decide), ofDecimal_of_lt hn]
  | @radix mark base ds cs hmark hsome h =>
    have hbase : ∀ p ∈ radixMarks, p.2 ≤ 16 ∧ unsigned? ('0' :: p.1 :: cs) = wholeNumber? p.2 cs := by
      intro p hp
      simp only [radixMarks, List.mem_cons, List.not_mem_nil, or_false] at hp
      rcases hp with rfl | rfl | rfl | rfl | rfl | rfl <;> exact ⟨by decide, rfl⟩
    obtain ⟨hle, hread⟩ := hbase _ hmark
    rw [hread]
    exact wholeNumber?_of_writes hle h hsome (hn.trans (by decide))

/-- With a sign, a number is read as well. -/
theorem numeral?_of_spells (sign : Sign) (hsign : sign = .none → blanks = []) (hblanks : ∀ c ∈ blanks, isBlank c = true)
    (h : Spells n cs) (hn : n < 2 ^ 53) :
    numeral? (sign.write ++ (blanks ++ cs)) = some (sign.apply (Binary64.ofInt n)) := by
  obtain ⟨c, rest, hcs, hc⟩ := h.head
  have hgap : trimStart (blanks ++ cs) = cs := by
    rw [trimStart_append_of_blank hblanks]
    refine trimStart_eq_self fun d hd => h.isBlank d (List.mem_of_head? hd)
  have hread := unsigned?_of_spells h hn
  cases sign with
  | none =>
    have hminus : c ≠ '-' := by rintro rfl; exact absurd hc (by decide)
    have hplus : c ≠ '+' := by rintro rfl; exact absurd hc (by decide)
    rw [hsign rfl, Sign.write, List.nil_append, List.nil_append, Sign.apply, ← hread, hcs, numeral?.eq_def]
    simp [hminus, hplus]
  | plus =>
    show unsigned? (trimStart (blanks ++ cs)) = _
    rw [hgap, hread, Sign.apply]
  | minus =>
    show (unsigned? (trimStart (blanks ++ cs))).map Binary64.negate = _
    rw [hgap, hread, Option.map_some, Sign.apply]

/-- What is a number is not taken for a text in quotes. -/
theorem parse?_of_numeral? {text : String} {x : Binary64} (h : numeral? (trim text.toList) = some x) :
    parse? text = some (.number x) := by
  have hquotes : ∀ c ∈ quotes, ¬ (c ∈ ['+', '-'] ∨ isBlank c = true ∨ isDigitOf 10 c = true) :=
    List.forall_iff_forall_mem.1 (by decide)
  have hunquoted : unquote? (trim text.toList) = none := by
    rw [Option.eq_none_iff_forall_ne_some]
    intro body hbody
    obtain ⟨quote, hquote, heq⟩ := unquote?_eq_some_iff.1 hbody
    exact hquotes quote hquote (heq ▸ isNumericLiteral_of_numeral? h).first
  rw [parse?, hunquoted, h]
  rfl

theorem Sign.toInt?_apply (sign : Sign) (hn : n < 2 ^ 53) :
    (sign.apply (Binary64.ofInt n)).toInt? = some (sign.signed n) := by
  have hint : (Binary64.ofInt n).toInt? = some (n : Int) := Binary64.toInt?_ofInt (by simpa using hn)
  cases sign with
  | none | plus => exact hint
  | minus => exact Binary64.toInt?_negate hint

/-- A number has no blanks at either end. -/
theorem Spells.trim (sign : Sign) (hsign : sign = .none → blanks = []) (h : Spells n cs) :
    trim (sign.write ++ (blanks ++ cs)) = sign.write ++ (blanks ++ cs) := by
  obtain ⟨c, rest, hcs, -⟩ := h.head
  refine trim_eq_self_iff.2 ⟨fun d hd => ?_, fun d hd => ?_⟩
  · cases sign with
    | none =>
      rw [hsign rfl] at hd
      exact h.isBlank d (List.mem_of_head? hd)
    | plus =>
      obtain rfl : '+' = d := by simpa [Sign.write] using hd
      decide
    | minus =>
      obtain rfl : '-' = d := by simpa [Sign.write] using hd
      decide
  · have hlast : (sign.write ++ (blanks ++ cs)).getLast? = cs.getLast? := by
      rw [← List.append_assoc, List.getLast?_append, Option.or_of_isSome (by simp [hcs])]
    exact h.isBlank d (List.mem_of_getLast? (hlast ▸ hd))

/-- Blanks at either end of a number make no difference. -/
theorem parse?_spelling (sign : Sign) (before blanks after : List Char) (hbefore : ∀ c ∈ before, isBlank c = true)
    (hblanks : ∀ c ∈ blanks, isBlank c = true) (hafter : ∀ c ∈ after, isBlank c = true) (h : Spells n cs)
    (hn : n < 2 ^ 53) : parse? (String.ofList (before ++ (sign.write ++ (blanks ++ cs) ++ after))) =
      some (.number (sign.apply (Binary64.ofInt n))) := by
  have hread (before blanks : List Char) (hsign : sign = .none → blanks = []) (hbefore : ∀ c ∈ before, isBlank c = true)
      (hblanks : ∀ c ∈ blanks, isBlank c = true) :
      parse? (String.ofList (before ++ (sign.write ++ (blanks ++ cs) ++ after))) =
        some (.number (sign.apply (Binary64.ofInt n))) := by
    refine parse?_of_numeral? ?_
    rw [String.toList_ofList, trim_append_of_blank hbefore hafter (h.trim sign hsign)]
    exact numeral?_of_spells sign hsign hblanks h hn
  by_cases hsign : sign = .none
  · -- without a sign, the blanks behind it belong to those before the number
    subst hsign
    have hall : ∀ c ∈ before ++ blanks, isBlank c = true := by
      intro c hc
      exact (List.mem_append.1 hc).elim (hbefore c) (hblanks c)
    simpa [Sign.write] using hread (before ++ blanks) [] (fun _ => rfl) hall (by simp)
  · exact hread before blanks (fun heq => absurd heq hsign) hbefore hblanks

/-! ### Integers as they are written -/

theorem numberOf_append_singleton (base : Nat) (ds : List Nat) (d : Nat) :
    numberOf base (ds ++ [d]) = d + base * numberOf base ds := by
  simp [numberOf, Nat.ofDigits_cons]

theorem spells_toDigits (n : Nat) : Spells n (Nat.toDigits 10 n) := by
  have hdecimal : ∃ d ds c cs, Nat.toDigits 10 n = c :: cs ∧ IsDigit 10 d c ∧ Writes 10 ds cs ∧
      numberOf 10 (d :: ds) = n := by
    induction n using Nat.strongRecOn with
    | ind n ih =>
      rw [Nat.toDigits_eq_if (by decide)]
      split
      · next hlt => exact ⟨n, [], n.digitChar, [], rfl, ⟨hlt, .inl rfl⟩, .nil, by simp [numberOf]⟩
      · next hge =>
        obtain ⟨d, ds, c, cs, hdigits, hd, h, hvalue⟩ := ih (n / 10) (by omega)
        have hlast : Writes 10 [n % 10] [(n % 10).digitChar] := .digit ⟨Nat.mod_lt _ (by decide), .inl rfl⟩ .nil
        refine ⟨d, ds ++ [n % 10], c, cs ++ [(n % 10).digitChar], by rw [hdigits, List.cons_append], hd,
          h.append hlast, ?_⟩
        rw [← List.cons_append, numberOf_append_singleton, hvalue, Nat.mod_add_div]
  obtain ⟨d, ds, c, cs, hdigits, hd, h, hvalue⟩ := hdecimal
  rw [hdigits, ← hvalue]
  exact .decimal hd h

/-- The sign that an integer is written with. -/
def Sign.ofInt (i : Int) : Sign := if 0 ≤ i then none else minus

theorem toList_toString (i : Int) : (toString i).toList = (Sign.ofInt i).write ++ Nat.toDigits 10 i.natAbs := by
  rw [Int.toString_eq_repr, Int.repr_eq_if, Sign.ofInt]
  split
  · next hi =>
    rw [Nat.toList_repr, show i.toNat = i.natAbs by omega]
    rfl
  · next hi =>
    rw [String.toList_append, Nat.toList_repr, show (-i).toNat = i.natAbs by omega]
    rfl

/-- An integer that is written and read again. -/
theorem parse?_toString {i : Int} (hi : i.natAbs < 2 ^ 53) :
    parse? (toString i) = some (.number (Binary64.ofInt i)) := by
  have hread := parse?_spelling (Sign.ofInt i) [] [] [] (by simp) (by simp) (by simp) (spells_toDigits i.natAbs) hi
  have htext : String.ofList ([] ++ ((Sign.ofInt i).write ++ ([] ++ Nat.toDigits 10 i.natAbs) ++ [])) = toString i := by
    rw [List.nil_append, List.nil_append, List.append_nil, ← toList_toString, String.ofList_toList]
  have hvalue : (Sign.ofInt i).apply (Binary64.ofInt i.natAbs) = Binary64.ofInt i := by
    rw [Sign.ofInt]
    split
    · next hi => rw [Sign.apply, Int.natAbs_of_nonneg hi]
    · next hi =>
      rw [Sign.apply, Binary64.negate_ofInt (by omega)]
      congr 1
      omega
  rw [← htext, hread, hvalue]

/-- **Numbers are the same in every spelling.**  A whole number below 2 ^ 53 is read as that number in all four bases,
with any zeros and underscores, sign and blanks; and an integer of up to fifteen digits is read back from its source
text. -/
theorem numerals_agree :
    (∀ (n : Nat) (sign : Sign) (before blanks numeral after : List Char), n < 2 ^ 53 → Spells n numeral →
      (∀ c ∈ before, isBlank c = true) → (∀ c ∈ blanks, isBlank c = true) → (∀ c ∈ after, isBlank c = true) →
      parse? (String.ofList (before ++ (sign.write ++ (blanks ++ numeral) ++ after))) =
        some (.number (sign.apply (Binary64.ofInt n))) ∧
      (sign.apply (Binary64.ofInt n)).toInt? = some (sign.signed n)) ∧
    ∀ (x : Binary64) (i : Int), x.toInt? = some i → i.natAbs < 10 ^ 15 →
      parse? x.sourceText = some (.number (Binary64.ofInt i)) ∧ (Binary64.ofInt i).toInt? = some i := by
  refine ⟨fun n sign before blanks numeral after hn h hbefore hblanks hafter => ?_, fun x i hx hi => ?_⟩
  · exact ⟨parse?_spelling sign before blanks after hbefore hblanks hafter h hn, sign.toInt?_apply hn⟩
  · have htext : x.sourceText = toString i := by
      simp only [Binary64.sourceText, hx]
      exact if_pos hi
    have hfits : i.natAbs < 2 ^ 53 := hi.trans (by decide)
    rw [htext]
    exact ⟨parse?_toString hfits, Binary64.toInt?_ofInt hfits⟩

theorem numerals_agree_mask :
    parse? "\t- 0X0_fF " = some (.number (Binary64.ofInt 255).negate) ∧
    parse? (Binary64.ofInt (-1000)).sourceText = some (.number (Binary64.ofInt (-1000))) := by
  have hdigits : Writes 16 [0, 15, 15] ['0', '_', 'f', 'F'] :=
    .digit ⟨by decide, .inl rfl⟩ (.underscore (.digit ⟨by decide, .inl rfl⟩ (.digit ⟨by decide, .inr rfl⟩ .nil)))
  have hmask : Spells 255 ['0', 'X', '0', '_', 'f', 'F'] :=
    Spells.radix (by decide : ('X', 16) ∈ radixMarks) (by decide) hdigits
  refine ⟨?_, ?_⟩
  · exact (numerals_agree.1 255 .minus ['\t'] [' '] _ [' '] (by decide) hmask (List.all_eq_true.1 (by decide))
      (List.all_eq_true.1 (by decide)) (List.all_eq_true.1 (by decide))).1
  · exact (numerals_agree.2 (Binary64.ofInt (-1000)) (-1000) (by decide) (by decide)).1

end ApiDoc.EnumValue
