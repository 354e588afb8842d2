import ApiDoc.Proofs.EnumValues

/-!
# Literals that initialise enum members

Whether an initialiser is a string literal is told from its first and its last character
(`EnumValue.parse?_eq_text_iff`).  That is right for every string literal, and for every text that does not begin and
end with the same quote: then a literal is a number, and anything else has the value that the checker computed.  A text
with a bare quote inside may be more than one literal, and is taken for one all the same
(`Environment.literals_told_by_ends`).
-/

namespace ApiDoc

open Text

namespace EnumValue

/-! ### String literals -/

/-- The characters that string literals stand between. -/
def quotes : List Char := ['"', '\'', '\x60']

/-- A text that begins and ends with the same quote, and what stands between them. -/
def EnclosedIn (quote : Char) (text body : List Char) : Prop := quote ∈ quotes ∧ text = quote :: (body ++ [quote])

/-- Whether a quote stands in a text with no backslash to escape it. -/
def hasBare (quote : Char) : List Char → Bool
  | [] => false
  | '\\' :: _ :: rest => hasBare quote rest
  | c :: rest => c == quote || hasBare quote rest

/-- A text that is one string literal, with what it quotes as it is written. -/
def IsStringLiteral (text body : List Char) : Prop :=
  ∃ quote, EnclosedIn quote text body ∧ hasBare quote body = false

theorem unquote?_eq_some_iff {text body : List Char} :
    unquote? text = some body ↔ ∃ quote, EnclosedIn quote text body := by
  have hquote (c : Char) : (c == '"' || c == '\'' || c == '\x60') = decide (c ∈ quotes) := by
    rw [Bool.eq_iff_iff]
    simp [quotes, or_assoc]
  constructor
  · intro h
    cases text with
    | nil => exact nomatch h
    | cons quote rest =>
      rw [unquote?, hquote] at h
      rcases rest.eq_nil_or_concat' with rfl | ⟨inner, last, rfl⟩
      · simp at h
      · obtain ⟨hmem, rfl, rfl⟩ : quote ∈ quotes ∧ last = quote ∧ inner = body := by simpa using h
        exact ⟨last, hmem, rfl⟩
  · rintro ⟨quote, hmem, rfl⟩
    rw [unquote?, hquote, if_pos (by simpa using hmem)]
    simp

/-- A text is read as a string literal if it begins and ends with the same quote. -/
theorem parse?_eq_text_iff {text body : String} :
    parse? text = some (.text body) ↔ ∃ quote, EnclosedIn quote (trim text.toList) body.toList := by
  rw [← unquote?_eq_some_iff, parse?]
  cases hunquoted : unquote? (trim text.toList) with
  | some inner => simp [String.ext_iff]
  | none => cases numeral? (trim text.toList) <;> simp

/-- A quote behind a backslash does not end a literal. -/
example : parse? "'it\\'s'" = some (.text "it\\'s") ∧ hasBare '\'' "it\\'s".toList = false := by decide +kernel

/-! ### Numeric literals -/

/-- The marks of the bases that literals can be written in beside the decimal one. -/
def radixMarks : List (Char × Nat) := [('x', 16), ('X', 16), ('o', 8), ('O', 8), ('b', 2), ('B', 2)]

/-- A point with digits behind it, or nothing. -/
inductive IsFraction : List Char → Prop
  | none : IsFraction []
  | point {digits : List Char} (h : ∀ c ∈ digits, isSpacedDigit 10 c = true) : IsFraction ('.' :: digits)

/-- A power of ten, or nothing. -/
inductive IsPowerOfTen : List Char → Prop
  | none : IsPowerOfTen []
  | power {mark : Char} (sign : List Char) {digits : List Char} (hmark : mark = 'e' ∨ mark = 'E')
      (hsign : sign ∈ [[], ['+'], ['-']]) (hsome : digits ≠ []) (h : ∀ c ∈ digits, isDigitOf 10 c = true) :
      IsPowerOfTen (mark :: (sign ++ digits))

/-- A number that is written without a sign. -/
inductive IsUnsignedLiteral : List Char → Prop
  | radix {mark : Char} {base : Nat} {digits : List Char} (hmark : (mark, base) ∈ radixMarks) (hsome : digits ≠ [])
      (h : ∀ c ∈ digits, isSpacedDigit base c = true) : IsUnsignedLiteral ('0' :: mark :: digits)
  | decimal {first : Char} {digits fraction power : List Char} (hfirst : isDigitOf 10 first = true)
      (h : ∀ c ∈ digits, isSpacedDigit 10 c = true) (hfraction : IsFraction fraction) (hpower : IsPowerOfTen power) :
      IsUnsignedLiteral (first :: (digits ++ (fraction ++ power)))

/-- A number with at most one sign before it. -/
def IsNumericLiteral (text : List Char) : Prop :=
  ∃ sign blanks number, sign ∈ [[], ['+'], ['-']] ∧ (∀ c ∈ blanks, isBlank c = true) ∧ IsUnsignedLiteral number ∧
    text = sign ++ (blanks ++ number)

theorem isPowerOfTen_of_isPower {cs : List Char} (h : isPower cs = true) : IsPowerOfTen cs := by
  cases cs with
  | nil => exact .none
  | cons mark rest =>
    obtain ⟨⟨hmark, hsome⟩, hdigits⟩ : ((mark = 'e' ∨ mark = 'E') ∧ _ ≠ []) ∧ ∀ c ∈ _, isDigitOf 10 c = true := by
      simpa [isPower] using h
    split at hsome
    · exact .power ['+'] hmark (by simp) hsome (by simpa using hdigits)
    · exact .power ['-'] hmark (by simp) hsome (by simpa using hdigits)
    · exact .power [] hmark (by simp) hsome (by simpa using hdigits)

theorem isUnsignedLiteral_of_isDecimal {cs : List Char} (h : isDecimal cs = true) : IsUnsignedLiteral cs := by
  cases cs with
  | nil => exact nomatch h
  | cons first rest =>
    obtain ⟨hfirst, hpower⟩ : isDigitOf 10 first = true ∧ isPower _ = true := by simpa [isDecimal] using h
    -- the first digit is passed over with the others
    have hafter : (first :: rest).dropWhile (isSpacedDigit 10) = rest.dropWhile (isSpacedDigit 10) :=
      List.dropWhile_cons_of_pos (by simp [isSpacedDigit, hfirst])
    have hspaced (cs : List Char) : ∀ c ∈ cs.takeWhile (isSpacedDigit 10), isSpacedDigit 10 c = true :=
      List.all_eq_true.1 List.all_takeWhile
    have hrest := (List.takeWhile_append_dropWhile (p := isSpacedDigit 10) (l := rest)).symm
    rw [hafter] at hpower
    split at hpower
    · next fraction hpoint =>
      have hfraction := (List.takeWhile_append_dropWhile (p := isSpacedDigit 10) (l := fraction)).symm
      rw [hpoint, hfraction, ← List.cons_append] at hrest
      rw [hrest]
      exact .decimal hfirst (hspaced rest) (.point (hspaced fraction)) (isPowerOfTen_of_isPower hpower)
    · rw [hrest]
      exact .decimal hfirst (hspaced rest) .none (isPowerOfTen_of_isPower hpower)

theorem digits_of_wholeNumber? {base : Nat} {cs : List Char} {x : Binary64} (h : wholeNumber? base cs = some x) :
    cs ≠ [] ∧ ∀ c ∈ cs, isSpacedDigit base c = true := by
  simp only [wholeNumber?] at h
  split at h
  · exact nomatch h
  · next hdigits =>
    simp only [Bool.or_eq_true, not_or, Bool.not_eq_true, Bool.not_eq_false', List.all_eq_true] at hdigits
    refine ⟨?_, hdigits.1.2⟩
    rintro rfl
    simp at hdigits

theorem isUnsignedLiteral_of_unsigned? {cs : List Char} {x : Binary64} (h : unsigned? cs = some x) :
    IsUnsignedLiteral cs := by
  have hradix {mark : Char} {base : Nat} {digits : List Char} (hmark : (mark, base) ∈ radixMarks)
      (h : wholeNumber? base digits = some x) : IsUnsignedLiteral ('0' :: mark :: digits) :=
    .radix hmark (digits_of_wholeNumber? h).1 (digits_of_wholeNumber? h).2
  unfold unsigned? at h
  split at h
  · exact hradix (by decide) h
  · exact hradix (by decide) h
  · exact hradix (by decide) h
  · exact hradix (by decide) h
  · exact hradix (by decide) h
  · exact hradix (by decide) h
  · split at h
    · next hdecimal => exact isUnsignedLiteral_of_isDecimal hdecimal
    · exact nomatch h

theorem isNumericLiteral_of_numeral? {cs : List Char} {x : Binary64} (h : numeral? cs = some x) :
    IsNumericLiteral cs := by
  have hsigned (sign rest : List Char) (hsign : sign ∈ [[], ['+'], ['-']]) {y : Binary64}
      (h : unsigned? (trimStart rest) = some y) : IsNumericLiteral (sign ++ rest) :=
    ⟨sign, rest.takeWhile isBlank, trimStart rest, hsign, List.all_eq_true.1 List.all_takeWhile,
      isUnsignedLiteral_of_unsigned? h, by rw [trimStart, List.takeWhile_append_dropWhile]⟩
  unfold numeral? at h
  split at h
  · next rest =>
    obtain ⟨y, hy, -⟩ := Option.map_eq_some_iff.1 h
    exact hsigned ['-'] rest (by simp) hy
  · next rest => exact hsigned ['+'] rest (by simp) h
  · exact ⟨[], [], cs, by simp, by simp, isUnsignedLiteral_of_unsigned? h, rfl⟩

/-- What a number begins with. -/
theorem IsNumericLiteral.first {c : Char} {cs : List Char} (h : IsNumericLiteral (c :: cs)) :
    c ∈ ['+', '-'] ∨ isBlank c = true ∨ isDigitOf 10 c = true := by
  obtain ⟨sign, blanks, number, hsign, hblanks, hnumber, heq⟩ := h
  simp only [List.mem_cons, List.not_mem_nil, or_false] at hsign
  rcases hsign with rfl | rfl | rfl
  · cases blanks with
    | cons blank blanks =>
      obtain ⟨rfl, -⟩ := List.cons.inj heq
      exact .inr (.inl (hblanks c (by simp)))
    | nil =>
      cases hnumber with
      | radix hmark hsome hdigits =>
        obtain ⟨rfl, -⟩ := List.cons.inj heq
        exact .inr (.inr (by decide))
      | decimal hfirst hdigits hfraction hpower =>
        obtain ⟨rfl, -⟩ := List.cons.inj heq
        exact .inr (.inr hfirst)
  · exact .inl (by simp [(List.cons.inj heq).1])
  · exact .inl (by simp [(List.cons.inj heq).1])

/-- A text that is no number, and does not begin and end with the same quote, is not read at all. -/
theorem parse?_eq_none {text : String} (hquoted : ∀ quote body, ¬ EnclosedIn quote (trim text.toList) body)
    (hnumeric : ¬ IsNumericLiteral (trim text.toList)) : parse? text = none := by
  have hunquoted : unquote? (trim text.toList) = none := by
    rw [Option.eq_none_iff_forall_ne_some]
    intro body hbody
    obtain ⟨quote, h⟩ := unquote?_eq_some_iff.1 hbody
    exact hquoted quote body h
  have hnumeral : numeral? (trim text.toList) = none := by
    rw [Option.eq_none_iff_forall_ne_some]
    exact fun x hx => hnumeric (isNumericLiteral_of_numeral? hx)
  rw [parse?, hunquoted, hnumeral]
  rfl

end EnumValue

namespace Environment

open EnumValue

variable {env : Environment} {s : Session} {m : SymbolId} {d : NodeId} {text : String} {own : Option EnumValue}
  {constant : ConstantValue}

/-! ### What is recorded -/

/-- The value of a member whose initialiser is neither a string literal nor a number: what the checker computed, unless
its text begins and ends with the same quote. -/
def RecordsComputed (text : String) (constant : ConstantValue) (value : EnumValue) : Prop :=
  ((∀ quote body, ¬ EnclosedIn quote (trim text.toList) body) → value = constant.enumValue) ∧
  ∀ quote body, EnclosedIn quote (trim text.toList) body →
    hasBare quote body = true ∧ value = .text (String.ofList body)

/-- A text with a constant beside it: what the text is read as comes first. -/
theorem InitialisedWith.eq_of_constant (h : env.InitialisedWith m own) (hd : env.mainDeclaration? m = .ok (some d))
    (htext : env.checker.initializerText d = .ok (some text))
    (hconstant : env.checker.constantValue d = .ok (some constant)) :
    own = some ((parse? text).getD constant.enumValue) := by
  cases h with
  | undeclared hd' => exact nomatch hd.symm.trans hd'
  | bare hd' htext' =>
    obtain rfl := Option.some.inj (Except.ok.inj (hd.symm.trans hd'))
    exact nomatch htext.symm.trans htext'
  | literal hd' htext' hparse =>
    obtain rfl := Option.some.inj (Except.ok.inj (hd.symm.trans hd'))
    obtain rfl := Option.some.inj (Except.ok.inj (htext.symm.trans htext'))
    rw [hparse, Option.getD_some]
  | computed hd' htext' hparse hconstant' =>
    obtain rfl := Option.some.inj (Except.ok.inj (hd.symm.trans hd'))
    obtain rfl := Option.some.inj (Except.ok.inj (htext.symm.trans htext'))
    obtain rfl := Option.some.inj (Except.ok.inj (hconstant.symm.trans hconstant'))
    rw [hparse, Option.getD_none]
  | verbatim hd' htext' hparse hconstant' =>
    obtain rfl := Option.some.inj (Except.ok.inj (hd.symm.trans hd'))
    exact nomatch hconstant.symm.trans hconstant'

theorem recordsComputed_parse? (constant : ConstantValue) (hnumeric : ¬ IsNumericLiteral (trim text.toList))
    (hliteral : ∀ body, ¬ IsStringLiteral (trim text.toList) body) :
    RecordsComputed text constant ((parse? text).getD constant.enumValue) := by
  constructor
  · intro hquoted
    rw [parse?_eq_none hquoted hnumeric, Option.getD_none]
  · intro quote body h
    have hbare : hasBare quote body = true := by
      by_contra hnot
      exact hliteral body ⟨quote, h, by simpa using hnot⟩
    have hread : parse? text = some (.text (String.ofList body)) :=
      parse?_eq_text_iff.2 ⟨quote, by rwa [String.toList_ofList]⟩
    rw [hread, Option.getD_some]
    exact ⟨hbare, rfl⟩

/-- **Literals are told by their ends.**  A text is read as a string literal if it is one, and also if it begins and
ends with the same quote and has another one inside.  So whatever was asked before and whatever came of it, a member of
an enum whose initialiser is neither a string literal nor a number has the value that the checker computed, and the
members behind it are numbered from that; but if its text begins and ends with the same quote, what stands between them
is taken instead. -/
theorem literals_told_by_ends (env : Environment) (requests : List Request) :
    (∀ text body : String, parse? text = some (.text body) ↔ IsStringLiteral (trim text.toList) body.toList ∨
      ∃ quote, EnclosedIn quote (trim text.toList) body.toList ∧ hasBare quote body.toList = true) ∧
    ∀ m e, (env.after {} requests).enumOf? m = some e → ∃ ms written, env.checker.exportsOf m = .ok ms ∧
      List.Forall₂ (fun m' (entry : EnumEntry) => env.checker.symbolName m' = .ok entry.name ∧
        (env.after {} requests).memberOf? (.symbol m') = some (some entry.member)) (env.enumMembers ms) e.members ∧
      AutoNumbered written e.members ∧
      ∀ (i : Nat) (m' : SymbolId) (d : NodeId) (text : String) (constant : ConstantValue),
        (env.enumMembers ms)[i]? = some m' → env.mainDeclaration? m' = .ok (some d) →
        env.checker.initializerText d = .ok (some text) → env.checker.constantValue d = .ok (some constant) →
        ¬ IsNumericLiteral (trim text.toList) → (∀ body, ¬ IsStringLiteral (trim text.toList) body) →
        ∃ entry, e.members[i]? = some entry ∧ written[i]? = some (some entry.value) ∧
          RecordsComputed text constant entry.value := by
  refine ⟨fun text body => ?_, fun m e he => ?_⟩
  · rw [parse?_eq_text_iff]
    constructor
    · rintro ⟨quote, h⟩
      cases hbare : hasBare quote body.toList with
      | false => exact .inl ⟨quote, h, hbare⟩
      | true => exact .inr ⟨quote, h, hbare⟩
    · rintro (⟨quote, h, -⟩ | ⟨quote, h, -⟩)
      · exact ⟨quote, h⟩
      · exact ⟨quote, h⟩
  · obtain ⟨ms, written, hms, hentries, hwritten, hnumbered⟩ := numbersMembers_after he
    refine ⟨ms, written, hms, hentries, hnumbered, ?_⟩
    intro i m' d text constant hi hd htext hconstant hnumeric hliteral
    obtain ⟨entry, hentry, -⟩ := exists_getElem?_of_forall₂ hentries hi
    obtain ⟨own, hown, hinitialised⟩ := exists_getElem?_of_forall₂ hwritten hi
    obtain rfl := hinitialised.eq_of_constant hd htext hconstant
    have hvalue := hnumbered.own hentry hown
    exact ⟨entry, hentry, hvalue ▸ hown, hvalue ▸ recordsComputed_parse? constant hnumeric hliteral⟩

/-! ### Two literals in one -/

/-- An enum with members that the checker has computed. -/
def computedEnum : Environment :=
  let member (name : String) (decl : Nat) : SymbolData :=
    { name, flags := .of [.enumMember], declarations := [⟨decl⟩], valueDeclaration := some ⟨decl⟩, type := some ⟨0⟩ }
  let decl (initializer : Option String) (constant : Option ConstantValue) : NodeData :=
    { kind := .enumMember, file := ⟨0⟩, initializer, constant }
  { checker := Program.checker {
      files := ⟨#[{ name := "dir.ts", node := ⟨0⟩, symbol := ⟨0⟩, locals := [⟨0⟩] }]⟩
      symbols := ⟨#[{ name := "Direction", flags := .of [.constEnum], exportsOf := [⟨1⟩, ⟨2⟩, ⟨3⟩, ⟨4⟩] },
        member "Up" 0, member "Down" 1, member "Both" 2, member "Next" 3]⟩
      types := ⟨#[{ flags := .of [.string] }]⟩
      nodes := ⟨#[decl (some "'up'") none, decl (some "Prefix + 'down'") (some (.text "p-down")),
        decl (some "'up' + 'down'") (some (.text "updown")), decl none none]⟩ } }

/-- What the checker has computed is recorded. -/
theorem literals_told_by_ends_computed :
    ∃ e entry, (computedEnum.after {} [.member ⟨0⟩]).enumOf? ⟨0⟩ = some e ∧ e.members[1]? = some entry ∧
      entry.value = .text "p-down" := by
  have hsome : ((computedEnum.after {} [.member ⟨0⟩]).enumOf? ⟨0⟩).isSome = true := by decide +kernel
  obtain ⟨e, he⟩ := Option.isSome_iff_exists.1 hsome
  obtain ⟨ms, written, hms, -, -, hrecorded⟩ := (literals_told_by_ends computedEnum [.member ⟨0⟩]).2 ⟨0⟩ e he
  have hexports : computedEnum.checker.exportsOf ⟨0⟩ = .ok [⟨1⟩, ⟨2⟩, ⟨3⟩, ⟨4⟩] := by decide +kernel
  obtain rfl := Except.ok.inj (hexports.symm.trans hms)
  have hsecond : (computedEnum.enumMembers [⟨1⟩, ⟨2⟩, ⟨3⟩, ⟨4⟩])[1]? = some ⟨2⟩ := by decide +kernel
  have hd : computedEnum.mainDeclaration? ⟨2⟩ = .ok (some ⟨1⟩) := by decide +kernel
  have htext : computedEnum.checker.initializerText ⟨1⟩ = .ok (some "Prefix + 'down'") := by decide +kernel
  have hconstant : computedEnum.checker.constantValue ⟨1⟩ = .ok (some (.text "p-down")) := by decide +kernel
  have htrim : trim "Prefix + 'down'".toList = 'P' :: "refix + 'down'".toList := by decide +kernel
  have hquoted : ∀ quote body, ¬ EnclosedIn quote (trim "Prefix + 'down'".toList) body := by
    rintro quote body ⟨hquote, heq⟩
    rw [htrim] at heq
    obtain ⟨rfl, -⟩ := List.cons.inj heq
    exact absurd hquote (by decide)
  have hnumeric : ¬ IsNumericLiteral (trim "Prefix + 'down'".toList) := by
    rw [htrim]
    intro h
    exact absurd h.first (by decide)
  obtain ⟨entry, hentry, -, hvalue, -⟩ := hrecorded 1 ⟨2⟩ ⟨1⟩ "Prefix + 'down'" (.text "p-down") hsecond hd htext
    hconstant hnumeric fun body ⟨quote, h, _⟩ => hquoted quote body h
  exact ⟨e, entry, he, hentry, hvalue hquoted⟩

/-- A sum that begins and ends with a literal is taken for one, although the checker has computed its value. -/
theorem joined_literals_misread :
    (∀ body, ¬ IsStringLiteral (trim "'up' + 'down'".toList) body) ∧
    parse? "'up' + 'down'" = some (.text "up' + 'down") ∧
    ¬ (∀ text body : String, parse? text = some (.text body) ↔ IsStringLiteral (trim text.toList) body.toList) ∧
    computedEnum.checker.constantValue ⟨2⟩ = .ok (some (.text "updown")) ∧
    ((computedEnum.after {} [.member ⟨0⟩]).enumOf? ⟨0⟩).map (·.members.map EnumEntry.value) =
      some [.text "up", .text "p-down", .text "up' + 'down", .text "Next"] := by
  have hparse : parse? "'up' + 'down'" = some (.text "up' + 'down") := by decide +kernel
  have hliteral : ∀ body, ¬ IsStringLiteral (trim "'up' + 'down'".toList) body := by
    rintro body ⟨quote, ⟨-, heq⟩, hbare⟩
    have htrim : trim "'up' + 'down'".toList = '\'' :: ("up' + 'down".toList ++ ['\'']) := by decide +kernel
    obtain ⟨rfl, hbody⟩ := List.cons.inj (htrim.symm.trans heq)
    obtain rfl := List.append_cancel_right hbody
    exact absurd hbare (by decide +kernel)
  refine ⟨hliteral, hparse, fun h => hliteral _ ((h _ _).1 hparse), by decide +kernel, by decide +kernel⟩

end Environment

end ApiDoc
