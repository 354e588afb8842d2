import ApiDoc.Doc.ParamTag

/-!
# One tag about a parameter in many spellings

The name and the summary of such a tag can be written in many ways (`ParamTag.Spelling`): behind a type or not, the name
in brackets or not, with a default or without, behind a dash or not, and with blanks in between.  Each part is taken off
at the front of what is left (`skipType?_append`, `NameSpelling.reads`, `skipDash_append`), and all spellings say the
same (`ParamTag.spellings_agree`).
-/

namespace ApiDoc.ParamTag

open Text

/-! ### Spellings -/

/-- How the name of a parameter is written. -/
inductive NameSpelling where
  /-- As it is. -/
  | bare
  /-- In brackets. -/
  | bracketed
  /-- In brackets, with a default behind it. -/
  | defaulted (value : List Char)

/-- The name as it is written. -/
def NameSpelling.write (name : List Char) : NameSpelling → List Char
  | bare => name
  | bracketed => '[' :: (name ++ [']'])
  | defaulted value => '[' :: (name ++ ('=' :: (value ++ [']'])))

/-- A type in braces. -/
structure TypeSpelling where
  /-- What stands between the braces. -/
  type : List Char
  /-- The blanks behind them. -/
  gap : List Char

/-- The type as it is written. -/
def TypeSpelling.write (t : TypeSpelling) : List Char := '\x7b' :: (t.type ++ ('\x7d' :: t.gap))

/-- All that is left to the writer of a tag, beside the name and the summary. -/
structure Spelling where
  /-- The blanks before the tag's text. -/
  before : List Char
  /-- The type, if there is one. -/
  type : Option TypeSpelling
  /-- How the name is written. -/
  name : NameSpelling
  /-- The blanks behind the name. -/
  gap : List Char
  /-- The blanks behind a dash, if there is one. -/
  dash : Option (List Char)
  /-- The blanks behind the tag's text. -/
  after : List Char

namespace Spelling

/-- The type, or nothing. -/
def typeText (sp : Spelling) : List Char :=
  match sp.type with
  | some t => t.write
  | none => []

/-- The dash with its blanks, or nothing. -/
def dashText (sp : Spelling) : List Char :=
  match sp.dash with
  | some blanks => '-' :: blanks
  | none => []

/-- What stands between the blanks at either end. -/
def body (sp : Spelling) (name summary : List Char) : List Char :=
  sp.typeText ++ (sp.name.write name ++ (sp.gap ++ (sp.dashText ++ summary)))

/-- The text of a tag. -/
def write (sp : Spelling) (name summary : List Char) : List Char := sp.before ++ (sp.body name summary ++ sp.after)

/-- A spelling that fits a summary: blanks are blank, a type holds no closing brace and a default no closing bracket,
something stands behind a bare name and behind a dash, and a summary without a dash before it does not look as if it had
one. -/
structure Fits (sp : Spelling) (summary : List Char) : Prop where
  before : ∀ c ∈ sp.before, isBlank c = true
  after : ∀ c ∈ sp.after, isBlank c = true
  gap : ∀ c ∈ sp.gap, isBlank c = true
  type : ∀ t, sp.type = some t → '\x7d' ∉ t.type ∧ ∀ c ∈ t.gap, isBlank c = true
  default : ∀ value, sp.name = .defaulted value → ']' ∉ value
  apart : sp.name = .bare → sp.gap ≠ []
  dashed : ∀ blanks, sp.dash = some blanks → blanks ≠ [] ∧ ∀ c ∈ blanks, isBlank c = true
  undashed : sp.dash = none → ∀ c rest, summary = '-' :: c :: rest → isBlank c = false

end Spelling

variable {sp : Spelling} {name summary rest : List Char} {c : Char}

/-! ### Part by part -/

theorem isNameChar_eq_false_of_isBlank (h : isBlank c = true) : isNameChar c = false := by
  have hword : isWord c = false := by
    cases hword : isWord c with
    | true => simp [isBlank_eq_false_of_isWord hword] at h
    | false => rfl
  have hdollar : c ≠ '$' := by rintro rfl; exact absurd h (by decide)
  have hdot : c ≠ '.' := by rintro rfl; exact absurd h (by decide)
  simp [isNameChar, hword, hdollar, hdot]

theorem isBlank_eq_false_of_isNameChar (h : isNameChar c = true) : isBlank c = false := by
  cases hblank : isBlank c with
  | true => simp [isNameChar_eq_false_of_isBlank hblank] at h
  | false => rfl

/-- A run of characters other than one is passed over up to it. -/
theorem dropWhile_ne_append {stop : Char} {cs : List Char} (h : stop ∉ cs) (rest : List Char) :
    (cs ++ stop :: rest).dropWhile (· != stop) = stop :: rest := by
  have hpass : ∀ c ∈ cs, (c != stop) = true := by
    intro c hc
    simpa using fun heq : c = stop => h (heq ▸ hc)
  rw [List.dropWhile_append_of_pos hpass, List.dropWhile_cons_of_neg (by simp)]

theorem skipType?_append (htype : ∀ t, sp.type = some t → '\x7d' ∉ t.type ∧ ∀ c ∈ t.gap, isBlank c = true)
    (hrest : ∀ c, rest.head? = some c → isBlank c = false ∧ c ≠ '\x7b') :
    skipType? (sp.typeText ++ rest) = some rest := by
  rw [Spelling.typeText]
  cases hsp : sp.type with
  | some t =>
    obtain ⟨hopen, hgap⟩ := htype t hsp
    have htext : t.write ++ rest = '\x7b' :: (t.type ++ '\x7d' :: (t.gap ++ rest)) := by simp [TypeSpelling.write]
    simp only [htext, skipType?, dropWhile_ne_append hopen, trimStart_append_of_blank hgap,
      trimStart_eq_self fun c hc => (hrest c hc).1]
  | none =>
    rw [List.nil_append, skipType?.eq_def]
    split
    next inner => exact absurd rfl (hrest '\x7b' rfl).2
    next => rfl

/-- The text behind an opening bracket, if there is one. -/
def skipBracket : List Char → List Char
  | '[' :: inner => inner
  | cs => cs

theorem skipBracket_of_isNameChar (hname : ∀ c ∈ name, isNameChar c = true) (hsome : name ≠ []) (rest : List Char) :
    skipBracket (name ++ rest) = name ++ rest := by
  cases name with
  | nil => exact absurd rfl hsome
  | cons c name =>
    have hc : c ≠ '[' := by rintro rfl; exact absurd (hname '[' (by simp)) (by decide)
    rw [List.cons_append, skipBracket]
    simpa using hc

/-- A name is read off up to the first character that cannot stand in it. -/
theorem takeWhile_name (hname : ∀ c ∈ name, isNameChar c = true) (rest : List Char)
    (hrest : ∀ c, rest.head? = some c → isNameChar c = false) :
    (name ++ rest).takeWhile isNameChar = name ∧ (name ++ rest).dropWhile isNameChar = rest := by
  refine ⟨takeWhile_append_of_head? hname hrest, ?_⟩
  rw [List.dropWhile_append_of_pos hname]
  cases rest with
  | nil => rfl
  | cons c rest => exact List.dropWhile_cons_of_neg (by simp [hrest c rfl])

theorem skipDefault_of_head? (hrest : ∀ c, rest.head? = some c → c ≠ '=' ∧ c ≠ ']') : skipDefault rest = rest := by
  cases rest with
  | nil => rfl
  | cons c rest =>
    obtain ⟨hequals, hbracket⟩ := hrest c rfl
    simp [skipDefault, hequals, hbracket]

/-- However a name is written, it is read off, and so is what belongs to it. -/
theorem NameSpelling.reads (form : NameSpelling) (hname : ∀ c ∈ name, isNameChar c = true) (hsome : name ≠ [])
    (hdefault : ∀ value, form = .defaulted value → ']' ∉ value)
    (hbare : form = .bare → ∀ c, rest.head? = some c → isBlank c = true) :
    (skipBracket (form.write name ++ rest)).takeWhile isNameChar = name ∧
      skipDefault ((skipBracket (form.write name ++ rest)).dropWhile isNameChar) = rest := by
  cases form with
  | bare =>
    have hblank := hbare rfl
    have hstop := takeWhile_name hname rest fun c hc => isNameChar_eq_false_of_isBlank (hblank c hc)
    rw [write, skipBracket_of_isNameChar hname hsome]
    refine ⟨hstop.1, ?_⟩
    rw [hstop.2]
    refine skipDefault_of_head? fun c hc => ⟨?_, ?_⟩
    · rintro rfl
      exact absurd (hblank _ hc) (by decide)
    · rintro rfl
      exact absurd (hblank _ hc) (by decide)
  | bracketed =>
    have htext : bracketed.write name ++ rest = '[' :: (name ++ ']' :: rest) := by simp [write]
    have hstop := takeWhile_name hname (']' :: rest) (by simp; decide)
    rw [htext, skipBracket, hstop.1, hstop.2]
    exact ⟨rfl, rfl⟩
  | defaulted value =>
    have htext : (defaulted value).write name ++ rest = '[' :: (name ++ '=' :: (value ++ ']' :: rest)) := by
      simp [write]
    have hstop := takeWhile_name hname ('=' :: (value ++ ']' :: rest)) (by simp; decide)
    rw [htext, skipBracket, hstop.1, hstop.2]
    refine ⟨rfl, ?_⟩
    simp only [skipDefault, dropWhile_ne_append (hdefault value rfl)]

theorem skipDash_append (hdash : ∀ blanks, sp.dash = some blanks → blanks ≠ [] ∧ ∀ c ∈ blanks, isBlank c = true)
    (hundashed : sp.dash = none → ∀ c rest, summary = '-' :: c :: rest → isBlank c = false)
    (hsummary : trimStart summary = summary) : skipDash (sp.dashText ++ summary) = summary := by
  rw [Spelling.dashText]
  cases hsp : sp.dash with
  | some blanks =>
    obtain ⟨hsome, hblanks⟩ := hdash blanks hsp
    cases blanks with
    | nil => exact absurd rfl hsome
    | cons c blanks =>
      have htail : trimStart (blanks ++ summary) = trimStart summary :=
        trimStart_append_of_blank (fun d hd => hblanks d (by simp [hd])) summary
      rw [List.cons_append, List.cons_append, skipDash, if_pos (hblanks c (by simp)), htail, hsummary]
  | none =>
    rw [List.nil_append, skipDash.eq_def]
    split
    next c rest => rw [if_neg (by simp [hundashed hsp c rest rfl])]
    next => rfl

/-! ### The whole text -/

/-- The text of a tag, part by part. -/
theorem split?_eq (text : String) : split? text = (skipType? (trim text.toList)).bind fun rest =>
    if ((skipBracket rest).takeWhile isNameChar).isEmpty then none
    else some (String.ofList ((skipBracket rest).takeWhile isNameChar),
      String.ofList (trim (skipDash (trimStart (skipDefault ((skipBracket rest).dropWhile isNameChar)))))) := by
  rw [split?]
  refine congrArg _ (funext fun rest => ?_)
  cases rest with
  | nil => rfl
  | cons c inner =>
    rcases Decidable.em (c = '[') with rfl | hc
    · rfl
    · have hkeep : skipBracket (c :: inner) = c :: inner := by simp [skipBracket, hc]
      rw [hkeep]
      simp [hc]

/-- A name begins with neither a blank nor a brace, however it is written. -/
theorem NameSpelling.head?_write (form : NameSpelling) (hname : ∀ c ∈ name, isNameChar c = true) (hsome : name ≠ [])
    (h : (form.write name ++ rest).head? = some c) : isBlank c = false ∧ c ≠ '\x7b' := by
  have hbracket : isBlank '[' = false ∧ '[' ≠ '\x7b' := ⟨by decide, by decide⟩
  cases form with
  | bare =>
    cases name with
    | nil => exact absurd rfl hsome
    | cons d name =>
      obtain rfl : d = c := by simpa [write] using h
      have hd := hname d (by simp)
      exact ⟨isBlank_eq_false_of_isNameChar hd, by rintro rfl; exact absurd hd (by decide)⟩
  | bracketed =>
    obtain rfl : '[' = c := by simpa [write] using h
    exact hbracket
  | defaulted value =>
    obtain rfl : '[' = c := by simpa [write] using h
    exact hbracket

/-- Between the blanks at either end, the text of a tag has none to lose. -/
theorem Spelling.trim_body (hname : ∀ c ∈ name, isNameChar c = true) (hsome : name ≠ []) (hne : summary ≠ [])
    (hsummary : trim summary = summary) : trim (sp.body name summary) = sp.body name summary := by
  refine trim_eq_self_iff.2 ⟨fun c hc => ?_, fun c hc => ?_⟩
  · rw [body, typeText] at hc
    split at hc
    next t =>
      obtain rfl : '\x7b' = c := by simpa [TypeSpelling.write] using hc
      decide
    next => exact (sp.name.head?_write hname hsome hc).1
  · have hlast : (sp.body name summary).getLast? = summary.getLast? := by
      simp only [body, ← List.append_assoc]
      rw [List.getLast?_append, Option.or_of_isSome (by simpa using hne)]
    exact (trim_eq_self_iff.1 hsummary).2 c (hlast ▸ hc)

/-- **All spellings agree**: whether a type stands before the name, whether the name is in brackets and has a default,
whether a dash stands before the summary, and which blanks stand in between, the name and the summary are read off. -/
theorem spellings_agree (sp : Spelling) (name summary : List Char) (hname : ∀ c ∈ name, isNameChar c = true)
    (hsome : name ≠ []) (hsummary : trim summary = summary) (hne : summary ≠ []) (hfits : sp.Fits summary) :
    split? (String.ofList (sp.write name summary)) = some (String.ofList name, String.ofList summary) := by
  have hbody : trim (sp.write name summary) = sp.body name summary :=
    trim_append_of_blank hfits.before hfits.after (Spelling.trim_body hname hsome hne hsummary)
  have htype : skipType? (sp.body name summary) = some (sp.name.write name ++ (sp.gap ++ (sp.dashText ++ summary))) :=
    skipType?_append hfits.type fun c hc => sp.name.head?_write hname hsome hc
  have hbare : sp.name = .bare → ∀ c, (sp.gap ++ (sp.dashText ++ summary)).head? = some c → isBlank c = true := by
    intro hbare c hc
    refine hfits.gap c (List.mem_of_head? ?_)
    rwa [List.head?_append, Option.or_of_isSome (by simpa using hfits.apart hbare)] at hc
  obtain ⟨hread, hleft⟩ := sp.name.reads hname hsome hfits.default hbare
  have hdash : trimStart (sp.dashText ++ summary) = sp.dashText ++ summary := by
    refine trimStart_eq_self fun c hc => ?_
    rw [Spelling.dashText] at hc
    split at hc
    next =>
      obtain rfl : '-' = c := by simpa using hc
      decide
    next => exact (trim_eq_self_iff.1 hsummary).1 c hc
  have hsaid : skipDash (sp.dashText ++ summary) = summary :=
    skipDash_append hfits.dashed hfits.undashed (trimStart_of_trim hsummary)
  rw [split?_eq, String.toList_ofList, hbody, htype, Option.bind_some, hread, hleft,
    trimStart_append_of_blank hfits.gap, hdash, hsaid, hsummary, if_neg (by simpa using hsome)]

/-- A spelling with every part. -/
def Spelling.full : Spelling where
  before := "\n".toList
  type := some ⟨"number |\n string".toList, " ".toList⟩
  name := .defaulted "0o\n644".toList
  gap := "\n".toList
  dash := some " ".toList
  after := " ".toList

theorem spellings_agree_full :
    split? "\n\x7bnumber |\n string\x7d [mode=0o\n644]\n- file\nmode " = some ("mode", "file\nmode") :=
  spellings_agree .full "mode".toList "file\nmode".toList (List.all_eq_true.1 (by decide)) (by decide) (by decide)
    (by decide)
    { before := List.all_eq_true.1 (by decide)
      after := List.all_eq_true.1 (by decide)
      gap := List.all_eq_true.1 (by decide)
      type := by rintro t ⟨⟩; exact ⟨by decide, List.all_eq_true.1 (by decide)⟩
      default := by rintro value ⟨⟩; decide
      apart := by rintro ⟨⟩
      dashed := by rintro blanks ⟨⟩; exact ⟨by decide, List.all_eq_true.1 (by decide)⟩
      undashed := nofun }

end ApiDoc.ParamTag
