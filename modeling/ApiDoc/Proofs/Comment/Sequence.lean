import ApiDoc.Proofs.Comment.Tags
import Mathlib.Data.List.Sort

/-!
# Tags written one after another

A summary and some tags are written as a text with each tag on a line of its own (`writeTags`).  The text can only be
read back if nothing in the summary or in the text of a tag looks like a tag, and if the fenced code in each of them is
closed (`IsSelfContained`).

Fences are looked for at the start of a line, and behind the name of a tag no line starts.  The first fence of a text
that opens with one is therefore lost, and the fence that should close it opens fenced code that reaches into the next
tag (`fence_behind_name_swallows_tag`).  All other tags are read back, and what the last one may hold is said exactly
(`written_tags_read_back`).

The text is read back if and only if the tags start at the at signs that were written (`ofText_writeTags_iff`).  Where
they start is found line by line: a line feed ends what is written before it, and behind it fenced code is open or not
(`isTagStart_append`).
-/

namespace ApiDoc.Comment

open Text

/-- The number of lines of a text that open or close fenced code. -/
def fenceCount (cs : List Char) : Nat := (linesWithEnds cs).countP isFence

/-- A text without blanks at either end that holds no tag, and whose fenced code is closed. -/
structure IsSelfContained (cs : List Char) : Prop where
  /-- There are no blanks at either end. -/
  trimmed : trim cs = cs
  /-- Each fence that opens is closed. -/
  closed : fenceCount cs % 2 = 0
  /-- No at sign starts a tag outside of the fenced code. -/
  tagless : ∀ p, ¬ IsTagStart cs p

/-- A tag with a word for a name and a text that stands for itself. -/
structure Tag.IsWritable (tag : Tag) : Prop where
  /-- There is a name. -/
  named : tag.name.toList ≠ []
  /-- The name is a word. -/
  word : ∀ c ∈ tag.name.toList, isWord c = true
  /-- Nothing in the text looks like a tag. -/
  text : IsSelfContained tag.text.toList

/-- What is written of a tag behind its at sign. -/
def Tag.body (tag : Tag) : List Char := tag.name.toList ++ ' ' :: tag.text.toList

/-- A tag as it is written. -/
def Tag.written (tag : Tag) : List Char := '@' :: tag.body

/-- A text with some tags behind it, each on a line of its own. -/
def writeTags (first : List Char) (tags : List Tag) : List Char := first ++ tags.flatMap fun tag => '\n' :: tag.written

variable {xs ys cs cs' head head' : List Char} {ts ts' : List (List Char)} {ls ls' : List (List Char)}
  {n m offset p q : Nat} {edge : Bool} {fenced fenced' : Nat → Bool} {tag : Tag} {tags : List Tag}

@[simp]
theorem writeTags_nil (first : List Char) : writeTags first [] = first := by simp [writeTags]

/-- The first tag takes the place of the text before it. -/
theorem writeTags_cons (first : List Char) (tag : Tag) (tags : List Tag) :
    writeTags first (tag :: tags) = first ++ '\n' :: writeTags tag.written tags := by
  simp [writeTags]

/-! ### Lines of joined texts -/

theorem linesWithEnds_ne_nil (h : cs ≠ []) : linesWithEnds cs ≠ [] := by
  intro hnil
  have hflat := flatten_linesWithEnds cs
  rw [hnil] at hflat
  exact h hflat.symm

/-- No line reaches over a line feed. -/
theorem linesWithEnds_append_newline (xs ys : List Char) :
    linesWithEnds (xs ++ '\n' :: ys) = linesWithEnds (xs ++ ['\n']) ++ linesWithEnds ys := by
  induction xs with
  | nil => rfl
  | cons c xs ih =>
    rw [List.cons_append, List.cons_append, linesWithEnds, linesWithEnds, ih]
    by_cases hc : c = '\n'
    · rw [if_pos hc, if_pos hc, List.cons_append]
    · rw [if_neg hc, if_neg hc]
      cases hlines : linesWithEnds (xs ++ ['\n']) with
      | nil => exact absurd hlines (linesWithEnds_ne_nil (by simp))
      | cons line ls => rfl

/-- A line feed at the end goes onto the last line, or is a line if there is none to end. -/
theorem linesWithEnds_newline (xs : List Char) :
    (∃ ls line, linesWithEnds xs = ls ++ [line] ∧ linesWithEnds (xs ++ ['\n']) = ls ++ [line ++ ['\n']]) ∨
      linesWithEnds (xs ++ ['\n']) = linesWithEnds xs ++ [['\n']] := by
  induction xs with
  | nil => exact .inr rfl
  | cons c xs ih =>
    rw [List.cons_append, linesWithEnds, linesWithEnds]
    by_cases hc : c = '\n'
    · rw [if_pos hc, if_pos hc]
      rcases ih with ⟨ls, line, hls, hend⟩ | hend
      · exact .inl ⟨[c] :: ls, line, by rw [hls]; rfl, by rw [hend]; rfl⟩
      · exact .inr (by rw [hend]; rfl)
    · rw [if_neg hc, if_neg hc]
      rcases ih with ⟨ls, line, hls, hend⟩ | hend
      · rw [hls, hend]
        cases ls with
        | nil => exact .inl ⟨[], c :: line, rfl, rfl⟩
        | cons first ls => exact .inl ⟨(c :: first) :: ls, line, rfl, rfl⟩
      · rw [hend]
        cases linesWithEnds xs with
        | nil => exact .inl ⟨[], [c], rfl, rfl⟩
        | cons first ls => exact .inr rfl

/-- What holds no line feed goes onto the first line. -/
theorem linesWithEnds_append_left (h : '\n' ∉ xs) (hne : xs ≠ []) (ys : List Char) :
    linesWithEnds (xs ++ ys) = (xs ++ (linesWithEnds ys).headD []) :: (linesWithEnds ys).tail := by
  induction xs with
  | nil => exact absurd rfl hne
  | cons c xs ih =>
    have hc : c ≠ '\n' := fun heq => h (heq ▸ List.mem_cons_self)
    rw [List.cons_append, linesWithEnds, if_neg hc]
    cases xs with
    | nil => cases hys : linesWithEnds ys <;> simp [hys]
    | cons d xs => rw [ih (fun hmem => h (List.mem_cons_of_mem _ hmem)) (by simp)]; rfl

/-! ### Fences of joined texts -/

theorem isFence_iff : isFence cs = true ↔ ['\x60', '\x60', '\x60'] <+: trimStart cs := by
  rw [isFence]
  split
  next rest hcs =>
    rw [hcs]
    exact ⟨fun _ => ⟨rest, rfl⟩, fun _ => rfl⟩
  next hother =>
    refine ⟨fun h => (nomatch h), ?_⟩
    rintro ⟨rest, hcs⟩
    exact absurd hcs.symm (hother rest)

/-- A fence ends before a line feed. -/
theorem prefix_append_newline {ticks : List Char} (h : '\n' ∉ ticks) (xs ys : List Char) :
    ticks <+: xs ++ '\n' :: ys ↔ ticks <+: xs := by
  constructor
  · rintro ⟨rest, hrest⟩
    rcases List.append_eq_append_iff.1 hrest with ⟨behind, hxs, -⟩ | ⟨behind, hticks, hbehind⟩
    · exact ⟨behind, hxs.symm⟩
    · cases behind with
      | nil => exact ⟨[], by simpa using hticks⟩
      | cons c behind =>
        obtain ⟨rfl, -⟩ := List.cons.inj hbehind
        exact absurd (hticks ▸ by simp) h
  · intro hxs
    exact hxs.trans (List.prefix_append _ _)

theorem isFence_append_newline (xs : List Char) : isFence (xs ++ ['\n']) = isFence xs := by
  rw [Bool.eq_iff_iff, isFence_iff, isFence_iff, trimStart, List.dropWhile_append]
  by_cases hblank : (xs.dropWhile isBlank).isEmpty = true
  · rw [if_pos hblank, trimStart, List.isEmpty_iff.1 hblank]
    rfl
  · rw [if_neg hblank, prefix_append_newline (by decide)]
    rfl

theorem trimStart_of_append (h : trimStart (xs ++ ys) = xs ++ ys) : trimStart xs = xs := by
  cases xs with
  | nil => rfl
  | cons c xs =>
    by_cases hc : isBlank c = true
    · have hshort := (List.dropWhile_suffix isBlank (l := xs ++ ys)).length_le
      rw [trimStart, List.cons_append, List.dropWhile_cons_of_pos hc] at h
      rw [h, List.length_cons] at hshort
      omega
    · rw [trimStart, List.dropWhile_cons_of_neg hc]

/-- Only the first line of a text that starts with no blank says whether the text opens with a fence. -/
theorem isFence_headD (h : trimStart cs = cs) : isFence ((linesWithEnds cs).headD []) = isFence cs := by
  by_cases hmem : '\n' ∈ cs
  · obtain ⟨line, rest, rfl, hline⟩ := List.eq_append_cons_of_mem hmem
    rw [linesWithEnds_append hline, List.headD_cons, isFence_append_newline, Bool.eq_iff_iff, isFence_iff, isFence_iff,
      h, trimStart_of_append h, prefix_append_newline (by decide)]
  · by_cases hne : cs = []
    · rw [hne]
      rfl
    · have hlines := linesWithEnds_append_left hmem hne []
      rw [List.append_nil] at hlines
      rw [hlines]
      simp [linesWithEnds]

/-- Fences are counted line by line. -/
theorem fenceCount_append_newline (xs ys : List Char) :
    fenceCount (xs ++ '\n' :: ys) = fenceCount xs + fenceCount ys := by
  have hcount : (linesWithEnds (xs ++ ['\n'])).countP isFence = fenceCount xs := by
    have hempty : isFence ['\n'] = false := by decide
    rcases linesWithEnds_newline xs with ⟨ls, line, hls, hend⟩ | hend
    · rw [fenceCount, hls, hend]
      simp [isFence_append_newline]
    · rw [fenceCount, hend]
      simp [hempty]
  rw [fenceCount, linesWithEnds_append_newline, List.countP_append, hcount]
  rfl

/-! ### Fenced code of joined texts -/

theorem inFencedCode_iff : InFencedCode cs p ↔ FencedFrom 0 0 (linesWithEnds cs) p := by
  simp [FencedFrom, InFencedCode]

/-- Only the parity of the number of fences before the lines matters. -/
theorem fencedFrom_congr (h : n % 2 = m % 2) : FencedFrom n offset ls p ↔ FencedFrom m offset ls p := by
  have hparity : ∀ k, (n + k) % 2 = 1 ↔ (m + k) % 2 = 1 := by
    intro k
    omega
  simp only [FencedFrom, hparity]

theorem fencedFrom_shift (k : Nat) : FencedFrom n (k + offset) ls (k + p) ↔ FencedFrom n offset ls p := by
  have hfrom : ∀ len, k + offset + len ≤ k + p ↔ offset + len ≤ p := by
    intro len
    omega
  have hto : ∀ len len', k + p < k + offset + len + len' ↔ p < offset + len + len' := by
    intro len len'
    omega
  simp only [FencedFrom, hfrom, hto]

theorem fencedFrom_append : FencedFrom n offset (ls ++ ls') p ↔
    FencedFrom n offset ls p ∨ FencedFrom (n + ls.countP isFence) (offset + byteLength ls.flatten) ls' p := by
  induction ls generalizing n offset with
  | nil => simp [not_fencedFrom_nil]
  | cons line ls ih =>
    rw [List.cons_append, fencedFrom_cons, fencedFrom_cons, ih, or_assoc, List.countP_cons, List.flatten_cons,
      byteLength_append, Nat.add_assoc, Nat.add_assoc]
    cases isFence line <;> simp [Nat.add_comm]

theorem FencedFrom.bounds (h : FencedFrom n offset ls p) : offset ≤ p ∧ p < offset + byteLength ls.flatten := by
  obtain ⟨before, line, after, rfl, hfrom, hto, -⟩ := h
  simp only [List.flatten_append, List.flatten_cons, byteLength_append]
  omega

/-- What follows a line feed has no part in the fenced code before it. -/
theorem inFencedCode_append_left (h : p < byteLength xs) (ys : List Char) :
    InFencedCode (xs ++ '\n' :: ys) p ↔ InFencedCode xs p := by
  have hend : InFencedCode (xs ++ '\n' :: ys) p ↔ FencedFrom 0 0 (linesWithEnds (xs ++ ['\n'])) p := by
    rw [inFencedCode_iff, linesWithEnds_append_newline, fencedFrom_append, flatten_linesWithEnds]
    refine or_iff_left fun hright => ?_
    have hbounds := hright.bounds
    simp only [byteLength_append] at hbounds
    omega
  rw [hend, inFencedCode_iff]
  have hlength : byteLength (linesWithEnds xs).flatten = byteLength xs := by rw [flatten_linesWithEnds]
  rcases linesWithEnds_newline xs with ⟨ls, line, hls, hlast⟩ | hlast
  · rw [hls] at hlength
    rw [hls, hlast, fencedFrom_append, fencedFrom_append, fencedFrom_cons, fencedFrom_cons]
    simp only [not_fencedFrom_nil, or_false, isFence_append_newline]
    simp only [List.flatten_append, byteLength_append, List.flatten_cons, List.flatten_nil, byteLength_nil] at hlength
    simp only [byteLength_append]
    have hboth : p < 0 + byteLength ls.flatten + (byteLength line + byteLength ['\n']) ↔
        p < 0 + byteLength ls.flatten + byteLength line := by omega
    rw [hboth]
  · rw [hlast, fencedFrom_append, hlength]
    refine or_iff_left fun hright => ?_
    have hbounds := hright.bounds
    omega

theorem utf8Size_newline : '\n'.utf8Size = 1 := rfl

/-- Behind a line feed, fenced code is open or not. -/
theorem inFencedCode_append_right (xs ys : List Char) (q : Nat) :
    InFencedCode (xs ++ '\n' :: ys) (byteLength xs + 1 + q) ↔ FencedFrom (fenceCount xs) 0 (linesWithEnds ys) q := by
  have hcount : 0 + (linesWithEnds (xs ++ ['\n'])).countP isFence = fenceCount xs := by
    rw [Nat.zero_add]
    exact fenceCount_append_newline xs []
  have hlength : 0 + byteLength (linesWithEnds (xs ++ ['\n'])).flatten = byteLength xs + 1 + 0 := by
    rw [flatten_linesWithEnds]
    simp [utf8Size_newline]
  rw [inFencedCode_iff, linesWithEnds_append_newline, fencedFrom_append, hcount, hlength,
    fencedFrom_shift]
  refine or_iff_right fun hleft => ?_
  have hbounds := hleft.bounds
  omega

/-- The first character behind some lines is fenced if a fence is open there. -/
theorem fencedFrom_zero (h : n % 2 = 1) (c : Char) (cs : List Char) :
    FencedFrom n 0 (linesWithEnds (c :: cs)) 0 := by
  have hpos : ∀ line : List Char, 0 < byteLength (c :: line) := by
    intro line
    have hc := c.utf8Size_pos
    rw [byteLength_cons]
    omega
  rw [linesWithEnds]
  by_cases hc : c = '\n'
  · rw [if_pos hc, fencedFrom_cons]
    exact .inl ⟨Nat.le_refl 0, by simpa using hpos [], .inr h⟩
  · rw [if_neg hc]
    cases linesWithEnds cs with
    | nil => exact fencedFrom_cons.2 (.inl ⟨Nat.le_refl 0, by simpa using hpos [], .inr h⟩)
    | cons line ls => exact fencedFrom_cons.2 (.inl ⟨Nat.le_refl 0, by simpa using hpos line, .inr h⟩)

/-! ### Tags of joined texts -/

theorem IsCut.bounds (h : IsCut fenced offset edge cs p) : offset ≤ p ∧ p < offset + byteLength cs := by
  obtain ⟨before, after, rfl, rfl, -⟩ := h
  have hat := Char.utf8Size_pos '@'
  simp only [byteLength_append, byteLength_cons]
  omega

theorem IsCut.of_fenced_eq (h : IsCut fenced offset edge cs p) (heq : fenced' p = fenced p) :
    IsCut fenced' offset edge cs p := by
  obtain ⟨before, after, hcs, hp, hedge, hword, hfenced⟩ := h
  exact ⟨before, after, hcs, hp, hedge, hword, heq.trans hfenced⟩

theorem isCut_congr (h : offset ≤ p → p < offset + byteLength cs → fenced p = fenced' p) :
    IsCut fenced offset edge cs p ↔ IsCut fenced' offset edge cs p := by
  constructor
  · intro hcut
    exact hcut.of_fenced_eq (h hcut.bounds.1 hcut.bounds.2).symm
  · intro hcut
    exact hcut.of_fenced_eq (h hcut.bounds.1 hcut.bounds.2)

theorem isCut_shift (k : Nat) : IsCut fenced (k + offset) edge cs p ↔
    ∃ q, p = k + q ∧ IsCut (fun q => fenced (k + q)) offset edge cs q := by
  constructor
  · rintro ⟨before, after, hcs, rfl, hedge, hword, hfenced⟩
    rw [Nat.add_assoc] at hfenced
    exact ⟨offset + byteLength before, Nat.add_assoc _ _ _, before, after, hcs, rfl, hedge, hword, hfenced⟩
  · rintro ⟨q, rfl, before, after, hcs, rfl, hedge, hword, hfenced⟩
    exact ⟨before, after, hcs, Nat.add_assoc _ _ _, hedge, hword, hfenced⟩

/-- A line feed ends every word, and behind it a tag may start. -/
theorem isCut_append_newline (xs ys : List Char) : IsCut fenced offset edge (xs ++ '\n' :: ys) p ↔
    IsCut fenced offset edge xs p ∨ IsCut fenced (offset + byteLength xs + 1) true ys p := by
  induction xs generalizing offset edge with
  | nil =>
    have hblank : isBlank '\n' = true := by decide
    rw [List.nil_append, isCut_cons, hblank]
    simp [not_isCut_nil, utf8Size_newline]
  | cons c xs ih =>
    have hword : startsWord (xs ++ '\n' :: ys) = startsWord xs := by
      cases xs with
      | nil => simp [startsWord, show isWord '\n' = false by decide]
      | cons d xs => rfl
    rw [List.cons_append, isCut_cons, isCut_cons, ih, hword, or_assoc, byteLength_cons, Nat.add_assoc offset]

theorem isCut_iff_of_eq (h : ∀ p, fenced p = true ↔ InFencedCode cs p) :
    IsCut fenced 0 true cs p ↔ IsTagStart cs p := by
  rw [← isCut_iff_isTagStart]
  refine isCut_congr fun _ _ => ?_
  rw [Bool.eq_iff_iff, h, inFence_fences]

/-- Behind a line feed before which all fenced code is closed, the tags start as in a text of its own. -/
theorem isTagStart_append (heven : fenceCount xs % 2 = 0) (ys : List Char) : IsTagStart (xs ++ '\n' :: ys) p ↔
    IsTagStart xs p ∨ ∃ q, p = byteLength xs + 1 + q ∧ IsTagStart ys q := by
  rw [← isCut_iff_isTagStart, isCut_append_newline, Nat.zero_add, ← Nat.add_zero (byteLength xs + 1), isCut_shift]
  refine or_congr ?_ (exists_congr fun q => and_congr_right fun _ => isCut_iff_of_eq fun p => ?_)
  · rw [← isCut_iff_isTagStart]
    refine isCut_congr fun _ hp => ?_
    rw [Bool.eq_iff_iff, inFence_fences, inFence_fences, inFencedCode_append_left (by simpa using hp)]
  · rw [inFence_fences, inFencedCode_append_right, fencedFrom_congr (m := 0) heven, inFencedCode_iff]

/-- Behind a line feed before which fenced code stays open no tag starts. -/
theorem not_isTagStart_append (hodd : fenceCount xs % 2 = 1) (c : Char) (ys : List Char) :
    ¬ IsTagStart (xs ++ '\n' :: c :: ys) (byteLength xs + 1) := by
  rintro ⟨-, -, -, -, -, -, hfenced⟩
  have hright := inFencedCode_append_right xs (c :: ys) 0
  exact hfenced (hright.2 (fencedFrom_zero hodd c ys))

/-! ### The tags as they are written -/

/-- The characters of a tag in front of its text. -/
def Tag.lead (tag : Tag) : List Char := '@' :: (tag.name.toList ++ [' '])

theorem Tag.written_eq (tag : Tag) : tag.written = tag.lead ++ tag.text.toList := by
  simp [Tag.written, Tag.body, Tag.lead]

theorem Tag.IsWritable.newline_not_mem (h : tag.IsWritable) : '\n' ∉ tag.lead := by
  have hname : '\n' ∉ tag.name.toList := by
    intro hmem
    exact absurd (h.word _ hmem) (by decide)
  simp [Tag.lead, hname]

/-- The lines of a tag are the lines of its text, but for the start of the first. -/
theorem Tag.IsWritable.linesWithEnds (h : tag.IsWritable) : linesWithEnds tag.written =
    (tag.lead ++ (Text.linesWithEnds tag.text.toList).headD []) :: (Text.linesWithEnds tag.text.toList).tail := by
  rw [tag.written_eq, linesWithEnds_append_left h.newline_not_mem (by simp [Tag.lead])]

theorem Tag.isFence_lead (tag : Tag) (cs : List Char) : isFence (tag.lead ++ cs) = false := by
  have hat : isBlank '@' = false := by decide
  simp [isFence, trimStart, Tag.lead, hat]

/-- A tag has the fences of its text, but for the one that the text opens with. -/
theorem Tag.IsWritable.fenceCount (h : tag.IsWritable) :
    Comment.fenceCount tag.text.toList =
      Comment.fenceCount tag.written + (isFence tag.text.toList).toNat := by
  rw [Comment.fenceCount, Comment.fenceCount, h.linesWithEnds, List.countP_cons, Tag.isFence_lead,
    ← isFence_headD (trimStart_of_trim h.text.trimmed)]
  cases Text.linesWithEnds tag.text.toList with
  | nil => simp [isFence]
  | cons line ls => cases hline : isFence line <;> simp [hline]

/-- If the text of a tag does not open with a fence, what is fenced in it is fenced in the tag. -/
theorem Tag.IsWritable.inFencedCode (h : tag.IsWritable) (hfence : isFence tag.text.toList = false) (q : Nat) :
    InFencedCode tag.written (byteLength tag.lead + q) ↔ InFencedCode tag.text.toList q := by
  rw [inFencedCode_iff, inFencedCode_iff, h.linesWithEnds, fencedFrom_cons, Tag.isFence_lead]
  rw [← isFence_headD (trimStart_of_trim h.text.trimmed)] at hfence
  cases hlines : Text.linesWithEnds tag.text.toList with
  | nil => simp [not_fencedFrom_nil]
  | cons line ls =>
    rw [hlines, List.headD_cons] at hfence
    rw [fencedFrom_cons, hfence]
    simp only [List.headD_cons, List.tail_cons, Bool.toNat_false, Nat.add_zero, byteLength_append, Nat.zero_add]
    rw [fencedFrom_shift]
    simp

theorem isCut_append_of_isWord (hword : ∀ c ∈ xs, isWord c = true) (ys : List Char) :
    IsCut fenced offset false (xs ++ ys) p ↔ IsCut fenced (offset + byteLength xs) false ys p := by
  induction xs generalizing offset with
  | nil => rfl
  | cons c xs ih =>
    have hblank := isBlank_eq_false_of_isWord (hword c (by simp))
    rw [List.cons_append, isCut_cons, hblank, ih fun d hd => hword d (by simp [hd]), byteLength_cons, Nat.add_assoc]
    simp

/-- A tag starts where it should, and its text is cut where it may be cut behind what is in front of it. -/
theorem Tag.IsWritable.isTagStart (h : tag.IsWritable) : IsTagStart tag.written p ↔
    p = 0 ∨ ∃ q, p = byteLength tag.lead + q ∧
      IsCut (fun q => inFence (fences tag.written) (byteLength tag.lead + q)) 0 true tag.text.toList q := by
  have hstart : startsWord tag.body = true := by
    have hnamed := h.named
    have hword := h.word
    rw [Tag.body]
    cases hname : tag.name.toList with
    | nil => exact absurd hname hnamed
    | cons c name => exact hword c (by simp [hname])
  have hopen : inFence (fences tag.written) 0 = false := by
    rw [← Bool.not_eq_true, inFence_fences, inFencedCode_iff, h.linesWithEnds, fencedFrom_cons, Tag.isFence_lead]
    rintro (⟨-, -, hfence⟩ | hrest)
    · simp at hfence
    · have hbounds := hrest.bounds
      have hat := Char.utf8Size_pos '@'
      simp only [Tag.lead, byteLength_append, byteLength_cons] at hbounds
      omega
  have hblank : isBlank ' ' = true := by decide
  have hlead : 0 + '@'.utf8Size + byteLength tag.name.toList + ' '.utf8Size = byteLength tag.lead + 0 := by
    simp only [Tag.lead, byteLength_cons, byteLength_append, byteLength_nil]
    omega
  have hat : isBlank '@' = false := by decide
  rw [← isCut_iff_isTagStart, ← isCut_shift, ← hlead, Tag.written, isCut_cons, hstart, hat, Tag.body,
    isCut_append_of_isWord h.word, isCut_cons, hblank]
  rw [Tag.written, Tag.body] at hopen
  simp [hopen]

/-- A tag whose text does not open with a fence holds no other tag. -/
theorem Tag.IsWritable.isTagStart_iff (h : tag.IsWritable) (hfence : isFence tag.text.toList = false) :
    IsTagStart tag.written p ↔ p = 0 := by
  rw [h.isTagStart]
  refine or_iff_left ?_
  rintro ⟨q, -, hcut⟩
  refine h.text.tagless q ((isCut_iff_of_eq fun q => ?_).1 hcut)
  rw [inFence_fences, h.inFencedCode hfence]

/-! ### Where the text is cut -/

/-- What stands between a text and the first of some tags behind it, or behind the last tag. -/
def endBefore (tags : List Tag) : List Char := if tags.isEmpty then [] else ['\n']

/-- What is written from behind the at sign of one tag to the at sign of the next. -/
def writtenPieces : List Tag → List (List Char)
  | [] => []
  | tag :: tags => (tag.body ++ endBefore tags) :: writtenPieces tags

/-- The byte offsets of the at signs of some tags that are written behind a text. -/
def writtenStarts (first : List Char) (tags : List Tag) : List Nat :=
  startsFrom (byteLength (first ++ endBefore tags)) (writtenPieces tags)

theorem writeTags_eq (first : List Char) (tags : List Tag) :
    writeTags first tags = first ++ endBefore tags ++ (writtenPieces tags).flatMap ('@' :: ·) := by
  induction tags generalizing first with
  | nil => simp [endBefore, writtenPieces]
  | cons tag tags ih =>
    rw [writeTags_cons, ih]
    simp [endBefore, writtenPieces, Tag.written]

theorem trimEnd_append_newline (cs : List Char) : trimEnd (cs ++ ['\n']) = trimEnd cs := by
  have hblank : isBlank '\n' = true := by decide
  simp [trimEnd, trimStart, hblank]

theorem trim_append_newline (cs : List Char) : trim (cs ++ ['\n']) = trim cs := by
  rw [trim, trim, trimStart, trimStart, List.dropWhile_append]
  by_cases hblank : (cs.dropWhile isBlank).isEmpty = true
  · rw [if_pos hblank, List.isEmpty_iff.1 hblank]
    rfl
  · rw [if_neg hblank, trimEnd_append_newline]

theorem trim_append_endBefore (cs : List Char) (tags : List Tag) : trim (cs ++ endBefore tags) = trim cs := by
  cases tags with
  | nil => simp [endBefore]
  | cons tag tags => exact trim_append_newline cs

/-- What is written of a tag is that tag. -/
theorem Tag.IsWritable.ofPiece (h : tag.IsWritable) (tags : List Tag) :
    Tag.ofPiece (tag.body ++ endBefore tags) = tag := by
  have hspace : isWord ' ' = false := by decide
  have hblank : isBlank ' ' = true := by decide
  have hbody : tag.body ++ endBefore tags = tag.name.toList ++ ' ' :: (tag.text.toList ++ endBefore tags) := by
    simp [Tag.body]
  have hname : (tag.name.toList ++ ' ' :: (tag.text.toList ++ endBefore tags)).takeWhile isWord = tag.name.toList :=
    takeWhile_append_of_head? h.word (by simp [hspace])
  have hrest : (tag.name.toList ++ ' ' :: (tag.text.toList ++ endBefore tags)).dropWhile isWord =
      ' ' :: (tag.text.toList ++ endBefore tags) := by
    rw [List.dropWhile_append_of_pos h.word, List.dropWhile_cons_of_neg (by simp [hspace])]
  have htext : trim (' ' :: (tag.text.toList ++ endBefore tags)) = tag.text.toList := by
    rw [trim, trimStart, List.dropWhile_cons_of_pos hblank, ← trimStart, ← trim, trim_append_endBefore,
      h.text.trimmed]
  rw [Tag.ofPiece, hbody, hname, hrest, htext, String.ofList_toList, String.ofList_toList]

theorem map_ofPiece_writtenPieces (h : ∀ tag ∈ tags, tag.IsWritable) :
    (writtenPieces tags).map Tag.ofPiece = tags := by
  induction tags with
  | nil => rfl
  | cons tag tags ih =>
    rw [writtenPieces, List.map_cons, (h tag (by simp)).ofPiece, ih fun other hother => h other (by simp [hother])]

/-- A text is cut in one way at given at signs. -/
theorem eq_of_startsFrom_eq (htext : head ++ ts.flatMap ('@' :: ·) = head' ++ ts'.flatMap ('@' :: ·))
    (hstarts : startsFrom (offset + byteLength head) ts = startsFrom (offset + byteLength head') ts') :
    head = head' ∧ ts = ts' := by
  induction ts generalizing offset head head' ts' with
  | nil =>
    cases ts' with
    | nil => exact ⟨by simpa using htext, rfl⟩
    | cons piece' ts' => exact nomatch hstarts
  | cons piece ts ih =>
    cases ts' with
    | nil => exact nomatch hstarts
    | cons piece' ts' =>
      obtain ⟨hlength, hrest⟩ := List.cons.inj hstarts
      obtain ⟨rfl, htail⟩ := eq_of_byteLength_eq htext (by omega)
      obtain ⟨rfl, rfl⟩ := ih (by simpa using htail) hrest
      exact ⟨rfl, rfl⟩

/-- The text before an at sign is known from its characters that are no blanks. -/
theorem eq_of_withoutBlanks_eq (htext : xs ++ '@' :: cs = ys ++ '@' :: cs')
    (hblanks : withoutBlanks xs = withoutBlanks ys) : xs = ys ∧ cs = cs' := by
  have hat : isBlank '@' = false := by decide
  induction xs generalizing ys with
  | nil =>
    cases ys with
    | nil => exact ⟨rfl, by simpa using htext⟩
    | cons d ys =>
      obtain ⟨rfl, -⟩ := List.cons.inj htext
      simp [withoutBlanks, hat] at hblanks
  | cons c xs ih =>
    cases ys with
    | nil =>
      obtain ⟨rfl, -⟩ := List.cons.inj htext
      simp [withoutBlanks, hat] at hblanks
    | cons d ys =>
      obtain ⟨rfl, htail⟩ := List.cons.inj htext
      have hrest : withoutBlanks xs = withoutBlanks ys := by
        by_cases hc : isBlank c = true
        · simpa [withoutBlanks, hc] using hblanks
        · simpa [withoutBlanks, hc] using hblanks
      obtain ⟨rfl, rfl⟩ := ih htail hrest
      exact ⟨rfl, rfl⟩

/-- A text is cut in one way into pieces with given characters that are no blanks. -/
theorem eq_of_map_withoutBlanks_eq (htext : head ++ ts.flatMap ('@' :: ·) = head' ++ ts'.flatMap ('@' :: ·))
    (hhead : withoutBlanks head = withoutBlanks head') (hts : ts.map withoutBlanks = ts'.map withoutBlanks) :
    head = head' ∧ ts = ts' := by
  induction ts generalizing head head' ts' with
  | nil =>
    cases ts' with
    | nil => exact ⟨by simpa using htext, rfl⟩
    | cons piece' ts' => exact nomatch hts
  | cons piece ts ih =>
    cases ts' with
    | nil => exact nomatch hts
    | cons piece' ts' =>
      obtain ⟨hpiece, hrest⟩ := List.cons.inj hts
      obtain ⟨rfl, htail⟩ := eq_of_withoutBlanks_eq htext hhead
      have hbehind : piece ++ ts.flatMap ('@' :: ·) = piece' ++ ts'.flatMap ('@' :: ·) := htail
      obtain ⟨rfl, rfl⟩ := ih hbehind hpiece hrest
      exact ⟨rfl, rfl⟩

theorem withoutBlanks_eq_of_trim_eq (h : trim xs = trim ys) : withoutBlanks xs = withoutBlanks ys := by
  rw [withoutBlanks, withoutBlanks, ← filter_trim, h, filter_trim]

/-- A text with some tags behind it is read back if and only if its tags start at the at signs that were written. -/
theorem ofText_writeTags_iff {summary : String} (hsummary : trim summary.toList = summary.toList)
    (htags : ∀ tag ∈ tags, tag.IsWritable) : Block.ofText (writeTags summary.toList tags) = ⟨summary, tags⟩ ↔
      ∀ p, IsTagStart (writeTags summary.toList tags) p ↔ p ∈ writtenStarts summary.toList tags := by
  obtain ⟨head, ts, -, hblock, htext, hstarts⟩ := exists_pieces (writeTags summary.toList tags)
  have hwritten := writeTags_eq summary.toList tags
  have hhead : trim (summary.toList ++ endBefore tags) = summary.toList := by rw [trim_append_endBefore, hsummary]
  have hpieces := map_ofPiece_writtenPieces htags
  have hcuts : head ++ ts.flatMap ('@' :: ·) =
      summary.toList ++ endBefore tags ++ (writtenPieces tags).flatMap ('@' :: ·) := by rw [← htext, hwritten]
  constructor
  · intro hread p
    rw [hblock] at hread
    obtain ⟨htrim, hmap⟩ := Block.mk.inj hread
    obtain ⟨rfl, rfl⟩ := eq_of_map_withoutBlanks_eq hcuts
      (withoutBlanks_eq_of_trim_eq (by rw [hhead, ← htrim, String.toList_ofList])) (by
        have hall := congrArg (List.map fun tag : Tag => withoutBlanks (tag.name.toList ++ tag.text.toList))
          (hmap.trans hpieces.symm)
        simpa [Function.comp_def, withoutBlanks_ofPiece] using hall)
    exact (hstarts p).symm
  · intro hall
    have hlists : startsFrom (byteLength head) ts = writtenStarts summary.toList tags :=
      pairwise_startsFrom.eq_of_mem_iff pairwise_startsFrom fun p => (hstarts p).trans (hall p)
    obtain ⟨rfl, rfl⟩ := @eq_of_startsFrom_eq _ _ _ _ 0 hcuts (by simpa [writtenStarts] using hlists)
    rw [hblock, hhead, hpieces, String.ofList_toList]

/-! ### Which tags are read back -/

theorem startsFrom_shift (k : Nat) : startsFrom (k + offset) ts = (startsFrom offset ts).map (k + ·) := by
  induction ts generalizing offset with
  | nil => rfl
  | cons piece ts ih => rw [startsFrom, startsFrom, List.map_cons, ← ih, Nat.add_assoc, Nat.add_assoc, Nat.add_assoc]

/-- The at sign of the first tag stands behind a line feed, and the others stand behind that tag. -/
theorem mem_writtenStarts_cons {first : List Char} : p ∈ writtenStarts first (tag :: tags) ↔
    ∃ q, p = byteLength first + 1 + q ∧ (q = 0 ∨ q ∈ writtenStarts tag.written tags) := by
  have hfirst : byteLength (first ++ endBefore (tag :: tags)) = byteLength first + 1 := by
    simp [endBefore, utf8Size_newline]
  have hnext : byteLength first + 1 + 1 + byteLength (tag.body ++ endBefore tags) =
      byteLength first + 1 + byteLength (tag.written ++ endBefore tags) := by
    simp only [Tag.written, List.cons_append, byteLength_cons, utf8Size_at]
    omega
  rw [writtenStarts, writtenPieces, startsFrom, hfirst, hnext, startsFrom_shift, List.mem_cons, List.mem_map]
  constructor
  · rintro (rfl | ⟨q, hq, rfl⟩)
    · exact ⟨0, rfl, .inl rfl⟩
    · exact ⟨q, rfl, .inr hq⟩
  · rintro ⟨q, rfl, rfl | hq⟩
    · exact .inl rfl
    · exact .inr ⟨q, hq, rfl⟩

/-- Behind a text whose fenced code is closed, the tags start where they are written if they do so in the text that
the first of them starts. -/
theorem starts_cons_iff {first : List Char} (heven : fenceCount first % 2 = 0) :
    (∀ p, IsTagStart (writeTags first (tag :: tags)) p ↔ IsTagStart first p ∨ p ∈ writtenStarts first (tag :: tags)) ↔
      ∀ q, IsTagStart (writeTags tag.written tags) q ↔ q = 0 ∨ q ∈ writtenStarts tag.written tags := by
  simp only [writeTags_cons, isTagStart_append heven, mem_writtenStarts_cons]
  constructor
  · intro hall q
    have hnot : ¬ IsTagStart first (byteLength first + 1 + q) := by
      intro hstart
      have hbounds := (isCut_iff_isTagStart.2 hstart).bounds
      omega
    simpa [hnot] using hall (byteLength first + 1 + q)
  · intro hall p
    simp only [hall]

/-- Behind a text whose fenced code is closed, the tags start where they are written if and only if no text of a tag
opens with a fence, but for the last, and the last tag holds no other. -/
theorem starts_iff {first : List Char} (heven : fenceCount first % 2 = 0) (htags : ∀ tag ∈ tags, tag.IsWritable) :
    (∀ p, IsTagStart (writeTags first tags) p ↔ IsTagStart first p ∨ p ∈ writtenStarts first tags) ↔
      (∀ tag ∈ tags.dropLast, isFence tag.text.toList = false) ∧
        ∀ tag, tags.getLast? = some tag → ∀ p, IsTagStart tag.written p → p = 0 := by
  induction tags generalizing first with
  | nil => simp [writtenStarts, writtenPieces, startsFrom]
  | cons tag tags ih =>
    have htag := htags tag (by simp)
    have hzero : IsTagStart tag.written 0 := htag.isTagStart.2 (.inl rfl)
    have hcount := htag.fenceCount
    have hclosed := htag.text.closed
    rw [starts_cons_iff heven]
    cases tags with
    | nil =>
      have hnone : ∀ q, q ∉ writtenStarts tag.written [] := by simp [writtenStarts, writtenPieces, startsFrom]
      simp only [writeTags_nil, hnone, or_false]
      constructor
      · intro hall
        exact ⟨by simp, fun other hother p hp => by
          obtain rfl : tag = other := by simpa using hother
          exact (hall p).1 hp⟩
      · rintro ⟨-, hlast⟩ q
        constructor
        · exact hlast tag rfl q
        · rintro rfl
          exact hzero
    | cons next tags =>
      have hlast : (tag :: next :: tags).getLast? = (next :: tags).getLast? := List.getLast?_cons_cons
      rw [List.dropLast_cons_cons, List.forall_mem_cons, and_assoc, hlast]
      cases hfence : isFence tag.text.toList with
      | false =>
        have hwritten : fenceCount tag.written % 2 = 0 := by
          rw [hfence, Bool.toNat_false] at hcount
          omega
        rw [← ih hwritten fun other hother => htags other (by simp [hother])]
        simp only [htag.isTagStart_iff hfence, true_and]
      | true =>
        -- The fence that is lost leaves fenced code open behind the tag, so that the next tag does not start.
        have hwritten : fenceCount tag.written % 2 = 1 := by
          rw [hfence, Bool.toNat_true] at hcount
          omega
        refine iff_of_false (fun hall => ?_) (by simp)
        have hnext : byteLength tag.written + 1 ∈ writtenStarts tag.written (next :: tags) :=
          mem_writtenStarts_cons.2 ⟨0, rfl, .inl rfl⟩
        have hstart := (hall _).2 (.inr hnext)
        rw [writeTags_cons] at hstart
        exact not_isTagStart_append hwritten '@' _ hstart

/-- **Tags written one after another are read back, unless the text of one opens with a fence.**  Then they are not if
another tag follows, and if none does they are just in case that the last tag, as it is written, holds no other: a
fence right behind the name of a tag is none. -/
theorem written_tags_read_back {summary : String} (hsummary : IsSelfContained summary.toList)
    (htags : ∀ tag ∈ tags, tag.IsWritable) :
    ((∀ tag ∈ tags, isFence tag.text.toList = false) →
      Block.ofText (writeTags summary.toList tags) = ⟨summary, tags⟩) ∧
    (Block.ofText (writeTags summary.toList tags) = ⟨summary, tags⟩ ↔
      (∀ tag ∈ tags.dropLast, isFence tag.text.toList = false) ∧
        ∀ tag, tags.getLast? = some tag → ∀ p, IsTagStart tag.written p → p = 0) := by
  have hexact := starts_iff hsummary.closed htags
  simp only [hsummary.tagless, false_or] at hexact
  rw [ofText_writeTags_iff hsummary.trimmed htags, hexact]
  refine ⟨fun hfence => ⟨fun tag htag => hfence tag ((List.dropLast_sublist tags).subset htag), ?_⟩, Iff.rfl⟩
  intro tag htag p hp
  have hmem := List.mem_of_getLast? htag
  exact ((htags tag hmem).isTagStart_iff (hfence tag hmem)).1 hp

/-! ### Examples -/

theorem isSelfContained_iff : IsSelfContained cs ↔
    trim cs = cs ∧ fenceCount cs % 2 = 0 ∧ (pieces (inFence (fences cs)) 0 true cs).2 = [] := by
  obtain ⟨head, ts, hpieces, -, -, hstarts⟩ := exists_pieces cs
  have htagless : (∀ p, ¬ IsTagStart cs p) ↔ ts = [] := by
    simp only [← hstarts]
    cases ts with
    | nil => simp [startsFrom]
    | cons piece ts => exact iff_of_false (fun hnone => hnone _ List.mem_cons_self) (by simp)
  rw [hpieces, ← htagless]
  constructor
  · exact fun h => ⟨h.trimmed, h.closed, h.tagless⟩
  · rintro ⟨htrim, hclosed, hnone⟩
    exact ⟨htrim, hclosed, hnone⟩

instance : DecidablePred IsSelfContained := fun _ => decidable_of_iff _ isSelfContained_iff.symm

theorem Tag.isWritable_iff : tag.IsWritable ↔
    tag.name.toList ≠ [] ∧ tag.name.toList.all isWord = true ∧ IsSelfContained tag.text.toList :=
  ⟨fun h => ⟨h.named, List.all_eq_true.2 h.word, h.text⟩, fun ⟨hnamed, hword, htext⟩ =>
    ⟨hnamed, List.all_eq_true.1 hword, htext⟩⟩

instance : DecidablePred Tag.IsWritable := fun _ => decidable_of_iff _ Tag.isWritable_iff.symm

/-- Tags with fenced code that holds what would be a tag elsewhere. -/
def fencedExample : List Tag :=
  [⟨"param", "path - the path"⟩, ⟨"example", "Usage:\n```ts\n@sealed class A {}\n```"⟩, ⟨"returns", ""⟩]

theorem written_tags_read_back_fencedExample : IsSelfContained "Reads a file.".toList ∧
    (∀ tag ∈ fencedExample, tag.IsWritable) ∧ (∀ tag ∈ fencedExample, isFence tag.text.toList = false) ∧
    Block.ofText (writeTags "Reads a file.".toList fencedExample) = ⟨"Reads a file.", fencedExample⟩ := by
  have hsummary : IsSelfContained "Reads a file.".toList := by decide +kernel
  have htags : ∀ tag ∈ fencedExample, tag.IsWritable := by decide +kernel
  have hfence : ∀ tag ∈ fencedExample, isFence tag.text.toList = false := by decide +kernel
  exact ⟨hsummary, htags, hfence, (written_tags_read_back hsummary htags).1 hfence⟩

/-- Tags of which the first has fenced code right behind its name. -/
def fenceBehindName : List Tag := [⟨"example", "```\n@sealed\n```"⟩, ⟨"returns", "x"⟩]

/-- What stands in the fenced code of the first tag starts a tag.  The fence that should close the code opens it, and
the second tag is part of it. -/
theorem fence_behind_name_swallows_tag : IsSelfContained "".toList ∧ (∀ tag ∈ fenceBehindName, tag.IsWritable) ∧
    Block.ofText (writeTags "".toList fenceBehindName) =
      ⟨"", [⟨"example", "```"⟩, ⟨"sealed", "```\n@returns x"⟩]⟩ ∧
    Block.ofText (writeTags "".toList fenceBehindName) ≠ ⟨"", fenceBehindName⟩ := by
  decide +kernel

end ApiDoc.Comment
