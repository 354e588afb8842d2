import ApiDoc.Comment.Block
import Mathlib.Data.List.Forall2
import Mathlib.Data.List.TakeWhile

/-!
# Where the tags of a doc text start

An at sign starts a tag if it stands at the start of the text or behind a blank, if a character of a word follows it,
and if it stands outside of fenced code (`IsTagStart`).  The text is cut at these at signs and nowhere else, and
nothing but blanks is lost between the pieces (`tags_stand_at_starts`).

Fenced code is found by a pass over the lines that remembers the fence that is open.  `InFencedCode` asks instead how
many fences stand before a line, and `inFence_fences` says that the two agree.  A search that goes on behind each word
it finds, and leaves out fenced code afterwards, finds the same tags (`filter_search`).
-/

namespace ApiDoc.Comment

open Text

/-- A byte offset of a text that lies in fenced code.  Fences open and close in turn, and the last may stay open: a
line is fenced if it is a fence itself, or if the number of fences before it is odd. -/
def InFencedCode (text : List Char) (p : Nat) : Prop :=
  ∃ before line after, linesWithEnds text = before ++ line :: after ∧ byteLength before.flatten ≤ p ∧
    p < byteLength before.flatten + byteLength line ∧ (isFence line = true ∨ before.countP isFence % 2 = 1)

/-- The byte offset of an at sign that starts a tag. -/
def IsTagStart (text : List Char) (p : Nat) : Prop :=
  ∃ before after, text = before ++ '@' :: after ∧ byteLength before = p ∧
    (∀ c, before.getLast? = some c → isBlank c = true) ∧ startsWord after = true ∧ ¬ InFencedCode text p

/-- A tag whose at sign stands at one byte offset and whose text ends at the other: its name is all of the word behind
the at sign, and its text is what stands behind the name without the blanks at either end. -/
def IsTag (text : List Char) (start stop : Nat) (tag : Tag) : Prop :=
  ∃ name rest body, drop? text start = some ('@' :: (name ++ rest)) ∧ (∀ c ∈ name, isWord c = true) ∧
    (∀ c, rest.head? = some c → isWord c = false) ∧ slice? text (start + 1 + byteLength name) stop = some body ∧
    tag.name = String.ofList name ∧ tag.text = String.ofList (trim body)

variable {text cs head piece : List Char} {tags : List (List Char)} {ls : List (List Char)} {line : List Char}
  {n offset p : Nat} {edge : Bool} {fenced : Nat → Bool}

/-! ### Fenced code -/

/-- A byte offset in fenced code among the lines behind another offset, with `n` fences before them. -/
def FencedFrom (n offset : Nat) (ls : List (List Char)) (p : Nat) : Prop :=
  ∃ before line after, ls = before ++ line :: after ∧ offset + byteLength before.flatten ≤ p ∧
    p < offset + byteLength before.flatten + byteLength line ∧
    (isFence line = true ∨ (n + before.countP isFence) % 2 = 1)

theorem not_fencedFrom_nil : ¬ FencedFrom n offset [] p := by
  rintro ⟨before, line, after, h, -⟩
  simp at h

/-- The first line is fenced, or one behind it is. -/
theorem fencedFrom_cons : FencedFrom n offset (line :: ls) p ↔
    (offset ≤ p ∧ p < offset + byteLength line ∧ (isFence line = true ∨ n % 2 = 1)) ∨
      FencedFrom (n + (isFence line).toNat) (offset + byteLength line) ls p := by
  constructor
  · rintro ⟨before, line', after, h, hfrom, hto, hfence⟩
    cases before with
    | nil =>
      obtain ⟨rfl, rfl⟩ := List.cons.inj h
      exact .inl ⟨by simpa using hfrom, by simpa using hto, by simpa using hfence⟩
    | cons first before =>
      obtain ⟨rfl, rfl⟩ := List.cons.inj h
      refine .inr ⟨before, line', after, rfl, ?_, ?_, hfence.imp_right fun hodd => ?_⟩
      · simpa [Nat.add_assoc] using hfrom
      · simpa [Nat.add_assoc] using hto
      · cases hline : isFence line <;> simp [hline] at hodd ⊢ <;> omega
  · rintro (⟨hfrom, hto, hfence⟩ | ⟨before, line', after, rfl, hfrom, hto, hfence⟩)
    · exact ⟨[], line, ls, rfl, by simpa using hfrom, by simpa using hto, by simpa using hfence⟩
    · refine ⟨line :: before, line', after, rfl, ?_, ?_, hfence.imp_right fun hodd => ?_⟩
      · simpa [Nat.add_assoc] using hfrom
      · simpa [Nat.add_assoc] using hto
      · cases hline : isFence line <;> simp [hline] at hodd ⊢ <;> omega

theorem inFence_cons {start stop : Nat} {ranges : List (Nat × Nat)} :
    inFence ((start, stop) :: ranges) p = true ↔ (start ≤ p ∧ p < stop) ∨ inFence ranges p = true := by
  simp [inFence]

/-- The pass over the lines, with a fence open if the number of fences so far is odd. -/
theorem inFence_fencesFrom {opened : Option Nat} (hopened : opened.isSome = true ↔ n % 2 = 1)
    (hstart : ∀ start, opened = some start → start ≤ offset) :
    inFence (fencesFrom opened offset ls) p = true ↔
      (∃ start, opened = some start ∧ start ≤ p ∧ p < offset) ∨ FencedFrom n offset ls p := by
  -- on the lines; a fence opens or closes, and the number of fences so far becomes even or odd with it
  induction ls generalizing opened offset n with
  | nil => cases opened <;> simp [fencesFrom, inFence, not_fencedFrom_nil]
  | cons line rest ih =>
    rw [fencedFrom_cons]
    cases opened with
    | none =>
      have heven : ¬ n % 2 = 1 := fun hodd => by simpa using hopened.2 hodd
      cases hline : isFence line with
      | false =>
        have hrest := @ih n (offset + byteLength line) none hopened (by simp)
        simp only [fencesFrom, hline, Bool.false_eq_true, if_false, hrest]
        grind
      | true =>
        have hrest := @ih (n + 1) (offset + byteLength line) (some offset) (by simp; omega) (by simp)
        simp only [fencesFrom, hline, if_true, hrest]
        grind
    | some start =>
      have hodd : n % 2 = 1 := hopened.1 rfl
      have hle := hstart start rfl
      cases hline : isFence line with
      | false =>
        have hrest := @ih n (offset + byteLength line) (some start) hopened (by simp; omega)
        simp only [fencesFrom, hline, Bool.false_eq_true, if_false, hrest]
        grind
      | true =>
        have hrest := @ih (n + 1) (offset + byteLength line) none (by simp; omega) (by simp)
        simp only [fencesFrom, hline, if_true, inFence_cons, hrest]
        grind

theorem inFence_fences : inFence (fences text) p = true ↔ InFencedCode text p := by
  rw [fences, inFence_fencesFrom (n := 0) (by simp) (by simp)]
  simp [FencedFrom, InFencedCode]

/-! ### Where the pieces start -/

/-- The byte offsets of the at signs in front of some pieces, the first of which stands at an offset. -/
def startsFrom : Nat → List (List Char) → List Nat
  | _, [] => []
  | start, piece :: rest => start :: startsFrom (start + 1 + byteLength piece) rest

/-- The byte offset of an at sign at which the text behind an offset is cut. -/
def IsCut (fenced : Nat → Bool) (offset : Nat) (edge : Bool) (cs : List Char) (p : Nat) : Prop :=
  ∃ before after, cs = before ++ '@' :: after ∧ offset + byteLength before = p ∧
    before.getLast?.elim edge isBlank = true ∧ startsWord after = true ∧ fenced p = false

theorem not_isCut_nil : ¬ IsCut fenced offset edge [] p := by
  rintro ⟨before, after, h, -⟩
  simp at h

/-- The text is cut at its first character, or behind it. -/
theorem isCut_cons {c : Char} : IsCut fenced offset edge (c :: cs) p ↔
    (p = offset ∧ (c == '@' && edge && startsWord cs && !fenced offset) = true) ∨
      IsCut fenced (offset + c.utf8Size) (isBlank c) cs p := by
  constructor
  · rintro ⟨before, after, h, hp, hedge, hword, hfenced⟩
    cases before with
    | nil =>
      obtain ⟨rfl, rfl⟩ := List.cons.inj h
      obtain rfl : offset = p := by simpa using hp
      exact .inl ⟨rfl, by simpa [hword, hfenced] using hedge⟩
    | cons first before =>
      obtain ⟨rfl, rfl⟩ := List.cons.inj h
      refine .inr ⟨before, after, rfl, by simpa [Nat.add_assoc] using hp, ?_, hword, hfenced⟩
      cases before <;> simpa [List.getLast?_cons] using hedge
  · rintro (⟨rfl, hcut⟩ | ⟨before, after, rfl, hp, hedge, hword, hfenced⟩)
    · simp only [Bool.and_eq_true, beq_iff_eq, Bool.not_eq_true'] at hcut
      obtain ⟨⟨⟨rfl, hedge⟩, hword⟩, hfenced⟩ := hcut
      exact ⟨[], cs, rfl, by simp, by simpa using hedge, hword, hfenced⟩
    · refine ⟨c :: before, after, rfl, by simpa [Nat.add_assoc] using hp, ?_, hword, hfenced⟩
      cases before <;> simpa [List.getLast?_cons] using hedge

/-- Cutting into pieces loses nothing, and cuts where it should. -/
theorem pieces_spec (h : pieces fenced offset edge cs = (head, tags)) :
    cs = head ++ tags.flatMap ('@' :: ·) ∧
      ∀ p, p ∈ startsFrom (offset + byteLength head) tags ↔ IsCut fenced offset edge cs p := by
  induction cs generalizing offset edge head tags with
  | nil =>
    obtain ⟨rfl, rfl⟩ := Prod.mk.inj h
    exact ⟨rfl, fun p => by simp [startsFrom, not_isCut_nil]⟩
  | cons c cs ih =>
    rcases hrest : pieces fenced (offset + c.utf8Size) (isBlank c) cs with ⟨piece, rest⟩
    obtain ⟨hcs, hstarts⟩ := ih hrest
    simp only [pieces, hrest] at h
    split at h
    next hcut =>
      obtain ⟨rfl, rfl⟩ := Prod.mk.inj h
      obtain rfl : c = '@' := by
        simp only [Bool.and_eq_true, beq_iff_eq] at hcut
        exact hcut.1.1.1
      refine ⟨by rw [hcs]; rfl, fun p => ?_⟩
      rw [isCut_cons, ← hstarts, startsFrom, List.mem_cons]
      simp only [hcut, and_true, byteLength_nil, Nat.add_zero]
      rfl
    next hcut =>
      obtain ⟨rfl, rfl⟩ := Prod.mk.inj h
      refine ⟨by rw [hcs]; rfl, fun p => ?_⟩
      rw [isCut_cons, ← hstarts, byteLength_cons, Nat.add_assoc]
      simp [hcut]

theorem le_of_mem_startsFrom (h : p ∈ startsFrom offset tags) : offset ≤ p := by
  induction tags generalizing offset with
  | nil => simp [startsFrom] at h
  | cons piece tags ih =>
    rcases List.mem_cons.1 h with rfl | h
    · exact Nat.le_refl p
    · have hle := ih h
      omega

theorem pairwise_startsFrom : (startsFrom offset tags).Pairwise (· < ·) := by
  induction tags generalizing offset with
  | nil => exact .nil
  | cons piece tags ih =>
    refine .cons (fun p hp => ?_) ih
    have hle := le_of_mem_startsFrom hp
    omega

theorem isCut_iff_isTagStart : IsCut (inFence (fences text)) 0 true text p ↔ IsTagStart text p := by
  have hedge : ∀ before : List Char, before.getLast?.elim true isBlank = true ↔
      ∀ c, before.getLast? = some c → isBlank c = true := by
    intro before
    cases before.getLast? <;> simp
  simp only [IsCut, IsTagStart, hedge, Nat.zero_add, ← Bool.not_eq_true, inFence_fences]

theorem utf8Size_at : '@'.utf8Size = 1 := rfl

/-- The pieces of a text and where they start. -/
theorem exists_pieces (text : List Char) : ∃ head tags, pieces (inFence (fences text)) 0 true text = (head, tags) ∧
    Block.ofText text = ⟨String.ofList (trim head), tags.map Tag.ofPiece⟩ ∧ text = head ++ tags.flatMap ('@' :: ·) ∧
    ∀ p, p ∈ startsFrom (byteLength head) tags ↔ IsTagStart text p := by
  rcases hpieces : pieces (inFence (fences text)) 0 true text with ⟨head, tags⟩
  obtain ⟨htext, hstarts⟩ := pieces_spec hpieces
  refine ⟨head, tags, rfl, by rw [Block.ofText, hpieces], htext, fun p => ?_⟩
  rw [← isCut_iff_isTagStart, ← hstarts, Nat.zero_add]

/-! ### Searching for one tag after the other -/

/-- The at signs with a word behind them that a search finds which goes on behind each word, and the words. -/
def search (offset : Nat) (edge : Bool) : List Char → List (Nat × List Char)
  | [] => []
  | c :: cs =>
    if c == '@' && edge && startsWord cs then
      (offset, cs.takeWhile isWord) ::
        search (offset + c.utf8Size + byteLength (cs.takeWhile isWord)) false (cs.dropWhile isWord)
    else search (offset + c.utf8Size) (isBlank c) cs
termination_by cs => cs.length
decreasing_by
  · exact Nat.lt_succ_of_le (List.dropWhile_suffix isWord).length_le
  · exact Nat.lt_succ_self _

/-- A text is not cut within a word. -/
theorem pieces_append_of_isWord {name : List Char} (hname : ∀ c ∈ name, isWord c = true) (rest : List Char) :
    pieces fenced offset false (name ++ rest) =
      (name ++ (pieces fenced (offset + byteLength name) false rest).1,
        (pieces fenced (offset + byteLength name) false rest).2) := by
  induction name generalizing offset with
  | nil => rfl
  | cons c name ih =>
    have hblank := isBlank_eq_false_of_isWord (hname c (by simp))
    have hrest := @ih (offset + c.utf8Size) fun d hd => hname d (by simp [hd])
    simp only [List.cons_append, pieces, Bool.and_false, Bool.false_and, Bool.false_eq_true, if_false, hblank, hrest,
      byteLength_cons, Nat.add_assoc]

/-- What is found outside of fenced code are the words that the pieces start with. -/
theorem filter_search (h : pieces fenced offset edge cs = (head, tags)) :
    (search offset edge cs).filter (fun found => !fenced found.1) =
      (startsFrom (offset + byteLength head) tags).zip (tags.map (·.takeWhile isWord)) := by
  fun_induction search offset edge cs generalizing head tags with
  | case1 =>
    obtain ⟨rfl, rfl⟩ := Prod.mk.inj h
    rfl
  | case2 offset edge c cs hfound ih =>
    obtain ⟨⟨rfl, hedge⟩, hword⟩ : (c = '@' ∧ edge = true) ∧ startsWord cs = true := by simpa using hfound
    have hsplit : cs.takeWhile isWord ++ cs.dropWhile isWord = cs := List.takeWhile_append_dropWhile
    have hname : ∀ c ∈ cs.takeWhile isWord, isWord c = true := fun c hc => List.mem_takeWhile_imp hc
    rcases hrest : pieces fenced (offset + '@'.utf8Size + byteLength (cs.takeWhile isWord)) false (cs.dropWhile isWord)
      with ⟨piece, others⟩
    have hfirst : (cs.takeWhile isWord ++ piece).takeWhile isWord = cs.takeWhile isWord := by
      refine takeWhile_append_of_head? hname fun c hc => ?_
      have hhead := List.head?_dropWhile_not isWord cs
      rwa [(pieces_spec hrest).1, List.head?_append, hc] at hhead
    -- the word that was found is passed over, and nothing in it is cut
    have hpieces : pieces fenced (offset + '@'.utf8Size) false cs = (cs.takeWhile isWord ++ piece, others) := by
      have happend := @pieces_append_of_isWord (offset + '@'.utf8Size) fenced _ hname (cs.dropWhile isWord)
      rwa [hsplit, hrest] at happend
    have hblank : isBlank '@' = false := by decide
    simp only [pieces, hblank, hpieces, hedge, hword, beq_self_eq_true, Bool.and_true, Bool.true_and] at h
    cases hfenced : fenced offset with
    | true =>
      rw [hfenced] at h
      obtain ⟨rfl, rfl⟩ := Prod.mk.inj h
      rw [List.filter_cons_of_neg (by simp [hfenced]), ih hrest]
      simp only [byteLength_cons, byteLength_append, Nat.add_assoc]
    | false =>
      rw [hfenced] at h
      obtain ⟨rfl, rfl⟩ := Prod.mk.inj h
      rw [List.filter_cons_of_pos (by simp [hfenced]), ih hrest, List.map_cons, hfirst, startsFrom, List.zip_cons_cons]
      simp only [byteLength_nil, byteLength_append, utf8Size_at, Nat.add_zero, Nat.add_assoc]
  | case3 offset edge c cs hother ih =>
    rcases hrest : pieces fenced (offset + c.utf8Size) (isBlank c) cs with ⟨piece, others⟩
    simp only [pieces, hrest, hother, Bool.false_and, Bool.false_eq_true, if_false] at h
    obtain ⟨rfl, rfl⟩ := Prod.mk.inj h
    rw [ih hrest, byteLength_cons, Nat.add_assoc]

theorem names_ofPiece (tags : List (List Char)) :
    (tags.map Tag.ofPiece).map (fun tag => tag.name.toList) = tags.map (·.takeWhile isWord) := by
  simp [Tag.ofPiece, Function.comp_def]

/-! ### What the pieces are -/

/-- A piece of a text is the tag that starts with the at sign in front of it, and no character of a word follows its
name, also where the next at sign stands right behind it. -/
theorem isTag_ofPiece (before piece : List Char) (tags : List (List Char)) :
    IsTag (before ++ '@' :: (piece ++ tags.flatMap ('@' :: ·))) (byteLength before)
      (byteLength before + 1 + byteLength piece) (Tag.ofPiece piece) := by
  have hpiece : piece.takeWhile isWord ++ piece.dropWhile isWord = piece := List.takeWhile_append_dropWhile
  refine ⟨piece.takeWhile isWord, piece.dropWhile isWord ++ tags.flatMap ('@' :: ·), piece.dropWhile isWord, ?_,
    fun c hc => List.mem_takeWhile_imp hc, ?_, ?_, rfl, rfl⟩
  · rw [drop?_byteLength, ← List.append_assoc, hpiece]
  · intro c hc
    -- behind the name stands what ended the word, the next at sign, or nothing
    have hhead := List.head?_dropWhile_not isWord piece
    cases hrest : piece.dropWhile isWord with
    | nil =>
      cases tags with
      | nil => simp [hrest] at hc
      | cons piece' tags =>
        obtain rfl : '@' = c := by simpa [hrest] using hc
        decide
    | cons d rest =>
      obtain rfl : d = c := by simpa [hrest] using hc
      simpa [hrest] using hhead
  · have hslice := slice?_byteLength (before ++ '@' :: piece.takeWhile isWord) (piece.dropWhile isWord)
      (tags.flatMap ('@' :: ·))
    have hname : byteLength (before ++ '@' :: piece.takeWhile isWord) =
        byteLength before + 1 + byteLength (piece.takeWhile isWord) := by
      simp [utf8Size_at, Nat.add_assoc]
    have hstop : byteLength ((before ++ '@' :: piece.takeWhile isWord) ++ piece.dropWhile isWord) =
        byteLength before + 1 + byteLength piece := by
      rw [List.append_assoc, List.cons_append, hpiece]
      simp [utf8Size_at, Nat.add_assoc]
    have htext : (before ++ '@' :: piece.takeWhile isWord) ++
        (piece.dropWhile isWord ++ tags.flatMap ('@' :: ·)) =
        before ++ '@' :: (piece ++ tags.flatMap ('@' :: ·)) := by
      rw [List.append_assoc, List.cons_append, ← List.append_assoc (piece.takeWhile isWord), hpiece]
    rwa [hname, hstop, htext] at hslice

/-- Each piece of a text is the tag between one at sign and the next, or the end of the text. -/
theorem forall₂_isTag {before : List Char} (htext : text = before ++ tags.flatMap ('@' :: ·)) :
    List.Forall₂ (fun span tag => IsTag text span.1 span.2 tag)
      ((startsFrom (byteLength before) tags).zip ((startsFrom (byteLength before) tags).tail ++ [byteLength text]))
      (tags.map Tag.ofPiece) := by
  induction tags generalizing before with
  | nil => exact .nil
  | cons piece tags ih =>
    have hlength : byteLength (before ++ '@' :: piece) = byteLength before + 1 + byteLength piece := by
      simp [utf8Size_at, Nat.add_assoc]
    have htag : IsTag text (byteLength before) (byteLength before + 1 + byteLength piece) (Tag.ofPiece piece) := by
      rw [htext]
      exact isTag_ofPiece before piece tags
    have hrest := @ih (before ++ '@' :: piece) (by rw [htext]; simp)
    rw [hlength] at hrest
    cases tags with
    | nil =>
      have hend : byteLength text = byteLength before + 1 + byteLength piece := by
        rw [htext, ← hlength]
        simp
      rw [hend]
      exact .cons htag .nil
    | cons piece' tags => exact .cons htag hrest

/-! ### What is lost -/

/-- The characters of a text that are no blanks. -/
def withoutBlanks (cs : List Char) : List Char := cs.filter fun c => !isBlank c

theorem withoutBlanks_ofPiece (piece : List Char) :
    withoutBlanks ((Tag.ofPiece piece).name.toList ++ (Tag.ofPiece piece).text.toList) = withoutBlanks piece := by
  rw [Tag.ofPiece, String.toList_ofList, String.toList_ofList, withoutBlanks, List.filter_append, filter_trim,
    ← List.filter_append, List.takeWhile_append_dropWhile]
  rfl

theorem withoutBlanks_pieces (head : List Char) (tags : List (List Char)) :
    withoutBlanks (trim head ++ (tags.map Tag.ofPiece).flatMap
      fun tag => '@' :: (tag.name.toList ++ tag.text.toList)) =
      withoutBlanks (head ++ tags.flatMap ('@' :: ·)) := by
  have htags : withoutBlanks ((tags.map Tag.ofPiece).flatMap
      fun tag => '@' :: (tag.name.toList ++ tag.text.toList)) = withoutBlanks (tags.flatMap ('@' :: ·)) := by
    induction tags with
    | nil => rfl
    | cons piece tags ih =>
      have hpiece := withoutBlanks_ofPiece piece
      simp only [withoutBlanks] at hpiece ih ⊢
      rw [List.map_cons, List.flatMap_cons, List.flatMap_cons, List.filter_append, List.filter_append, ih,
        List.filter_cons, List.filter_cons, hpiece]
  simp only [withoutBlanks] at htags ⊢
  rw [List.filter_append, List.filter_append, filter_trim, htags]

/-- **The tags of a text stand at the at signs that start one.**  Their byte offsets in order cut the text: what stands
before the first is the summary, and each tag reaches to the next offset or to the end of the text.  All these slices
lie between characters, and but for blanks the summary and the tags are the whole text.  A search that goes on behind
each word it finds, and leaves out fenced code afterwards, finds the same offsets, with the names of the tags. -/
theorem tags_stand_at_starts (text : List Char) : ∃ starts : List Nat, starts.Pairwise (· < ·) ∧
    (∀ p, p ∈ starts ↔ IsTagStart text p) ∧
    (∃ summary, slice? text 0 (starts.headD (byteLength text)) = some summary ∧
      (Block.ofText text).summary = String.ofList (trim summary)) ∧
    List.Forall₂ (fun span tag => IsTag text span.1 span.2 tag) (starts.zip (starts.tail ++ [byteLength text]))
      (Block.ofText text).tags ∧
    withoutBlanks ((Block.ofText text).summary.toList ++ (Block.ofText text).tags.flatMap
      fun tag => '@' :: (tag.name.toList ++ tag.text.toList)) = withoutBlanks text ∧
    (search 0 true text).filter (fun found => !inFence (fences text) found.1) =
      starts.zip ((Block.ofText text).tags.map fun tag => tag.name.toList) := by
  obtain ⟨head, tags, hpieces, hblock, htext, hstarts⟩ := exists_pieces text
  have hsummary : slice? text 0 ((startsFrom (byteLength head) tags).headD (byteLength text)) = some head := by
    have hslice := slice?_byteLength [] head (tags.flatMap ('@' :: ·))
    rw [List.nil_append, ← htext] at hslice
    cases tags with
    | nil => simpa [startsFrom, htext] using hslice
    | cons piece tags => exact hslice
  rw [hblock]
  refine ⟨startsFrom (byteLength head) tags, pairwise_startsFrom, hstarts, ⟨head, hsummary, rfl⟩,
    forall₂_isTag htext, ?_, ?_⟩
  · rw [String.toList_ofList, withoutBlanks_pieces, ← htext]
  · rw [filter_search hpieces, Nat.zero_add, names_ofPiece]

end ApiDoc.Comment
