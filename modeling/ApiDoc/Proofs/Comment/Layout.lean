import ApiDoc.Comment.Block
import ApiDoc.Proofs.Comment.Leading
import Mathlib.Data.List.Chain
import Mathlib.Data.List.TakeWhile

/-!
# Doc blocks that are written and read

`writeBlock` lays lines out as a doc block, each behind a gutter of a blank, a star and a blank.  The scan finds the
block that is written, whatever follows it, and what is read of it are the lines without the empty ones at either
end (`written_block_reads_back`).  Indentation, stars at the start of a line and empty lines between others stay, since
only the gutter is taken off (`cleanLine_gutterLine`).
-/

namespace ApiDoc.Comment

open Text

/-! ### Writing a doc block -/

/-- A line that may stand in a doc block: it is one line, does not close the block, and ends in no blank. -/
structure IsDocLine (line : List Char) : Prop where
  single : '\n' ∉ line
  opened : ¬ ['*', '/'] <:+: line
  trimmed : ∀ c, line.getLast? = some c → isBlank c = false

/-- A line behind the gutter. -/
def gutterLine (line : List Char) : List Char := ' ' :: '*' :: ' ' :: line

/-- Lines as the text between the delimiters of a doc block. -/
def blockText (ls : List (List Char)) : List Char :=
  '\n' :: (ls.flatMap fun line => gutterLine line ++ ['\n']) ++ [' ']

/-- Lines as a doc block. -/
def writeBlock (ls : List (List Char)) : List Char := '/' :: '*' :: '*' :: (blockText ls ++ ['*', '/'])

variable {ls : List (List Char)} {line : List Char}

/-! ### The scan finds the block -/

/-- No star of a text stands right before a slash. -/
def NeverCloses (cs : List Char) : Prop := cs.IsChain fun a b => ¬ (a = '*' ∧ b = '/')

theorem NeverCloses.of_not_infix {cs : List Char} (h : ¬ ['*', '/'] <:+: cs) : NeverCloses cs := by
  refine List.isChain_iff_forall_rel_of_append_cons_cons.2 ?_
  rintro a b before after rfl ⟨rfl, rfl⟩
  exact h ⟨before, after, by simp⟩

theorem NeverCloses.append {as bs : List Char} (has : NeverCloses as) (hbs : NeverCloses bs)
    (h : as.getLast? ≠ some '*' ∨ bs.head? ≠ some '/') : NeverCloses (as ++ bs) := by
  refine List.isChain_append.2 ⟨has, hbs, ?_⟩
  rintro a ha b hb ⟨rfl, rfl⟩
  exact h.elim (· ha) (· hb)

/-- A block ends at the first star and slash. -/
theorem splitAtClose?_of_neverCloses {body : List Char} (h : NeverCloses (body ++ ['*'])) (rest : List Char) :
    splitAtClose? (body ++ '*' :: '/' :: rest) = some (body, rest) := by
  induction body with
  | nil => rfl
  | cons c body ih =>
    have hclosed : ∀ after, c = '*' → body ++ '*' :: '/' :: rest = '/' :: after → False := by
      rintro after rfl hbody
      cases body with
      | nil => simp at hbody
      | cons d body =>
        obtain rfl : d = '/' := (List.cons.inj hbody).1
        exact (List.isChain_cons_cons.1 h).1 ⟨rfl, rfl⟩
    rw [List.cons_append, splitAtClose?.eq_3 _ _ hclosed, ih h.tail]
    rfl

theorem IsDocLine.neverCloses (h : IsDocLine line) : NeverCloses (gutterLine line ++ ['\n']) := by
  have hgutter : NeverCloses [' ', '*', ' '] := by simp [NeverCloses]
  have hline : NeverCloses (line ++ ['\n']) :=
    (NeverCloses.of_not_infix h.opened).append (List.isChain_singleton _) (.inr (by simp))
  exact hgutter.append hline (.inl (by simp))

theorem neverCloses_blockText (hls : ∀ line ∈ ls, IsDocLine line) : NeverCloses ('*' :: blockText ls ++ ['*']) := by
  have hlines : NeverCloses (ls.flatMap fun line => gutterLine line ++ ['\n']) := by
    induction ls with
    | nil => exact .nil
    | cons line ls ih =>
      rw [List.flatMap_cons]
      refine (hls line (by simp)).neverCloses.append (ih fun line' hline' => hls line' (by simp [hline'])) ?_
      exact .inl (by simp)
  have hopening : NeverCloses ['*', '\n'] := by simp [NeverCloses]
  have hclosing : NeverCloses [' ', '*'] := by simp [NeverCloses]
  have hinner := hlines.append hclosing (.inr (by simp))
  simpa [blockText] using hopening.append hinner (.inl (by simp))

/-- A scan at the start of a block finds it. -/
theorem scan_block {cs body after : List Char} (h : splitAtClose? cs = some (body, after)) (offset : Nat) :
    ∃ ranges, scan offset ('/' :: '*' :: cs) = ⟨offset, offset + 2 + byteLength body + 2, .block⟩ :: ranges := by
  have hslash : isTrivia '/' = false := by decide
  rw [scan]
  split
  next rest hrest => simp [hslash] at hrest
  next rest hrest =>
    obtain rfl : cs = rest := by simpa [hslash] using hrest
    simp only [List.takeWhile_cons, hslash, Bool.false_eq_true, if_false, byteLength_nil, Nat.add_zero]
    split
    next body' after' hclose =>
      obtain ⟨rfl, rfl⟩ := Prod.mk.inj (Option.some.inj (h.symm.trans hclose))
      exact ⟨_, rfl⟩
    next hclose => simp [hclose] at h
  next _ hother => exact (hother cs (by simp [hslash])).elim

/-- The first comment of a text that starts with a doc block is that block. -/
theorem leadingRanges?_writeBlock (hls : ∀ line ∈ ls, IsDocLine line) (rest : List Char) :
    ∃ ranges, leadingRanges? (writeBlock ls ++ rest) 0 =
      some (⟨0, byteLength (writeBlock ls), .block⟩ :: ranges) := by
  have hclose := splitAtClose?_of_neverCloses (neverCloses_blockText hls) rest
  obtain ⟨ranges, hranges⟩ := scan_block hclose 0
  have htext : writeBlock ls ++ rest = '/' :: '*' :: ('*' :: blockText ls ++ '*' :: '/' :: rest) := by
    simp [writeBlock]
  have hlength : byteLength (writeBlock ls) = 0 + 2 + byteLength ('*' :: blockText ls) + 2 := by
    simp [writeBlock, utf8Size_slash, utf8Size_star]
    omega
  have hmark : ('/' == byteOrderMark) = false := by decide
  refine ⟨ranges, ?_⟩
  rw [hlength, ← hranges, htext]
  simp [leadingRanges?, skipMark, skipShebang, hmark]

/-! ### The gutter comes off -/

theorem cleanLine_gutterLine (h : IsDocLine line) : cleanLine (gutterLine line) = line := by
  have hstart : trimStart (gutterLine line) = '*' :: ' ' :: line := rfl
  rw [cleanLine, hstart]
  exact trimEnd_eq_self h.trimmed

theorem dropLineEnd_gutterLine (h : IsDocLine line) : dropLineEnd (gutterLine line ++ ['\n']) = gutterLine line := by
  have hreverse : (gutterLine line ++ ['\n']).reverse = '\n' :: (gutterLine line).reverse := by simp
  have hreturn : ∀ body, (gutterLine line).reverse ≠ '\r' :: body := by
    intro body hbody
    have hlast : (gutterLine line).getLast? = some '\r' := by rw [← List.head?_reverse, hbody]; rfl
    cases line with
    | nil => simp [gutterLine] at hlast
    | cons c line =>
      have hblank := h.trimmed '\r' (by simpa [gutterLine] using hlast)
      exact absurd hblank (by decide)
  rw [dropLineEnd, hreverse]
  split
  next body hbody => exact (hreturn body (List.cons.inj hbody).2).elim
  next body _ hbody =>
    obtain rfl := (List.cons.inj hbody).2
    simp
  next _ hother => exact (hother _ rfl).elim

theorem lines_blockText (hls : ∀ line ∈ ls, IsDocLine line) :
    lines (blockText ls) = [] :: ls.map gutterLine ++ [[' ']] := by
  have hlines : lines ((ls.flatMap fun line => gutterLine line ++ ['\n']) ++ [' ']) =
      ls.map gutterLine ++ [[' ']] := by
    induction ls with
    | nil => rfl
    | cons line ls ih =>
      have hline := hls line (by simp)
      have hsingle : '\n' ∉ gutterLine line := by simp [gutterLine, hline.single]
      have hrest := ih fun line' hline' => hls line' (by simp [hline'])
      rw [lines] at hrest ⊢
      rw [List.flatMap_cons, List.append_assoc, List.append_assoc, List.cons_append, List.nil_append,
        linesWithEnds_append hsingle, List.map_cons, dropLineEnd_gutterLine hline, hrest]
      rfl
  rw [lines] at hlines ⊢
  rw [blockText, List.cons_append, linesWithEnds, if_pos rfl, List.map_cons, hlines]
  rfl

theorem dropWhile_append_of_head? {leading kept : List (List Char)} (hleading : ∀ line ∈ leading, line = [])
    (hkept : kept.head? ≠ some []) : (leading ++ kept).dropWhile List.isEmpty = kept := by
  rw [List.dropWhile_append_of_pos fun line hline => by simp [hleading line hline]]
  cases kept with
  | nil => rfl
  | cons line kept =>
    refine List.dropWhile_cons_of_neg ?_
    simpa using hkept

/-- What is left of lines without the empty ones at either end. -/
theorem dropEmptyEnds_append {leading kept trailing : List (List Char)} (hleading : ∀ line ∈ leading, line = [])
    (htrailing : ∀ line ∈ trailing, line = []) (hfirst : kept.head? ≠ some []) (hlast : kept.getLast? ≠ some []) :
    dropEmptyEnds (leading ++ (kept ++ trailing)) = kept := by
  have htrailing' : ∀ line ∈ trailing.reverse, line = [] := fun line hline => htrailing line (by simpa using hline)
  have hlast' : kept.reverse.head? ≠ some [] := by simpa using hlast
  rw [dropEmptyEnds]
  cases kept with
  | nil =>
    have hall : ∀ line ∈ leading ++ trailing, line = [] := by simpa [or_imp, forall_and] using ⟨hleading, htrailing⟩
    have hnone : ((leading ++ trailing) ++ []).dropWhile List.isEmpty = [] :=
      dropWhile_append_of_head? hall (by simp)
    rw [List.append_nil] at hnone
    rw [List.nil_append, hnone]
    rfl
  | cons line kept =>
    rw [dropWhile_append_of_head? hleading (by simpa using hfirst), List.reverse_append,
      dropWhile_append_of_head? htrailing' hlast', List.reverse_reverse]

/-- The empty lines in front of the others. -/
theorem exists_leading (ls : List (List Char)) : ∃ leading kept, ls = leading ++ kept ∧
    (∀ line ∈ leading, line = []) ∧ kept.head? ≠ some [] := by
  induction ls with
  | nil => exact ⟨[], [], rfl, by simp, by simp⟩
  | cons line ls ih =>
    cases line with
    | nil =>
      obtain ⟨leading, kept, rfl, hleading, hfirst⟩ := ih
      exact ⟨[] :: leading, kept, rfl, by simpa using hleading, hfirst⟩
    | cons c line => exact ⟨[], (c :: line) :: ls, rfl, by simp, by simp⟩

/-- Lines fall into empty ones in front, those that are kept, and empty ones behind. -/
theorem exists_kept (ls : List (List Char)) : ∃ leading kept trailing, ls = leading ++ (kept ++ trailing) ∧
    (∀ line ∈ leading, line = []) ∧ (∀ line ∈ trailing, line = []) ∧ kept.head? ≠ some [] ∧
      kept.getLast? ≠ some [] := by
  obtain ⟨leading, behind, rfl, hleading, hfirst⟩ := exists_leading ls
  obtain ⟨trailing, kept, hbehind, htrailing, hlast⟩ := exists_leading behind.reverse
  have hsplit : behind = kept.reverse ++ trailing.reverse := by
    rw [← List.reverse_append, ← hbehind, List.reverse_reverse]
  refine ⟨leading, kept.reverse, trailing.reverse, by rw [hsplit], hleading, by simpa using htrailing, ?_,
    by simpa using hlast⟩
  intro hhead
  rw [hsplit, List.head?_append, hhead] at hfirst
  exact hfirst rfl

/-! ### The block is read back -/

theorem docText?_writeBlock (ls : List (List Char)) : docText? (writeBlock ls) = some (blockText ls) := by
  simp [docText?, writeBlock]

/-- The text of a written block, freed of the gutter and of the lines of the delimiters. -/
theorem cleanText_blockText (hls : ∀ line ∈ ls, IsDocLine line) {leading kept trailing : List (List Char)}
    (hsplit : ls = leading ++ (kept ++ trailing)) (hleading : ∀ line ∈ leading, line = [])
    (htrailing : ∀ line ∈ trailing, line = []) (hfirst : kept.head? ≠ some []) (hlast : kept.getLast? ≠ some []) :
    cleanText (blockText ls) = ['\n'].intercalate kept := by
  have hclean : (ls.map gutterLine).map cleanLine = ls := by
    rw [List.map_map]
    exact (List.map_congr_left fun line hline => cleanLine_gutterLine (hls line hline)).trans (List.map_id ls)
  have hlines : (lines (blockText ls)).map cleanLine = ([] :: leading) ++ (kept ++ (trailing ++ [[]])) := by
    have hopening : cleanLine [] = [] := rfl
    have hclosing : cleanLine [' '] = [] := by decide
    rw [lines_blockText hls, List.map_append, List.map_cons, List.map_singleton, hclean, hopening, hclosing, hsplit]
    simp
  rw [cleanText, hlines, dropEmptyEnds_append (by simpa using hleading) ?_ hfirst hlast, joinLines_eq_intercalate]
  simpa [or_imp, forall_and] using htrailing

/-- **A doc block that is written is read back.**  Whatever follows it, the first comment at the start of the text is the
block, and its content is that of its lines, put together by line feeds, without the empty ones at either end. -/
theorem written_block_reads_back (hls : ∀ line ∈ ls, IsDocLine line) (rest : List Char) :
    ∃ range ranges, leadingRanges? (writeBlock ls ++ rest) 0 = some (range :: ranges) ∧
      range = ⟨0, byteLength (writeBlock ls), .block⟩ ∧ range.slice (writeBlock ls ++ rest) = writeBlock ls ∧
      ∃ leading kept trailing, ls = leading ++ (kept ++ trailing) ∧ (∀ line ∈ leading, line = []) ∧
        (∀ line ∈ trailing, line = []) ∧ kept.head? ≠ some [] ∧ kept.getLast? ≠ some [] ∧
        Block.ofRange? (writeBlock ls ++ rest) range = some (Block.ofText (['\n'].intercalate kept)) := by
  obtain ⟨ranges, hranges⟩ := leadingRanges?_writeBlock hls rest
  obtain ⟨leading, kept, trailing, hsplit, hleading, htrailing, hfirst, hlast⟩ := exists_kept ls
  have hslice : Range.slice ⟨0, byteLength (writeBlock ls), .block⟩ (writeBlock ls ++ rest) = writeBlock ls := by
    have hwhole : slice? (writeBlock ls ++ rest) 0 (byteLength (writeBlock ls)) = some (writeBlock ls) :=
      slice?_byteLength [] (writeBlock ls) rest
    rw [Range.slice, hwhole, Option.getD_some]
  refine ⟨_, ranges, hranges, rfl, hslice, leading, kept, trailing, hsplit, hleading, htrailing, hfirst, hlast, ?_⟩
  rw [Block.ofRange?, hslice, docText?_writeBlock, Option.map_some,
    cleanText_blockText hls hsplit hleading htrailing hfirst hlast]

/-- Lines that look like the block around them: a gutter, an opening, a tag behind an indentation, and empty lines. -/
def lookalikes : List (List Char) :=
  [[], "* item".toList, [], "   /** nested".toList, " @returns *".toList, []]

theorem written_block_reads_back_lookalikes : (∀ line ∈ lookalikes, IsDocLine line) ∧
    ∃ range ranges, leadingRanges? (writeBlock lookalikes ++ "*/ after".toList) 0 = some (range :: ranges) ∧
      Block.ofRange? (writeBlock lookalikes ++ "*/ after".toList) range =
        some ⟨"* item\n\n   /** nested", [⟨"returns", "*"⟩]⟩ := by
  have hlines : ∀ line ∈ lookalikes, IsDocLine line := by
    have hplain : ∀ line ∈ lookalikes, '\n' ∉ line ∧ ¬ ['*', '/'] <:+: line ∧
        line.getLast?.all (!isBlank ·) = true := by decide +kernel
    intro line hline
    obtain ⟨hsingle, hopened, hlast⟩ := hplain line hline
    exact ⟨hsingle, hopened, fun c hc => by simpa [hc] using hlast⟩
  obtain ⟨range, ranges, hranges, rfl, -, -⟩ := written_block_reads_back hlines "*/ after".toList
  exact ⟨hlines, _, ranges, hranges, by decide +kernel⟩

end ApiDoc.Comment
