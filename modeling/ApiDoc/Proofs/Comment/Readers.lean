import ApiDoc.Doc.FileFacts
import ApiDoc.Proofs.Comment.Leading
import ApiDoc.Proofs.Program.WellFormed

/-!
# Who reads a doc block

A doc block has two readers.  A declaration takes the last block before it that does not describe the file
(`Locator.read`), and the file takes the blocks at the top of the text that do (`FileFacts.read`).  The first
passes over a block with a file marker wherever it stands, but the second looks at the top only: a block with a
marker further down has no reader (`license_block_unread`).  Every other block has one, and among the comments at
the top no block is without (`Locator.keeps_last_block`).
-/

namespace ApiDoc

namespace Comment

variable {text : List Char} {range : Range} {block : Block} {earlier : List Block}

/-- Among some comments the one at `range` is the last doc block; `earlier` are the doc blocks before it. -/
structure IsLastBlock (text : List Char) (ranges : List Range) (range : Range) (block : Block)
    (earlier : List Block) : Prop where
  /-- It is a doc block. -/
  content : Block.ofRange? text range = some block
  /-- It is one of the comments, and none behind it is a doc block. -/
  place : ∃ before after, ranges = before ++ range :: after ∧
    earlier = before.filterMap (Block.ofRange? text) ∧ ∀ other ∈ after, Block.ofRange? text other = none

/-- The doc block at `range` has a reader: the declaration at `pos`, or the file, which adds all its tags to
what the other leading blocks of the text say. -/
def Keeps (text : String) (pos : Nat) (range : Range) (block : Block) : Prop :=
  Locator.standard.read text pos = .ok (some block) ∨
    block.describesFile = true ∧ ∃ before after,
      leadingRanges? text.toList 0 = some (before ++ range :: after) ∧
      FileFacts.read .standard text = .ok
        ((after.filterMap (Block.ofRange? text.toList)).foldl .apply
          (block.tags.foldl .add ((before.filterMap (Block.ofRange? text.toList)).foldl .apply {})))

/-! ### Comments behind a leading comment -/

/-- A scan that finds a comment goes on behind it. -/
theorem scan_eq_nil_or_cons (offset : Nat) (cs : List Char) :
    scan offset cs = [] ∨ ∃ r passed rest, cs = passed ++ rest ∧ r.stop = offset + Text.byteLength passed ∧
      passed ≠ [] ∧ scan offset cs = r :: scan r.stop rest := by
  have hsplit := (List.takeWhile_append_dropWhile (p := isTrivia) (l := cs)).symm
  rw [scan]
  split
  next rest hcs =>
    have hline := (List.takeWhile_append_dropWhile (p := notLineFeed) (l := rest)).symm
    refine .inr ⟨_, cs.takeWhile isTrivia ++ '/' :: '/' :: rest.takeWhile notLineFeed,
      rest.dropWhile notLineFeed, ?_, ?_, by simp, rfl⟩
    · rw [List.append_assoc, List.cons_append, List.cons_append, ← hline, ← hcs]
      exact hsplit
    · simp [utf8Size_slash]
      omega
  next rest hcs =>
    split
    next body after hclose =>
      refine .inr ⟨_, cs.takeWhile isTrivia ++ '/' :: '*' :: (body ++ ['*', '/']), after, ?_, ?_, by simp, rfl⟩
      · rw [append_of_splitAtClose? hclose] at hcs
        simpa [hcs] using hsplit
      · simp [utf8Size_slash, utf8Size_star]
        omega
    next => exact .inl rfl
  next => exact .inl rfl

/-- What a scan finds behind one of its comments is what it finds from the end of that comment. -/
theorem scan_behind {offset : Nat} {cs : List Char} {before after : List Range}
    (h : scan offset cs = before ++ range :: after) :
    ∃ passed rest, cs = passed ++ rest ∧ range.stop = offset + Text.byteLength passed ∧ passed ≠ [] ∧
      scan range.stop rest = after := by
  induction before generalizing offset cs with
  | nil =>
    rcases scan_eq_nil_or_cons offset cs with hnil | ⟨r, passed, rest, hcs, hstop, hpassed, hscan⟩
    · simp [hnil] at h
    · obtain ⟨rfl, rfl⟩ : r = range ∧ scan r.stop rest = after := by simpa [hscan] using h
      exact ⟨passed, rest, hcs, hstop, hpassed, rfl⟩
  | cons first before ih =>
    rcases scan_eq_nil_or_cons offset cs with hnil | ⟨r, passed, rest, hcs, hstop, hpassed, hscan⟩
    · simp [hnil] at h
    · obtain ⟨rfl, hrest⟩ : r = first ∧ scan r.stop rest = before ++ range :: after := by
        simpa [hscan] using h
      obtain ⟨passed', rest', rfl, hstop', -, hafter⟩ := ih hrest
      refine ⟨passed ++ passed', rest', by simp [hcs], ?_, by simp [hpassed], hafter⟩
      rw [hstop', hstop, Text.byteLength_append, Nat.add_assoc]

/-- A byte order mark and a first line that starts with `#!` are passed over by their length. -/
theorem exists_header (text : List Char) : ∃ header rest, text = header ++ rest ∧
    leadingRanges? text 0 = some (scan (Text.byteLength header) rest) := by
  obtain ⟨mark, line, rest, hheader, hranges⟩ := exists_isHeader text
  exact ⟨mark ++ line, rest, by rw [hheader.text_eq, List.append_assoc], hranges⟩

/-- **The comments behind a leading comment lead as well.**  From the end of a comment at the top of a text the
comments that follow it there are found again. -/
theorem leadingRanges?_behind {before after : List Range}
    (h : leadingRanges? text 0 = some (before ++ range :: after)) :
    leadingRanges? text range.stop = some after := by
  obtain ⟨header, rest, rfl, hheader⟩ := exists_header text
  rw [hheader] at h
  obtain ⟨passed, rest, rfl, hstop, hpassed, hscan⟩ := scan_behind (Option.some.inj h)
  have hlen : range.stop = Text.byteLength (header ++ passed) := by rw [hstop, Text.byteLength_append]
  have hpos : 0 < Text.byteLength passed := by
    obtain ⟨c, cs, rfl⟩ := List.exists_cons_of_ne_nil hpassed
    have := c.utf8Size_pos
    rw [Text.byteLength_cons]
    omega
  have hmin : min range.stop (Text.byteLength (header ++ (passed ++ rest))) = range.stop := by
    simp only [hstop, Text.byteLength_append]
    omega
  rw [leadingRanges?, hmin]
  simp only [show range.stop ≠ 0 by omega, if_false]
  rw [Text.drop?_eq_map_split?, ← List.append_assoc, hlen, Text.split?_byteLength, ← hlen]
  exact congrArg some hscan

/-! ### The two readers -/

variable {text : String} {pos : Nat}

theorem blocksAt_eq {ranges : List Range} (h : leadingRanges? text.toList pos = some ranges) :
    Locator.standard.blocksAt text pos = .ok (ranges.filterMap (Block.ofRange? text.toList)) := by
  simp only [Locator.blocksAt, Locator.standard, h]
  rfl

/-- A declaration reads the last doc block before it if that does not describe the file, and otherwise the
nearest one before that. -/
theorem IsLastBlock.read {ranges : List Range} (h : IsLastBlock text.toList ranges range block earlier)
    (hranges : leadingRanges? text.toList pos = some ranges) :
    Locator.standard.read text pos = .ok
      (if block.describesFile then earlier.reverse.find? fun b => !b.describesFile else some block) := by
  obtain ⟨before, after, rfl, rfl, hafter⟩ := h.place
  have hnone : after.filterMap (Block.ofRange? text.toList) = [] :=
    List.filterMap_eq_nil_iff.2 hafter
  rw [Locator.read, blocksAt_eq hranges]
  simp [h.content, hnone, List.find?_cons]
  cases block.describesFile <;> rfl

/-- The file reads every block at the top of its text that describes it. -/
theorem keeps_of_mem {top : List Range} (htop : leadingRanges? text.toList 0 = some top) (hrange : range ∈ top)
    (hblock : Block.ofRange? text.toList range = some block) (hfile : block.describesFile = true) :
    Keeps text pos range block := by
  obtain ⟨before, after, rfl⟩ := List.append_of_mem hrange
  refine .inr ⟨hfile, before, after, htop, ?_⟩
  rw [FileFacts.read, blocksAt_eq htop]
  simp [hblock, FileFacts.apply, hfile]

/-- **A doc block is lost only if it describes the file where the file does not look.**  The last doc block
before a position has a reader exactly if it is free of file markers or stands at the top of the text.  A block
with a marker gives way to the nearest block before it that has none, and at the end of every comment at the top
of the text, as well as at its start, nothing is lost. -/
theorem keeps_last_block (text : String) {pos : Nat} (hpos : Text.IsBoundary text.toList pos) :
    ∃ ranges top, leadingRanges? text.toList pos = some ranges ∧ leadingRanges? text.toList 0 = some top ∧
      ∀ range block earlier, IsLastBlock text.toList ranges range block earlier →
        (Keeps text pos range block ↔ (block.describesFile = true → range ∈ top)) ∧
        Locator.standard.read text pos = .ok
          (if block.describesFile then earlier.reverse.find? fun b => !b.describesFile else some block) ∧
        ((pos = 0 ∨ ∃ r ∈ top, pos = r.stop) → Keeps text pos range block) := by
  obtain ⟨ranges, hranges⟩ := exists_leadingRanges hpos
  obtain ⟨top, htop⟩ : ∃ top, leadingRanges? text.toList 0 = some top :=
    exists_leadingRanges ⟨[], _, rfl, by simp⟩
  refine ⟨ranges, top, hranges, htop, fun range block earlier h => ?_⟩
  have hread := h.read hranges
  have hmem : range ∈ ranges := by
    obtain ⟨before, after, rfl, -⟩ := h.place
    simp
  have hkeeps : Keeps text pos range block ↔ (block.describesFile = true → range ∈ top) := by
    constructor
    · rintro (hown | ⟨-, before, after, htop', -⟩) hfile
      · -- what a declaration reads has no marker
        rw [hread, if_pos hfile] at hown
        have := List.find?_some (Except.ok.inj hown)
        simp [hfile] at this
      · obtain rfl := Option.some.inj (htop.symm.trans htop')
        simp
    · intro hfile
      by_cases hmarked : block.describesFile = true
      · exact keeps_of_mem htop (hfile hmarked) h.content hmarked
      · exact .inl (by rw [hread, if_neg hmarked])
  refine ⟨hkeeps, hread, fun hstart => hkeeps.2 fun _ => ?_⟩
  rcases hstart with rfl | ⟨r, hr, rfl⟩
  · obtain rfl := Option.some.inj (htop.symm.trans hranges)
    exact hmem
  · obtain ⟨before, after, rfl⟩ := List.append_of_mem hr
    obtain rfl := Option.some.inj ((leadingRanges?_behind htop).symm.trans hranges)
    exact List.mem_append_right _ (List.mem_cons_of_mem _ hmem)

/-! ### A block without a reader -/

/-- A declaration behind another, with a block that names a license. -/
def licensed : String := "const a\n/** Docs of b. @license MIT */\nconst b"

/-- Where the block stands. -/
def licensedRange : Range := ⟨8, 38, .block⟩

/-- What the block says. -/
def licensedBlock : Block := ⟨"Docs of b.", [⟨"license", "MIT"⟩]⟩

theorem boundary_licensed : Text.IsBoundary licensed.toList 7 :=
  ⟨"const a".toList, "\n/** Docs of b. @license MIT */\nconst b".toList, by decide +kernel, by decide +kernel⟩

theorem ranges_licensed : leadingRanges? licensed.toList 7 = some [licensedRange] := by decide +kernel

theorem top_licensed : leadingRanges? licensed.toList 0 = some [] := by decide +kernel

theorem last_licensed : IsLastBlock licensed.toList [licensedRange] licensedRange licensedBlock [] :=
  ⟨by decide +kernel, [], [], rfl, rfl, by simp⟩

/-- Neither the declaration behind the block nor the file reads it, although a doc block before a declaration
should reach one of them. -/
theorem license_block_unread :
    ¬ ∀ (text : String) (pos : Nat), Text.IsBoundary text.toList pos →
      ∀ ranges, leadingRanges? text.toList pos = some ranges →
        ∀ range block earlier, IsLastBlock text.toList ranges range block earlier → Keeps text pos range block := by
  intro h
  obtain hread | ⟨-, before, after, htop, -⟩ :=
    h licensed 7 boundary_licensed _ ranges_licensed _ _ _ last_licensed
  · have hnone : Locator.standard.read licensed 7 = .ok none := by decide +kernel
    simp [hnone] at hread
  · simp [top_licensed] at htop

/-- The block has a marker, and the declaration behind it is left without documentation. -/
theorem keeps_last_block_licensed :
    Text.IsBoundary licensed.toList 7 ∧ ¬ Keeps licensed 7 licensedRange licensedBlock ∧
      Locator.standard.read licensed 7 = .ok none := by
  obtain ⟨ranges, top, hranges, htop, h⟩ := keeps_last_block licensed boundary_licensed
  obtain rfl := Option.some.inj (ranges_licensed.symm.trans hranges)
  obtain rfl := Option.some.inj (top_licensed.symm.trans htop)
  obtain ⟨hkeeps, hread, -⟩ := h _ _ _ last_licensed
  have hfile : licensedBlock.describesFile = true := by decide +kernel
  refine ⟨boundary_licensed, fun hkept => ?_, ?_⟩
  · simpa using hkeeps.1 hkept hfile
  · simpa [hfile] using hread

end Comment

end ApiDoc
