import ApiDoc.Proofs.Failure.Knowledge
import ApiDoc.Resolve.Source
import ApiDoc.Text.Position
import Mathlib.Data.List.Induction
import Mathlib.Data.List.TakeWhile
import Mathlib.Data.Prod.Lex

/-!
# Places in a text

The line of an offset is the number of line feeds before it, and its column the number of characters behind the last of
them (`Text.lineCol_byteLength`).  So places follow each other as offsets do (`Text.lineCol_lt`), and the end of a span
never comes before its start.  Offsets inside a character have a line as well, and their column, counted in bytes, is a
difference of an offset and the start of its line, which is not behind it (`Text.lineCol_inside`).
-/

namespace ApiDoc

namespace Text

/-- The characters behind the last line feed. -/
def lastLine (cs : List Char) : List Char := (cs.reverse.takeWhile (· ≠ '\n')).reverse

/-- The starts of the lines that start at an offset or before it. -/
def startsUpTo (text : List Char) (offset : Nat) : List Nat := (lineStarts text).takeWhile (· ≤ offset)

variable {text before after : List Char} {c : Char} {m n offset : Nat}

/-! ### The last line -/

theorem lastLine_concat (cs : List Char) (c : Char) :
    lastLine (cs ++ [c]) = if c = '\n' then [] else lastLine cs ++ [c] := by
  by_cases h : c = '\n' <;> simp [lastLine, h]

/-- Characters without a line feed stay on the line. -/
theorem lastLine_append {line : List Char} (h : '\n' ∉ line) (cs : List Char) :
    lastLine (cs ++ line) = lastLine cs ++ line := by
  induction line using List.reverseRecOn with
  | nil => simp
  | append_singleton line c ih =>
    obtain ⟨hline, hc⟩ : '\n' ∉ line ∧ ¬ '\n' = c := by simpa using h
    rw [← List.append_assoc, lastLine_concat, if_neg (Ne.symm hc), ih hline, List.append_assoc]

/-! ### The starts of lines -/

theorem lineStartsFrom_append (offset : Nat) (as bs : List Char) :
    lineStartsFrom offset (as ++ bs) = lineStartsFrom offset as ++ lineStartsFrom (offset + byteLength as) bs := by
  induction as generalizing offset with
  | nil => simp [lineStartsFrom]
  | cons a as ih =>
    simp only [List.cons_append, lineStartsFrom, ih, byteLength_cons, Nat.add_assoc]
    split <;> rfl

/-- A line starts behind a line feed, so behind a character. -/
theorem lt_of_mem_lineStartsFrom {cs : List Char} (h : n ∈ lineStartsFrom offset cs) :
    offset < n ∧ n ≤ offset + byteLength cs := by
  induction cs generalizing offset with
  | nil => exact nomatch h
  | cons c cs ih =>
    have hc := c.utf8Size_pos
    have hrest (hn : n ∈ lineStartsFrom (offset + c.utf8Size) cs) :
        offset < n ∧ n ≤ offset + byteLength (c :: cs) := by
      have := ih hn
      rw [byteLength_cons]
      omega
    rw [lineStartsFrom] at h
    split at h
    · rcases List.mem_cons.1 h with rfl | hn
      · rw [byteLength_cons]
        omega
      · exact hrest hn
    · exact hrest h

theorem sorted_lineStartsFrom (offset : Nat) (cs : List Char) : (lineStartsFrom offset cs).Pairwise (· < ·) := by
  induction cs generalizing offset with
  | nil => exact .nil
  | cons c cs ih =>
    rw [lineStartsFrom]
    split
    · exact List.pairwise_cons.2 ⟨fun n hn => (lt_of_mem_lineStartsFrom hn).1, ih _⟩
    · exact ih _

theorem sorted_lineStarts (text : List Char) : (lineStarts text).Pairwise (· < ·) :=
  List.pairwise_cons.2 ⟨fun _ hn => (lt_of_mem_lineStartsFrom hn).1, sorted_lineStartsFrom 0 text⟩

theorem length_lineStartsFrom (offset : Nat) (cs : List Char) : (lineStartsFrom offset cs).length = cs.count '\n' := by
  induction cs generalizing offset with
  | nil => rfl
  | cons c cs ih =>
    rw [lineStartsFrom]
    split
    · next h => simp [ih, h]
    · next h => simp [ih, h]

/-- There is one line more than there are line feeds. -/
theorem length_lineStarts (cs : List Char) : (lineStarts cs).length = cs.count '\n' + 1 := by
  rw [lineStarts, List.length_cons, length_lineStartsFrom]

/-- The last line starts as many bytes before the end as it has. -/
theorem getLastD_lineStarts (cs : List Char) :
    (lineStarts cs).getLastD 0 + byteLength (lastLine cs) = byteLength cs := by
  induction cs using List.reverseRecOn with
  | nil => rfl
  | append_singleton cs c ih =>
    rw [lineStarts, lineStartsFrom_append, lastLine_concat]
    by_cases h : c = '\n'
    · rw [h, if_pos rfl, lineStartsFrom, if_pos rfl, lineStartsFrom, ← List.cons_append, List.getLastD_concat]
      simp
    · simp only [lineStartsFrom, if_neg h, List.append_nil, byteLength_append, ← Nat.add_assoc]
      exact congrArg (· + byteLength [c]) ih

/-- **The lines that start up to an offset are the lines of what stands before it.** -/
theorem startsUpTo_append (hbefore : byteLength before ≤ offset)
    (hafter : ∀ c ∈ after.head?, offset < byteLength before + c.utf8Size) :
    startsUpTo (before ++ after) offset = lineStarts before := by
  -- a line that starts later does so behind the character at the offset
  have hlater : ∀ n ∈ lineStartsFrom (0 + byteLength before) after, offset < n := by
    intro n hn
    cases after with
    | nil => exact nomatch hn
    | cons c after =>
      have hc := hafter c rfl
      rw [lineStartsFrom] at hn
      split at hn
      · rcases List.mem_cons.1 hn with rfl | hn
        · omega
        · have := lt_of_mem_lineStartsFrom hn
          omega
      · have := lt_of_mem_lineStartsFrom hn
        omega
  have hearlier : ∀ n ∈ lineStarts before, n ≤ offset := by
    intro n hn
    rcases List.mem_cons.1 hn with rfl | hn
    · exact Nat.zero_le _
    · have := lt_of_mem_lineStartsFrom hn
      omega
  have hsplit : lineStarts (before ++ after) =
      lineStarts before ++ lineStartsFrom (0 + byteLength before) after := by
    rw [lineStarts, lineStartsFrom_append]
    rfl
  rw [startsUpTo, hsplit, List.takeWhile_append_of_pos fun n hn => by simpa using hearlier n hn]
  have hnone : (lineStartsFrom (0 + byteLength before) after).takeWhile (· ≤ offset) = [] := by
    rw [List.takeWhile_eq_nil_iff]
    intro hlen
    have := hlater _ (List.getElem_mem hlen)
    simpa using this
  rw [hnone, List.append_nil]

/-! ### Lines and columns -/

theorem lineCol_eq (hoffset : offset ≤ byteLength text) : lineCol text offset =
    ((startsUpTo text offset).length - 1, match slice? text ((startsUpTo text offset).getLastD 0) offset with
      | some chars => chars.length
      | none => offset - (startsUpTo text offset).getLastD 0) := by
  rw [lineCol, Nat.min_eq_left hoffset]
  rfl

/-- An offset behind the end counts as the end. -/
theorem lineCol_min (text : List Char) (offset : Nat) :
    lineCol text (min offset (byteLength text)) = lineCol text offset := by
  simp only [lineCol, Nat.min_assoc, Nat.min_self]

/-- The front of a text up to its last line. -/
theorem exists_front (cs : List Char) : ∃ front, cs = front ++ lastLine cs := by
  induction cs using List.reverseRecOn with
  | nil => exact ⟨[], rfl⟩
  | append_singleton cs c ih =>
    rw [lastLine_concat]
    split
    · exact ⟨cs ++ [c], (List.append_nil _).symm⟩
    · obtain ⟨front, hfront⟩ := ih
      exact ⟨front, by rw [← List.append_assoc, ← hfront]⟩

/-- **The place between two characters**: as many lines down as there are line feeds before it, and as many columns
along as there are characters behind the last of them. -/
theorem lineCol_byteLength (before after : List Char) :
    lineCol (before ++ after) (byteLength before) = (before.count '\n', (lastLine before).length) := by
  have hstarts : startsUpTo (before ++ after) (byteLength before) = lineStarts before :=
    startsUpTo_append (Nat.le_refl _) fun c _ => Nat.lt_add_of_pos_right c.utf8Size_pos
  obtain ⟨front, hfront⟩ := exists_front before
  have hstart : (lineStarts before).getLastD 0 = byteLength front := by
    have hlast := getLastD_lineStarts before
    have hbytes := congrArg byteLength hfront
    rw [byteLength_append] at hbytes
    omega
  have hslice : slice? (before ++ after) (byteLength front) (byteLength before) = some (lastLine before) := by
    have hmiddle := slice?_byteLength front (lastLine before) after
    rwa [← List.append_assoc, ← hfront] at hmiddle
  rw [lineCol_eq (by simp), hstarts, length_lineStarts, hstart, hslice]
  rfl

/-- No beginning of a text ends inside of a character. -/
theorem byteLength_ne_inside {front rest : List Char} (hbefore : byteLength before < offset)
    (hafter : offset < byteLength before + c.utf8Size) (h : before ++ c :: after = front ++ rest) :
    byteLength front ≠ offset := by
  rcases List.append_eq_append_iff.1 h with ⟨more, rfl, hmore⟩ | ⟨more, rfl, -⟩
  · cases more with
    | nil => simpa using Nat.ne_of_lt hbefore
    | cons c' more =>
      obtain ⟨rfl, -⟩ := List.cons.inj hmore
      simp only [byteLength_append, byteLength_cons]
      omega
  · rw [byteLength_append] at hbefore
    omega

/-- **An offset inside a character** is on the line of the character, and its column counts the bytes from the start of
the line, which is not behind it. -/
theorem lineCol_inside (hbefore : byteLength before < offset) (hafter : offset < byteLength before + c.utf8Size) :
    (lineCol (before ++ c :: after) offset).1 = before.count '\n' ∧
      (lineCol (before ++ c :: after) offset).2 + (lineStarts before).getLastD 0 = offset := by
  have hstarts : startsUpTo (before ++ c :: after) offset = lineStarts before :=
    startsUpTo_append (Nat.le_of_lt hbefore) fun c' hc' => by
      obtain rfl : c = c' := by simpa using hc'
      exact hafter
  have hstart : (lineStarts before).getLastD 0 ≤ byteLength before := by
    have := getLastD_lineStarts before
    omega
  have hslice : slice? (before ++ c :: after) ((lineStarts before).getLastD 0) offset = none := by
    rw [Option.eq_none_iff_forall_ne_some]
    intro part hpart
    obtain ⟨front, rest, htext, -, hstop⟩ := exists_append_of_slice? hpart
    exact byteLength_ne_inside hbefore hafter (by rw [htext, List.append_assoc]) hstop
  rw [lineCol_eq (by simp; omega), hstarts, length_lineStarts, hslice]
  exact ⟨rfl, Nat.sub_add_cancel (by omega)⟩

/-! ### Order -/

/-- Every offset up to the end stands behind a character and before another, or inside of one. -/
theorem exists_before (h : offset ≤ byteLength text) : ∃ before after, text = before ++ after ∧
    byteLength before ≤ offset ∧ ∀ c ∈ after.head?, offset < byteLength before + c.utf8Size := by
  induction text generalizing offset with
  | nil => exact ⟨[], [], rfl, Nat.zero_le _, nofun⟩
  | cons c cs ih =>
    by_cases hc : c.utf8Size ≤ offset
    · rw [byteLength_cons] at h
      obtain ⟨before, after, rfl, hbefore, hafter⟩ := ih (show offset - c.utf8Size ≤ byteLength cs by omega)
      refine ⟨c :: before, after, rfl, by rw [byteLength_cons]; omega, fun c' hc' => ?_⟩
      have := hafter c' hc'
      rw [byteLength_cons]
      omega
    · exact ⟨[], c :: cs, rfl, Nat.zero_le _, fun c' hc' => by
        obtain rfl : c = c' := by simpa using hc'
        simpa using hc⟩

/-- The line of an offset starts there or before it. -/
theorem startsUpTo_bounds (h : offset ≤ byteLength text) :
    0 < (startsUpTo text offset).length ∧ (startsUpTo text offset).getLastD 0 ≤ offset := by
  obtain ⟨before, after, rfl, hbefore, hafter⟩ := exists_before h
  rw [startsUpTo_append hbefore hafter, length_lineStarts]
  have := getLastD_lineStarts before
  omega

/-- More characters are further along. -/
theorem place_lt_append {more : List Char} (h : more ≠ []) (before : List Char) :
    toLex (before.count '\n', (lastLine before).length) <
      toLex ((before ++ more).count '\n', (lastLine (before ++ more)).length) := by
  rw [Prod.Lex.toLex_lt_toLex]
  by_cases hline : '\n' ∈ more
  · have := List.count_pos_iff.2 hline
    exact .inl (by simpa using this)
  · refine .inr ⟨by simp [List.count_eq_zero_of_not_mem hline], ?_⟩
    rw [lastLine_append hline, List.length_append]
    exact Nat.lt_add_of_pos_right (List.length_pos_iff.2 h)

/-- **Places follow each other as offsets do**, as far as these are between characters. -/
theorem lineCol_lt (hm : IsBoundary text m) (hn : IsBoundary text n)
    (h : min m (byteLength text) < min n (byteLength text)) :
    toLex (lineCol text m) < toLex (lineCol text n) := by
  obtain ⟨before, after, rfl, hbefore⟩ := hm
  obtain ⟨before', after', htext, hbefore'⟩ := hn
  rw [← lineCol_min _ m, ← lineCol_min _ n, ← hbefore, ← hbefore', lineCol_byteLength]
  rw [← hbefore, ← hbefore'] at h
  rcases List.append_eq_append_iff.1 htext with ⟨more, rfl, rfl⟩ | ⟨more, rfl, -⟩
  · rw [← List.append_assoc, lineCol_byteLength]
    refine place_lt_append (fun hmore => ?_) before
    simp [hmore] at h
  · rw [byteLength_append] at h
    omega

theorem toLex_lineCol_lt_iff (hm : IsBoundary text m) (hn : IsBoundary text n) :
    toLex (lineCol text m) < toLex (lineCol text n) ↔ min m (byteLength text) < min n (byteLength text) := by
  refine ⟨fun h => ?_, lineCol_lt hm hn⟩
  by_contra hnot
  rcases Nat.lt_or_eq_of_le (Nat.le_of_not_lt hnot) with hlt | heq
  · exact lt_asymm h (lineCol_lt hn hm hlt)
  · rw [← lineCol_min text m, ← lineCol_min text n, heq] at h
    exact lt_irrefl _ h

/-- Different places between characters have different lines or columns. -/
theorem lineCol_eq_iff (hm : IsBoundary text m) (hn : IsBoundary text n) :
    lineCol text m = lineCol text n ↔ min m (byteLength text) = min n (byteLength text) := by
  constructor
  · intro h
    have hlt := mt (toLex_lineCol_lt_iff hm hn).2 (h ▸ lt_irrefl _)
    have hgt := mt (toLex_lineCol_lt_iff hn hm).2 (h ▸ lt_irrefl _)
    omega
  · intro h
    rw [← lineCol_min text m, ← lineCol_min text n, h]

end Text

namespace Environment

variable {env : Environment}

/-- Where a declaration is said to be. -/
theorem location_eq_ok {n : NodeId} {l : Location} (h : env.location n = .ok l) : ∃ file span text,
    env.checker.nodeFile n = .ok file ∧ env.checker.nodeSpan n = .ok span ∧ env.checker.fileText file = .ok text ∧
      (l.line, l.col) = Text.lineCol text.toList span.start ∧
      (l.endLine, l.endCol) = Text.lineCol text.toList span.stop := by
  obtain ⟨file, hfile, h⟩ := bind_eq_ok_iff.1 h
  obtain ⟨span, hspan, h⟩ := bind_eq_ok_iff.1 h
  obtain ⟨text, htext, h⟩ := bind_eq_ok_iff.1 h
  obtain ⟨name, -, h⟩ := bind_eq_ok_iff.1 h
  obtain rfl := Except.ok.inj h
  exact ⟨file, span, text, hfile, hspan, htext, rfl, rfl⟩

end Environment

namespace Text

/-- **Places are exact and in order**, for every text and every offset, an offset behind the end counting as the end.
Between characters, a place is the number of line feeds before it and the number of characters behind the last of them,
and such places are ordered as their offsets are, so that the end of a span is not before its start.  Inside of a
character the line is still the number of line feeds before it.  The search finds a line, and one that starts at the
offset or before it, so that nothing is subtracted that is not there. -/
theorem positions_exact :
    (∀ text, (lineStarts text).Pairwise (· < ·)) ∧
    (∀ text offset, 0 < (startsUpTo text (min offset (byteLength text))).length ∧
      (startsUpTo text (min offset (byteLength text))).getLastD 0 ≤ min offset (byteLength text)) ∧
    (∀ before after offset, byteLength before = min offset (byteLength (before ++ after)) →
      lineCol (before ++ after) offset = (before.count '\n', (lastLine before).length)) ∧
    (∀ before (c : Char) after offset, byteLength before < offset → offset < byteLength before + c.utf8Size →
      (lineCol (before ++ c :: after) offset).1 = before.count '\n' ∧
      (lineCol (before ++ c :: after) offset).2 + byteLength before = offset + byteLength (lastLine before)) ∧
    (∀ text m n, IsBoundary text m → IsBoundary text n →
      (toLex (lineCol text m) < toLex (lineCol text n) ↔ min m (byteLength text) < min n (byteLength text)) ∧
      (lineCol text m = lineCol text n ↔ min m (byteLength text) = min n (byteLength text))) ∧
    ∀ (env : Environment) (n : NodeId) (l : Location), env.location n = .ok l → ∃ file span text,
      env.checker.nodeFile n = .ok file ∧ env.checker.nodeSpan n = .ok span ∧ env.checker.fileText file = .ok text ∧
      (l.line, l.col) = lineCol text.toList span.start ∧ (l.endLine, l.endCol) = lineCol text.toList span.stop ∧
      (span.start ≤ span.stop → IsBoundary text.toList span.start → IsBoundary text.toList span.stop →
        toLex (l.line, l.col) ≤ toLex (l.endLine, l.endCol)) := by
  refine ⟨sorted_lineStarts, fun text offset => startsUpTo_bounds (Nat.min_le_right ..), ?_, ?_,
    fun text m n hm hn => ⟨toLex_lineCol_lt_iff hm hn, lineCol_eq_iff hm hn⟩, ?_⟩
  · intro before after offset hoffset
    rw [← lineCol_min, ← hoffset, lineCol_byteLength]
  · intro before c after offset hbefore hafter
    obtain ⟨hline, hcol⟩ := lineCol_inside hbefore hafter
    have := getLastD_lineStarts before
    exact ⟨hline, by omega⟩
  · intro env n l hl
    obtain ⟨file, span, text, hfile, hspan, htext, hstart, hstop⟩ := Environment.location_eq_ok hl
    refine ⟨file, span, text, hfile, hspan, htext, hstart, hstop, fun hle hstart' hstop' => ?_⟩
    rw [hstart, hstop, ← not_lt, toLex_lineCol_lt_iff hstop' hstart']
    omega

/-- Behind a line feed and a character of two bytes, and inside of that character. -/
example : lineCol "a\né b".toList 4 = (1, 1) ∧ lineCol "a\né b".toList 3 = (1, 1) ∧
    lineCol "a\né b".toList 2 = (1, 0) ∧ lineCol "a\né b".toList 9 = (1, 3) := by decide

end Text

end ApiDoc
