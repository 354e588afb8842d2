import ApiDoc.Comment.Range
import ApiDoc.Proofs.Failure.Knowledge
import Mathlib.Data.List.TakeWhile

/-!
# What the scan for leading comments finds

The text behind a position falls into comments with nothing but trivia between them, up to the first place that
starts neither trivia nor a whole comment.  `Decomposes` says so of byte offsets, each of which stands between two
characters, and there is only one such way to divide a text (`Decomposes.unique`).  `scan_decomposes` follows the
scan from one comment to the next, and so the scan finds that way (`comments_decompose_trivia`).
-/

namespace ApiDoc.Comment

open Text

variable {text : List Char} {pos start stop : Nat} {ranges : List Range} {range : Range}

/-! ### The parts of a text -/

/-- What follows a line is nothing, or a line feed. -/
def EndsLine (rest : List Char) : Prop := rest = [] ∨ rest.head? = some '\n'

/-- Between two byte offsets of a text there is nothing but trivia. -/
def IsGap (text : List Char) (start stop : Nat) : Prop :=
  ∃ gap, slice? text start stop = some gap ∧ ∀ c ∈ gap, isTrivia c = true

/-- A range of a text that is one comment. -/
inductive IsComment (text : List Char) : Range → Prop
  /-- Two slashes with what follows them on their line. -/
  | line {start : Nat} {body rest : List Char} : drop? text start = some ('/' :: '/' :: (body ++ rest)) →
      '\n' ∉ body → EndsLine rest → IsComment text ⟨start, start + 2 + byteLength body, .line⟩
  /-- A slash and a star with what follows them up to the first star and slash, these included. -/
  | block {start : Nat} {body rest : List Char} :
      drop? text start = some ('/' :: '*' :: (body ++ '*' :: '/' :: rest)) →
      (∀ before after, body ++ '*' :: '/' :: rest = before ++ '*' :: '/' :: after →
        body.length ≤ before.length) →
      IsComment text ⟨start, start + 2 + byteLength body + 2, .block⟩

/-- A text that starts neither with trivia nor with a whole comment. -/
structure IsToken (rest : List Char) : Prop where
  trivia : ∀ c, rest.head? = some c → isTrivia c = false
  line : ∀ after, rest ≠ '/' :: '/' :: after
  block : ∀ body after, rest ≠ '/' :: '*' :: (body ++ '*' :: '/' :: after)

/-- From one byte offset of a text on there are some comments with trivia before each of them, and then trivia up
to the other offset, where a token or the end of the text stands. -/
inductive Decomposes (text : List Char) : Nat → List Range → Nat → Prop
  | nil {start stop : Nat} {rest : List Char} : IsGap text start stop → drop? text stop = some rest →
      IsToken rest → Decomposes text start [] stop
  | cons {start stop : Nat} {range : Range} {ranges : List Range} : IsGap text start range.start →
      IsComment text range → Decomposes text range.stop ranges stop →
      Decomposes text start (range :: ranges) stop

/-- A text with a byte order mark and a first line that starts with `#!`, where it has them. -/
structure IsHeader (text mark line rest : List Char) : Prop where
  text_eq : text = mark ++ (line ++ rest)
  mark : mark = [byteOrderMark] ∨ mark = [] ∧ (line ++ rest).head? ≠ some byteOrderMark
  line : (∃ body, line = '#' :: '!' :: body ∧ '\n' ∉ body ∧ EndsLine rest) ∨
    line = [] ∧ ¬ ['#', '!'] <+: rest

/-- Where the trivia behind a position start: at the position, or behind the header if that is the start of the
text. -/
def StartsAt (text : List Char) (pos start : Nat) : Prop :=
  (min pos (byteLength text) ≠ 0 → start = min pos (byteLength text)) ∧
    (min pos (byteLength text) = 0 → ∃ mark line rest, IsHeader text mark line rest ∧
      start = byteLength (mark ++ line))

/-! ### Closing a block -/

theorem append_of_splitAtClose? {cs body rest : List Char} (h : splitAtClose? cs = some (body, rest)) :
    cs = body ++ '*' :: '/' :: rest := by
  fun_induction splitAtClose? cs generalizing body with
  | case1 => simp at h
  | case2 r =>
    obtain ⟨rfl, rfl⟩ : [] = body ∧ r = rest := by simpa using h
    rfl
  | case3 c r _ ih =>
    obtain ⟨⟨b, a⟩, hba, heq⟩ := Option.map_eq_some_iff.1 h
    obtain ⟨rfl, rfl⟩ : c :: b = body ∧ a = rest := by simpa using heq
    rw [ih hba]
    rfl

/-- Where a star and a slash stand a block is closed, there or earlier. -/
theorem exists_splitAtClose? {cs before after : List Char} (h : cs = before ++ '*' :: '/' :: after) :
    ∃ body rest, splitAtClose? cs = some (body, rest) ∧ body.length ≤ before.length := by
  fun_induction splitAtClose? cs generalizing before with
  | case1 => simp at h
  | case2 r => exact ⟨[], r, rfl, Nat.zero_le _⟩
  | case3 c r hc ih =>
    cases before with
    | nil =>
      obtain ⟨rfl, rfl⟩ : c = '*' ∧ r = '/' :: after := by simpa using h
      exact (hc after rfl rfl).elim
    | cons b before =>
      obtain ⟨rfl, rfl⟩ : c = b ∧ r = before ++ '*' :: '/' :: after := by simpa using h
      obtain ⟨body, rest, hsplit, hlength⟩ := ih rfl
      exact ⟨c :: body, rest, by rw [hsplit]; rfl, Nat.succ_le_succ hlength⟩

/-! ### The scan decomposes the text -/

theorem utf8Size_slash : '/'.utf8Size = 1 := rfl

theorem utf8Size_star : '*'.utf8Size = 1 := rfl

theorem not_mem_takeWhile_notLineFeed (cs : List Char) : '\n' ∉ cs.takeWhile notLineFeed := by
  intro h
  have := List.mem_takeWhile_imp h
  simp [notLineFeed] at this

theorem endsLine_dropWhile (cs : List Char) : EndsLine (cs.dropWhile notLineFeed) := by
  have hhead := List.head?_dropWhile_not notLineFeed cs
  cases hrest : cs.dropWhile notLineFeed with
  | nil => exact .inl rfl
  | cons c rest =>
    rw [hrest] at hhead
    exact .inr (by simpa [notLineFeed] using hhead)

/-- The trivia at the front of a text are a gap, and what follows them stands behind it. -/
theorem isGap_takeWhile (before : List Char) {cs rest : List Char} (hrest : cs.dropWhile isTrivia = rest) :
    IsGap (before ++ cs) (byteLength before) (byteLength (before ++ cs.takeWhile isTrivia)) ∧
      before ++ cs = (before ++ cs.takeWhile isTrivia) ++ rest ∧
      drop? (before ++ cs) (byteLength (before ++ cs.takeWhile isTrivia)) = some rest := by
  have hcs := List.takeWhile_append_dropWhile (p := isTrivia) (l := cs)
  rw [hrest] at hcs
  have htext : before ++ cs = before ++ (cs.takeWhile isTrivia ++ rest) := congrArg (before ++ ·) hcs.symm
  refine ⟨⟨cs.takeWhile isTrivia, ?_, fun c hc => List.mem_takeWhile_imp hc⟩, ?_, ?_⟩
  · rw [htext]
    exact slice?_byteLength _ _ _
  · rw [htext, List.append_assoc]
  · rw [htext, ← List.append_assoc]
    exact drop?_byteLength _ _

/-- From a known beginning on, what the scan finds decomposes the text. -/
theorem scan_decomposes (before cs : List Char) {offset : Nat} (hoffset : offset = byteLength before) :
    ∃ stop, Decomposes (before ++ cs) offset (scan offset cs) stop := by
  fun_induction scan offset cs generalizing before with
  | case1 offset cs start rest hrest stop ih =>
    -- a line comment: it ends in front of the line feed, from where the scan goes on
    subst hoffset
    obtain ⟨hgap, htext, hdrop⟩ := isGap_takeWhile before hrest
    have hstart : start = byteLength (before ++ cs.takeWhile isTrivia) := (byteLength_append _ _).symm
    have hsplit := List.takeWhile_append_dropWhile (p := notLineFeed) (l := rest)
    have hstop : stop = byteLength (before ++ cs.takeWhile isTrivia ++ '/' :: '/' :: rest.takeWhile notLineFeed) := by
      simp [stop, start, utf8Size_slash]
      omega
    obtain ⟨last, hlast⟩ := ih _ hstop
    rw [List.append_assoc _ (_ :: _), List.cons_append, List.cons_append, hsplit, ← htext] at hlast
    rw [← hsplit, ← hstart] at hdrop
    have hcomment := IsComment.line hdrop (not_mem_takeWhile_notLineFeed rest) (endsLine_dropWhile rest)
    exact ⟨last, .cons (hstart ▸ hgap) hcomment hlast⟩
  | case2 offset cs start rest hrest body after hclose stop ih =>
    -- a block comment: it ends with the first closing delimiter
    subst hoffset
    obtain ⟨hgap, htext, hdrop⟩ := isGap_takeWhile before hrest
    have hstart : start = byteLength (before ++ cs.takeWhile isTrivia) := (byteLength_append _ _).symm
    have hsplit := append_of_splitAtClose? hclose
    have hstop : stop = byteLength (before ++ cs.takeWhile isTrivia ++ '/' :: '*' :: (body ++ ['*', '/'])) := by
      simp [stop, start, utf8Size_slash, utf8Size_star]
      omega
    have hbehind : before ++ cs.takeWhile isTrivia ++ '/' :: '*' :: (body ++ ['*', '/']) ++ after = before ++ cs := by
      rw [htext, hsplit]
      simp
    obtain ⟨last, hlast⟩ := ih _ hstop
    rw [hbehind] at hlast
    rw [hsplit, ← hstart] at hdrop
    refine ⟨last, .cons (hstart ▸ hgap) (.block hdrop fun first others hfirst => ?_) hlast⟩
    obtain ⟨body', after', hclose', hlength⟩ := exists_splitAtClose? hfirst
    rw [← hsplit, hclose] at hclose'
    obtain ⟨rfl, rfl⟩ := Prod.mk.inj (Option.some.inj hclose')
    exact hlength
  | case3 offset cs rest hrest hclose =>
    -- a block that nothing closes is no comment, and the scan stops in front of it
    subst hoffset
    obtain ⟨hgap, -, hdrop⟩ := isGap_takeWhile before hrest
    refine ⟨_, .nil hgap hdrop ⟨?_, ?_, ?_⟩⟩
    · rintro c ⟨⟩
      decide
    · rintro after ⟨⟩
    · rintro body after h
      obtain ⟨_, _, hclose', -⟩ := exists_splitAtClose? (List.cons.inj (List.cons.inj h).2).2
      rw [hclose] at hclose'
      exact nomatch hclose'
  | case4 offset cs hline hblock =>
    -- neither a comment nor a blank follows
    subst hoffset
    obtain ⟨hgap, -, hdrop⟩ := isGap_takeWhile before (rfl : cs.dropWhile isTrivia = _)
    refine ⟨_, .nil hgap hdrop ⟨fun c hc => ?_, hline, fun body after => hblock _⟩⟩
    have hhead := List.head?_dropWhile_not isTrivia cs
    rwa [hc] at hhead

/-! ### Where it starts -/

theorem skipMark_eq (text : List Char) : ∃ mark rest, skipMark text = (byteLength mark, rest) ∧
    text = mark ++ rest ∧ (mark = [byteOrderMark] ∨ mark = [] ∧ rest.head? ≠ some byteOrderMark) := by
  unfold skipMark
  split
  next c rest =>
    split
    next hmark =>
      obtain rfl : c = byteOrderMark := by simpa using hmark
      exact ⟨[byteOrderMark], rest, by simp, rfl, .inl rfl⟩
    next hmark => exact ⟨[], c :: rest, rfl, rfl, .inr ⟨rfl, by simpa using hmark⟩⟩
  next => exact ⟨[], [], rfl, rfl, .inr ⟨rfl, by simp⟩⟩

theorem skipShebang_eq (offset : Nat) (text : List Char) : ∃ line rest,
    skipShebang offset text = (offset + byteLength line, rest) ∧ text = line ++ rest ∧
      ((∃ body, line = '#' :: '!' :: body ∧ '\n' ∉ body ∧ EndsLine rest) ∨
        line = [] ∧ ¬ ['#', '!'] <+: rest) := by
  unfold skipShebang
  split
  next cs =>
    refine ⟨_, _, rfl, List.takeWhile_append_dropWhile.symm, .inl ⟨cs.takeWhile notLineFeed, rfl, ?_, ?_⟩⟩
    · exact not_mem_takeWhile_notLineFeed cs
    · exact endsLine_dropWhile cs
  next hother =>
    refine ⟨[], text, rfl, rfl, .inr ⟨rfl, ?_⟩⟩
    rintro ⟨rest, rfl⟩
    exact hother rest rfl

/-- A text has a header, and the scan from its start is one from behind the header. -/
theorem exists_isHeader (text : List Char) : ∃ mark line rest, IsHeader text mark line rest ∧
    leadingRanges? text 0 = some (scan (byteLength (mark ++ line)) rest) := by
  obtain ⟨mark, afterMark, hskip, rfl, hmark⟩ := skipMark_eq text
  obtain ⟨line, rest, hskipLine, rfl, hline⟩ := skipShebang_eq (byteLength mark) afterMark
  refine ⟨mark, line, rest, ⟨rfl, hmark, hline⟩, ?_⟩
  simp [leadingRanges?, hskip, hskipLine]

/-- At a position between characters there are leading comments, and they decompose the text from where they
start. -/
theorem exists_decomposes (hpos : IsBoundary text pos) : ∃ ranges start stop,
    leadingRanges? text pos = some ranges ∧ StartsAt text pos start ∧ Decomposes text start ranges stop := by
  obtain ⟨before, after, rfl, hlength⟩ := hpos
  by_cases hzero : byteLength before = 0
  · obtain ⟨mark, line, rest, hheader, hranges⟩ := exists_isHeader (before ++ after)
    obtain ⟨stop, hstop⟩ := scan_decomposes (mark ++ line) rest rfl
    rw [List.append_assoc, ← hheader.text_eq] at hstop
    refine ⟨_, _, stop, ?_, ⟨fun h => absurd (hlength ▸ hzero) h, fun _ => ⟨mark, line, rest, hheader, rfl⟩⟩, hstop⟩
    rw [← hranges]
    simp only [leadingRanges?, ← hlength, hzero, Nat.zero_min]
  · obtain ⟨stop, hstop⟩ := scan_decomposes before after rfl
    refine ⟨_, _, stop, ?_, ⟨fun _ => hlength, fun h => absurd (hlength.trans h) hzero⟩, hstop⟩
    simp only [leadingRanges?, ← hlength, hzero, if_false, drop?_byteLength]
    rfl

/-! ### There is one decomposition -/

/-- A line ends in one place. -/
theorem eq_of_endsLine {body rest body' rest' : List Char} (h : body ++ rest = body' ++ rest')
    (hbody : '\n' ∉ body) (hrest : EndsLine rest) (hbody' : '\n' ∉ body') (hrest' : EndsLine rest') :
    body = body' := by
  have hline {body rest : List Char} (hbody : '\n' ∉ body) (hrest : EndsLine rest) :
      (body ++ rest).takeWhile notLineFeed = body := by
    refine takeWhile_append_of_head? (fun c hc => ?_) fun c hc => ?_
    · simpa [notLineFeed] using ne_of_mem_of_not_mem hc hbody
    · rcases hrest with rfl | hrest
      · exact nomatch hc
      · obtain rfl := Option.some.inj (hc.symm.trans hrest)
        rfl
  rw [← hline hbody hrest, h, hline hbody' hrest']

theorem IsHeader.unique {mark line rest mark' line' rest' : List Char} (h : IsHeader text mark line rest)
    (h' : IsHeader text mark' line' rest') : mark ++ line = mark' ++ line' := by
  have htext := h.text_eq.symm.trans h'.text_eq
  obtain rfl : mark = mark' := by
    rcases h.mark with rfl | ⟨rfl, hmark⟩ <;> rcases h'.mark with rfl | ⟨rfl, hmark'⟩
    · rfl
    · exact (hmark' (by rw [← List.nil_append (line' ++ rest'), ← htext]; rfl)).elim
    · exact (hmark (by rw [← List.nil_append (line ++ rest), htext]; rfl)).elim
    · rfl
  have hrest := List.append_cancel_left htext
  congr 1
  rcases h.line with ⟨body, rfl, hbody, hend⟩ | ⟨rfl, hline⟩ <;>
    rcases h'.line with ⟨body', rfl, hbody', hend'⟩ | ⟨rfl, hline'⟩
  · rw [eq_of_endsLine (List.cons.inj (List.cons.inj hrest).2).2 hbody hend hbody' hend']
  · exact (hline' ⟨body ++ rest, hrest⟩).elim
  · exact (hline ⟨body' ++ rest', hrest.symm⟩).elim
  · rfl

theorem StartsAt.unique {start' : Nat} (h : StartsAt text pos start) (h' : StartsAt text pos start') :
    start = start' := by
  by_cases hzero : min pos (byteLength text) = 0
  · obtain ⟨mark, line, rest, hheader, rfl⟩ := h.2 hzero
    obtain ⟨mark', line', rest', hheader', rfl⟩ := h'.2 hzero
    rw [hheader.unique hheader']
  · rw [h.1 hzero, h'.1 hzero]

/-- A gap ends in one place with something behind it that is not trivia. -/
theorem IsGap.unique {stop' : Nat} {rest rest' : List Char} (h : IsGap text start stop)
    (h' : IsGap text start stop') (hdrop : drop? text stop = some rest) (hdrop' : drop? text stop' = some rest')
    (hrest : ∀ c, rest.head? = some c → isTrivia c = false)
    (hrest' : ∀ c, rest'.head? = some c → isTrivia c = false) : stop = stop' := by
  obtain ⟨gap, hslice, hgap⟩ := h
  obtain ⟨gap', hslice', hgap'⟩ := h'
  obtain ⟨before, after, rfl, hlength, rfl⟩ := exists_append_of_slice? hslice
  obtain ⟨before', after', htext, rfl, rfl⟩ := exists_append_of_slice? hslice'
  obtain ⟨rfl, hbehind⟩ := eq_of_byteLength_eq htext hlength
  rw [htext, ← List.append_assoc, drop?_byteLength] at hdrop'
  rw [← List.append_assoc, drop?_byteLength] at hdrop
  obtain rfl := Option.some.inj hdrop
  obtain rfl := Option.some.inj hdrop'
  have hsame : gap = gap' := by
    rw [← takeWhile_append_of_head? hgap hrest, hbehind, takeWhile_append_of_head? hgap' hrest']
  rw [hsame]

theorem IsComment.exists_drop? (h : IsComment text range) :
    ∃ rest, drop? text range.start = some rest ∧ (∀ c, rest.head? = some c → isTrivia c = false) ∧
      ¬ IsToken rest := by
  cases h with
  | line hdrop _ _ =>
    refine ⟨_, hdrop, ?_, fun htoken => htoken.line _ rfl⟩
    rintro c ⟨⟩
    decide
  | block hdrop _ =>
    refine ⟨_, hdrop, ?_, fun htoken => htoken.block _ _ rfl⟩
    rintro c ⟨⟩
    decide

/-- A comment ends in one place. -/
theorem IsComment.unique {range' : Range} (h : IsComment text range) (h' : IsComment text range')
    (hstart : range.start = range'.start) : range = range' := by
  cases h with
  | line hdrop hbody hrest =>
    cases h' with
    | line hdrop' hbody' hrest' =>
      obtain rfl := hstart
      rw [hdrop] at hdrop'
      have hbehind := (List.cons.inj (List.cons.inj (Option.some.inj hdrop')).2).2
      rw [eq_of_endsLine hbehind hbody hrest hbody' hrest']
    | block hdrop' _ =>
      obtain rfl := hstart
      rw [hdrop] at hdrop'
      simp at hdrop'
  | block hdrop hfirst =>
    cases h' with
    | line hdrop' _ _ =>
      obtain rfl := hstart
      rw [hdrop] at hdrop'
      simp at hdrop'
    | block hdrop' hfirst' =>
      obtain rfl := hstart
      rw [hdrop] at hdrop'
      have hbehind := (List.cons.inj (List.cons.inj (Option.some.inj hdrop')).2).2
      have hlength := Nat.le_antisymm (hfirst _ _ hbehind) (hfirst' _ _ hbehind.symm)
      rw [(List.append_inj hbehind hlength).1]

theorem Decomposes.unique {stop' : Nat} {ranges' : List Range}
    (h : Decomposes text start ranges stop) (h' : Decomposes text start ranges' stop') : ranges = ranges' := by
  induction h generalizing ranges' with
  | nil hgap hdrop htoken =>
    cases h' with
    | nil _ _ _ => rfl
    | cons hgap' hcomment' _ =>
      obtain ⟨rest, hdrop', hrest, hno⟩ := hcomment'.exists_drop?
      obtain rfl := hgap.unique hgap' hdrop hdrop' htoken.trivia hrest
      obtain rfl := Option.some.inj (hdrop.symm.trans hdrop')
      exact (hno htoken).elim
  | cons hgap hcomment _ ih =>
    obtain ⟨rest, hdrop, hrest, hno⟩ := hcomment.exists_drop?
    cases h' with
    | nil hgap' hdrop' htoken' =>
      obtain rfl := hgap.unique hgap' hdrop hdrop' hrest htoken'.trivia
      obtain rfl := Option.some.inj (hdrop.symm.trans hdrop')
      exact (hno htoken').elim
    | cons hgap' hcomment' hnext' =>
      obtain ⟨rest', hdrop', hrest', -⟩ := hcomment'.exists_drop?
      obtain rfl := hcomment.unique hcomment' (hgap.unique hgap' hdrop hdrop' hrest hrest')
      rw [ih hnext']

/-! ### Order and bounds -/

theorem isBoundary_byteLength (before after : List Char) : IsBoundary (before ++ after) (byteLength before) :=
  ⟨before, after, rfl, by simp⟩

theorem IsGap.le (h : IsGap text start stop) : start ≤ stop := by
  obtain ⟨gap, hslice, -⟩ := h
  obtain ⟨before, after, rfl, rfl, rfl⟩ := exists_append_of_slice? hslice
  simp

/-- A comment has two characters or more, and stands between characters of the text. -/
theorem IsComment.bounds (h : IsComment text range) : range.start < range.stop ∧ range.stop ≤ byteLength text ∧
    IsBoundary text range.start ∧ IsBoundary text range.stop := by
  cases h with
  | @line start body rest hdrop _ _ =>
    obtain ⟨before, rfl, rfl⟩ := exists_append_of_drop? hdrop
    have hstop := isBoundary_byteLength (before ++ '/' :: '/' :: body) rest
    have hlength : byteLength (before ++ '/' :: '/' :: body) = byteLength before + 2 + byteLength body := by
      simp [utf8Size_slash]
      omega
    rw [hlength, List.append_assoc] at hstop
    refine ⟨?_, ?_, isBoundary_byteLength before _, hstop⟩
    · show byteLength before < byteLength before + 2 + byteLength body
      omega
    · simp [utf8Size_slash]
      omega
  | @block start body rest hdrop _ =>
    obtain ⟨before, rfl, rfl⟩ := exists_append_of_drop? hdrop
    have hstop := isBoundary_byteLength (before ++ '/' :: '*' :: (body ++ ['*', '/'])) rest
    have hlength : byteLength (before ++ '/' :: '*' :: (body ++ ['*', '/'])) =
        byteLength before + 2 + byteLength body + 2 := by
      simp [utf8Size_slash, utf8Size_star]
      omega
    rw [hlength, List.append_assoc, List.cons_append, List.cons_append, List.append_assoc] at hstop
    refine ⟨?_, ?_, isBoundary_byteLength before _, hstop⟩
    · show byteLength before < byteLength before + 2 + byteLength body + 2
      omega
    · simp [utf8Size_slash, utf8Size_star]
      omega

/-- The comments of a decomposition come in order and stand between its ends. -/
theorem Decomposes.ordered (h : Decomposes text start ranges stop) : start ≤ stop ∧ stop ≤ byteLength text ∧
    ranges.Pairwise (fun r r' => r.stop ≤ r'.start) ∧
    ∀ r ∈ ranges, IsComment text r ∧ start ≤ r.start ∧ r.stop ≤ stop := by
  induction h with
  | nil hgap hdrop _ =>
    obtain ⟨before, rfl, rfl⟩ := exists_append_of_drop? hdrop
    exact ⟨hgap.le, by simp, .nil, by simp⟩
  | cons hgap hcomment _ ih =>
    obtain ⟨hle, hstop, hpairwise, hranges⟩ := ih
    have hstart := hgap.le
    have hlt := hcomment.bounds.1
    refine ⟨by omega, hstop, .cons (fun r hr => (hranges r hr).2.1) hpairwise, fun r hr => ?_⟩
    rcases List.mem_cons.1 hr with rfl | hr
    · exact ⟨hcomment, hstart, hle⟩
    · obtain ⟨hcomment', hfrom, hto⟩ := hranges r hr
      exact ⟨hcomment', by omega, hto⟩

/-- **The scan decomposes the trivia behind a position.**  At every position between characters there are comments
that decompose the text from there on, or from behind its header, and the scan finds them.  They come in order and
lie between characters of the text, and no others decompose it. -/
theorem comments_decompose_trivia (hpos : IsBoundary text pos) : ∃ ranges start stop,
    leadingRanges? text pos = some ranges ∧ StartsAt text pos start ∧ Decomposes text start ranges stop ∧
      stop ≤ byteLength text ∧ ranges.Pairwise (fun r r' => r.stop ≤ r'.start) ∧
      (∀ r ∈ ranges, start ≤ r.start ∧ r.start < r.stop ∧ r.stop ≤ stop ∧ IsBoundary text r.start ∧
        IsBoundary text r.stop) ∧
      ∀ ranges' start' stop', StartsAt text pos start' → Decomposes text start' ranges' stop' →
        ranges' = ranges := by
  obtain ⟨ranges, start, stop, hranges, hstart, hdecomposes⟩ := exists_decomposes hpos
  obtain ⟨-, hstop, hpairwise, hbetween⟩ := hdecomposes.ordered
  refine ⟨ranges, start, stop, hranges, hstart, hdecomposes, hstop, hpairwise, fun r hr => ?_, ?_⟩
  · obtain ⟨hcomment, hfrom, hto⟩ := hbetween r hr
    obtain ⟨hlt, -, hfirst, hlast⟩ := hcomment.bounds
    exact ⟨hfrom, hlt, hto, hfirst, hlast⟩
  · intro ranges' start' stop' hstart' hdecomposes'
    obtain rfl := hstart'.unique hstart
    exact hdecomposes'.unique hdecomposes

/-- A byte order mark, a line for the shell, a line comment, and two blocks: the first is closed by a star that
also follows a slash, the second is never closed. -/
def overlapping : List Char := "\ufeff#!sh\n//é\n\u00a0/*/**//** open".toList

theorem comments_decompose_trivia_overlapping : IsBoundary overlapping 0 ∧ ∃ start stop,
    StartsAt overlapping 0 start ∧ Decomposes overlapping start [⟨8, 12, .line⟩, ⟨15, 21, .block⟩] stop := by
  have hpos : IsBoundary overlapping 0 := isBoundary_zero _
  have hfound : leadingRanges? overlapping 0 = some [⟨8, 12, .line⟩, ⟨15, 21, .block⟩] := by decide +kernel
  obtain ⟨ranges, start, stop, hranges, hstart, hdecomposes, -⟩ := comments_decompose_trivia hpos
  obtain rfl := Option.some.inj (hfound.symm.trans hranges)
  exact ⟨hpos, start, stop, hstart, hdecomposes⟩

end ApiDoc.Comment
