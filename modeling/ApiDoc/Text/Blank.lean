/-!
# Blank characters

The characters of the Unicode property White_Space, and the trimming that goes with them.
-/

namespace ApiDoc.Text

/-- The code point ranges of the Unicode property White_Space. -/
def blankRanges : List (Nat × Nat) :=
  [(0x9, 0xD), (0x20, 0x20), (0x85, 0x85), (0xA0, 0xA0), (0x1680, 0x1680), (0x2000, 0x200A),
   (0x2028, 0x2029), (0x202F, 0x202F), (0x205F, 0x205F), (0x3000, 0x3000)]

/-- Whether a code point lies in one of the ranges, ends included. -/
def inRanges (ranges : List (Nat × Nat)) (code : Nat) : Bool :=
  ranges.any fun (low, high) => low ≤ code && code ≤ high

/-- A character of the Unicode property White_Space. -/
def isBlank (c : Char) : Bool := inRanges blankRanges c.toNat

/-- The text without the blanks at its start. -/
def trimStart (cs : List Char) : List Char := cs.dropWhile isBlank

/-- The text without the blanks at its end. -/
def trimEnd (cs : List Char) : List Char := (trimStart cs.reverse).reverse

/-- The text without the blanks at either end. -/
def trim (cs : List Char) : List Char := trimEnd (trimStart cs)

/-- Every character that the core library calls whitespace is blank here too. -/
theorem isBlank_of_isWhitespace {c : Char} (h : c.isWhitespace) : isBlank c := by
  simp only [Char.isWhitespace, Bool.or_eq_true, decide_eq_true_eq] at h
  rcases h with ((rfl | rfl) | rfl) | rfl <;> decide

@[simp]
theorem trimStart_nil : trimStart [] = [] := rfl

@[simp]
theorem trim_nil : trim [] = [] := rfl

/-- The characters at the front of a text that pass a test, up to the first that fails it. -/
theorem takeWhile_append_of_head? {p : Char → Bool} {body rest : List Char} (hbody : ∀ c ∈ body, p c = true)
    (hrest : ∀ c, rest.head? = some c → p c = false) : (body ++ rest).takeWhile p = body := by
  rw [List.takeWhile_append_of_pos hbody]
  cases rest with
  | nil => simp
  | cons c rest => simp [hrest c rfl]

/-- A text that does not end in a blank has none to lose there. -/
theorem trimEnd_eq_self {cs : List Char} (h : ∀ c, cs.getLast? = some c → isBlank c = false) :
    trimEnd cs = cs := by
  rw [trimEnd, trimStart]
  cases hcs : cs.reverse with
  | nil => simpa using hcs.symm
  | cons c rest =>
    have hlast : cs.getLast? = some c := by rw [← List.head?_reverse, hcs]; rfl
    rw [List.dropWhile_cons_of_neg (by simp [h c hlast]), ← hcs, List.reverse_reverse]

theorem filter_trimStart (cs : List Char) :
    (trimStart cs).filter (fun c => !isBlank c) = cs.filter fun c => !isBlank c := by
  unfold trimStart
  induction cs with
  | nil => rfl
  | cons c cs ih => cases hc : isBlank c <;> simp [hc, ih]

/-- Trimming takes blanks only. -/
theorem filter_trim (cs : List Char) :
    (trim cs).filter (fun c => !isBlank c) = cs.filter fun c => !isBlank c := by
  rw [trim, trimEnd, List.filter_reverse, filter_trimStart, List.filter_reverse, List.reverse_reverse,
    filter_trimStart]

/-- Blanks at the front of a text are taken off. -/
theorem trimStart_append_of_blank {blanks : List Char} (h : ∀ c ∈ blanks, isBlank c = true)
    (cs : List Char) : trimStart (blanks ++ cs) = trimStart cs :=
  List.dropWhile_append_of_pos h

/-- A text that does not begin with a blank has none to lose there. -/
theorem trimStart_eq_self {cs : List Char} (h : ∀ c, cs.head? = some c → isBlank c = false) : trimStart cs = cs := by
  cases cs with
  | nil => rfl
  | cons c cs => exact List.dropWhile_cons_of_neg (by simp [h c rfl])

/-- What is left of a text does not begin with a blank. -/
theorem isBlank_head_trimStart (cs : List Char) {c : Char} (h : (trimStart cs).head? = some c) :
    isBlank c = false := by
  have hnot := List.head?_dropWhile_not isBlank cs
  rw [← trimStart, h] at hnot
  exact hnot

/-- A text without blanks at either end has none at its start. -/
theorem trimStart_of_trim {cs : List Char} (h : trim cs = cs) : trimStart cs = cs := by
  have hend : (trim cs).length ≤ (trimStart cs).length := by
    rw [trim, trimEnd, List.length_reverse, trimStart]
    exact Nat.le_trans (List.dropWhile_suffix isBlank).length_le (Nat.le_of_eq List.length_reverse)
  rw [h] at hend
  exact (List.dropWhile_suffix isBlank).eq_of_length_le hend

/-- A text is left as it is by trimming if it has no blank at either end. -/
theorem trim_eq_self_iff {cs : List Char} : trim cs = cs ↔
    (∀ c, cs.head? = some c → isBlank c = false) ∧ ∀ c, cs.getLast? = some c → isBlank c = false := by
  constructor
  · intro h
    have hstart := trimStart_of_trim h
    refine ⟨fun c hc => isBlank_head_trimStart cs (by rw [hstart, hc]), fun c hc => ?_⟩
    rw [trim, hstart, trimEnd] at h
    refine isBlank_head_trimStart cs.reverse ?_
    rw [← List.getLast?_reverse, h, hc]
  · rintro ⟨hfirst, hlast⟩
    rw [trim, trimStart_eq_self hfirst, trimEnd_eq_self hlast]

/-- Blanks around a text make no difference to what trimming leaves of it. -/
theorem trim_append_of_blank {before after cs : List Char} (hbefore : ∀ c ∈ before, isBlank c = true)
    (hafter : ∀ c ∈ after, isBlank c = true) (h : trim cs = cs) : trim (before ++ (cs ++ after)) = cs := by
  obtain ⟨hfirst, hlast⟩ := trim_eq_self_iff.1 h
  rw [trim, trimStart_append_of_blank hbefore]
  cases cs with
  | nil =>
    rw [List.nil_append, ← List.append_nil after, trimStart_append_of_blank hafter, trimStart_nil]
    rfl
  | cons c cs =>
    have hstart : trimStart (c :: cs ++ after) = c :: cs ++ after := trimStart_eq_self (by simpa using hfirst)
    have hback : ∀ c ∈ after.reverse, isBlank c = true := fun c hc => hafter c (by simpa using hc)
    rw [hstart, trimEnd, List.reverse_append, trimStart_append_of_blank hback, ← trimEnd, trimEnd_eq_self hlast]

end ApiDoc.Text
