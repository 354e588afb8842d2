/-!
# Byte offsets in a text

A position in a source text is a number of UTF-8 bytes from its start, while the text itself is
worked on as a list of characters.  `byteLength` measures characters in bytes, `split?` cuts at a
byte offset and fails exactly when the offset lies inside a character or behind the end, and
`slice?` is the part between two offsets.

Main statements: `split?_byteLength` (cutting behind a known beginning gives it back) and
`append_of_split?` (a cut loses nothing and happens where it was asked for).
-/

namespace ApiDoc.Text

/-- Number of UTF-8 bytes that a run of characters takes. -/
def byteLength : List Char → Nat
  | [] => 0
  | c :: cs => c.utf8Size + byteLength cs

/-- The characters before and from byte offset `n`; `none` when `n` is no boundary between
characters or lies behind the end. -/
def split? : List Char → Nat → Option (List Char × List Char)
  | cs, 0 => some ([], cs)
  | [], _ + 1 => none
  | c :: cs, n + 1 =>
    if c.utf8Size ≤ n + 1 then
      (split? cs (n + 1 - c.utf8Size)).map fun (before, rest) => (c :: before, rest)
    else none

/-- The characters from byte offset `n` on. -/
def drop? : List Char → Nat → Option (List Char)
  | cs, 0 => some cs
  | [], _ + 1 => none
  | c :: cs, n + 1 => if c.utf8Size ≤ n + 1 then drop? cs (n + 1 - c.utf8Size) else none

/-- The characters from byte offset `start` up to byte offset `stop`. -/
def slice? (cs : List Char) (start stop : Nat) : Option (List Char) :=
  if start ≤ stop then
    (drop? cs start).bind fun rest => (split? rest (stop - start)).map Prod.fst
  else none

/-! ### Laws -/

@[simp]
theorem byteLength_nil : byteLength [] = 0 := rfl

@[simp]
theorem byteLength_cons (c : Char) (cs : List Char) :
    byteLength (c :: cs) = c.utf8Size + byteLength cs := rfl

@[simp]
theorem byteLength_append (as bs : List Char) :
    byteLength (as ++ bs) = byteLength as + byteLength bs := by
  induction as with
  | nil => simp
  | cons a as ih => simp [ih, Nat.add_assoc]

@[simp]
theorem split?_zero (cs : List Char) : split? cs 0 = some ([], cs) := by
  cases cs <;> rfl

theorem split?_cons_add (c : Char) (cs : List Char) (n : Nat) :
    split? (c :: cs) (c.utf8Size + n) =
      (split? cs n).map fun (before, rest) => (c :: before, rest) := by
  have hc := c.utf8Size_pos
  obtain ⟨k, hk⟩ : ∃ k, c.utf8Size + n = k + 1 := ⟨c.utf8Size + n - 1, by omega⟩
  rw [hk, split?, if_pos (by omega)]
  congr 2
  omega

/-- What is left behind an offset is the second part of the cut there. -/
theorem drop?_eq_map_split? (cs : List Char) (n : Nat) :
    drop? cs n = (split? cs n).map Prod.snd := by
  induction cs generalizing n with
  | nil => cases n <;> simp [drop?, split?]
  | cons c cs ih =>
    cases n with
    | zero => simp [drop?]
    | succ n =>
      rw [drop?, split?]
      split
      · rw [ih, Option.map_map]
        rfl
      · rfl

/-- Cutting behind a known beginning gives that beginning and the rest back. -/
@[simp]
theorem split?_byteLength (as bs : List Char) :
    split? (as ++ bs) (byteLength as) = some (as, bs) := by
  induction as with
  | nil => simp
  | cons a as ih => simp [split?_cons_add, ih]

/-- A cut loses nothing, and happens where it was asked for. -/
theorem append_of_split? {cs as bs : List Char} {n : Nat} (h : split? cs n = some (as, bs)) :
    cs = as ++ bs ∧ byteLength as = n := by
  induction cs generalizing n as with
  | nil => cases n <;> simp_all [split?]
  | cons c cs ih =>
    cases n with
    | zero => simp_all [split?]
    | succ n =>
      rw [split?] at h
      split at h
      · obtain ⟨⟨before, rest⟩, hcut, heq⟩ := Option.map_eq_some_iff.1 h
        obtain ⟨rfl, rfl⟩ : c :: before = as ∧ rest = bs := by simpa using heq
        obtain ⟨rfl, hlen⟩ := ih hcut
        exact ⟨rfl, by simp only [byteLength_cons]; omega⟩
      · simp at h

@[simp]
theorem drop?_byteLength (as bs : List Char) : drop? (as ++ bs) (byteLength as) = some bs := by
  rw [drop?_eq_map_split?, split?_byteLength]
  rfl

/-- What is left behind an offset stands behind that many bytes. -/
theorem exists_append_of_drop? {cs rest : List Char} {n : Nat} (h : drop? cs n = some rest) :
    ∃ before, cs = before ++ rest ∧ byteLength before = n := by
  rw [drop?_eq_map_split?] at h
  obtain ⟨⟨before, after⟩, hcut, rfl⟩ := Option.map_eq_some_iff.1 h
  exact ⟨before, append_of_split? hcut⟩

/-- The part between a known beginning and a known rest. -/
theorem slice?_byteLength (as bs cs : List Char) :
    slice? (as ++ (bs ++ cs)) (byteLength as) (byteLength (as ++ bs)) = some bs := by
  have hlength : byteLength (as ++ bs) - byteLength as = byteLength bs := by
    rw [byteLength_append]
    omega
  rw [slice?, if_pos (by simp), drop?_byteLength, Option.bind_some, hlength, split?_byteLength]
  rfl

/-- A slice stands between the text before its start and the text behind its end. -/
theorem exists_append_of_slice? {text slice : List Char} {start stop : Nat}
    (h : slice? text start stop = some slice) :
    ∃ before after, text = before ++ (slice ++ after) ∧ byteLength before = start ∧
      byteLength (before ++ slice) = stop := by
  rw [slice?] at h
  split at h
  · obtain ⟨rest, hrest, hcut⟩ := Option.bind_eq_some_iff.1 h
    obtain ⟨⟨part, after⟩, hsplit, hpart⟩ := Option.map_eq_some_iff.1 hcut
    obtain rfl : part = slice := hpart
    obtain ⟨before, rfl, rfl⟩ := exists_append_of_drop? hrest
    obtain ⟨rfl, hlength⟩ := append_of_split? hsplit
    refine ⟨before, after, rfl, rfl, ?_⟩
    rw [byteLength_append]
    omega
  · simp at h

/-- Beginnings of one text with the same number of bytes are the same. -/
theorem eq_of_byteLength_eq {as bs cs ds : List Char} (h : as ++ bs = cs ++ ds)
    (hlength : byteLength as = byteLength cs) : as = cs ∧ bs = ds := by
  have hsplit := split?_byteLength as bs
  rw [h, hlength, split?_byteLength] at hsplit
  obtain ⟨rfl, rfl⟩ := Prod.mk.inj (Option.some.inj hsplit)
  exact ⟨rfl, rfl⟩

end ApiDoc.Text
