import ApiDoc.Model.Member
import ApiDoc.Proofs.Number.Integers
import Mathlib.Logic.Function.Iterate

/-!
# Numbering in closed form

The members of an enum are numbered one after the other (`Numbering.Follows`).  The value of each can be told from
what is written without going through those before it (`AutoNumbered`): a member without an initialiser counts on from
the last one that has one, or from the start if there is none, and has its own name behind a text.
`Numbering.Follows.autoNumbered` says that the two agree.
-/

namespace ApiDoc

/-! ### One member after the other -/

/-- The members of an enum have the values that numbering gives them, where some have a value of their own. -/
inductive Numbering.Follows : Numbering → List (Option EnumValue) → List EnumEntry → Prop
  | nil (n : Numbering) : Follows n [] []
  | cons (n : Numbering) (own : Option EnumValue) (name : String) (member : MemberRef)
      {written : List (Option EnumValue)} {entries : List EnumEntry}
      (h : Follows (n.assign name own).2 written entries) :
      Follows n (own :: written) (⟨name, (n.assign name own).1, member⟩ :: entries)

/-! ### All at once -/

/-- The last member with a value of its own that comes before a member which has none. -/
structure LastWritten (written : List (Option EnumValue)) (i j : Nat) (value : EnumValue) : Prop where
  before : j < i
  value : written[j]? = some (some value)
  since : ∀ k, j < k → k ≤ i → written[k]? = some none

/-- The values of an enum's members, from those that are written.  Numbers are told as long as they are integers of less
than 53 bits. -/
structure AutoNumbered (written : List (Option EnumValue)) (entries : List EnumEntry) : Prop where
  /-- A value that is written is taken as it is. -/
  own {i : Nat} {entry : EnumEntry} {value : EnumValue} (hi : entries[i]? = some entry)
    (h : written[i]? = some (some value)) : entry.value = value
  /-- Behind a number the members are counted. -/
  onward {i j : Nat} {entry : EnumEntry} {x : Binary64} {v : Int} (hi : entries[i]? = some entry)
    (h : LastWritten written i j (.number x)) (hx : x.toInt? = some v) (hv : v.natAbs < 2 ^ 53)
    (hend : (v + (i - j)).natAbs < 2 ^ 53) : entry.value = .number (.ofInt (v + (i - j)))
  /-- Behind a text each member is called by its name. -/
  named {i j : Nat} {entry : EnumEntry} {text : String} (hi : entries[i]? = some entry)
    (h : LastWritten written i j (.text text)) : entry.value = .text entry.name
  /-- Before anything is written the members are counted from zero. -/
  first {i : Nat} {entry : EnumEntry} (hi : entries[i]? = some entry)
    (h : ∀ k, k ≤ i → written[k]? = some none) (hend : i < 2 ^ 53) : entry.value = .number (.ofInt i)

namespace Numbering.Follows

variable {n : Numbering} {written : List (Option EnumValue)} {entries : List EnumEntry} {entry : EnumEntry}

theorem length_eq (h : n.Follows written entries) : entries.length = written.length := by
  induction h with
  | nil => rfl
  | cons n own name member h ih => simp [ih]

/-- The first member is numbered from where the numbering stands. -/
theorem value_zero {own : Option EnumValue} (h : n.Follows written entries) (hi : entries[0]? = some entry)
    (hown : written[0]? = some own) : entry.value = n.valueOf entry.name own := by
  cases h with
  | nil => exact nomatch hi
  | cons own' name member h =>
    obtain rfl := Option.some.inj hi
    obtain rfl := Option.some.inj hown
    rfl

/-- Every other member is numbered from the value before it. -/
theorem value_succ {i : Nat} {before : EnumEntry} {own : Option EnumValue} (h : n.Follows written entries)
    (hbefore : entries[i]? = some before) (hi : entries[i + 1]? = some entry) (hown : written[i + 1]? = some own) :
    entry.value = (Numbering.after before.value).valueOf entry.name own := by
  induction h generalizing i with
  | nil => exact nomatch hi
  | cons n own' name member h ih =>
    cases i with
    | zero =>
      obtain rfl := Option.some.inj hbefore
      exact h.value_zero hi hown
    | succ i => exact ih hbefore hi hown

/-- There is a member before every one but the first. -/
theorem exists_before {i : Nat} (hi : entries[i + 1]? = some entry) : ∃ before, entries[i]? = some before :=
  ⟨_, List.getElem?_eq_getElem (Nat.lt_of_succ_lt (List.getElem?_eq_some_iff.1 hi).1)⟩

/-- A value that is written is taken as it is. -/
theorem value_own {i : Nat} {value : EnumValue} (h : n.Follows written entries) (hi : entries[i]? = some entry)
    (hown : written[i]? = some (some value)) : entry.value = value := by
  cases i with
  | zero => exact h.value_zero hi hown
  | succ i =>
    obtain ⟨before, hbefore⟩ := exists_before hi
    exact h.value_succ hbefore hi hown

/-- Behind a number the members are counted, whatever the number. -/
theorem value_counted {i k : Nat} {x : Binary64} {before : EnumEntry} (h : n.Follows written entries)
    (hbefore : entries[i]? = some before) (hx : before.value = .number x) (hi : entries[i + k]? = some entry)
    (hnone : ∀ l, i < l → l ≤ i + k → written[l]? = some none) :
    entry.value = .number (Binary64.plusOne^[k] x) := by
  -- on the distance: the member right before has counted one less
  induction k generalizing entry with
  | zero =>
    obtain rfl := Option.some.inj (hbefore.symm.trans hi)
    exact hx
  | succ k ih =>
    obtain ⟨last, hlast⟩ : ∃ last, entries[i + k]? = some last := exists_before hi
    have hvalue := ih hlast fun l hl hl' => hnone l hl (by omega)
    rw [h.value_succ hlast hi (hnone (i + k + 1) (by omega) (by omega)), hvalue, Function.iterate_succ_apply']
    rfl

/-- Behind a text there are texts. -/
theorem value_text {i k : Nat} {text : String} {before : EnumEntry} (h : n.Follows written entries)
    (hbefore : entries[i]? = some before) (hx : before.value = .text text) (hi : entries[i + k]? = some entry)
    (hnone : ∀ l, i < l → l ≤ i + k → written[l]? = some none) : ∃ text, entry.value = .text text := by
  induction k generalizing entry with
  | zero =>
    obtain rfl := Option.some.inj (hbefore.symm.trans hi)
    exact ⟨text, hx⟩
  | succ k ih =>
    obtain ⟨last, hlast⟩ : ∃ last, entries[i + k]? = some last := exists_before hi
    obtain ⟨text', htext'⟩ := ih hlast fun l hl hl' => hnone l hl (by omega)
    refine ⟨entry.name, ?_⟩
    rw [h.value_succ hlast hi (hnone (i + k + 1) (by omega) (by omega)), htext']
    rfl

/-- Behind a text each member is called by its name. -/
theorem value_named {i k : Nat} {text : String} {before : EnumEntry} (h : n.Follows written entries)
    (hbefore : entries[i]? = some before) (hx : before.value = .text text) (hi : entries[i + k + 1]? = some entry)
    (hnone : ∀ l, i < l → l ≤ i + k + 1 → written[l]? = some none) : entry.value = .text entry.name := by
  obtain ⟨last, hlast⟩ := exists_before hi
  obtain ⟨text', htext'⟩ := h.value_text hbefore hx hlast fun l hl hl' => hnone l hl (by omega)
  rw [h.value_succ hlast hi (hnone (i + k + 1) (by omega) (by omega)), htext']
  rfl

/-- A member that has a value of its own is there, and has that value. -/
theorem exists_lastWritten {i j : Nat} {value : EnumValue} (h : n.Follows written entries)
    (hlast : LastWritten written i j value) : ∃ before, entries[j]? = some before ∧ before.value = value := by
  have hj : j < entries.length := h.length_eq ▸ (List.getElem?_eq_some_iff.1 hlast.value).1
  exact ⟨_, List.getElem?_eq_getElem hj, h.value_own (List.getElem?_eq_getElem hj) hlast.value⟩

/-- **Numbering in closed form.** -/
theorem autoNumbered (h : Numbering.Follows {} written entries) : AutoNumbered written entries where
  own := h.value_own
  onward {i j entry x v} hi hlast hx hv hend := by
    obtain ⟨before, hbefore, hvalue⟩ := h.exists_lastWritten hlast
    obtain ⟨k, rfl⟩ := Nat.exists_eq_add_of_lt hlast.before
    have hdistance : v + ((j + k + 1 : Nat) - j : Int) = v + (k + 1 : Nat) := by omega
    rw [hdistance] at hend ⊢
    rw [h.value_counted (k := k + 1) hbefore hvalue hi hlast.since, Binary64.iterate_plusOne hx hv k hend]
  named {i j entry text} hi hlast := by
    obtain ⟨before, hbefore, hvalue⟩ := h.exists_lastWritten hlast
    obtain ⟨k, rfl⟩ := Nat.exists_eq_add_of_lt hlast.before
    exact h.value_named hbefore hvalue hi hlast.since
  first {i entry} hi hnone hend := by
    have hi' : entries[0 + i]? = some entry := by rwa [Nat.zero_add]
    have hlt : 0 < entries.length := Nat.zero_lt_of_lt (List.getElem?_eq_some_iff.1 hi).1
    have hstart : entries[0].value = .number (.ofInt 0) :=
      h.value_zero (List.getElem?_eq_getElem hlt) (hnone 0 (Nat.zero_le i))
    have hvalue := h.value_counted (List.getElem?_eq_getElem hlt) hstart hi' fun l _ hl => hnone l (by omega)
    cases i with
    | zero => exact hvalue
    | succ k =>
      rw [hvalue, Binary64.iterate_plusOne (Binary64.toInt?_ofInt (by decide)) (by decide) k (by omega), Int.zero_add]

end Numbering.Follows

end ApiDoc
