import Mathlib.Data.List.Forall2
import ApiDoc.Render.Tree

/-!
# When two JSON values are the same

JSON does not tell the order of the fields of an object, nor one zero from the other, and it has no numbers
that are not finite.  `Json.Same` is equality up to that.  What is known of two objects that are the same is
read off field by field (`Json.Same.lookup`).
-/

namespace ApiDoc

namespace Binary64

/-- Neither infinite nor no number. -/
def IsFinite : Binary64 → Prop
  | finite .. => True
  | _ => False

/-- The same number, or both zero. -/
def SameNumber (x y : Binary64) : Prop :=
  x = y ∨ x.toInt? = some 0 ∧ y.toInt? = some 0

theorem sourceText_of_sameNumber {x y : Binary64} (h : x.SameNumber y) : x.sourceText = y.sourceText := by
  obtain rfl | ⟨hx, hy⟩ := h
  · rfl
  · rw [sourceText, sourceText, hx, hy]
    rfl

end Binary64

namespace Json

/-- Whether a value is written `null`. -/
def IsNull : Json → Prop
  | null => True
  | decimal x => ¬ x.IsFinite
  | _ => False

/-- Two values are the same JSON. -/
inductive Same : Json → Json → Prop where
  /-- Nothing. -/
  | null {j j' : Json} : j.IsNull → j'.IsNull → Same j j'
  /-- A truth value. -/
  | bool (b : Bool) : Same (bool b) (bool b)
  /-- A whole number. -/
  | integer (i : Int) : Same (integer i) (integer i)
  /-- A finite number. -/
  | decimal {x y : Binary64} : x.IsFinite → x.SameNumber y → Same (decimal x) (decimal y)
  /-- A string. -/
  | text (s : String) : Same (text s) (text s)
  /-- Lists, item by item. -/
  | list {items items' : List Json} : List.Forall₂ Same items items' → Same (list items) (list items')
  /-- Objects, field by field, in whatever order. -/
  | object {fields fields' : List (String × Json)} :
      (∀ key, Option.Rel Same (fields.lookup key) (fields'.lookup key)) →
      Same (object fields) (object fields')

theorem mem_of_lookup_eq_some {key : String} {j : Json} {fields : List (String × Json)}
    (h : fields.lookup key = some j) : (key, j) ∈ fields := by
  induction fields with
  | nil => exact nomatch h
  | cons field fields ih =>
    obtain ⟨key', j'⟩ := field
    rw [List.lookup_cons] at h
    split at h
    · next hkey =>
      obtain rfl : key = key' := by simpa using hkey
      obtain rfl : j' = j := Option.some.inj h
      exact List.mem_cons_self
    · exact List.mem_cons_of_mem _ (ih h)

namespace Same

/-- Equal values are the same. -/
theorem refl (j : Json) : Same j j := by
  cases j with
  | null => exact .null trivial trivial
  | bool b => exact .bool b
  | integer i => exact .integer i
  | text s => exact .text s
  | decimal x =>
    cases x with
    | finite n m e => exact .decimal trivial (.inl rfl)
    | nan | infinite _ => exact .null id id
  | list items => exact .list (List.forall₂_same.2 fun item hitem => refl item)
  | object fields =>
    refine .object fun key => ?_
    cases h : fields.lookup key with
    | none => exact .none
    | some j =>
      have := List.sizeOf_lt_of_mem (mem_of_lookup_eq_some h)
      exact .some (refl j)
termination_by sizeOf j
decreasing_by
  · have := List.sizeOf_lt_of_mem hitem
    simp
    omega
  · simp at this ⊢
    omega

variable {j j' : Json} {fields fields' : List (String × Json)}

/-- Fields of one name in two objects that are the same. -/
theorem lookup (h : Same (.object fields) (.object fields')) (key : String) :
    Option.Rel Same (fields.lookup key) (fields'.lookup key) := by
  cases h with
  | null h _ => exact h.elim
  | object h => exact h key

/-- Fields of one name that are there in both. -/
theorem field (h : Same (.object fields) (.object fields')) (key : String) (hj : fields.lookup key = some j)
    (hj' : fields'.lookup key = some j') : Same j j' := by
  have hrel := h.lookup key
  rw [hj, hj'] at hrel
  cases hrel with
  | some h => exact h

theorem text_inj {s t : String} (h : Same (.text s) (.text t)) : s = t := by
  cases h with
  | null h _ => exact h.elim
  | text _ => rfl

theorem bool_inj {b c : Bool} (h : Same (.bool b) (.bool c)) : b = c := by
  cases h with
  | null h _ => exact h.elim
  | bool _ => rfl

theorem items {items items' : List Json} (h : Same (.list items) (.list items')) :
    List.Forall₂ Same items items' := by
  cases h with
  | null h _ => exact h.elim
  | list h => exact h

end Same

end Json

/-! ### Fields by name -/

namespace Json

variable {key name : String}

theorem lookup_cons_of_ne (h : key ≠ name) (j : Json) (fields : List (String × Json)) :
    ((name, j) :: fields).lookup key = fields.lookup key := by
  simp [List.lookup_cons, beq_false_of_ne h]

theorem lookup_textField_of_ne (h : key ≠ name) (value : String) : (textField name value).lookup key = none := by
  unfold textField
  split
  · rfl
  · exact lookup_cons_of_ne h _ _

theorem lookup_optionalField_of_ne {α : Type} (h : key ≠ name) (encode : α → Json) (value : Option α) :
    (optionalField name encode value).lookup key = none := by
  cases value with
  | none => rfl
  | some a => exact lookup_cons_of_ne h _ _

end Json

namespace Documentation

variable {key name : String}

theorem lookup_listField_of_ne (h : key ≠ name) (texts : List String) :
    (listField name texts).lookup key = none := by
  unfold listField
  split
  · rfl
  · exact Json.lookup_cons_of_ne h _ _

theorem lookup_flagField_of_ne (h : key ≠ name) (value : Bool) : (flagField name value).lookup key = none := by
  unfold flagField
  split
  · exact Json.lookup_cons_of_ne h _ _
  · rfl

/-- A documentation has fields of known names only. -/
theorem lookup_fields_of_not_mem (doc : Documentation) (h : key ∉ fieldNames) : doc.fields.lookup key = none := by
  simp only [fieldNames, List.mem_cons, List.not_mem_nil, or_false, not_or] at h
  obtain ⟨hsummary, h₁, h₂, h₃, htags, h₄, h₅, h₆, h₇, h₈, h₉, h₁₀, h₁₁⟩ := h
  have hcustom : (if doc.customTags.isEmpty then [] else [("customTags", doc.customTags.toJson)]).lookup key =
      none := by
    split
    · rfl
    · exact Json.lookup_cons_of_ne htags _ _
  simp only [fields, List.lookup_append, Json.lookup_cons_of_ne hsummary, List.lookup_nil, hcustom,
    Json.lookup_optionalField_of_ne h₁, lookup_listField_of_ne h₂, lookup_listField_of_ne h₃,
    Json.lookup_optionalField_of_ne h₄, Json.lookup_optionalField_of_ne h₅, Json.lookup_optionalField_of_ne h₆,
    Json.lookup_optionalField_of_ne h₇, Json.lookup_optionalField_of_ne h₈, Json.lookup_optionalField_of_ne h₉,
    lookup_flagField_of_ne h₁₀, lookup_flagField_of_ne h₁₁, Option.or_none]

end Documentation

end ApiDoc
