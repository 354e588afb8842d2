import ApiDoc.Model.Sharing
import Mathlib.Tactic.ByContra

/-!
# Filled gaps

Taking missing documentation from another member leaves no gap that the other could fill: filling
once more from it changes nothing (`Documentation.inherit_inherit`), and no summary of the method is empty
where the other's is not.  `Member.IsComplete` says both, and `Member.isComplete_inherit` that `Member.inherit`
achieves it.
-/

namespace ApiDoc

@[simp]
theorem Text.fill_fill (own base : String) : fill (fill own base) base = fill own base := by
  unfold fill
  split
  · split <;> rfl
  · rfl

theorem Text.fill_assoc (own base other : String) : fill (fill own base) other = fill own (fill base other) := by
  by_cases hempty : own = "" <;> simp [fill, String.isEmpty_iff, hempty]

/-- A filled text is empty only if there was nothing to fill it with. -/
theorem Text.fill_eq_empty {own base : String} (h : fill own base = "") : base = "" := by
  unfold fill at h
  split at h
  · exact h
  · next hne => simp [h] at hne

/-! ### Texts by name -/

namespace NamedTexts

theorem updateEntries_of_mem {name text : String} {entries : List (String × String)}
    (h : name ∈ entries.map Prod.fst) :
    updateEntries name (fun old => old.getD text) entries = entries := by
  induction entries with
  | nil => simp at h
  | cons entry rest ih =>
    unfold updateEntries
    split
    · next heq => rw [← heq]; rfl
    · next hne =>
      rw [ih]
      simpa [Ne.symm hne] using h

theorem insertNew_of_mem {t : NamedTexts} {name : String} (h : name ∈ t.names) (text : String) :
    t.insertNew name text = t := by
  obtain ⟨entries, nodup⟩ := t
  simp only [insertNew, update, mk.injEq]
  exact updateEntries_of_mem h

theorem mem_names_insertNew {t : NamedTexts} {name other text : String} :
    other ∈ (t.insertNew name text).names ↔ other ∈ t.names ∨ other = name := by
  rw [insertNew, names_update]
  split
  · next h =>
    constructor
    · exact .inl
    · rintro (ho | rfl)
      · exact ho
      · exact h
  · simp

theorem mem_names_foldl {t : NamedTexts} {entries : List (String × String)} {other : String} :
    other ∈ (entries.foldl (fun t entry => t.insertNew entry.1 entry.2) t).names ↔
      other ∈ t.names ∨ other ∈ entries.map Prod.fst := by
  induction entries generalizing t with
  | nil => simp
  | cons entry rest ih => simp [ih, mem_names_insertNew, or_assoc]

/-- A dictionary that has all names of another takes nothing from it. -/
theorem inherit_of_subset {own base : NamedTexts} (h : ∀ name ∈ base.names, name ∈ own.names) :
    own.inherit base = own := by
  have hfold : ∀ entries : List (String × String), (∀ name ∈ entries.map Prod.fst, name ∈ own.names) →
      entries.foldl (fun t entry => t.insertNew entry.1 entry.2) own = own := by
    intro entries
    induction entries with
    | nil => exact fun _ => rfl
    | cons entry rest ih =>
      intro hentries
      rw [List.foldl_cons, insertNew_of_mem (hentries entry.1 (by simp))]
      exact ih fun name hname => hentries name (by simp [hname])
  exact hfold base.entries h

@[simp]
theorem inherit_self (own : NamedTexts) : own.inherit own = own := inherit_of_subset fun _ h => h

@[simp]
theorem inherit_inherit (own base : NamedTexts) : (own.inherit base).inherit base = own.inherit base :=
  inherit_of_subset fun _ hname => mem_names_foldl.2 (.inr hname)

end NamedTexts

/-! ### Documentation -/

namespace Documentation

@[simp]
theorem fillList_self (own : List String) : fillList own own = own := by
  unfold fillList
  split <;> rfl

@[simp]
theorem fillList_fillList (own base : List String) : fillList (fillList own base) base = fillList own base := by
  unfold fillList
  split
  · split <;> rfl
  · rfl

@[simp]
theorem fillOption_self (own : Option String) : fillOption own own = own := by
  cases own with
  | none => rfl
  | some text => simp [fillOption]

@[simp]
theorem fillOption_fillOption (own base : Option String) :
    fillOption (fillOption own base) base = fillOption own base := by
  cases own with
  | none => exact fillOption_self base
  | some text =>
    by_cases h : text.isEmpty
    · cases base with
      | none => simp [fillOption, h]
      | some other => simp [fillOption, h]
    · simp [fillOption, h]

theorem inherit_self (own : Documentation) : own.inherit own = own := by
  simp [inherit]

/-- **Filling twice** from the same documentation is filling once. -/
theorem inherit_inherit (own base : Documentation) : (own.inherit base).inherit base = own.inherit base := by
  simp [inherit]

end Documentation

/-! ### Members -/

/-- No parameter has an empty summary where another in its position has one that is not. -/
theorem summary_backfillParameters {ps bs : List Parameter} {i : Nat} {p b : Parameter}
    (hp : (backfillParameters ps bs)[i]? = some p) (hb : bs[i]? = some b) (h : p.summary = "") :
    b.summary = "" := by
  induction ps, bs using backfillParameters.induct generalizing i with
  | case1 own ps base bs ih =>
    cases i with
    | zero =>
      obtain rfl := Option.some.inj hp
      obtain rfl := Option.some.inj hb
      exact Text.fill_eq_empty h
    | succ i => exact ih (by simpa [backfillParameters] using hp) (by simpa using hb)
  | case2 ps => simp at hb
  | case3 bs hne => simp [backfillParameters] at hp

theorem summary_backfillTypeParameters {ps bs : List TypeParameter} {i : Nat} {p b : TypeParameter}
    (hp : (backfillTypeParameters ps bs)[i]? = some p) (hb : bs[i]? = some b) (h : p.summary = "") :
    b.summary = "" := by
  induction ps, bs using backfillTypeParameters.induct generalizing i with
  | case1 own ps base bs ih =>
    cases i with
    | zero =>
      obtain rfl := Option.some.inj hp
      obtain rfl := Option.some.inj hb
      exact Text.fill_eq_empty h
    | succ i => exact ih (by simpa [backfillTypeParameters] using hp) (by simpa using hb)
  | case2 ps => simp at hb
  | case3 bs hne => simp [backfillTypeParameters] at hp

/-- A method without a gap that another could fill. -/
structure Method.IsComplete (own base : Method) : Prop where
  parameters {i : Nat} {p b : Parameter} : own.signature.parameters[i]? = some p →
    base.signature.parameters[i]? = some b → p.summary = "" → b.summary = ""
  typeParameters {i : Nat} {p b : TypeParameter} : own.signature.typeParameters[i]? = some p →
    base.signature.typeParameters[i]? = some b → p.summary = "" → b.summary = ""
  returnSummary : own.returnSummary = "" → base.returnSummary = ""

theorem Method.isComplete_inherit (own base : Method) : (own.inherit base).IsComplete base where
  parameters := summary_backfillParameters
  typeParameters := summary_backfillTypeParameters
  returnSummary := Text.fill_eq_empty

namespace Member

/-- A member without a gap that another could fill. -/
structure IsComplete (own base : Member) : Prop where
  doc : own.doc.inherit base.doc = own.doc
  method {m b} : own.body = .method m → base.body = .method b → m.IsComplete b

theorem IsComplete.refl (own : Member) : own.IsComplete own where
  doc := Documentation.inherit_self _
  method {m b} hm hb := by
    obtain rfl : m = b := by simpa [hm] using hb
    constructor <;> simp_all

/-- **A member that takes over documentation** is left without a gap that could be filled. -/
theorem isComplete_inherit (own base : Member) : (own.inherit base).IsComplete base where
  doc := Documentation.inherit_inherit _ _
  method := by
    intro m b hm hb
    unfold Member.inherit at hm
    cases hown : own.body with
    | method own' =>
      simp only [hown, hb, MemberBody.method.injEq] at hm
      exact hm ▸ Method.isComplete_inherit own' b
    | _ => simp [hown] at hm

/-- Only documentation and signatures matter. -/
theorem IsComplete.congr {own base own' base' : Member} (h : own.IsComplete base)
    (hdoc : own'.doc = own.doc) (hbody : own'.body = own.body) (hdoc' : base'.doc = base.doc)
    (hbody' : base'.body = base.body) : own'.IsComplete base' where
  doc := by rw [hdoc, hdoc', h.doc]
  method hm hb := h.method (hbody ▸ hm) (hbody' ▸ hb)

end Member

end ApiDoc
