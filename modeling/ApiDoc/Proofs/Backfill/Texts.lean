import ApiDoc.Proofs.Gaps
import Mathlib.Data.List.Forall2

/-!
# Texts that are kept

Taking documentation over from elsewhere fills gaps and nothing else.  A member `full` *fills* a member `own`
(`Member.Fills`) if the two are the same apart from their texts, and every text of `own` that says something is a text
of `full`; only the summary is left open here.  Whatever fills a member fills it still after it has taken over more
(`Member.Fills.inherit`, `Member.Fills.fillFromOverloads`).
-/

namespace ApiDoc

/-! ### Single texts -/

namespace Text

/-- A text stays as it is unless it says nothing. -/
def Kept (own full : String) : Prop := own ≠ "" → full = own

theorem Kept.refl (text : String) : Kept text text := fun _ => rfl

theorem Kept.trans {own mid full : String} (h : Kept own mid) (h' : Kept mid full) : Kept own full := by
  intro hne
  obtain rfl := h hne
  exact h' hne

theorem kept_fill (own base : String) : Kept own (fill own base) := by
  intro hne
  simp [fill, String.isEmpty_iff, hne]

/-- An optional text stays as it is unless it says nothing. -/
def KeptOption (own full : Option String) : Prop := ∀ text, own = some text → text ≠ "" → full = some text

theorem KeptOption.refl (text : Option String) : KeptOption text text := fun _ h _ => h

theorem KeptOption.trans {own mid full : Option String} (h : KeptOption own mid) (h' : KeptOption mid full) :
    KeptOption own full :=
  fun text ht hne => h' text (h text ht hne) hne

theorem keptOption_fillOption (own base : Option String) : KeptOption own (Documentation.fillOption own base) := by
  rintro text rfl hne
  simp [Documentation.fillOption, String.isEmpty_iff, hne]

/-- A list of texts stays as it is unless it is empty. -/
def KeptList (own full : List String) : Prop := own ≠ [] → full = own

theorem KeptList.trans {own mid full : List String} (h : KeptList own mid) (h' : KeptList mid full) :
    KeptList own full := by
  intro hne
  obtain rfl := h hne
  exact h' hne

theorem keptList_fillList (own base : List String) : KeptList own (Documentation.fillList own base) := by
  intro hne
  simp [Documentation.fillList, hne]

end Text

open Text

/-- New names are put behind those there are. -/
theorem NamedTexts.prefix_inherit (own base : NamedTexts) : own.entries <+: (own.inherit base).entries := by
  have hupdate (name text : String) (entries : List (String × String)) :
      entries <+: updateEntries name (fun old => old.getD text) entries := by
    induction entries with
    | nil => exact List.nil_prefix
    | cons entry rest ih =>
      unfold updateEntries
      split
      · next heq =>
        rw [← heq]
        exact List.prefix_rfl
      · exact List.cons_prefix_cons.2 ⟨rfl, ih⟩
  unfold inherit
  suffices hfold : ∀ (entries : List (String × String)) (t : NamedTexts),
      t.entries <+: (entries.foldl (fun t entry => t.insertNew entry.1 entry.2) t).entries from
    hfold base.entries own
  intro entries
  induction entries with
  | nil => exact fun t => List.prefix_rfl
  | cons entry rest ih => exact fun t => (hupdate entry.1 entry.2 t.entries).trans (ih (t.insertNew entry.1 entry.2))

/-- An empty text adds nothing. -/
theorem NamedTexts.joinText_empty (text : String) : joinText (some text) "" = text := by
  by_cases hempty : text = "" <;> simp [joinText, String.isEmpty_iff, hempty]

/-! ### Documentation -/

/-- Documentation in which nothing but gaps was filled, the summary apart: texts are kept, tags are only added, and
nothing that is hidden or virtual ceases to be so. -/
structure Documentation.Fills (own full : Documentation) : Prop where
  description : KeptOption own.description full.description
  examples : KeptList own.examples full.examples
  sees : KeptList own.sees full.sees
  customTags : own.customTags.entries <+: full.customTags.entries
  deprecated : KeptOption own.deprecated full.deprecated
  since : KeptOption own.since full.since
  category : KeptOption own.category full.category
  defaultValue : KeptOption own.defaultValue full.defaultValue
  author : KeptOption own.author full.author
  version : KeptOption own.version full.version
  hidden : own.hidden = true → full.hidden = true
  isVirtual : own.isVirtual = true → full.isVirtual = true

namespace Documentation.Fills

theorem refl (doc : Documentation) : doc.Fills doc := by
  constructor
  case customTags => exact List.prefix_rfl
  all_goals first | exact KeptOption.refl _ | exact fun _ => rfl | exact id

theorem trans {own mid full : Documentation} (h : own.Fills mid) (h' : mid.Fills full) : own.Fills full where
  description := h.description.trans h'.description
  examples := h.examples.trans h'.examples
  sees := h.sees.trans h'.sees
  customTags := h.customTags.trans h'.customTags
  deprecated := h.deprecated.trans h'.deprecated
  since := h.since.trans h'.since
  category := h.category.trans h'.category
  defaultValue := h.defaultValue.trans h'.defaultValue
  author := h.author.trans h'.author
  version := h.version.trans h'.version
  hidden := h'.hidden ∘ h.hidden
  isVirtual := h'.isVirtual ∘ h.isVirtual

/-- The summary is left open. -/
theorem of_summary {own full : Documentation} (h : own.Fills full) (text text' : String) :
    { own with summary := text }.Fills { full with summary := text' } :=
  { h with }

theorem inherit (own base : Documentation) : own.Fills (own.inherit base) where
  description := keptOption_fillOption _ _
  examples := keptList_fillList _ _
  sees := keptList_fillList _ _
  customTags := NamedTexts.prefix_inherit _ _
  deprecated := keptOption_fillOption _ _
  since := keptOption_fillOption _ _
  category := keptOption_fillOption _ _
  defaultValue := keptOption_fillOption _ _
  author := keptOption_fillOption _ _
  version := keptOption_fillOption _ _
  hidden h := by simp [Documentation.inherit, h]
  isVirtual h := by simp [Documentation.inherit, h]

end Documentation.Fills

/-! ### Members without their texts -/

def Parameter.untold (p : Parameter) : Parameter := { p with summary := "" }

def TypeParameter.untold (p : TypeParameter) : TypeParameter := { p with summary := "" }

def Signature.untold (s : Signature) : Signature :=
  { s with typeParameters := s.typeParameters.map .untold, parameters := s.parameters.map .untold }

def Method.untold (f : Method) : Method := { f with signature := f.signature.untold, returnSummary := "" }

def MemberBody.untold : MemberBody → MemberBody
  | .method f => .method f.untold
  | .classLike c => .classLike { c with typeParameters := c.typeParameters.map .untold }
  | .alias type params => .alias type (params.map .untold)
  | body => body

/-- A member without anything that is said about it. -/
def Member.untold (m : Member) : Member := { m with doc := {}, body := m.body.untold }

/-- The summaries of a method's parameters, type parameters and result. -/
def Method.summaries (f : Method) : List String :=
  f.signature.parameters.map Parameter.summary ++ f.signature.typeParameters.map TypeParameter.summary ++
    [f.returnSummary]

/-- The summaries of parameters, type parameters and results. -/
def MemberBody.summaries : MemberBody → List String
  | .method f => f.summaries
  | .classLike c => c.typeParameters.map TypeParameter.summary
  | .alias _ params => params.map TypeParameter.summary
  | _ => []

/-- A member that is the same apart from its texts, of which nothing but gaps was filled; its summary is left
open. -/
structure Member.Fills (own full : Member) : Prop where
  untold : full.untold = own.untold
  doc : own.doc.Fills full.doc
  summaries : List.Forall₂ Kept own.body.summaries full.body.summaries

theorem forall₂_kept_refl (texts : List String) : List.Forall₂ Kept texts texts :=
  List.forall₂_same.2 fun text _ => .refl text

theorem forall₂_kept_trans {own mid full : List String} (h : List.Forall₂ Kept own mid)
    (h' : List.Forall₂ Kept mid full) : List.Forall₂ Kept own full := by
  induction h generalizing full with
  | nil => exact h'
  | cons hk _ ih =>
    cases h' with
    | cons hk' hrest => exact .cons (hk.trans hk') (ih hrest)

/-! ### Methods that take over summaries -/

theorem untold_backfillParameters (ps bs : List Parameter) :
    (backfillParameters ps bs).map Parameter.untold = ps.map Parameter.untold := by
  induction ps, bs using backfillParameters.induct with
  | case1 own ps base bs ih => simp [backfillParameters, ih, Parameter.untold]
  | case2 ps => cases ps <;> rfl
  | case3 bs _ => cases bs <;> rfl

theorem kept_backfillParameters (ps bs : List Parameter) :
    List.Forall₂ Kept (ps.map Parameter.summary) ((backfillParameters ps bs).map Parameter.summary) := by
  induction ps, bs using backfillParameters.induct with
  | case1 own ps base bs ih => exact .cons (kept_fill _ _) ih
  | case2 ps => cases ps <;> exact forall₂_kept_refl _
  | case3 bs _ => cases bs <;> exact .nil

theorem untold_backfillTypeParameters (ps bs : List TypeParameter) :
    (backfillTypeParameters ps bs).map TypeParameter.untold = ps.map TypeParameter.untold := by
  induction ps, bs using backfillTypeParameters.induct with
  | case1 own ps base bs ih => simp [backfillTypeParameters, ih, TypeParameter.untold]
  | case2 ps => cases ps <;> rfl
  | case3 bs _ => cases bs <;> rfl

theorem kept_backfillTypeParameters (ps bs : List TypeParameter) :
    List.Forall₂ Kept (ps.map TypeParameter.summary) ((backfillTypeParameters ps bs).map TypeParameter.summary) := by
  induction ps, bs using backfillTypeParameters.induct with
  | case1 own ps base bs ih => exact .cons (kept_fill _ _) ih
  | case2 ps => cases ps <;> exact forall₂_kept_refl _
  | case3 bs _ => cases bs <;> exact .nil

namespace Method

theorem untold_fillFrom (own base : Method) : (own.fillFrom base).untold = own.untold := by
  simp [fillFrom, untold, Signature.untold, untold_backfillParameters]

theorem untold_inherit (own base : Method) : (own.inherit base).untold = own.untold := by
  simp [inherit, fillFrom, untold, Signature.untold, untold_backfillParameters, untold_backfillTypeParameters]

theorem kept_fillFrom (own base : Method) : List.Forall₂ Kept own.summaries (own.fillFrom base).summaries :=
  List.rel_append (List.rel_append (kept_backfillParameters _ _) (forall₂_kept_refl _))
    (.cons (kept_fill _ _) .nil)

theorem kept_inherit (own base : Method) : List.Forall₂ Kept own.summaries (own.inherit base).summaries :=
  List.rel_append (List.rel_append (kept_backfillParameters _ _) (kept_backfillTypeParameters _ _))
    (.cons (kept_fill _ _) .nil)

end Method

/-! ### Members that take over documentation -/

namespace Member

variable {own full : Member}

theorem Fills.refl (m : Member) : m.Fills m := ⟨rfl, .refl _, forall₂_kept_refl _⟩

theorem Fills.trans {mid : Member} (h : own.Fills mid) (h' : mid.Fills full) : own.Fills full :=
  ⟨h'.untold.trans h.untold, h.doc.trans h'.doc, forall₂_kept_trans h.summaries h'.summaries⟩

theorem Fills.isOverride (h : own.Fills full) : full.isOverride = own.isOverride := by
  have hsame := congrArg Member.isOverride h.untold
  exact hsame

theorem fills_inherit (own base : Member) : own.Fills (own.inherit base) := by
  refine ⟨?_, .inherit _ _, ?_⟩ <;> unfold inherit
  · cases hown : own.body <;> cases hbase : base.body <;>
      simp [untold, MemberBody.untold, hown, Method.untold_inherit]
  · cases hown : own.body <;> cases hbase : base.body <;>
      first | exact Method.kept_inherit _ _ | exact forall₂_kept_refl _

theorem fills_fillFrom (own base : Member) : own.Fills (own.fillFrom base) := by
  unfold fillFrom
  split
  · next f b hown _ =>
    refine ⟨?_, .refl _, ?_⟩
    · simp [untold, MemberBody.untold, hown, Method.untold_fillFrom]
    · rw [hown]
      exact Method.kept_fillFrom f b
  · exact .refl own

theorem doc_fillFrom (own base : Member) : (own.fillFrom base).doc = own.doc := by
  unfold fillFrom
  split <;> rfl

theorem fills_foldl_fillFrom (own : Member) (others : List Member) : own.Fills (others.foldl fillFrom own) := by
  induction others generalizing own with
  | nil => exact .refl own
  | cons other rest ih => exact (fills_fillFrom own other).trans (ih _)

theorem doc_foldl_fillFrom (own : Member) (others : List Member) : (others.foldl fillFrom own).doc = own.doc := by
  induction others generalizing own with
  | nil => rfl
  | cons other rest ih => rw [List.foldl_cons, ih, doc_fillFrom]

/-- Whatever the summaries are. -/
theorem Fills.withSummary (h : own.Fills full) (text text' : String) :
    { own with doc.summary := text }.Fills { full with doc.summary := text' } :=
  ⟨h.untold, h.doc.of_summary _ _, h.summaries⟩

theorem fills_fillFromOverloads (own : Member) (others : List Member) : own.Fills (own.fillFromOverloads others) := by
  have hsummary := (Fills.refl own).withSummary own.doc.summary (fill own.doc.summary (firstSummary others))
  exact hsummary.trans (fills_foldl_fillFrom _ others)

theorem summary_fillFromOverloads (own : Member) (others : List Member) :
    (own.fillFromOverloads others).doc.summary = fill own.doc.summary (firstSummary others) := by
  rw [fillFromOverloads, doc_foldl_fillFrom]

/-! ### Changes that are made on both sides -/

theorem untold_withOverloads (m : Member) (overloads : List MemberRef) (companion : Option MemberRef) :
    (m.withOverloads overloads companion).untold = m.untold.withOverloads overloads companion := by
  unfold withOverloads
  cases hbody : m.body <;> simp [untold, MemberBody.untold, hbody, Method.untold]

theorem doc_withOverloads (m : Member) (overloads : List MemberRef) (companion : Option MemberRef) :
    (m.withOverloads overloads companion).doc = m.doc := by
  unfold withOverloads
  split <;> rfl

theorem class?_withOverloads (m : Member) (overloads : List MemberRef) (companion : Option MemberRef) :
    (m.withOverloads overloads companion).class? = m.class? := by
  unfold withOverloads
  cases hbody : m.body <;> simp [class?, hbody]

theorem summaries_withOverloads (m : Member) (overloads : List MemberRef) (companion : Option MemberRef) :
    (m.withOverloads overloads companion).body.summaries = m.body.summaries := by
  unfold withOverloads
  cases hbody : m.body <;> simp [hbody, MemberBody.summaries, Method.summaries]

theorem Fills.withOverloads (h : own.Fills full) (overloads : List MemberRef) (companion : Option MemberRef) :
    (own.withOverloads overloads companion).Fills (full.withOverloads overloads companion) where
  untold := by rw [untold_withOverloads, untold_withOverloads, h.untold]
  doc := by simpa only [doc_withOverloads] using h.doc
  summaries := by simpa only [summaries_withOverloads] using h.summaries

end Member

end ApiDoc
