import ApiDoc.Proofs.Backfill.Texts
import ApiDoc.Proofs.Doc.Dictionaries

/-!
# Documentation along chains

A member that overrides another takes over what it lacks itself, and the other may have done the same before.  What it
ends up with depends on the members of the chain alone, not on who took over first (`Documentation.inherit_laws`):
taking over is associative, empty documentation is neutral, and taking over twice is taking over once.  None of it
changes what somebody said themselves.
-/

namespace ApiDoc

namespace Documentation

/-! ### Three in a row -/

theorem fillList_assoc (own mid base : List String) :
    fillList (fillList own mid) base = fillList own (fillList mid base) := by
  cases own <;> rfl

/-- Whether the text is absent or empty makes a difference only where nothing follows. -/
theorem fillOption_assoc (own mid base : Option String) :
    fillOption (fillOption own mid) base = fillOption own (fillOption mid base) := by
  cases own with
  | none => rfl
  | some text =>
    by_cases htext : text = ""
    · subst htext
      cases mid with
      | none => cases base <;> rfl
      | some other =>
        by_cases hother : other = ""
        · subst hother
          cases base <;> rfl
        · simp [fillOption, String.isEmpty_iff, hother]
    · simp [fillOption, String.isEmpty_iff, htext]

theorem inherit_assoc (own mid base : Documentation) :
    (own.inherit mid).inherit base = own.inherit (mid.inherit base) := by
  simp only [inherit, Text.fill_assoc, fillOption_assoc, fillList_assoc, NamedTexts.inherit_assoc, Bool.or_assoc]

/-! ### Nothing to take over -/

@[simp]
theorem fillList_nil (own : List String) : fillList own [] = own := by cases own <;> rfl

@[simp]
theorem nil_fillList (base : List String) : fillList [] base = base := rfl

@[simp]
theorem fillOption_none (own : Option String) : fillOption own none = own := by
  cases own with
  | none => rfl
  | some text => by_cases h : text = "" <;> simp [fillOption, String.isEmpty_iff, h]

@[simp]
theorem none_fillOption (base : Option String) : fillOption none base = base := rfl

theorem inherit_empty (own : Documentation) : own.inherit {} = own := by
  simp [inherit]

theorem empty_inherit (base : Documentation) : ({} : Documentation).inherit base = base := by
  simp [inherit]

instance : Std.Associative inherit := ⟨inherit_assoc⟩

instance : Std.LawfulIdentity inherit {} where
  left_id := empty_inherit
  right_id := inherit_empty

instance : Std.IdempotentOp inherit := ⟨inherit_self⟩

/-! ### Chains -/

/-- A chain of overrides, with the order in which documentation is handed on: what stands for one member may be a part
of the chain that has been worked on already. -/
inductive Chain where
  /-- The documentation that a member has of its own. -/
  | own (doc : Documentation)
  /-- The first part takes over from the second. -/
  | takes (derived base : Chain)

namespace Chain

/-- What the members of a chain say themselves, the most derived first. -/
def docs : Chain → List Documentation
  | own doc => [doc]
  | takes derived base => derived.docs ++ base.docs

/-- What the most derived member ends up with. -/
def outcome : Chain → Documentation
  | own doc => doc
  | takes derived base => derived.outcome.inherit base.outcome

/-- The order in which documentation is handed on does not matter. -/
theorem outcome_eq_foldr (chain : Chain) : chain.outcome = chain.docs.foldr inherit {} := by
  induction chain with
  | own doc => exact (inherit_empty doc).symm
  | takes derived base hderived hbase =>
    calc
      derived.outcome.inherit base.outcome
        = (derived.docs.foldr inherit {}).inherit (base.docs.foldr inherit {}) := by rw [hderived, hbase]
      _ = derived.docs.foldr inherit (({} : Documentation).inherit (base.docs.foldr inherit {})) :=
        List.foldr_assoc.symm
      _ = (derived.docs ++ base.docs).foldr inherit {} := by rw [empty_inherit, List.foldr_append]

end Chain

/-- **Taking over documentation is an idempotent monoid**, with names of tags in their order, so along a chain of
overrides only the members matter and not who took over first.  What somebody said themselves stays: texts and lists
that say something, every tag, and that a member is hidden or virtual. -/
theorem inherit_laws :
    (∀ own mid base : Documentation, (own.inherit mid).inherit base = own.inherit (mid.inherit base)) ∧
    (∀ doc : Documentation, ({} : Documentation).inherit doc = doc ∧ doc.inherit {} = doc) ∧
    (∀ doc : Documentation, doc.inherit doc = doc) ∧
    (∀ own base : Documentation, (own.inherit base).inherit base = own.inherit base) ∧
    (∀ own base : Documentation,
      Text.Kept own.summary (own.inherit base).summary ∧ own.Fills (own.inherit base)) ∧
    ∀ chain : Chain, chain.outcome = chain.docs.foldr inherit {} :=
  ⟨inherit_assoc, fun doc => ⟨empty_inherit doc, inherit_empty doc⟩, inherit_self, inherit_inherit,
    fun own base => ⟨Text.kept_fill _ _, .inherit own base⟩, Chain.outcome_eq_foldr⟩

/-- A text that is there but empty is kept where nobody has more to say, and gives way where somebody has. -/
example : fillOption (fillOption (some "") none) (some "") = some "" ∧
    fillOption (fillOption (some "") none) (some "since 2.0") = some "since 2.0" := by decide

end Documentation

end ApiDoc
