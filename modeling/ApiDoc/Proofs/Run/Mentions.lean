import ApiDoc.Proofs.Run.Answers
import Mathlib.Logic.Relation

/-!
# What leads to what

A type or symbol *mentions* another if the checker's answers about the one name the other in a way that
resolving may follow: the parts of a type, the types of a symbol, what it exports and contains, what it
inherits.  Whatever a run comes to is reached from where it started along such mentions.

A member of a class *overrides* a property of a base type if it has the name of one.  Of several base
types the first that has such a property counts, and of several properties the first
(`IsBaseProperty`); `Environment.lookup_baseProperties` says that the table of base properties answers
with just that one.
-/

namespace ApiDoc

/-- A type or a symbol. -/
inductive Entity where
  /-- A type. -/
  | type (t : TypeId)
  /-- A symbol. -/
  | symbol (m : SymbolId)
  deriving DecidableEq

namespace Environment

variable (env : Environment)

/-! ### Overrides -/

/-- A symbol that has a name among the properties of a type. -/
def HasProperty (t : TypeId) (name : String) (m : SymbolId) : Prop :=
  ∃ ms, env.checker.propertiesOfType t = .ok ms ∧ m ∈ ms ∧ env.checker.symbolName m = .ok name

/-- The property that base types have under a name: it belongs to the first base type that has any,
and is the first of that type. -/
def IsBaseProperty (bases : List TypeId) (name : String) (base : BaseProperty) : Prop :=
  (∃ before after, bases = before ++ base.base :: after ∧
    ∀ u ∈ before, ∀ m, ¬ env.HasProperty u name m) ∧
  ∃ before after, env.checker.propertiesOfType base.base = .ok (before ++ base.symbol :: after) ∧
    env.checker.symbolName base.symbol = .ok name ∧
    ∀ m ∈ before, env.checker.symbolName m ≠ .ok name

/-- A symbol that stands among the members of another and is neither a marker, a constructor nor a
signature. -/
def IsOwnMember (owner m : SymbolId) : Prop :=
  (∃ ms, env.checker.membersOf owner = .ok ms ∧ m ∈ ms) ∧
  ∃ flags : SymbolFlags, env.checker.symbolFlags m = .ok flags ∧ flags.has .prototype = false ∧
    flags.has .constructor = false ∧ flags.has .signature = false

/-- The base types of a class or interface. -/
def HasBases (owner : SymbolId) (bases : List TypeId) : Prop :=
  ∃ (flags : SymbolFlags) (declared : TypeId), env.checker.symbolFlags owner = .ok flags ∧
    flags.hasAny [.classSymbol, .interfaceSymbol] = true ∧
    env.checker.declaredTypeOfSymbol owner = .ok declared ∧
    env.checker.baseTypes declared = .ok bases

/-- A member of a class or interface that has the name of a property of a base type. -/
def Overrides (owner m : SymbolId) (base : BaseProperty) : Prop :=
  env.IsOwnMember owner m ∧
  ∃ bases name, env.HasBases owner bases ∧ env.checker.symbolName m = .ok name ∧
    env.IsBaseProperty bases name base

variable {env}

/-- The table entries of one base type answer with its first property of a name, or the type has none
of that name. -/
theorem lookup_entries {u : TypeId} {name : String} {ms : List SymbolId}
    {entries : List (String × BaseProperty)}
    (h : (ms.mapM fun m => do return (← env.checker.symbolName m, ({ symbol := m, base := u } :
      BaseProperty))) = .ok entries) :
    (∀ base, entries.lookup name = some base → base.base = u ∧
      ∃ before after, ms = before ++ base.symbol :: after ∧
        env.checker.symbolName base.symbol = .ok name ∧
        ∀ m ∈ before, env.checker.symbolName m ≠ .ok name) ∧
    (entries.lookup name = none → ∀ m ∈ ms, env.checker.symbolName m ≠ .ok name) := by
  induction ms generalizing entries with
  | nil =>
    obtain rfl : entries = [] := by simpa [pure, Except.pure] using h.symm
    simp
  | cons m ms ih =>
    rw [List.mapM_cons, bind_eq_ok_iff] at h
    obtain ⟨entry, hentry, h⟩ := h
    obtain ⟨own, hown, rfl⟩ := map_eq_ok_iff.1 hentry
    obtain ⟨rest, hrest, rfl⟩ := map_eq_ok_iff.1 h
    obtain ⟨hsome, hnone⟩ := ih hrest
    -- the first entry of the name counts, so the properties before it have other names
    by_cases hname : name = own
    · subst hname
      refine ⟨fun base hbase => ?_, fun hbase => by simp at hbase⟩
      obtain rfl : { symbol := m, base := u } = base := by simpa using hbase
      exact ⟨rfl, [], ms, rfl, hown, by simp⟩
    · have hne : (name == own) = false := by simpa using hname
      refine ⟨fun base hbase => ?_, fun hbase => ?_⟩
      · rw [List.lookup_cons, hne] at hbase
        obtain ⟨hu, before, after, rfl, hb, hbefore⟩ := hsome base hbase
        refine ⟨hu, m :: before, after, rfl, hb, ?_⟩
        rintro m' (_ | ⟨_, hm'⟩)
        · rw [hown]
          exact fun heq => hname (Except.ok.inj heq).symm
        · exact hbefore m' hm'
      · rw [List.lookup_cons, hne] at hbase
        rintro m' (_ | ⟨_, hm'⟩)
        · rw [hown]
          exact fun heq => hname (Except.ok.inj heq).symm
        · exact hnone hbase m' hm'

/-- **The table of base properties** answers with the property that counts, or no base type has one
of that name. -/
theorem lookup_baseProperties {bases : List TypeId} {name : String}
    {table : List (String × BaseProperty)} (h : env.baseProperties bases = .ok table) :
    (∀ base, table.lookup name = some base → env.IsBaseProperty bases name base) ∧
    (table.lookup name = none → ∀ u ∈ bases, ∀ m, ¬ env.HasProperty u name m) := by
  induction bases generalizing table with
  | nil =>
    obtain rfl : table = [] := by
      simpa [baseProperties, bind, Except.bind, pure, Except.pure] using h.symm
    simp
  | cons u bases ih =>
    obtain ⟨found, hfound, rfl⟩ := map_eq_ok_iff.1 h
    rw [List.mapM_cons, bind_eq_ok_iff] at hfound
    obtain ⟨entries, hentries, hfound⟩ := hfound
    obtain ⟨ms, hms, hentries⟩ := bind_eq_ok_iff.1 hentries
    obtain ⟨rest, hrest, rfl⟩ := map_eq_ok_iff.1 hfound
    obtain ⟨hsome, hnone⟩ := ih (map_eq_ok_iff.2 ⟨rest, hrest, rfl⟩)
    obtain ⟨hsome', hnone'⟩ := @lookup_entries _ _ name _ _ hentries
    have hlack : entries.lookup name = none → ∀ m, ¬ env.HasProperty u name m := by
      rintro hl m ⟨ms', hms', hm, hname⟩
      obtain rfl : ms = ms' := Except.ok.inj (hms.symm.trans hms')
      exact hnone' hl m hm hname
    rw [List.flatten_cons, List.lookup_append]
    -- an earlier base type hides the later ones
    cases hl : entries.lookup name with
    | some own =>
      refine ⟨fun base hbase => ?_, by simp⟩
      obtain rfl : own = base := by simpa using hbase
      obtain ⟨rfl, before, after, rfl, hb, hbefore⟩ := hsome' own hl
      exact ⟨⟨[], bases, rfl, by simp⟩, before, after, hms, hb, hbefore⟩
    | none =>
      simp only [Option.none_or]
      refine ⟨fun base hbase => ?_, fun hbase => ?_⟩
      · obtain ⟨⟨before, after, rfl, hbefore⟩, hprops⟩ := hsome base hbase
        refine ⟨⟨u :: before, after, rfl, ?_⟩, hprops⟩
        rintro u' (_ | ⟨_, hu'⟩)
        · exact hlack hl
        · exact hbefore u' hu'
      · rintro u' (_ | ⟨_, hu'⟩)
        · exact hlack hl
        · exact hnone hbase u' hu'

/-- Two splits of a list at a first element with a property are the same. -/
theorem eq_of_append_cons_eq {α : Type} {p : α → Prop} {as as' bs bs' : List α} {b b' : α}
    (h : as ++ b :: bs = as' ++ b' :: bs') (has : ∀ a ∈ as, ¬ p a) (has' : ∀ a ∈ as', ¬ p a)
    (hb : p b) (hb' : p b') : b = b' := by
  induction as generalizing as' with
  | nil =>
    cases as' with
    | nil => exact (List.cons.inj h).1
    | cons a' as' =>
      have heq : b = a' := (List.cons.inj h).1
      exact absurd (heq ▸ hb) (has' a' (by simp))
  | cons a as ih =>
    cases as' with
    | nil =>
      have heq : a = b' := (List.cons.inj h).1
      exact absurd (heq ▸ hb') (has a (by simp))
    | cons a' as' =>
      exact ih (List.cons.inj h).2 (fun x hx => has x (by simp [hx]))
        (fun x hx => has' x (by simp [hx]))

/-- At most one property counts. -/
theorem IsBaseProperty.unique {bases : List TypeId} {name : String} {base base' : BaseProperty}
    (h : env.IsBaseProperty bases name base) (h' : env.IsBaseProperty bases name base') :
    base = base' := by
  obtain ⟨⟨before, after, hbases, hbefore⟩, own, others, hprops, hname, hown⟩ := h
  obtain ⟨⟨before', after', hbases', hbefore'⟩, own', others', hprops', hname', hown'⟩ := h'
  have hu : base.base = base'.base :=
    eq_of_append_cons_eq (p := fun u => ∃ m, env.HasProperty u name m)
      (hbases.symm.trans hbases') (fun u hu ⟨m, hm⟩ => hbefore u hu m hm)
      (fun u hu ⟨m, hm⟩ => hbefore' u hu m hm) ⟨_, _, hprops, by simp, hname⟩
      ⟨_, _, hprops', by simp, hname'⟩
  rw [hu, hprops'] at hprops
  have hm : base.symbol = base'.symbol :=
    eq_of_append_cons_eq (p := fun m => env.checker.symbolName m = .ok name)
      (Except.ok.inj hprops).symm hown hown' hname hname'
  cases base
  cases base'
  simp_all

theorem HasBases.unique {owner : SymbolId} {bases bases' : List TypeId} (h : env.HasBases owner bases)
    (h' : env.HasBases owner bases') : bases = bases' := by
  obtain ⟨_, declared, -, -, hd, hb⟩ := h
  obtain ⟨_, declared', -, -, hd', hb'⟩ := h'
  obtain rfl : declared = declared' := Except.ok.inj (hd.symm.trans hd')
  exact Except.ok.inj (hb.symm.trans hb')

/-- A member of one class overrides at most one property. -/
theorem Overrides.unique {owner m : SymbolId} {base base' : BaseProperty}
    (h : env.Overrides owner m base) (h' : env.Overrides owner m base') : base = base' := by
  obtain ⟨-, bases, name, hbases, hname, hbase⟩ := h
  obtain ⟨-, bases', name', hbases', hname', hbase'⟩ := h'
  obtain rfl := hbases.unique hbases'
  obtain rfl : name = name' := Except.ok.inj (hname.symm.trans hname')
  exact hbase.unique hbase'

/-! ### Mentions -/

variable (env)

/-- A declaration of a symbol. -/
def Declares (m : SymbolId) (d : NodeId) : Prop :=
  env.checker.valueDeclaration m = .ok (some d) ∨
    ∃ ds, env.checker.declarations m = .ok ds ∧ d ∈ ds

/-- The types that belong to some type parameters. -/
inductive InTypeParameters (ts : List TypeId) : Entity → Prop
  | parameter {t} : t ∈ ts → InTypeParameters ts (.type t)
  | constraint {t u} : t ∈ ts → env.checker.constraintOf t = .ok (some u) → InTypeParameters ts (.type u)
  | default {t u} : t ∈ ts → env.checker.defaultOf t = .ok (some u) → InTypeParameters ts (.type u)

/-- The types that a signature is made of. -/
inductive InSignature (sig : SignatureId) : Entity → Prop
  | typeParameter {ts e} : env.checker.signatureTypeParameters sig = .ok ts →
      env.InTypeParameters ts e → InSignature sig e
  | parameter {ms m d t} : env.checker.signatureParameters sig = .ok ms → m ∈ ms →
      env.checker.typeOfSymbolAtLocation m d = .ok t → InSignature sig (.type t)
  | receiver {m d t} : env.checker.signatureThisParameter sig = .ok (some m) →
      env.checker.typeOfSymbolAtLocation m d = .ok t → InSignature sig (.type t)
  | result {t} : env.checker.returnType sig = .ok t → InSignature sig (.type t)

/-- The answers about one type or symbol name another in a way that resolving may follow. -/
inductive Mentions : Entity → Entity → Prop
  -- what a type is made of
  | element {t u} : env.checker.elementTypeOfArray t = .ok u → Mentions (.type t) (.type u)
  | argument {t us u} : env.checker.typeArguments t = .ok us → u ∈ us → Mentions (.type t) (.type u)
  | target {t u} : env.checker.referenceTarget t = .ok (some u) → Mentions (.type t) (.type u)
  | operand {t us u} : env.checker.operandTypes t = .ok us → u ∈ us → Mentions (.type t) (.type u)
  | conditional {t root u} : env.checker.conditionalRoot t = .ok (some root) →
      u ∈ [root.check, root.bound, root.whenTrue, root.whenFalse] → Mentions (.type t) (.type u)
  | indexedAccess {t parts u} : env.checker.indexedAccessParts t = .ok (some parts) →
      u ∈ [parts.1, parts.2] → Mentions (.type t) (.type u)
  | indexOperand {t u} : env.checker.indexOperand t = .ok (some u) → Mentions (.type t) (.type u)
  | substitution {t u} : env.checker.substitutionBase t = .ok (some u) → Mentions (.type t) (.type u)
  | property {t ms m} : env.checker.propertiesOfType t = .ok ms → m ∈ ms →
      Mentions (.type t) (.symbol m)
  | typeSymbol {t m} : env.checker.typeSymbol t = .ok (some m) → Mentions (.type t) (.symbol m)
  | callSignature {t sigs sig e} : env.checker.callSignatures t = .ok sigs → sig ∈ sigs →
      env.InSignature sig e → Mentions (.type t) e
  -- what a symbol is made of
  | valueType {m d t} : env.checker.typeOfSymbolAtLocation m d = .ok t → Mentions (.symbol m) (.type t)
  | declaredType {m t} : env.checker.declaredTypeOfSymbol m = .ok t → Mentions (.symbol m) (.type t)
  | typeParameter {m ts e} : env.checker.declaredTypeParameters m = .ok ts →
      env.InTypeParameters ts e → Mentions (.symbol m) e
  | signature {m d sig e} : env.Declares m d → env.checker.signatureFromDeclaration d = .ok sig →
      env.InSignature sig e → Mentions (.symbol m) e
  | implemented {m d es n t} : env.Declares m d → env.checker.implementsClause d = .ok es → n ∈ es →
      env.checker.typeAtLocation n = .ok t → Mentions (.symbol m) (.type t)
  | exported {m ms m'} : env.checker.exportsOf m = .ok ms → m' ∈ ms → Mentions (.symbol m) (.symbol m')
  | member {m ms m'} : env.checker.membersOf m = .ok ms → m' ∈ ms → Mentions (.symbol m) (.symbol m')
  | base {m bases u} : env.HasBases m bases → u ∈ bases → Mentions (.symbol m) (.type u)
  | baseProperty {m bases u ms m'} : env.HasBases m bases → u ∈ bases →
      env.checker.propertiesOfType u = .ok ms → m' ∈ ms → Mentions (.symbol m) (.symbol m')
  | inherited {m t ms m'} : env.checker.declaredTypeOfSymbol m = .ok t →
      env.checker.propertiesOfType t = .ok ms → m' ∈ ms → Mentions (.symbol m) (.symbol m')
  | overridden {owner m base} : env.Overrides owner m base → Mentions (.symbol m) (.symbol base.symbol)
  | overriddenIn {owner m base} : env.Overrides owner m base → Mentions (.symbol m) (.type base.base)

/-- Some chain of mentions goes from one type or symbol to another. -/
def LeadsTo : Entity → Entity → Prop := Relation.ReflTransGen env.Mentions

variable {env}

theorem InTypeParameters.mono {us ts : List TypeId} {e : Entity} (h : env.InTypeParameters us e) (hsub : us ⊆ ts) :
    env.InTypeParameters ts e := by
  cases h with
  | parameter hu => exact .parameter (hsub hu)
  | constraint hu hconstraint => exact .constraint (hsub hu) hconstraint
  | default hu hdefault => exact .default (hsub hu) hdefault

end Environment

end ApiDoc
