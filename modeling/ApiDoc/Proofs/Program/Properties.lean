import ApiDoc.Program.Tables
import ApiDoc.Proofs.Run.Answers

/-!
# The properties of a class

A class or interface has the properties of its own symbol, and behind them those that it inherits: base by base, each
property of the base whose name is not listed by then (`Program.ClassProperties`).  What a program answers is just
that, however deep the bases go (`Program.classProperties_of_properties`).
-/

namespace ApiDoc

/-- A symbol has one of some flags. -/
def Checker.isFlagged (checker : Checker) (fs : List SymbolFlag) (m : SymbolId) : Bool :=
  (checker.symbolFlags m).toOption.any (·.hasAny fs)

theorem Checker.isFlagged_eq {checker : Checker} {m : SymbolId} {flags : SymbolFlags}
    (h : checker.symbolFlags m = .ok flags) (fs : List SymbolFlag) : checker.isFlagged fs m = flags.hasAny fs := by
  simp [isFlagged, h, Except.toOption]

theorem Checker.isFlagged_cons (checker : Checker) (f : SymbolFlag) (fs : List SymbolFlag) (m : SymbolId) :
    checker.isFlagged (f :: fs) m = (checker.isFlagged [f] m || checker.isFlagged fs m) := by
  cases hflags : checker.symbolFlags m with
  | ok flags => simp [isFlagged_eq hflags, FlagSet.hasAny]
  | error e => simp [isFlagged, hflags, Except.toOption]

namespace Program

variable (p : Program)

/-- Two symbols have one name. -/
def SameName (m m' : SymbolId) : Prop :=
  ∃ name, p.checker.symbolName m = .ok name ∧ p.checker.symbolName m' = .ok name

/-- What some properties add to those that are listed already: each whose name is new by then, in order. -/
inductive AddsNew : List SymbolId → List SymbolId → List SymbolId → Prop
  | none (listed : List SymbolId) : AddsNew listed [] []
  | known {listed rest added : List SymbolId} {m : SymbolId} (h : ∃ m' ∈ listed, p.SameName m' m)
      (hrest : AddsNew listed rest added) : AddsNew listed (m :: rest) added
  | new {listed rest added : List SymbolId} {m : SymbolId} (h : ∀ m' ∈ listed, ¬ p.SameName m' m)
      (hrest : AddsNew (listed ++ [m]) rest added) : AddsNew listed (m :: rest) (m :: added)

/-- The type of a class or interface, with its symbol if it has one. -/
def IsClassType (t : TypeId) (owner : Option SymbolId) : Prop :=
  (∃ flags : ObjectFlags, p.checker.objectFlags t = .ok flags ∧ flags.hasAny ObjectFlag.classOrInterface = true) ∧
    p.checker.typeSymbol t = .ok owner

/-- The properties of the symbol of a class: its members, but for constructors and signatures. -/
def OwnProperties : Option SymbolId → List SymbolId → Prop
  | some owner, own => ∃ ms, p.checker.membersOf owner = .ok ms ∧
      own = ms.filter fun m => !p.checker.isFlagged [.constructor, .signature] m
  | none, own => own = []

/-- The properties of a type.  A type that is not a class or an interface has those of the type behind it, or else
those that are listed with it. -/
inductive HasProperties : TypeId → List SymbolId → Prop
  | ofClass {t : TypeId} {owner : Option SymbolId} {bases : List TypeId} {own inherited : List SymbolId}
      {each : List (List SymbolId)} (htype : p.IsClassType t owner) (hown : p.OwnProperties owner own)
      (hbases : p.checker.baseTypes t = .ok bases) (heach : List.Forall₂ HasProperties bases each)
      (hnew : p.AddsNew own each.flatten inherited) : HasProperties t (own ++ inherited)
  | behind {t target : TypeId} {ms : List SymbolId} (htype : ∀ owner, ¬ p.IsClassType t owner)
      (htarget : p.checker.referenceTarget t = .ok (some target)) (hne : target ≠ t) (h : HasProperties target ms) :
      HasProperties t ms
  | listed {t : TypeId} {data : TypeData} (htype : ∀ owner, ¬ p.IsClassType t owner)
      (htarget : ∀ target, p.checker.referenceTarget t = .ok (some target) → target = t) (hdata : p.type t = .ok data) :
      HasProperties t data.properties

/-- **The properties of a class**: its own, and behind them those that it inherits, base by base, of which each has a
name that is not listed by then. -/
structure ClassProperties (t : TypeId) (owner : Option SymbolId) (own inherited : List SymbolId) : Prop where
  lists : p.OwnProperties owner own
  inherits : ∃ bases each, p.checker.baseTypes t = .ok bases ∧ List.Forall₂ p.HasProperties bases each ∧
    p.AddsNew own each.flatten inherited

variable {p} {t : TypeId} {owner : Option SymbolId} {listed ms ms' added added' all : List SymbolId} {fuel : Nat}

theorem OwnProperties.unique {own own' : List SymbolId} (h : p.OwnProperties owner own)
    (h' : p.OwnProperties owner own') : own = own' := by
  cases owner with
  | none => exact h.trans h'.symm
  | some m =>
    obtain ⟨ms, hms, rfl⟩ := h
    obtain ⟨ms', hms', rfl⟩ := h'
    rw [Except.ok.inj (hms.symm.trans hms')]

theorem AddsNew.append (h : p.AddsNew listed ms added) (h' : p.AddsNew (listed ++ added) ms' added') :
    p.AddsNew listed (ms ++ ms') (added ++ added') := by
  induction h with
  | none listed => simpa using h'
  | known hknown _ ih => exact .known hknown (ih h')
  | new hnew _ ih => exact .new hnew (ih (by simpa using h'))

theorem isProperty_eq_ok {m : SymbolId} {b : Bool} (h : p.isProperty m = .ok b) :
    b = !p.checker.isFlagged [.constructor, .signature] m := by
  obtain ⟨data, hdata, rfl⟩ := map_eq_ok_iff.1 h
  have hflags : p.checker.symbolFlags m = .ok data.flags := map_eq_ok_iff.2 ⟨data, hdata, rfl⟩
  rw [Checker.isFlagged_eq hflags]

theorem addsNew_of_addInherited (h : p.addInherited listed ms = .ok all) :
    ∃ added, all = listed ++ added ∧ p.AddsNew listed ms added := by
  induction ms generalizing listed with
  | nil =>
    obtain rfl : listed = all := Except.ok.inj h
    exact ⟨[], by simp, .none listed⟩
  | cons m ms ih =>
    obtain ⟨data, hdata, h⟩ := bind_eq_ok_iff.1 h
    obtain ⟨names, hnames, h⟩ := bind_eq_ok_iff.1 h
    have hname : p.checker.symbolName m = .ok data.name := map_eq_ok_iff.2 ⟨data, hdata, rfl⟩
    have hlisted : data.name ∈ names ↔ ∃ m' ∈ listed, p.SameName m' m := by
      rw [mem_mapM_iff hnames]
      constructor
      · rintro ⟨m', hm', hsame⟩
        exact ⟨m', hm', data.name, hsame, hname⟩
      · rintro ⟨m', hm', name, hsame, hname'⟩
        obtain rfl := Except.ok.inj (hname.symm.trans hname')
        exact ⟨m', hm', hsame⟩
    split at h
    · next hmem =>
      obtain ⟨added, rfl, hadded⟩ := ih h
      exact ⟨added, rfl, .known (hlisted.1 (by simpa using hmem)) hadded⟩
    · next hmem =>
      obtain ⟨added, rfl, hadded⟩ := ih h
      refine ⟨m :: added, by simp, .new (fun m' hm' hsame => hmem ?_) hadded⟩
      simpa using hlisted.2 ⟨m', hm', hsame⟩

/-- What each base adds to the properties of a class. -/
theorem addsNew_of_bases {bases : List TypeId} (h : bases.foldlM (fun properties base => do
      p.addInherited properties (← p.propertiesWithin fuel base)) listed = .ok all) :
    ∃ each added, all = listed ++ added ∧
      List.Forall₂ (fun base ms => p.propertiesWithin fuel base = .ok ms) bases each ∧
      p.AddsNew listed each.flatten added := by
  induction bases generalizing listed with
  | nil =>
    obtain rfl : listed = all := Except.ok.inj h
    exact ⟨[], [], by simp, .nil, .none listed⟩
  | cons base bases ih =>
    rw [List.foldlM_cons] at h
    obtain ⟨next, hnext, h⟩ := bind_eq_ok_iff.1 h
    obtain ⟨ms, hms, hnext⟩ := bind_eq_ok_iff.1 hnext
    obtain ⟨added, rfl, hadded⟩ := addsNew_of_addInherited hnext
    obtain ⟨each, added', rfl, heach, hadded'⟩ := ih h
    exact ⟨ms :: each, added ++ added', by simp, .cons hms heach, hadded.append hadded'⟩

/-- One level of the properties of a class. -/
theorem classProperties_of_within (h : p.propertiesWithin (fuel + 1) t = .ok all) (ht : p.IsClassType t owner)
    (hbases : ∀ base ms, p.propertiesWithin fuel base = .ok ms → p.HasProperties base ms) :
    ∃ own inherited, all = own ++ inherited ∧ p.ClassProperties t owner own inherited := by
  obtain ⟨⟨flags, hflags, hkind⟩, howner⟩ := ht
  obtain ⟨data, hdata, h⟩ := bind_eq_ok_iff.1 h
  have hask {α : Type} {f : TypeData → α} {a : α} (ha : (do return f (← p.type t)) = .ok a) : f data = a := by
    obtain ⟨data', hdata', rfl⟩ := map_eq_ok_iff.1 ha
    rw [Except.ok.inj (hdata.symm.trans hdata')]
  obtain rfl : data.objectFlags = flags := hask hflags
  obtain rfl : data.symbol = owner := hask howner
  rw [if_pos hkind] at h
  have hsplit {own : List SymbolId} (hown : p.OwnProperties data.symbol own)
      (h : data.baseTypes.foldlM (fun properties base => do
        p.addInherited properties (← p.propertiesWithin fuel base)) own = .ok all) :
      ∃ own inherited, all = own ++ inherited ∧ p.ClassProperties t data.symbol own inherited := by
    obtain ⟨each, inherited, rfl, heach, hnew⟩ := addsNew_of_bases h
    exact ⟨own, inherited, rfl, hown, data.baseTypes, each, map_eq_ok_iff.2 ⟨data, hdata, rfl⟩,
      heach.imp fun base ms hms => hbases base ms hms, hnew⟩
  cases hsymbol : data.symbol with
  | none =>
    rw [hsymbol] at h
    exact hsymbol ▸ hsplit (hsymbol ▸ rfl) h
  | some m =>
    rw [hsymbol] at h
    obtain ⟨ownerData, hownerData, h⟩ := bind_eq_ok_iff.1 h
    obtain ⟨own, hown, h⟩ := bind_eq_ok_iff.1 h
    refine hsymbol ▸ hsplit ?_ h
    rw [hsymbol]
    exact ⟨_, map_eq_ok_iff.2 ⟨ownerData, hownerData, rfl⟩, eq_filter_of_filterM (fun m _ => isProperty_eq_ok) hown⟩

theorem ClassProperties.hasProperties {own inherited : List SymbolId} (h : p.ClassProperties t owner own inherited)
    (ht : p.IsClassType t owner) : p.HasProperties t (own ++ inherited) := by
  obtain ⟨bases, each, hbases, heach, hnew⟩ := h.inherits
  exact .ofClass ht h.lists hbases heach hnew

/-- What is found within any number of steps are the properties of the type. -/
theorem hasProperties_of_within (h : p.propertiesWithin fuel t = .ok all) : p.HasProperties t all := by
  induction fuel generalizing t all with
  | zero => cases h
  | succ fuel ih =>
    by_cases hclass : ∃ owner, p.IsClassType t owner
    · obtain ⟨owner, ht⟩ := hclass
      obtain ⟨own, inherited, rfl, hproperties⟩ := classProperties_of_within h ht fun _ _ => ih
      exact hproperties.hasProperties ht
    · replace hclass (owner : Option SymbolId) : ¬ p.IsClassType t owner := fun ht => hclass ⟨owner, ht⟩
      obtain ⟨data, hdata, h⟩ := bind_eq_ok_iff.1 h
      have hanswer {α : Type} (f : TypeData → α) : (do return f (← p.type t)) = (.ok (f data) : Answer α) :=
        map_eq_ok_iff.2 ⟨data, hdata, rfl⟩
      have hkind : ¬ data.objectFlags.hasAny ObjectFlag.classOrInterface = true := fun hkind =>
        hclass data.symbol ⟨⟨data.objectFlags, hanswer _, hkind⟩, hanswer _⟩
      rw [if_neg hkind] at h
      have hlisted (htarget : ∀ target, data.target = some target → target = t) : p.HasProperties t data.properties :=
        .listed hclass (fun target h => htarget target (Except.ok.inj ((hanswer TypeData.target).symm.trans h))) hdata
      cases htarget : data.target with
      | none =>
        rw [htarget] at h
        obtain rfl : data.properties = all := Except.ok.inj h
        exact hlisted (by simp [htarget])
      | some target =>
        rw [htarget] at h
        dsimp only at h
        split at h
        · next hself =>
          obtain rfl : data.properties = all := Except.ok.inj h
          exact hlisted fun target' h' => (Option.some.inj (htarget.symm.trans h')) ▸ hself
        · next hne => exact .behind hclass ((hanswer TypeData.target).trans (by rw [htarget])) hne (ih h)

/-- **What a program answers** about the properties of a class type are those of the class. -/
theorem classProperties_of_properties (h : p.checker.propertiesOfType t = .ok all) (ht : p.IsClassType t owner) :
    ∃ own inherited, all = own ++ inherited ∧ p.ClassProperties t owner own inherited :=
  classProperties_of_within h ht fun _ _ => hasProperties_of_within

end Program

end ApiDoc
