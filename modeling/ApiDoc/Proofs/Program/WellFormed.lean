import ApiDoc.Program.Tables
import ApiDoc.Proofs.Failure.Knowledge
import ApiDoc.Proofs.Run.Queries
import Mathlib.Data.Finset.Card

/-!
# Well-formed programs

A program in memory is well formed if all handles in its tables are in range and the positions of nodes
lie between characters, and its chains end if no node lies around itself, no type stands for itself,
inherits from itself, and no class is nested in itself.  The checker of such a program knows its own
handles and fails only where it may (`Program.covers`): every bounded search along a chain comes to
its end, since the rank of a handle, the number of handles further along, goes down with each link.
-/

namespace ApiDoc

/-! ### Chains -/

/-- Nothing leads back to itself. -/
def Acyclic {α : Type} (R : α → α → Prop) : Prop := ∀ a, ¬ Relation.TransGen R a a

theorem acyclic_of_lt {α : Type} {R : α → α → Prop} (f : α → Nat) (h : ∀ a b, R a b → f b < f a) :
    Acyclic R := by
  have hlt : ∀ {a b}, Relation.TransGen R a b → f b < f a := by
    intro a b hab
    induction hab with
    | single hab => exact h _ _ hab
    | tail _ hbc ih => exact Nat.lt_trans (h _ _ hbc) ih
  exact fun a ha => Nat.lt_irrefl _ (hlt ha)

open Classical in
/-- How many of the first items can be reached. -/
noncomputable def rank {α : Type} (R : α → α → Prop) (item : Nat → α) (n : Nat) (a : α) : Nat :=
  ((Finset.range n).filter fun i => Relation.TransGen R a (item i)).card

theorem rank_le {α : Type} (R : α → α → Prop) (item : Nat → α) (n : Nat) (a : α) :
    rank R item n a ≤ n := by
  classical
  calc rank R item n a ≤ (Finset.range n).card := Finset.card_filter_le _ _
    _ = n := Finset.card_range n

/-- The rank goes down with each link. -/
theorem rank_lt {α : Type} {R : α → α → Prop} {item : Nat → α} {n i : Nat} {a : α}
    (hR : Acyclic R) (hi : i < n) (h : R a (item i)) : rank R item n (item i) < rank R item n a := by
  classical
  refine Finset.card_lt_card (Finset.ssubset_iff_of_subset ?_ |>.2 ⟨i, ?_, ?_⟩)
  · intro j hj
    simp only [Finset.mem_filter] at hj ⊢
    exact ⟨hj.1, hj.2.head h⟩
  · simpa [hi] using Relation.TransGen.single h
  · simp [hR (item i)]

/-! ### Tables -/

/-- The handles of a file are known. -/
structure FileData.IsKnown (D : Domain) (data : FileData) : Prop where
  node : D.node data.node
  symbol : D.symbol data.symbol
  locals : ∀ m ∈ data.locals, D.symbol m

/-- The handles of a symbol are known. -/
structure SymbolData.IsKnown (D : Domain) (data : SymbolData) : Prop where
  declarations : ∀ n ∈ data.declarations, D.node n
  valueDeclaration : ∀ n ∈ data.valueDeclaration, D.node n
  exportsOf : ∀ m ∈ data.exportsOf, D.symbol m
  membersOf : ∀ m ∈ data.membersOf, D.symbol m
  parent : ∀ m ∈ data.parent, D.symbol m
  type : ∀ t ∈ data.type, D.type t
  declaredType : ∀ t ∈ data.declaredType, D.type t
  typeParameters : ∀ t ∈ data.typeParameters, D.type t

/-- The handles of a type are known. -/
structure TypeData.IsKnown (D : Domain) (data : TypeData) : Prop where
  symbol : ∀ m ∈ data.symbol, D.symbol m
  target : ∀ t ∈ data.target, D.type t
  arguments : ∀ t ∈ data.arguments, D.type t
  operands : ∀ t ∈ data.operands, D.type t
  conditional : ∀ root ∈ data.conditional,
    D.type root.check ∧ D.type root.bound ∧ D.type root.whenTrue ∧ D.type root.whenFalse
  indexedAccess : ∀ parts ∈ data.indexedAccess, D.type parts.1 ∧ D.type parts.2
  indexOperand : ∀ t ∈ data.indexOperand, D.type t
  substitutionBase : ∀ t ∈ data.substitutionBase, D.type t
  constraint : ∀ t ∈ data.constraint, D.type t
  default : ∀ t ∈ data.default, D.type t
  baseTypes : ∀ t ∈ data.baseTypes, D.type t
  properties : ∀ m ∈ data.properties, D.symbol m
  callSignatures : ∀ sig ∈ data.callSignatures, D.signature sig
  element : ∀ t ∈ data.element, D.type t

/-- The handles of a signature are known. -/
structure SignatureData.IsKnown (D : Domain) (data : SignatureData) : Prop where
  declaration : ∀ n ∈ data.declaration, D.node n
  typeParameters : ∀ t ∈ data.typeParameters, D.type t
  parameters : ∀ m ∈ data.parameters, D.symbol m
  thisParameter : ∀ m ∈ data.thisParameter, D.symbol m
  returnType : D.type data.returnType

/-- The handles of a node are known. -/
structure NodeData.IsKnown (D : Domain) (data : NodeData) : Prop where
  parent : ∀ n ∈ data.parent, D.node n
  file : D.file data.file
  implements : ∀ n ∈ data.implements, D.node n
  signature : ∀ sig ∈ data.signature, D.signature sig
  typeAt : ∀ t ∈ data.typeAt, D.type t
  symbol : ∀ m ∈ data.symbol, D.symbol m

namespace Program

variable (p : Program)

/-- The handles in range. -/
def domain : Domain where
  file f := f.index < p.files.size
  symbol m := m.index < p.symbols.size
  type t := t.index < p.types.size
  signature sig := sig.index < p.signatures.size
  node n := n.index < p.nodes.size

/-- The node around another. -/
def IsParent (n n' : NodeId) : Prop :=
  ∃ data, p.nodes.get? n.index = some data ∧ data.parent = some n'

/-- The type that a substitution stands for. -/
def IsSubstitute (t t' : TypeId) : Prop :=
  ∃ data, p.types.get? t.index = some data ∧ data.substitutionBase = some t'

/-- A type that another has its properties from: what a class or interface extends, or the generic type
behind any other, unless that is the type itself. -/
def InheritsFrom (t t' : TypeId) : Prop :=
  ∃ data, p.types.get? t.index = some data ∧
    if data.objectFlags.hasAny ObjectFlag.classOrInterface then t' ∈ data.baseTypes
    else data.target = some t' ∧ t' ≠ t

/-- All handles are in range, and nodes are positioned between characters of the file that they, or the
nodes within them, belong to. -/
structure WellFormed : Prop where
  file {i data} : p.files.get? i = some data → data.IsKnown p.domain
  symbol {i data} : p.symbols.get? i = some data → data.IsKnown p.domain
  type {i data} : p.types.get? i = some data → data.IsKnown p.domain
  signature {i data} : p.signatures.get? i = some data → data.IsKnown p.domain
  node {i data} : p.nodes.get? i = some data → data.IsKnown p.domain
  boundary {n n' data data' file} : p.nodes.get? n.index = some data →
    p.files.get? data.file.index = some file → Relation.ReflTransGen p.IsParent n n' →
    p.nodes.get? n'.index = some data' → Text.IsBoundary file.text.toList data'.span.pos

variable {p}

/-- Errors that are the checker's. -/
def IsReported (e : Error) : Prop := e.ofChecker = true

/-! ### Looking up handles -/

theorem exists_get? {α : Type} {a : Arena α} {i : Nat} (h : i < a.size) : ∃ data, a.get? i = some data := by
  by_contra hnone
  have hle := Arena.get?_eq_none_iff.1 (Option.eq_none_iff_forall_ne_some.2 fun d hd => hnone ⟨d, hd⟩)
  omega

variable {fail : Error → Prop}

theorem meets_file {f : FileId} (h : p.domain.file f) :
    Meets fail (p.file f) fun data => p.files.get? f.index = some data := by
  obtain ⟨data, hdata⟩ := exists_get? h
  simp only [Program.file, hdata]
  exact rfl

theorem meets_symbol {m : SymbolId} (h : p.domain.symbol m) :
    Meets fail (p.symbol m) fun data => p.symbols.get? m.index = some data := by
  obtain ⟨data, hdata⟩ := exists_get? h
  simp only [Program.symbol, hdata]
  exact rfl

theorem meets_type {t : TypeId} (h : p.domain.type t) :
    Meets fail (p.type t) fun data => p.types.get? t.index = some data := by
  obtain ⟨data, hdata⟩ := exists_get? h
  simp only [Program.type, hdata]
  exact rfl

theorem meets_signature {sig : SignatureId} (h : p.domain.signature sig) :
    Meets fail (p.signature sig) fun data => p.signatures.get? sig.index = some data := by
  obtain ⟨data, hdata⟩ := exists_get? h
  simp only [Program.signature, hdata]
  exact rfl

theorem meets_node {n : NodeId} (h : p.domain.node n) :
    Meets fail (p.node n) fun data => p.nodes.get? n.index = some data := by
  obtain ⟨data, hdata⟩ := exists_get? h
  simp only [Program.node, hdata]
  exact rfl

theorem meets_knownSymbol (m : SymbolId) :
    Meets IsReported (p.knownSymbol m) fun data => p.symbols.get? m.index = some data := by
  unfold knownSymbol
  split
  · next hdata => exact hdata
  · exact rfl

theorem meets_knownType (t : TypeId) :
    Meets IsReported (p.knownType t) fun data => p.types.get? t.index = some data := by
  unfold knownType
  split
  · next hdata => exact hdata
  · exact rfl

theorem meets_knownNode (n : NodeId) :
    Meets IsReported (p.knownNode n) fun data => p.nodes.get? n.index = some data := by
  unfold knownNode
  split
  · next hdata =>
    split
    · exact rfl
    · exact hdata
  · exact rfl

theorem meets_orFail {α : Type} {P : α → Prop} {x : Option α} (text : String) (h : ∀ a ∈ x, P a) :
    Meets IsReported (orFail text x) P := by
  cases x with
  | some a => exact h a rfl
  | none => exact rfl

/-! ### Searches along chains -/

theorem meets_isProperty {m : SymbolId} (hm : p.domain.symbol m) :
    Meets fail (p.isProperty m) fun _ => True :=
  (meets_symbol hm).bind fun _ _ _ => .pure trivial

theorem meets_addInherited {own ms : List SymbolId} (hown : ∀ m ∈ own, p.domain.symbol m)
    (hms : ∀ m ∈ ms, p.domain.symbol m) :
    Meets fail (p.addInherited own ms) fun all => ∀ m ∈ all, p.domain.symbol m := by
  induction ms generalizing own with
  | nil => exact hown
  | cons m ms ih =>
    unfold addInherited
    refine (meets_symbol (hms m (by simp))).bind fun data _ _ => ?_
    have hnames : Meets fail (own.mapM fun other => do return (← p.symbol other).name)
        fun names => ∀ name ∈ names, True :=
      .mapM fun other hother => (meets_symbol (hown other hother)).bind fun _ _ _ => .pure trivial
    refine hnames.bind fun names _ _ => ih ?_ fun m' hm' => hms m' (by simp [hm'])
    split
    · exact hown
    · intro m' hm'
      rcases List.mem_append.1 hm' with hm' | hm'
      · exact hown m' hm'
      · obtain rfl := List.mem_singleton.1 hm'
        exact hms m' (by simp)

theorem meets_foldlM {α β : Type} {P : β → Prop} {f : β → α → Answer β} {as : List α} {b : β}
    (hb : P b) (hf : ∀ a ∈ as, ∀ b, P b → Meets fail (f b a) P) : Meets fail (as.foldlM f b) P := by
  induction as generalizing b with
  | nil => exact hb
  | cons a as ih =>
    rw [List.foldlM_cons]
    exact (hf a (by simp) b hb).bind fun b' _ hb' => ih hb' fun a' ha' => hf a' (by simp [ha'])

/-- What a type inherits is found within as many steps as there are types further along. -/
theorem meets_propertiesWithin (hp : p.WellFormed) (hchain : Acyclic p.InheritsFrom) {fuel : Nat}
    {t : TypeId} (ht : p.domain.type t) (hfuel : rank p.InheritsFrom TypeId.mk p.types.size t < fuel) :
    Meets fail (p.propertiesWithin fuel t) fun ms => ∀ m ∈ ms, p.domain.symbol m := by
  induction fuel generalizing t with
  | zero => omega
  | succ fuel ih =>
    unfold propertiesWithin
    refine (meets_type ht).bind fun data _ hdata => ?_
    have hknown := hp.type hdata
    -- one link further along, one step less is enough
    have hnext : ∀ t', p.domain.type t' → p.InheritsFrom t t' →
        Meets fail (p.propertiesWithin fuel t') fun ms => ∀ m ∈ ms, p.domain.symbol m := by
      intro t' ht' hlink
      have hlt := @rank_lt _ _ TypeId.mk p.types.size t'.index _ hchain ht' hlink
      exact ih ht' (Nat.lt_of_lt_of_le hlt (Nat.le_of_lt_succ hfuel))
    split
    · next hclass =>
      have hbases : ∀ own : List SymbolId, (∀ m ∈ own, p.domain.symbol m) →
          Meets fail (data.baseTypes.foldlM (fun properties base => do
            p.addInherited properties (← p.propertiesWithin fuel base)) own)
            fun ms => ∀ m ∈ ms, p.domain.symbol m := by
        refine fun own hown => meets_foldlM hown fun base hbase properties hproperties => ?_
        refine (hnext base (hknown.baseTypes base hbase)
          ⟨data, hdata, by rw [if_pos hclass]; exact hbase⟩).bind fun ms _ hms => ?_
        exact meets_addInherited hproperties hms
      cases hsym : data.symbol with
      | none => exact hbases [] (by simp)
      | some owner =>
        refine (meets_symbol (hknown.symbol owner hsym)).bind fun ownerData _ howner => ?_
        have hmembers := (hp.symbol howner).membersOf
        refine Meets.bind (Meets.filterM fun m hm => meets_isProperty (hmembers m hm)) ?_
        exact fun own _ hown => hbases own fun m hm => hmembers m (hown m hm).1
    · next hclass =>
      cases htarget : data.target with
      | none => exact .pure hknown.properties
      | some target =>
        dsimp only
        split
        · exact .pure hknown.properties
        · next hne =>
          exact hnext target (hknown.target target htarget)
            ⟨data, hdata, by rw [if_neg hclass]; exact ⟨htarget, hne⟩⟩

theorem meets_properties (hp : p.WellFormed) (hchain : Acyclic p.InheritsFrom) {t : TypeId}
    (ht : p.domain.type t) :
    Meets fail (p.properties t) fun ms => ∀ m ∈ ms, p.domain.symbol m :=
  meets_propertiesWithin hp hchain ht (Nat.lt_succ_of_le (rank_le _ _ _ _))

variable (p) in
/-- The program with the comments of the language, under some settings. -/
def environment (config : Config) : Environment := { checker := p.checker, config }

variable {config : Config}

theorem node_eq_ok_iff {n : NodeId} {data : NodeData} :
    p.node n = .ok data ↔ p.nodes.get? n.index = some data := Error.orOutOfBounds_eq_ok_iff

theorem isAround_iff {n n' : NodeId} : (p.environment config).IsAround n n' ↔ p.IsParent n n' := by
  unfold Environment.IsAround IsParent
  rw [show (p.environment config).checker.nodeParent n = (do return (← p.node n).parent) from rfl, map_eq_ok_iff]
  simp only [node_eq_ok_iff]

/-- Where no node is around itself, a search ends within as many steps as there are nodes around. -/
def climb (hparents : Acyclic p.IsParent) (config : Config) : (p.environment config).Climb p.domain fail where
  enough n fuel := rank p.IsParent NodeId.mk p.nodes.size n < fuel
  start _ := Nat.lt_succ_of_le (rank_le _ _ _ _)
  zero _ h := absurd h (Nat.not_lt_zero _)
  step hn' haround h :=
    Nat.lt_of_lt_of_le (rank_lt hparents hn' (isAround_iff.1 haround)) (Nat.le_of_lt_succ h)

/-- A well-formed program answers every query about its handles that may not be refused. -/
theorem knows (hp : p.WellFormed) (hbases : Acyclic p.InheritsFrom) (config : Config) :
    (p.environment config).Knows p.domain where
  fileName h := .of_meets ((meets_file h).map fun _ _ _ => trivial)
  fileText h := .of_meets ((meets_file h).map fun _ _ _ => trivial)
  moduleName h := .of_meets ((meets_file h).map fun _ _ _ => trivial)
  isDeclarationFile h := .of_meets ((meets_file h).map fun _ _ _ => trivial)
  isExternalModule h := .of_meets ((meets_file h).map fun _ _ _ => trivial)
  fileNode h := .of_meets ((meets_file h).map fun _ _ hdata => (hp.file hdata).node)
  fileLocals h := .of_meets ((meets_file h).map fun _ _ hdata => (hp.file hdata).locals)
  resolvedModules h := .of_meets ((meets_file h).map fun _ _ _ => trivial)
  referencedFiles h := .of_meets ((meets_file h).map fun _ _ _ => trivial)
  symbolName h := .of_meets ((meets_symbol h).map fun _ _ _ => trivial)
  symbolFlags h := .of_meets ((meets_symbol h).map fun _ _ _ => trivial)
  declarations h := .of_meets ((meets_symbol h).map fun _ _ hdata => (hp.symbol hdata).declarations)
  valueDeclaration h := .of_meets ((meets_symbol h).map fun _ _ hdata => (hp.symbol hdata).valueDeclaration)
  exportsOf h := .of_meets ((meets_symbol h).map fun _ _ hdata => (hp.symbol hdata).exportsOf)
  membersOf h := .of_meets ((meets_symbol h).map fun _ _ hdata => (hp.symbol hdata).membersOf)
  parentSymbol h := .of_meets ((meets_symbol h).map fun _ _ _ => trivial)
  declaredTypeParameters h := .of_meets ((meets_symbol h).map fun _ _ hdata => (hp.symbol hdata).typeParameters)
  baseTypes h := .of_meets ((meets_type h).map fun _ _ hdata => (hp.type hdata).baseTypes)
  propertiesOfType h := .of_meets (meets_properties hp hbases h)
  callSignatures h := .of_meets ((meets_type h).map fun _ _ hdata => (hp.type hdata).callSignatures)
  isArrayType h := .of_meets ((meets_type h).map fun _ _ _ => trivial)
  typeFlags h := .of_meets ((meets_type h).map fun _ _ _ => trivial)
  objectFlags h := .of_meets ((meets_type h).map fun _ _ _ => trivial)
  typeSymbol h := .of_meets ((meets_type h).map fun _ _ hdata => (hp.type hdata).symbol)
  intrinsicName h := .of_meets ((meets_type h).map fun _ _ _ => trivial)
  literalValue h := .of_meets ((meets_type h).map fun _ _ _ => trivial)
  referenceTarget h := .of_meets ((meets_type h).map fun _ _ hdata => (hp.type hdata).target)
  typeArguments h := .of_meets ((meets_type h).map fun _ _ hdata => (hp.type hdata).arguments)
  operandTypes h := .of_meets ((meets_type h).map fun _ _ hdata => (hp.type hdata).operands)
  conditionalRoot h := .of_meets ((meets_type h).map fun _ _ hdata => (hp.type hdata).conditional)
  indexedAccessParts h := .of_meets ((meets_type h).map fun _ _ hdata => (hp.type hdata).indexedAccess)
  indexOperand h := .of_meets ((meets_type h).map fun _ _ hdata => (hp.type hdata).indexOperand)
  isThisType h := .of_meets ((meets_type h).map fun _ _ _ => trivial)
  substitutionBase h := .of_meets ((meets_type h).map fun _ _ hdata => (hp.type hdata).substitutionBase)
  constraintOf h := .of_meets ((meets_type h).map fun _ _ hdata => (hp.type hdata).constraint)
  defaultOf h := .of_meets ((meets_type h).map fun _ _ hdata => (hp.type hdata).default)
  signatureTypeParameters h :=
    .of_meets ((meets_signature h).map fun _ _ hdata => (hp.signature hdata).typeParameters)
  signatureParameters h := .of_meets ((meets_signature h).map fun _ _ hdata => (hp.signature hdata).parameters)
  signatureThisParameter h := .of_meets ((meets_signature h).map fun _ _ hdata => (hp.signature hdata).thisParameter)
  returnType h := .of_meets ((meets_signature h).map fun _ _ hdata => (hp.signature hdata).returnType)
  isImplementationOfOverload h := .of_meets ((meets_node h).map fun _ _ _ => trivial)
  nodeKind h := .of_meets ((meets_node h).map fun _ _ _ => trivial)
  nodeParent h := .of_meets ((meets_node h).map fun _ _ hdata => (hp.node hdata).parent)
  nodeFile h := .of_meets ((meets_node h).map fun _ _ hdata => (hp.node hdata).file)
  nodeSpan h := .of_meets ((meets_node h).map fun _ _ _ => trivial)
  nodeFlags h := .of_meets ((meets_node h).map fun _ _ _ => trivial)
  combinedModifierFlags h := .of_meets ((meets_node h).map fun _ _ _ => trivial)
  initializerText h := .of_meets ((meets_node h).map fun _ _ _ => trivial)
  hasBody h := .of_meets ((meets_node h).map fun _ _ _ => trivial)
  hasAsterisk h := .of_meets ((meets_node h).map fun _ _ _ => trivial)
  hasQuestionToken h := .of_meets ((meets_node h).map fun _ _ _ => trivial)
  hasDotDotDot h := .of_meets ((meets_node h).map fun _ _ _ => trivial)
  implementsClause h := .of_meets ((meets_node h).map fun _ _ hdata => (hp.node hdata).implements)
  constantValue h := .of_meets ((meets_node h).map fun _ _ _ => trivial)
  boundary {n n' f text span} _ hf htext hreach hspan := by
    obtain ⟨data, hdata, rfl⟩ := map_eq_ok_iff.1 hf
    obtain ⟨file, hfile, rfl⟩ := map_eq_ok_iff.1 htext
    obtain ⟨data', hdata', rfl⟩ := map_eq_ok_iff.1 hspan
    have hparents := Relation.ReflTransGen.mono (fun _ _ => isAround_iff.1) _ _ hreach
    exact hp.boundary (node_eq_ok_iff.1 hdata) (Error.orOutOfBounds_eq_ok_iff.1 hfile) hparents
      (node_eq_ok_iff.1 hdata')
  locator := Comment.Locator.isTotal_standard

/-- What a well-formed program replies names its handles only, and what it refuses is reported. -/
theorem name_replies (hp : p.WellFormed) : p.checker.replies.Name p.domain IsReported
  | .symbolAtLocation _, _ => (meets_knownNode _).bind fun _ _ hdata => meets_orFail _ (hp.node hdata).symbol
  | .exportsOfModule _, _ => (meets_knownSymbol _).map fun _ _ hdata => (hp.symbol hdata).exportsOf
  | .typeOfSymbolAtLocation .., _ => (meets_knownNode _).bind fun _ _ _ =>
    (meets_knownSymbol _).bind fun _ _ hdata => meets_orFail _ (hp.symbol hdata).type
  | .declaredTypeOfSymbol _, _ => (meets_knownSymbol _).bind fun _ _ hdata =>
    meets_orFail _ (hp.symbol hdata).declaredType
  | .typeAtLocation _, _ => (meets_knownNode _).bind fun _ _ hdata => meets_orFail _ (hp.node hdata).typeAt
  | .elementTypeOfArray _, _ => (meets_knownType _).bind fun _ _ hdata => meets_orFail _ (hp.type hdata).element
  | .signatureFromDeclaration _, _ => (meets_knownNode _).bind fun _ _ hdata =>
    meets_orFail _ (hp.node hdata).signature

/-- **A well-formed program knows its own handles**, and fails only where it may. -/
theorem covers (hp : p.WellFormed) (hparents : Acyclic p.IsParent) (hbases : Acyclic p.InheritsFrom)
    (config : Config) : (p.environment config).Covers p.domain IsReported :=
  (knows hp hbases config).covers (name_replies hp) (climb hparents config)

/-! ### A program with cycles -/

/-- Three classes that extend each other, the first two with a property of one name, which has a comment in
the first.  The second has a further property, of the type of the third. -/
def threeClasses (type : TypeId) (modifiers : ModifierFlags) : Program where
  files := ⟨#[
    { name := "", text := "/** What it is worth. */ value", node := ⟨0⟩, symbol := ⟨0⟩,
      locals := [⟨0⟩, ⟨1⟩, ⟨2⟩] }]⟩
  symbols := ⟨#[
    { name := "First", flags := .of [.classSymbol], membersOf := [⟨3⟩], declaredType := some ⟨1⟩ },
    { name := "Second", flags := .of [.classSymbol], membersOf := [⟨4⟩, ⟨5⟩],
      declaredType := some ⟨2⟩ },
    { name := "Third", flags := .of [.classSymbol], declaredType := some ⟨3⟩ },
    { name := "value", flags := .of [.property], declarations := [⟨1⟩], parent := some ⟨0⟩,
      type := some type },
    { name := "next", flags := .of [.property], declarations := [⟨0⟩], parent := some ⟨1⟩,
      type := some ⟨3⟩ },
    { name := "value", flags := .of [.property], declarations := [⟨2⟩], parent := some ⟨1⟩,
      type := some type }]⟩
  types := ⟨#[
    { flags := .of [.number] },
    { flags := .of [.object], objectFlags := .of [.classType], symbol := some ⟨0⟩ },
    { flags := .of [.object], objectFlags := .of [.classType], symbol := some ⟨1⟩, baseTypes := [⟨1⟩] },
    { flags := .of [.object], objectFlags := .of [.classType], symbol := some ⟨2⟩,
      baseTypes := [⟨2⟩] }]⟩
  nodes := ⟨#[
    { kind := .propertyDeclaration, file := ⟨0⟩, span := ⟨30, 30, 30⟩ },
    { kind := .propertyDeclaration, file := ⟨0⟩, span := ⟨0, 25, 30⟩ },
    { kind := .propertyDeclaration, file := ⟨0⟩, span := ⟨30, 30, 30⟩, modifiers }]⟩

theorem forall_get? {α : Type} {a : Arena α} {P : α → Prop} (h : ∀ data ∈ a.items.toList, P data) {i : Nat}
    {data : α} (hi : a.get? i = some data) : P data := by
  refine h data ?_
  have hi' : a.items[i]? = some data := hi
  obtain ⟨hlt, rfl⟩ := Array.getElem?_eq_some_iff.1 hi'
  simp

theorem wellFormed_threeClasses {type : TypeId} (htype : type.index < 4) (modifiers : ModifierFlags) :
    (threeClasses type modifiers).WellFormed where
  file := forall_get? fun data hdata => by
    obtain rfl := List.mem_singleton.1 hdata
    constructor <;> simp [threeClasses, domain, Arena.size]
  symbol := forall_get? fun data hdata => by
    simp only [threeClasses, List.mem_cons, List.not_mem_nil, or_false] at hdata
    rcases hdata with rfl | rfl | rfl | rfl | rfl | rfl
    all_goals constructor <;> simp [threeClasses, domain, Arena.size, htype]
  type := forall_get? fun data hdata => by
    simp only [threeClasses, List.mem_cons, List.not_mem_nil, or_false] at hdata
    rcases hdata with rfl | rfl | rfl | rfl
    all_goals constructor <;> simp [threeClasses, domain, Arena.size]
  signature := forall_get? fun data hdata => by simp [threeClasses] at hdata
  node := forall_get? fun data hdata => by
    simp only [threeClasses, List.mem_cons, List.not_mem_nil, or_false] at hdata
    rcases hdata with rfl | rfl | rfl
    all_goals constructor <;> simp [threeClasses, domain, Arena.size]
  boundary {n n' data data' file} _ hfile _ hnode := by
    have htext : file.text = "/** What it is worth. */ value" :=
      forall_get? (P := fun file => file.text = _) (by simp [threeClasses]) hfile
    have hpos : data'.span.pos = 0 ∨ data'.span.pos = 30 :=
      forall_get? (P := fun data => data.span.pos = 0 ∨ data.span.pos = 30) (by simp [threeClasses]) hnode
    rw [htext]
    rcases hpos with hpos | hpos
    · exact ⟨[], _, rfl, by simp [hpos]⟩
    · exact ⟨_, [], (List.append_nil _).symm, by rw [hpos]; decide⟩

/-- The properties of the three classes. -/
theorem mem_membersOf_threeClasses {type : TypeId} {modifiers : ModifierFlags} {owner m : SymbolId}
    {ms : List SymbolId} (hms : (threeClasses type modifiers).checker.membersOf owner = .ok ms)
    (hm : m ∈ ms) : owner = ⟨0⟩ ∧ m = ⟨3⟩ ∨ owner = ⟨1⟩ ∧ (m = ⟨4⟩ ∨ m = ⟨5⟩) := by
  obtain ⟨i⟩ := owner
  rcases i with _ | _ | _ | _ | _ | _ | i
  all_goals cases hms
  · exact .inl ⟨rfl, List.mem_singleton.1 hm⟩
  · exact .inr ⟨rfl, by simpa using (show m ∈ [⟨4⟩, ⟨5⟩] from hm)⟩
  all_goals exact absurd (show m ∈ [] from hm) (by simp)

/-- The three classes with numbers for properties. -/
def plainClasses : Environment := (threeClasses ⟨0⟩ (.of [])).environment {}

/-- The three classes with the second class for the type of the properties. -/
def circularClasses : Environment := (threeClasses ⟨2⟩ (.of [])).environment {}

theorem exists_plainClasses : ∃ project, plainClasses.assemble [⟨0⟩] = .ok project :=
  exists_of_isOk (by decide +kernel)

theorem exists_circularClasses : ∃ project, circularClasses.assemble [⟨0⟩] = .ok project :=
  exists_of_isOk (by decide +kernel)

/-- The property of the second class overrides that of the first. -/
theorem overrides_threeClasses (type : TypeId) (modifiers : ModifierFlags) :
    ((threeClasses type modifiers).environment {}).Overrides ⟨1⟩ ⟨5⟩ ⟨⟨3⟩, ⟨1⟩⟩ := by
  refine ⟨⟨⟨[⟨4⟩, ⟨5⟩], rfl, by simp⟩, .of [.property], rfl, by decide, by decide, by decide⟩, [⟨1⟩],
    "value", ⟨.of [.classSymbol], ⟨2⟩, rfl, by decide, rfl, rfl⟩, rfl, ⟨[], [], rfl, by simp⟩, [], [], ?_,
    rfl, by simp⟩
  cbv

/-- No other class has that property. -/
theorem owner_threeClasses {type : TypeId} {modifiers : ModifierFlags} {owner : SymbolId}
    {base : BaseProperty} (h : ((threeClasses type modifiers).environment {}).Overrides owner ⟨5⟩ base) :
    owner = ⟨1⟩ := by
  obtain ⟨⟨⟨ms, hms, hmem⟩, -⟩, -⟩ := h
  rcases mem_membersOf_threeClasses hms hmem with ⟨-, hm⟩ | ⟨rfl, -⟩
  · simp at hm
  · rfl

/-- The property of the first class overrides nothing. -/
theorem not_overrides_threeClasses {type : TypeId} {modifiers : ModifierFlags} {owner : SymbolId}
    {base : BaseProperty} : ¬ ((threeClasses type modifiers).environment {}).Overrides owner ⟨3⟩ base := by
  rintro ⟨⟨⟨ms, hms, hmem⟩, -⟩, bases, name, ⟨_, declared, _, _, hdeclared, hbases⟩, _, hbase⟩
  rcases mem_membersOf_threeClasses hms hmem with ⟨rfl, -⟩ | ⟨-, hm⟩
  · cases hdeclared
    cases hbases
    obtain ⟨⟨before, after, hnil, -⟩, -⟩ := hbase
    exact absurd (show ([] : List TypeId) = before ++ base.base :: after from hnil) (by simp)
  · simp at hm

end Program

end ApiDoc
