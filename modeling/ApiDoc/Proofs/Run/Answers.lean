import ApiDoc.Resolve.Files
import Mathlib.Data.List.Forall2

/-!
# What a checker knows

Resolving asks the checker about handles, and most of them come from earlier answers.  A `Domain` says
which handles of each kind count as known, and `Environment.Covers` says that a checker knows its own
handles: an answer about a known handle names known handles only, and a query about one fails, if at
all, with an error of a given sort.  Both the whole of all handles with any error
(`Environment.covers_all`) and the handles of a finite program are such domains, so what is shown of a
run over a domain holds of every checker and says more of a well-formed one.

`Meets fail x P` is the same for one answer: it satisfies `P`, or it is an error that satisfies `fail`.
-/

namespace ApiDoc

/-- An answer made in two parts is there if both parts are. -/
theorem bind_eq_ok_iff {α β : Type} {x : Answer α} {f : α → Answer β} {b : β} :
    x >>= f = .ok b ↔ ∃ a, x = .ok a ∧ f a = .ok b := by
  cases x <;> simp [bind, Except.bind]

theorem map_eq_ok_iff {α β : Type} {x : Answer α} {f : α → β} {b : β} :
    (do return f (← x)) = (.ok b : Answer β) ↔ ∃ a, x = .ok a ∧ f a = b := by
  simp [bind_eq_ok_iff, pure, Except.pure]

theorem exists_of_isOk {α : Type} {x : Answer α} (h : x.isOk = true) : ∃ a, x = .ok a := by
  cases x with
  | ok a => exact ⟨a, rfl⟩
  | error e => simp [Except.toBool] at h

theorem mapM_eq_ok_iff {α β : Type} {f : α → Answer β} {xs : List α} {ys : List β} :
    xs.mapM f = .ok ys ↔ List.Forall₂ (fun x y => f x = .ok y) xs ys := by
  induction xs generalizing ys with
  | nil => simp [pure, Except.pure, eq_comm]
  | cons x xs ih =>
    rw [List.mapM_cons, bind_eq_ok_iff, List.forall₂_cons_left_iff]
    simp only [map_eq_ok_iff, ih]
    grind

theorem length_of_mapM_eq_ok {α β : Type} {f : α → Answer β} {xs : List α} {ys : List β}
    (h : xs.mapM f = .ok ys) : ys.length = xs.length :=
  (mapM_eq_ok_iff.1 h).length_eq.symm

/-- The answers about the elements of a list. -/
theorem mem_mapM_iff {α β : Type} {f : α → Answer β} {xs : List α} {ys : List β} (h : xs.mapM f = .ok ys) {y : β} :
    y ∈ ys ↔ ∃ x ∈ xs, f x = .ok y := by
  have hanswers := mapM_eq_ok_iff.1 h
  clear h
  induction hanswers with
  | nil => simp
  | cons hb _ ih => simp [ih, hb, eq_comm]

/-- Every element of a list has its counterpart in the other. -/
theorem exists_of_forall₂ {α β : Type} {R : α → β → Prop} {as : List α} {bs : List β} (h : List.Forall₂ R as bs)
    {a : α} (ha : a ∈ as) : ∃ b ∈ bs, R a b := by
  induction h with
  | nil => simp at ha
  | @cons _ b _ _ hb _ ih =>
    rcases List.mem_cons.1 ha with rfl | ha
    · exact ⟨b, by simp, hb⟩
    · obtain ⟨b', hmem, hb'⟩ := ih ha
      exact ⟨b', by simp [hmem], hb'⟩

/-- What stands at a place of one list is related to what stands at that place of the other. -/
theorem exists_getElem?_of_forall₂ {α β : Type} {R : α → β → Prop} {xs : List α} {ys : List β} {i : Nat} {x : α}
    (h : List.Forall₂ R xs ys) (hi : xs[i]? = some x) : ∃ y, ys[i]? = some y ∧ R x y := by
  induction h generalizing i with
  | nil => exact nomatch hi
  | cons hfirst _ ih =>
    cases i with
    | zero =>
      obtain rfl := Option.some.inj hi
      exact ⟨_, rfl, hfirst⟩
    | succ i => exact ih hi

/-- Keeping what a question is answered with yes for is keeping what has a property, if these agree. -/
theorem eq_filter_of_filterM {α : Type} {f : α → Answer Bool} {g : α → Bool} (hfg : ∀ a b, f a = .ok b → b = g a)
    {xs ys : List α} (h : xs.filterM f = .ok ys) : ys = xs.filter g := by
  have haux : ∀ (xs acc : List α) {ys : List α}, xs.filterAuxM f acc = .ok ys → ys = (xs.filter g).reverse ++ acc := by
    intro xs
    induction xs with
    | nil =>
      rintro acc ys ⟨⟩
      simp
    | cons a xs ih =>
      intro acc ys h
      obtain ⟨keep, hkeep, h⟩ := bind_eq_ok_iff.1 h
      obtain rfl := hfg a keep hkeep
      rw [ih _ h, List.filter_cons]
      cases g a <;> simp
  obtain ⟨zs, hzs, hys⟩ := bind_eq_ok_iff.1 h
  obtain rfl : zs.reverse = ys := Except.ok.inj hys
  simp [haux xs [] hzs]

/-- What is kept of a list, if the question is answered for each of its elements. -/
theorem mem_filterM_iff {α : Type} {f : α → Answer Bool} {xs ys : List α} (h : xs.filterM f = .ok ys)
    {y : α} : y ∈ ys ↔ y ∈ xs ∧ f y = .ok true := by
  have haux : ∀ (xs acc : List α) {ys : List α}, xs.filterAuxM f acc = .ok ys →
      (y ∈ ys ↔ y ∈ acc ∨ y ∈ xs ∧ f y = .ok true) := by
    intro xs
    induction xs with
    | nil =>
      rintro acc ys ⟨⟩
      simp
    | cons a xs ih =>
      intro acc ys h
      obtain ⟨keep, hkeep, h⟩ := bind_eq_ok_iff.1 h
      rw [ih _ h]
      cases keep with
      | false =>
        have hne : y = a → f y ≠ .ok true := by
          rintro rfl
          simp [hkeep]
        grind
      | true => grind
  obtain ⟨zs, hzs, hys⟩ := bind_eq_ok_iff.1 h
  obtain rfl : zs.reverse = ys := Except.ok.inj hys
  rw [List.mem_reverse, haux xs [] hzs]
  simp

/-- An answer that satisfies `P`, or an error that satisfies `fail`. -/
def Meets {α : Type} (fail : Error → Prop) (x : Answer α) (P : α → Prop) : Prop :=
  match x with
  | .ok a => P a
  | .error e => fail e

namespace Meets

variable {α β : Type} {fail : Error → Prop} {P : α → Prop} {Q : β → Prop}

theorem pure {a : α} (h : P a) : Meets fail (Pure.pure a : Answer α) P := h

theorem bind {x : Answer α} {f : α → Answer β} (hx : Meets fail x P)
    (hf : ∀ a, x = .ok a → P a → Meets fail (f a) Q) : Meets fail (x >>= f) Q := by
  cases x with
  | ok a => exact hf a rfl hx
  | error e => exact hx

theorem mono {x : Answer α} {P' : α → Prop} (hx : Meets fail x P)
    (h : ∀ a, x = .ok a → P a → P' a) : Meets fail x P' := by
  cases x with
  | ok a => exact h a rfl hx
  | error e => exact hx

/-- Where no error will do there is an answer. -/
theorem exists_ok {x : Answer α} (hx : Meets (fun _ => False) x P) : ∃ a, x = .ok a ∧ P a := by
  cases x with
  | ok a => exact ⟨a, rfl, hx⟩
  | error e => exact hx.elim

theorem of_all {x : Answer α} (hfail : ∀ e, fail e) (hP : ∀ a, P a) : Meets fail x P := by
  cases x with
  | ok a => exact hP a
  | error e => exact hfail e

theorem map {x : Answer α} {f : α → β} (hx : Meets fail x P) (h : ∀ a, x = .ok a → P a → Q (f a)) :
    Meets fail (do return f (← x)) Q :=
  hx.bind fun a ha hp => .pure (h a ha hp)

theorem ite {c : Prop} [Decidable c] {x y : Answer α} (hx : c → Meets fail x P)
    (hy : ¬ c → Meets fail y P) : Meets fail (if c then x else y) P := by
  split
  · exact hx ‹c›
  · exact hy ‹¬ c›

theorem mapM {f : α → Answer β} {xs : List α} (h : ∀ a ∈ xs, Meets fail (f a) Q) :
    Meets fail (xs.mapM f) fun bs => ∀ b ∈ bs, Q b := by
  induction xs with
  | nil => exact .pure (by simp)
  | cons a xs ih =>
    rw [List.mapM_cons]
    refine (h a (by simp)).bind fun b _ hb => ?_
    refine (ih fun a' ha' => h a' (by simp [ha'])).bind fun bs _ hbs => .pure ?_
    rintro b' (_ | ⟨_, hb'⟩)
    · exact hb
    · exact hbs b' hb'

theorem filterM {f : α → Answer Bool} {xs : List α} (h : ∀ a ∈ xs, Meets fail (f a) fun _ => True) :
    Meets fail (xs.filterM f) fun ys => ∀ y ∈ ys, y ∈ xs ∧ f y = .ok true := by
  have haux : ∀ (xs acc : List α), (∀ a ∈ xs, Meets fail (f a) fun _ => True) →
      Meets fail (xs.filterAuxM f acc) fun _ => True := by
    intro xs
    induction xs with
    | nil => exact fun acc _ => .pure trivial
    | cons a xs ih =>
      intro acc h
      unfold List.filterAuxM
      exact (h a (by simp)).bind fun _ _ _ => ih _ fun a' ha' => h a' (by simp [ha'])
  have htotal : Meets fail (xs.filterM f) fun _ => True :=
    (haux xs [] h).bind fun _ _ _ => .pure trivial
  exact htotal.mono fun ys hys _ y hy => (mem_filterM_iff hys).1 hy

end Meets

/-- Which handles count as known. -/
structure Domain where
  /-- The files. -/
  file : FileId → Prop
  /-- The symbols. -/
  symbol : SymbolId → Prop
  /-- The types. -/
  type : TypeId → Prop
  /-- The signatures. -/
  signature : SignatureId → Prop
  /-- The nodes. -/
  node : NodeId → Prop

/-- Every handle there is. -/
def Domain.all : Domain := ⟨fun _ => True, fun _ => True, fun _ => True, fun _ => True, fun _ => True⟩

/-- Answers about known handles name known handles only, and queries about them fail with errors
that satisfy `fail` only. -/
structure Environment.Covers (env : Environment) (D : Domain) (fail : Error → Prop) : Prop where
  -- files
  fileName {f} : D.file f → Meets fail (env.checker.fileName f) fun _ => True
  fileText {f} : D.file f → Meets fail (env.checker.fileText f) fun _ => True
  fileFacts {f text} : D.file f → env.checker.fileText f = .ok text →
    Meets fail (FileFacts.read env.locator text) fun _ => True
  moduleName {f} : D.file f → Meets fail (env.checker.moduleName f) fun _ => True
  isDeclarationFile {f} : D.file f → Meets fail (env.checker.isDeclarationFile f) fun _ => True
  isExternalModule {f} : D.file f → Meets fail (env.checker.isExternalModule f) fun _ => True
  fileNode {f} : D.file f → Meets fail (env.checker.fileNode f) D.node
  fileLocals {f} : D.file f → Meets fail (env.checker.fileLocals f) fun ms => ∀ m ∈ ms, D.symbol m
  resolvedModules {f} : D.file f → Meets fail (env.checker.resolvedModules f) fun _ => True
  referencedFiles {f} : D.file f → Meets fail (env.checker.referencedFiles f) fun _ => True
  -- symbols
  symbolName {m} : D.symbol m → Meets fail (env.checker.symbolName m) fun _ => True
  symbolFlags {m} : D.symbol m → Meets fail (env.checker.symbolFlags m) fun _ => True
  declarations {m} : D.symbol m → Meets fail (env.checker.declarations m) fun ds => ∀ d ∈ ds, D.node d
  valueDeclaration {m} : D.symbol m →
    Meets fail (env.checker.valueDeclaration m) fun d => ∀ d' ∈ d, D.node d'
  exportsOf {m} : D.symbol m → Meets fail (env.checker.exportsOf m) fun ms => ∀ m' ∈ ms, D.symbol m'
  membersOf {m} : D.symbol m → Meets fail (env.checker.membersOf m) fun ms => ∀ m' ∈ ms, D.symbol m'
  parentSymbol {m} : D.symbol m → Meets fail (env.checker.parentSymbol m) fun _ => True
  declaredTypeParameters {m} : D.symbol m →
    Meets fail (env.checker.declaredTypeParameters m) fun ts => ∀ t ∈ ts, D.type t
  exportsOfModule {m} : D.symbol m →
    Meets fail (env.checker.exportsOfModule m) fun ms => ∀ m' ∈ ms, D.symbol m'
  typeOfSymbolAtLocation {m d} : D.symbol m → D.node d →
    Meets fail (env.checker.typeOfSymbolAtLocation m d) D.type
  declaredTypeOfSymbol {m} : D.symbol m → Meets fail (env.checker.declaredTypeOfSymbol m) D.type
  -- types
  baseTypes {t} : D.type t → Meets fail (env.checker.baseTypes t) fun ts => ∀ u ∈ ts, D.type u
  propertiesOfType {t} : D.type t →
    Meets fail (env.checker.propertiesOfType t) fun ms => ∀ m ∈ ms, D.symbol m
  callSignatures {t} : D.type t →
    Meets fail (env.checker.callSignatures t) fun sigs => ∀ sig ∈ sigs, D.signature sig
  isArrayType {t} : D.type t → Meets fail (env.checker.isArrayType t) fun _ => True
  elementTypeOfArray {t} : D.type t → Meets fail (env.checker.elementTypeOfArray t) D.type
  typeFlags {t} : D.type t → Meets fail (env.checker.typeFlags t) fun _ => True
  objectFlags {t} : D.type t → Meets fail (env.checker.objectFlags t) fun _ => True
  typeSymbol {t} : D.type t → Meets fail (env.checker.typeSymbol t) fun m => ∀ m' ∈ m, D.symbol m'
  intrinsicName {t} : D.type t → Meets fail (env.checker.intrinsicName t) fun _ => True
  literalValue {t} : D.type t → Meets fail (env.checker.literalValue t) fun _ => True
  referenceTarget {t} : D.type t →
    Meets fail (env.checker.referenceTarget t) fun u => ∀ u' ∈ u, D.type u'
  typeArguments {t} : D.type t → Meets fail (env.checker.typeArguments t) fun ts => ∀ u ∈ ts, D.type u
  operandTypes {t} : D.type t → Meets fail (env.checker.operandTypes t) fun ts => ∀ u ∈ ts, D.type u
  conditionalRoot {t} : D.type t → Meets fail (env.checker.conditionalRoot t) fun root =>
    ∀ r ∈ root, D.type r.check ∧ D.type r.bound ∧ D.type r.whenTrue ∧ D.type r.whenFalse
  indexedAccessParts {t} : D.type t →
    Meets fail (env.checker.indexedAccessParts t) fun parts => ∀ p ∈ parts, D.type p.1 ∧ D.type p.2
  indexOperand {t} : D.type t → Meets fail (env.checker.indexOperand t) fun u => ∀ u' ∈ u, D.type u'
  isThisType {t} : D.type t → Meets fail (env.checker.isThisType t) fun _ => True
  substitutionBase {t} : D.type t →
    Meets fail (env.checker.substitutionBase t) fun u => ∀ u' ∈ u, D.type u'
  constraintOf {t} : D.type t → Meets fail (env.checker.constraintOf t) fun u => ∀ u' ∈ u, D.type u'
  defaultOf {t} : D.type t → Meets fail (env.checker.defaultOf t) fun u => ∀ u' ∈ u, D.type u'
  -- signatures
  signatureTypeParameters {sig} : D.signature sig →
    Meets fail (env.checker.signatureTypeParameters sig) fun ts => ∀ t ∈ ts, D.type t
  signatureParameters {sig} : D.signature sig →
    Meets fail (env.checker.signatureParameters sig) fun ms => ∀ m ∈ ms, D.symbol m
  signatureThisParameter {sig} : D.signature sig →
    Meets fail (env.checker.signatureThisParameter sig) fun m => ∀ m' ∈ m, D.symbol m'
  returnType {sig} : D.signature sig → Meets fail (env.checker.returnType sig) D.type
  -- nodes
  symbolAtLocation {n} : D.node n → Meets fail (env.checker.symbolAtLocation n) D.symbol
  typeAtLocation {n} : D.node n → Meets fail (env.checker.typeAtLocation n) D.type
  signatureFromDeclaration {n} : D.node n →
    Meets fail (env.checker.signatureFromDeclaration n) D.signature
  isImplementationOfOverload {n} : D.node n →
    Meets fail (env.checker.isImplementationOfOverload n) fun _ => True
  nodeKind {n} : D.node n → Meets fail (env.checker.nodeKind n) fun _ => True
  nodeFile {n} : D.node n → Meets fail (env.checker.nodeFile n) D.file
  nodeSpan {n} : D.node n → Meets fail (env.checker.nodeSpan n) fun _ => True
  combinedModifierFlags {n} : D.node n → Meets fail (env.checker.combinedModifierFlags n) fun _ => True
  initializerText {n} : D.node n → Meets fail (env.checker.initializerText n) fun _ => True
  hasBody {n} : D.node n → Meets fail (env.checker.hasBody n) fun _ => True
  hasAsterisk {n} : D.node n → Meets fail (env.checker.hasAsterisk n) fun _ => True
  hasQuestionToken {n} : D.node n → Meets fail (env.checker.hasQuestionToken n) fun _ => True
  hasDotDotDot {n} : D.node n → Meets fail (env.checker.hasDotDotDot n) fun _ => True
  implementsClause {n} : D.node n →
    Meets fail (env.checker.implementsClause n) fun es => ∀ e ∈ es, D.node e
  constantValue {n} : D.node n → Meets fail (env.checker.constantValue n) fun _ => True
  -- what is read through the nodes around a declaration
  tags {n} : D.node n → Meets fail (env.tags n) fun _ => True
  fieldKind {n} : D.node n → Meets fail (env.fieldKind n) fun _ => True

namespace Environment

variable {env : Environment}

/-- Nothing is asked of a checker if every handle is known and every error will do. -/
theorem covers_all (env : Environment) : env.Covers .all fun _ => True := by
  constructor <;> intros <;> exact .of_all (fun _ => trivial) (by simp [Domain.all])

end Environment

end ApiDoc
