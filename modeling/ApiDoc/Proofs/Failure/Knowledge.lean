import ApiDoc.Proofs.Failure.Inquiry
import ApiDoc.Proofs.Run.Answers
import Mathlib.Logic.Relation

/-!
# What a checker has to know

`Environment.Knows` is the part of a checker's contract that leaves it no choice: every query about a known handle that
may not be refused has an answer, which names known handles only, and nodes are positioned between characters.  What
may be refused is another matter (`Replies.Name`).

Doc blocks and the declarations around patterns are looked for along the nodes around a node.  Such a search ends with
an answer, whatever the comments hold, or goes too deep.  So a checker covers its handles with whatever replies it
gives (`Environment.Knows.covers`).
-/

namespace ApiDoc

/-! ### Positions -/

/-- A byte offset between two characters of a text; one behind the end counts as the end. -/
def Text.IsBoundary (text : List Char) (pos : Nat) : Prop :=
  ∃ before after, text = before ++ after ∧ byteLength before = min pos (byteLength text)

theorem Text.isBoundary_zero (text : List Char) : IsBoundary text 0 := ⟨[], text, rfl, by simp⟩

namespace Comment

theorem exists_leadingRanges {text : List Char} {pos : Nat} (h : Text.IsBoundary text pos) :
    ∃ ranges, leadingRanges? text pos = some ranges := by
  obtain ⟨before, after, rfl, hlen⟩ := h
  unfold leadingRanges?
  rw [← hlen]
  by_cases hstart : Text.byteLength before = 0
  · simp only [hstart, if_true]
    exact ⟨_, rfl⟩
  · simp only [hstart, if_false]
    rw [Text.drop?_eq_map_split?, Text.split?_byteLength]
    exact ⟨_, rfl⟩

/-- A locator that finds the comments at every position between characters. -/
def Locator.IsTotal (locator : Locator) : Prop :=
  ∀ text pos, Text.IsBoundary text pos → ∃ ranges, locator.ranges? text pos = some ranges

theorem Locator.isTotal_standard : standard.IsTotal := fun _ _ => exists_leadingRanges

variable {fail : Error → Prop} {text : String} {pos : Nat} {locator : Locator}

theorem Locator.IsTotal.meets_blocksAt (hlocator : locator.IsTotal) (h : Text.IsBoundary text.toList pos) :
    Meets fail (locator.blocksAt text pos) fun _ => True := by
  obtain ⟨ranges, hranges⟩ := hlocator _ _ h
  unfold blocksAt
  simp only [hranges]
  exact .pure trivial

/-- Whatever the comments hold, they are read. -/
theorem Locator.IsTotal.meets_read (hlocator : locator.IsTotal) (h : Text.IsBoundary text.toList pos) :
    Meets fail (locator.read text pos) fun _ => True :=
  (hlocator.meets_blocksAt h).bind fun _ _ _ => .pure trivial

end Comment

/-! ### Answers -/

/-- A query that is answered, with something that satisfies `P`. -/
def Answered {α : Type} (x : Answer α) (P : α → Prop := fun _ => True) : Prop := ∃ a, x = .ok a ∧ P a

theorem Answered.meets {α : Type} {x : Answer α} {P : α → Prop} {fail : Error → Prop} (h : Answered x P) :
    Meets fail x P := by
  obtain ⟨a, rfl, ha⟩ := h
  exact ha

theorem Answered.of_meets {α : Type} {x : Answer α} {P : α → Prop} (h : Meets (fun _ => False) x P) : Answered x P :=
  h.exists_ok

/-- The handles that a query is about are known. -/
def Query.Known (D : Domain) : Query → Prop
  | symbolAtLocation n | typeAtLocation n | signatureFromDeclaration n => D.node n
  | exportsOfModule m | declaredTypeOfSymbol m => D.symbol m
  | typeOfSymbolAtLocation m n => D.symbol m ∧ D.node n
  | elementTypeOfArray t => D.type t

/-- A reply to a query names known handles only. -/
def Query.Names (D : Domain) : (q : Query) → q.Reply → Prop
  | symbolAtLocation _, m => D.symbol m
  | exportsOfModule _, ms => ∀ m ∈ ms, D.symbol m
  | typeOfSymbolAtLocation .., t | declaredTypeOfSymbol _, t | typeAtLocation _, t | elementTypeOfArray _, t =>
    D.type t
  | signatureFromDeclaration _, sig => D.signature sig

/-- Queries about known handles are answered with known handles, or refused with errors that satisfy `fail`. -/
def Replies.Name (replies : Replies) (D : Domain) (fail : Error → Prop) : Prop :=
  ∀ q, q.Known D → Meets fail (replies q) (q.Names D)

namespace Replies.Name

variable {replies : Replies} {D : Domain} {fail fail' : Error → Prop}

theorem weaken (h : replies.Name D fail) (hfail : ∀ e, fail e → fail' e) : replies.Name D fail' := by
  intro q hq
  have hreply := h q hq
  cases hr : replies q with
  | ok a => rwa [hr] at hreply
  | error e =>
    rw [hr] at hreply
    exact hfail e hreply

theorem refuse (h : replies.Name D fail) (q : Query) {e : Error} (he : fail e) :
    (replies.refuse q e).Name D fail := by
  intro q' hq'
  by_cases heq : q' = q
  · subst heq
    rw [Replies.refuse_same]
    exact he
  · rw [replies.refuse_of_ne e heq]
    exact h q' hq'

theorem blaming (h : replies.Name D fail) {e : Error} (he : fail' e) : (replies.blaming e).Name D fail' := by
  intro q hq
  have hreply := h q hq
  unfold Replies.blaming
  cases hr : replies q with
  | ok a => rwa [hr] at hreply
  | error e' => exact he

end Replies.Name

namespace Environment

variable {env : Environment} {D : Domain} {fail : Error → Prop}

/-- The second node is the one around the first. -/
def IsAround (env : Environment) (n n' : NodeId) : Prop := env.checker.nodeParent n = .ok (some n')

/-- All queries about known handles that may not be refused are answered, with known handles only, and nodes are
positioned between characters of the file that they, or the nodes within them, belong to. -/
structure Knows (env : Environment) (D : Domain) : Prop where
  -- files
  fileName {f} : D.file f → Answered (env.checker.fileName f)
  fileText {f} : D.file f → Answered (env.checker.fileText f)
  moduleName {f} : D.file f → Answered (env.checker.moduleName f)
  isDeclarationFile {f} : D.file f → Answered (env.checker.isDeclarationFile f)
  isExternalModule {f} : D.file f → Answered (env.checker.isExternalModule f)
  fileNode {f} : D.file f → Answered (env.checker.fileNode f) D.node
  fileLocals {f} : D.file f → Answered (env.checker.fileLocals f) fun ms => ∀ m ∈ ms, D.symbol m
  resolvedModules {f} : D.file f → Answered (env.checker.resolvedModules f)
  referencedFiles {f} : D.file f → Answered (env.checker.referencedFiles f)
  -- symbols
  symbolName {m} : D.symbol m → Answered (env.checker.symbolName m)
  symbolFlags {m} : D.symbol m → Answered (env.checker.symbolFlags m)
  declarations {m} : D.symbol m → Answered (env.checker.declarations m) fun ds => ∀ d ∈ ds, D.node d
  valueDeclaration {m} : D.symbol m → Answered (env.checker.valueDeclaration m) fun d => ∀ d' ∈ d, D.node d'
  exportsOf {m} : D.symbol m → Answered (env.checker.exportsOf m) fun ms => ∀ m' ∈ ms, D.symbol m'
  membersOf {m} : D.symbol m → Answered (env.checker.membersOf m) fun ms => ∀ m' ∈ ms, D.symbol m'
  parentSymbol {m} : D.symbol m → Answered (env.checker.parentSymbol m)
  declaredTypeParameters {m} : D.symbol m →
    Answered (env.checker.declaredTypeParameters m) fun ts => ∀ t ∈ ts, D.type t
  -- types
  baseTypes {t} : D.type t → Answered (env.checker.baseTypes t) fun ts => ∀ u ∈ ts, D.type u
  propertiesOfType {t} : D.type t → Answered (env.checker.propertiesOfType t) fun ms => ∀ m ∈ ms, D.symbol m
  callSignatures {t} : D.type t →
    Answered (env.checker.callSignatures t) fun sigs => ∀ sig ∈ sigs, D.signature sig
  isArrayType {t} : D.type t → Answered (env.checker.isArrayType t)
  typeFlags {t} : D.type t → Answered (env.checker.typeFlags t)
  objectFlags {t} : D.type t → Answered (env.checker.objectFlags t)
  typeSymbol {t} : D.type t → Answered (env.checker.typeSymbol t) fun m => ∀ m' ∈ m, D.symbol m'
  intrinsicName {t} : D.type t → Answered (env.checker.intrinsicName t)
  literalValue {t} : D.type t → Answered (env.checker.literalValue t)
  referenceTarget {t} : D.type t → Answered (env.checker.referenceTarget t) fun u => ∀ u' ∈ u, D.type u'
  typeArguments {t} : D.type t → Answered (env.checker.typeArguments t) fun ts => ∀ u ∈ ts, D.type u
  operandTypes {t} : D.type t → Answered (env.checker.operandTypes t) fun ts => ∀ u ∈ ts, D.type u
  conditionalRoot {t} : D.type t → Answered (env.checker.conditionalRoot t) fun root =>
    ∀ r ∈ root, D.type r.check ∧ D.type r.bound ∧ D.type r.whenTrue ∧ D.type r.whenFalse
  indexedAccessParts {t} : D.type t →
    Answered (env.checker.indexedAccessParts t) fun parts => ∀ p ∈ parts, D.type p.1 ∧ D.type p.2
  indexOperand {t} : D.type t → Answered (env.checker.indexOperand t) fun u => ∀ u' ∈ u, D.type u'
  isThisType {t} : D.type t → Answered (env.checker.isThisType t)
  substitutionBase {t} : D.type t → Answered (env.checker.substitutionBase t) fun u => ∀ u' ∈ u, D.type u'
  constraintOf {t} : D.type t → Answered (env.checker.constraintOf t) fun u => ∀ u' ∈ u, D.type u'
  defaultOf {t} : D.type t → Answered (env.checker.defaultOf t) fun u => ∀ u' ∈ u, D.type u'
  -- signatures
  signatureTypeParameters {sig} : D.signature sig →
    Answered (env.checker.signatureTypeParameters sig) fun ts => ∀ t ∈ ts, D.type t
  signatureParameters {sig} : D.signature sig →
    Answered (env.checker.signatureParameters sig) fun ms => ∀ m ∈ ms, D.symbol m
  signatureThisParameter {sig} : D.signature sig →
    Answered (env.checker.signatureThisParameter sig) fun m => ∀ m' ∈ m, D.symbol m'
  returnType {sig} : D.signature sig → Answered (env.checker.returnType sig) D.type
  -- nodes
  isImplementationOfOverload {n} : D.node n → Answered (env.checker.isImplementationOfOverload n)
  nodeKind {n} : D.node n → Answered (env.checker.nodeKind n)
  nodeParent {n} : D.node n → Answered (env.checker.nodeParent n) fun d => ∀ d' ∈ d, D.node d'
  nodeFile {n} : D.node n → Answered (env.checker.nodeFile n) D.file
  nodeSpan {n} : D.node n → Answered (env.checker.nodeSpan n)
  nodeFlags {n} : D.node n → Answered (env.checker.nodeFlags n)
  combinedModifierFlags {n} : D.node n → Answered (env.checker.combinedModifierFlags n)
  initializerText {n} : D.node n → Answered (env.checker.initializerText n)
  hasBody {n} : D.node n → Answered (env.checker.hasBody n)
  hasAsterisk {n} : D.node n → Answered (env.checker.hasAsterisk n)
  hasQuestionToken {n} : D.node n → Answered (env.checker.hasQuestionToken n)
  hasDotDotDot {n} : D.node n → Answered (env.checker.hasDotDotDot n)
  implementsClause {n} : D.node n → Answered (env.checker.implementsClause n) fun es => ∀ e ∈ es, D.node e
  constantValue {n} : D.node n → Answered (env.checker.constantValue n)
  -- positions
  boundary {n n' f text span} : D.node n → env.checker.nodeFile n = .ok f → env.checker.fileText f = .ok text →
    Relation.ReflTransGen env.IsAround n n' → env.checker.nodeSpan n' = .ok span →
    Text.IsBoundary text.toList span.pos
  locator : env.locator.IsTotal

/-- How much fuel a search along the nodes around a node needs.  What there is at the start suffices, and where nothing
is left the search may fail for that. -/
structure Climb (env : Environment) (D : Domain) (fail : Error → Prop) where
  /-- From the node the search ends with that much fuel. -/
  enough : NodeId → Nat → Prop
  start {n} : D.node n → enough n (env.checker.nodeCount + 1)
  zero {n} : D.node n → enough n 0 → fail .tooDeep
  step {n n' fuel} : D.node n' → env.IsAround n n' → enough n (fuel + 1) → enough n' fuel

namespace Knows

/-! ### Searches along the nodes around a node -/

theorem blockFrom (h : env.Knows D) (g : env.Climb D fail) {text : String} {fuel : Nat} {n : NodeId} (hn : D.node n)
    (henough : g.enough n fuel)
    (hpos : ∀ n' span, Relation.ReflTransGen env.IsAround n n' → env.checker.nodeSpan n' = .ok span →
      Text.IsBoundary text.toList span.pos) :
    Meets fail (env.blockFrom text fuel n) fun _ => True := by
  induction fuel generalizing n with
  | zero => exact g.zero hn henough
  | succ fuel ih =>
    unfold Environment.blockFrom
    refine (h.nodeSpan hn).meets.bind fun span hspan _ => ?_
    refine (h.locator.meets_read (hpos n span .refl hspan)).bind fun block _ _ => ?_
    cases block with
    | some block => exact .pure trivial
    | none =>
      refine (h.nodeKind hn).meets.bind fun kind _ _ => ?_
      split
      · refine (h.nodeParent hn).meets.bind fun parent hparent hknown => ?_
        cases parent with
        | none => exact .pure trivial
        | some n' =>
          -- the search goes on at the node around
          have hn' := hknown n' rfl
          exact ih hn' (g.step hn' hparent henough) fun n'' span' hreach => hpos n'' span' (hreach.head hparent)
      · exact .pure trivial

/-- What a declaration says is read, whatever the comments hold. -/
theorem tags (h : env.Knows D) (g : env.Climb D fail) {n : NodeId} (hn : D.node n) :
    Meets fail (env.tags n) fun _ => True := by
  unfold Environment.tags
  refine (h.combinedModifierFlags hn).meets.bind fun modifiers _ _ => ?_
  refine (h.nodeFile hn).meets.bind fun f hf hfile => (h.fileText hfile).meets.bind fun text htext _ => ?_
  refine (h.blockFrom g hn (g.start hn) fun n' span hreach hspan => ?_).bind fun _ _ _ => .pure trivial
  exact h.boundary hn hf htext hreach hspan

theorem bindingOwner (h : env.Knows D) (g : env.Climb D fail) {fuel : Nat} {n : NodeId} (hn : D.node n)
    (henough : g.enough n fuel) : Meets fail (env.bindingOwner fuel n) D.node := by
  induction fuel generalizing n with
  | zero => exact g.zero hn henough
  | succ fuel ih =>
    unfold Environment.bindingOwner
    refine (h.nodeKind hn).meets.bind fun kind _ _ => ?_
    split
    · refine (h.nodeParent hn).meets.bind fun parent haround hparent => ?_
      cases parent with
      | none => exact .pure hn
      | some n' =>
        have hn' := hparent n' rfl
        exact ih hn' (g.step hn' haround henough)
    · exact .pure hn

theorem fieldKind (h : env.Knows D) (g : env.Climb D fail) {n : NodeId} (hn : D.node n) :
    Meets fail (env.fieldKind n) fun _ => True := by
  unfold Environment.fieldKind
  refine (h.bindingOwner g hn (g.start hn)).bind fun owner _ howner => ?_
  refine (h.nodeParent howner).meets.bind fun parent _ hparent => ?_
  cases parent with
  | none => exact (h.nodeKind howner).meets.bind fun _ _ _ => .pure trivial
  | some list =>
    refine (h.nodeFlags (hparent list rfl)).meets.bind fun _ _ _ => ?_
    exact (h.nodeKind howner).meets.bind fun _ _ _ => .pure trivial

/-- **A checker that knows its handles fails only by refusals**, as far as the searches for doc blocks and for the
declarations around patterns do not go too deep. -/
theorem covers (h : env.Knows D) {replies : Replies} (hreplies : replies.Name D fail)
    (g : env.Climb D fail) : (env.answering replies).Covers D fail where
  fileName hf := (h.fileName hf).meets
  fileText hf := (h.fileText hf).meets
  fileFacts _ _ := (h.locator.meets_blocksAt (Text.isBoundary_zero _)).bind fun _ _ _ => .pure trivial
  moduleName hf := (h.moduleName hf).meets
  isDeclarationFile hf := (h.isDeclarationFile hf).meets
  isExternalModule hf := (h.isExternalModule hf).meets
  fileNode hf := (h.fileNode hf).meets
  fileLocals hf := (h.fileLocals hf).meets
  resolvedModules hf := (h.resolvedModules hf).meets
  referencedFiles hf := (h.referencedFiles hf).meets
  symbolName hm := (h.symbolName hm).meets
  symbolFlags hm := (h.symbolFlags hm).meets
  declarations hm := (h.declarations hm).meets
  valueDeclaration hm := (h.valueDeclaration hm).meets
  exportsOf hm := (h.exportsOf hm).meets
  membersOf hm := (h.membersOf hm).meets
  parentSymbol hm := (h.parentSymbol hm).meets
  declaredTypeParameters hm := (h.declaredTypeParameters hm).meets
  exportsOfModule {m} hm := hreplies (.exportsOfModule m) hm
  typeOfSymbolAtLocation {m d} hm hd := hreplies (.typeOfSymbolAtLocation m d) ⟨hm, hd⟩
  declaredTypeOfSymbol {m} hm := hreplies (.declaredTypeOfSymbol m) hm
  baseTypes ht := (h.baseTypes ht).meets
  propertiesOfType ht := (h.propertiesOfType ht).meets
  callSignatures ht := (h.callSignatures ht).meets
  isArrayType ht := (h.isArrayType ht).meets
  elementTypeOfArray {t} ht := hreplies (.elementTypeOfArray t) ht
  typeFlags ht := (h.typeFlags ht).meets
  objectFlags ht := (h.objectFlags ht).meets
  typeSymbol ht := (h.typeSymbol ht).meets
  intrinsicName ht := (h.intrinsicName ht).meets
  literalValue ht := (h.literalValue ht).meets
  referenceTarget ht := (h.referenceTarget ht).meets
  typeArguments ht := (h.typeArguments ht).meets
  operandTypes ht := (h.operandTypes ht).meets
  conditionalRoot ht := (h.conditionalRoot ht).meets
  indexedAccessParts ht := (h.indexedAccessParts ht).meets
  indexOperand ht := (h.indexOperand ht).meets
  isThisType ht := (h.isThisType ht).meets
  substitutionBase ht := (h.substitutionBase ht).meets
  constraintOf ht := (h.constraintOf ht).meets
  defaultOf ht := (h.defaultOf ht).meets
  signatureTypeParameters hsig := (h.signatureTypeParameters hsig).meets
  signatureParameters hsig := (h.signatureParameters hsig).meets
  signatureThisParameter hsig := (h.signatureThisParameter hsig).meets
  returnType hsig := (h.returnType hsig).meets
  symbolAtLocation {n} hn := hreplies (.symbolAtLocation n) hn
  typeAtLocation {n} hn := hreplies (.typeAtLocation n) hn
  signatureFromDeclaration {n} hn := hreplies (.signatureFromDeclaration n) hn
  isImplementationOfOverload hn := (h.isImplementationOfOverload hn).meets
  nodeKind hn := (h.nodeKind hn).meets
  nodeFile hn := (h.nodeFile hn).meets
  nodeSpan hn := (h.nodeSpan hn).meets
  combinedModifierFlags hn := (h.combinedModifierFlags hn).meets
  initializerText hn := (h.initializerText hn).meets
  hasBody hn := (h.hasBody hn).meets
  hasAsterisk hn := (h.hasAsterisk hn).meets
  hasQuestionToken hn := (h.hasQuestionToken hn).meets
  hasDotDotDot hn := (h.hasDotDotDot hn).meets
  implementsClause hn := (h.implementsClause hn).meets
  constantValue hn := (h.constantValue hn).meets
  tags {n} hn := (sameSource_answering env replies).tags n ▸ h.tags g hn
  fieldKind {n} hn := (sameSource_answering env replies).fieldKind n ▸ h.fieldKind g hn

end Knows

end Environment

end ApiDoc
