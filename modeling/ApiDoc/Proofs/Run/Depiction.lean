import ApiDoc.Proofs.Run.Memory
import ApiDoc.Proofs.Run.Mentions
import Mathlib.Data.List.Forall2

/-!
# How a session pictures a program

What a node or member has to be, given what the checker says of its type or symbol and what a session
remembers: the parts of a node are the remembered nodes of the parts of its type, in the same order, and
its members the remembered members.  A part without a type of its own is a *fresh* node, `mixed` and no
type's.

`Session.Extends` says what never changes while a session grows, and whatever is pictured stays so:
the `mono` lemmas.
-/

namespace ApiDoc

namespace Session

/-- A `mixed` node that is no type's. -/
def IsFresh (s : Session) (r : TypeRef) : Prop :=
  s.nodeAt? r = some .mixed ∧ ∀ t, s.typeOf? t ≠ some r

/-- A member that is nobody's. -/
def IsLoose (s : Session) (r : MemberRef) : Prop :=
  r.index < s.graph.members.size ∧ ∀ key, s.memberOf? key ≠ some (some r)

/-- A symbol whose member is marked as an override. -/
def IsMarked (s : Session) (m : SymbolId) : Prop :=
  ∃ r member, s.memberOf? (.symbol m) = some (some r) ∧ s.memberAt? r = some member ∧
    member.isOverride = true

/-- The remembered nodes of some types, in order. -/
def HasTypes (s : Session) (ts : List TypeId) (rs : List TypeRef) : Prop :=
  List.Forall₂ (fun t r => s.typeOf? t = some r) ts rs

theorem HasTypes.exists_of_mem {s : Session} {ts : List TypeId} {rs : List TypeRef} {t : TypeId}
    (h : s.HasTypes ts rs) (ht : t ∈ ts) : ∃ r, s.typeOf? t = some r := by
  obtain ⟨r, -, hr⟩ := exists_of_forall₂ h ht
  exact ⟨r, hr⟩

/-- What is never lost while a session grows. -/
structure Extends (s s' : Session) : Prop where
  typeOf {t r} : s.typeOf? t = some r → s'.typeOf? t = some r
  memberOf {key v} : s.memberOf? key = some v → s'.memberOf? key = some v
  ownerOf {t r} : s.ownerOf? t = some r → s'.ownerOf? t = some r
  types_le : s.graph.types.size ≤ s'.graph.types.size
  members_le : s.graph.members.size ≤ s'.graph.members.size
  fresh {r} : s.IsFresh r → s'.IsFresh r
  loose {r} : s.IsLoose r → s'.IsLoose r
  marked {m} : s.IsMarked m → s'.IsMarked m

namespace Extends

variable {s s' s'' : Session}

theorem refl (s : Session) : s.Extends s := ⟨id, id, id, Nat.le_refl _, Nat.le_refl _, id, id, id⟩

theorem trans (h : s.Extends s') (h' : s'.Extends s'') : s.Extends s'' where
  typeOf ht := h'.typeOf (h.typeOf ht)
  memberOf hm := h'.memberOf (h.memberOf hm)
  ownerOf hr := h'.ownerOf (h.ownerOf hr)
  types_le := Nat.le_trans h.types_le h'.types_le
  members_le := Nat.le_trans h.members_le h'.members_le
  fresh hr := h'.fresh (h.fresh hr)
  loose hr := h'.loose (h.loose hr)
  marked hm := h'.marked (h.marked hm)

theorem hasTypes (h : s.Extends s') {ts : List TypeId} {rs : List TypeRef} (hr : s.HasTypes ts rs) :
    s'.HasTypes ts rs :=
  List.Forall₂.imp (fun _ _ => h.typeOf) hr

end Extends

end Session

namespace Environment

variable (env : Environment)

/-! ### Symbols -/

/-- A marker of a prototype, which is not documented. -/
def IsMarker (m : SymbolId) : Prop :=
  ∃ flags : SymbolFlags, env.checker.symbolFlags m = .ok flags ∧ flags.has .prototype = true

/-- A symbol that is documented as a class or interface. -/
def IsClassLike (m : SymbolId) : Prop :=
  ∃ flags : SymbolFlags, env.checker.symbolFlags m = .ok flags ∧ SymbolClass.of flags = .classLike

/-- A symbol one of whose declarations says that it overrides, by a modifier or by a tag. -/
def IsDeclaredOverride (m : SymbolId) : Prop :=
  ∃ d, env.Declares m d ∧
    ((∃ modifiers : ModifierFlags, env.checker.combinedModifierFlags d = .ok modifiers ∧
        modifiers.has .override = true) ∨
      ∃ facts, env.tags d = .ok facts ∧ facts.isOverride = true)

/-- What a session remembers of a symbol: a member, or none for a marker. -/
def HoldsMember (s : Session) (m : SymbolId) (v : Option MemberRef) : Prop :=
  s.memberOf? (.symbol m) = some v ∧ (v = none ↔ env.IsMarker m)

/-- The remembered members of some symbols, in order and without those of markers. -/
def HoldsMembers (s : Session) (ms : List SymbolId) (rs : List MemberRef) : Prop :=
  ∃ known, List.Forall₂ (env.HoldsMember s) ms known ∧ rs = known.filterMap id

/-! ### Signatures -/

/-- The type of a symbol at its own declaration, or a fresh node if it has none. -/
def DepictsSymbolType (s : Session) (m : SymbolId) (r : TypeRef) : Prop :=
  (∃ d t, env.mainDeclaration? m = .ok (some d) ∧ env.checker.typeOfSymbolAtLocation m d = .ok t ∧
    s.typeOf? t = some r) ∨
  env.mainDeclaration? m = .ok none ∧ s.IsFresh r

/-- What a type parameter is documented as. -/
structure DepictsTypeParameter (s : Session) (summaries : NamedTexts) (t : TypeId)
    (p : TypeParameter) : Prop where
  name : env.typeParameterName t = .ok p.name
  summary : p.summary = (summaries.get? p.name).getD ""
  type : s.typeOf? t = some p.type
  constraint : ∃ u, env.checker.constraintOf t = .ok u ∧
    Option.Rel (fun u r => s.typeOf? u = some r) u p.constraint
  default : ∃ u, env.checker.defaultOf t = .ok u ∧
    Option.Rel (fun u r => s.typeOf? u = some r) u p.default

/-- How a parameter is marked at its declaration. -/
def MarksParameter (d : Option NodeId) (p : Parameter) : Prop :=
  match d with
  | none => p.rest = false ∧ p.optional = false ∧ p.default = none
  | some d => env.checker.hasDotDotDot d = .ok p.rest ∧ env.checker.initializerText d = .ok p.default ∧
    ∃ question, env.checker.hasQuestionToken d = .ok question ∧
      p.optional = (p.rest || question || p.default.isSome)

/-- What a parameter is documented as. -/
structure DepictsParameter (s : Session) (facts : TagFacts) (m : SymbolId) (p : Parameter) : Prop where
  name : env.checker.symbolName m = .ok p.name
  summary : p.summary = (facts.params.get? p.name).getD ""
  type : env.DepictsSymbolType s m p.type
  marks : ∃ d, env.mainDeclaration? m = .ok d ∧ env.MarksParameter d p

/-- What a signature is documented as. -/
structure DepictsSignature (s : Session) (facts : TagFacts) (sig : SignatureId)
    (signature : Signature) : Prop where
  typeParameters : ∃ ts, env.checker.signatureTypeParameters sig = .ok ts ∧
    List.Forall₂ (env.DepictsTypeParameter s facts.typeParams) ts signature.typeParameters
  parameters : ∃ ms, env.checker.signatureParameters sig = .ok ms ∧
    List.Forall₂ (env.DepictsParameter s facts) ms signature.parameters
  thisType : ∃ m, env.checker.signatureThisParameter sig = .ok m ∧
    Option.Rel (env.DepictsSymbolType s) m signature.thisType
  returnType : ∃ t, env.checker.returnType sig = .ok t ∧ s.typeOf? t = some signature.returnType

/-! ### Types -/

/-- The generic type behind one with arguments, or a fresh node if there is none other than it. -/
def DepictsTarget (s : Session) (t : TypeId) (target : Option TypeId) (r : TypeRef) : Prop :=
  (∃ u, target = some u ∧ u ≠ t ∧ s.typeOf? u = some r) ∨
  (target = none ∨ target = some t) ∧ s.IsFresh r

/-- The node of a type with parts. -/
def DepictsComposite (s : Session) (t : TypeId) : Composite → TypeNode → Prop
  | .named, node => ∃ m v, env.checker.typeSymbol t = .ok m ∧ node = .named v ∧
      match m with
      | some m => env.HoldsMember s m v
      | none => v = none
  | .array, node => ∃ u r, env.checker.elementTypeOfArray t = .ok u ∧ s.typeOf? u = some r ∧
      node = .array r
  | .tuple, node => ∃ us rs, env.checker.typeArguments t = .ok us ∧ s.HasTypes us rs ∧
      node = .tuple rs
  | .generic, node => ∃ target r us rs, env.checker.referenceTarget t = .ok target ∧
      DepictsTarget s t target r ∧ env.checker.typeArguments t = .ok us ∧ s.HasTypes us rs ∧
      node = .generic r rs
  | .function sig, node => ∃ signature, env.DepictsSignature s {} sig signature ∧
      node = .function signature
  | .typeOf m, node => ∃ v, env.HoldsMember s m v ∧ node = .typeOf v
  | .object, node => ∃ ms rs, env.checker.propertiesOfType t = .ok ms ∧ env.HoldsMembers s ms rs ∧
      node = .object rs
  | .union, node => ∃ us rs, env.checker.operandTypes t = .ok us ∧ s.HasTypes us rs ∧
      node = .union rs
  | .intersection, node => ∃ us rs, env.checker.operandTypes t = .ok us ∧ s.HasTypes us rs ∧
      node = .intersection rs
  | .conditional, node => ∃ root, env.checker.conditionalRoot t = .ok root ∧
      match root with
      | some root => ∃ check bound whenTrue whenFalse,
          s.HasTypes [root.check, root.bound, root.whenTrue, root.whenFalse]
            [check, bound, whenTrue, whenFalse] ∧
          node = .conditional check bound whenTrue whenFalse
      | none => node = .mixed
  | .indexedAccess, node => ∃ parts, env.checker.indexedAccessParts t = .ok parts ∧
      match parts with
      | some (operand, argument) => ∃ r r', s.HasTypes [operand, argument] [r, r'] ∧
          node = .indexedAccess r r'
      | none => node = .mixed
  | .keyOf, node => ∃ operand, env.checker.indexOperand t = .ok operand ∧
      match operand with
      | some operand => ∃ r, s.typeOf? operand = some r ∧ node = .unary .keyOf r
      | none => node = .mixed

/-- The node of a type without parts. -/
def DepictsLeaf (t : TypeId) : TypeShape → TypeNode → Prop
  | .native type, node => node = .native type
  | .literal, node => env.literalNode t = .ok node
  | .this, node => node = .this
  | .parameter, node => ∃ name owner, env.typeParameterName t = .ok name ∧ node = .parameter name owner
  | .substitution _, _ => False
  | .composite _, _ => False

/-- **What a type of some shape is documented as**: the node in its place, with the remembered nodes
and members of its parts; a type that stands for another shares its place. -/
def Depicts (s : Session) (t : TypeId) (r : TypeRef) : TypeShape → Prop
  | .substitution base => s.typeOf? base = some r
  | .composite shape => ∃ node, s.nodeAt? r = some node ∧ env.DepictsComposite s t shape node
  | shape => ∃ node, s.nodeAt? r = some node ∧ env.DepictsLeaf t shape node

/-! ### Members -/

/-- A class whose base types have nodes and whose members are marked as overrides wherever they have
the name of a property of one. -/
structure ClassDone (s : Session) (owner : SymbolId) : Prop where
  bases {us u} : env.HasBases owner us → u ∈ us → ∃ r, s.typeOf? u = some r
  overrides {m base} : env.Overrides owner m base → s.IsMarked m

/-- A key that is finished with as far as classes go: a symbol that is documented as something else
has no members of this kind. -/
def KeyDone (s : Session) : MemberKey → Prop
  | .symbol m => env.IsClassLike m → env.ClassDone s m
  | .companion m => env.ClassDone s m

/-- A member made from a symbol's own declarations: it is linked to nothing yet, and if it is marked
as an override then one of them says so. -/
structure IsBuilt (m : SymbolId) (member : Member) : Prop where
  parent : member.parent = none
  overrides : member.overrides = none
  declared : member.isOverride = true → env.IsDeclaredOverride m

/-! ### What is pictured stays so -/

variable {env} {s s' : Session}

theorem HoldsMember.mono {m : SymbolId} {v : Option MemberRef} (h : env.HoldsMember s m v)
    (hs : s.Extends s') : env.HoldsMember s' m v :=
  ⟨hs.memberOf h.1, h.2⟩

theorem HoldsMembers.mono {ms : List SymbolId} {rs : List MemberRef} (h : env.HoldsMembers s ms rs)
    (hs : s.Extends s') : env.HoldsMembers s' ms rs := by
  obtain ⟨known, hknown, rfl⟩ := h
  exact ⟨known, hknown.imp fun _ _ h => h.mono hs, rfl⟩

theorem DepictsSymbolType.mono {m : SymbolId} {r : TypeRef} (h : env.DepictsSymbolType s m r)
    (hs : s.Extends s') : env.DepictsSymbolType s' m r := by
  rcases h with ⟨d, t, hd, ht, hr⟩ | ⟨hd, hr⟩
  · exact .inl ⟨d, t, hd, ht, hs.typeOf hr⟩
  · exact .inr ⟨hd, hs.fresh hr⟩

theorem rel_imp {α β : Type} {R R' : α → β → Prop} {a : Option α} {b : Option β}
    (h : Option.Rel R a b) (himp : ∀ a b, R a b → R' a b) : Option.Rel R' a b := by
  cases h with
  | some h => exact .some (himp _ _ h)
  | none => exact .none

theorem DepictsTypeParameter.mono {summaries : NamedTexts} {t : TypeId} {p : TypeParameter}
    (h : env.DepictsTypeParameter s summaries t p) (hs : s.Extends s') :
    env.DepictsTypeParameter s' summaries t p where
  name := h.name
  summary := h.summary
  type := hs.typeOf h.type
  constraint := by
    obtain ⟨u, hu, hrel⟩ := h.constraint
    exact ⟨u, hu, rel_imp hrel fun _ _ => hs.typeOf⟩
  default := by
    obtain ⟨u, hu, hrel⟩ := h.default
    exact ⟨u, hu, rel_imp hrel fun _ _ => hs.typeOf⟩

theorem DepictsParameter.mono {facts : TagFacts} {m : SymbolId} {p : Parameter}
    (h : env.DepictsParameter s facts m p) (hs : s.Extends s') : env.DepictsParameter s' facts m p :=
  ⟨h.name, h.summary, h.type.mono hs, h.marks⟩

theorem DepictsSignature.mono {facts : TagFacts} {sig : SignatureId} {signature : Signature}
    (h : env.DepictsSignature s facts sig signature) (hs : s.Extends s') :
    env.DepictsSignature s' facts sig signature where
  typeParameters := by
    obtain ⟨ts, hts, hall⟩ := h.typeParameters
    exact ⟨ts, hts, hall.imp fun _ _ h => h.mono hs⟩
  parameters := by
    obtain ⟨ms, hms, hall⟩ := h.parameters
    exact ⟨ms, hms, hall.imp fun _ _ h => h.mono hs⟩
  thisType := by
    obtain ⟨m, hm, hrel⟩ := h.thisType
    exact ⟨m, hm, rel_imp hrel fun _ _ h => h.mono hs⟩
  returnType := by
    obtain ⟨t, ht, hr⟩ := h.returnType
    exact ⟨t, ht, hs.typeOf hr⟩

theorem DepictsTarget.mono {t : TypeId} {target : Option TypeId} {r : TypeRef}
    (h : DepictsTarget s t target r) (hs : s.Extends s') : DepictsTarget s' t target r := by
  rcases h with ⟨u, hu, hne, hr⟩ | ⟨hu, hr⟩
  · exact .inl ⟨u, hu, hne, hs.typeOf hr⟩
  · exact .inr ⟨hu, hs.fresh hr⟩

theorem DepictsComposite.mono {t : TypeId} {shape : Composite} {node : TypeNode}
    (h : env.DepictsComposite s t shape node) (hs : s.Extends s') :
    env.DepictsComposite s' t shape node := by
  cases shape with
  | named =>
    obtain ⟨m, v, hm, hnode, hv⟩ := h
    refine ⟨m, v, hm, hnode, ?_⟩
    cases m with
    | some m => exact HoldsMember.mono hv hs
    | none => exact hv
  | array =>
    obtain ⟨u, r, hu, hr, hnode⟩ := h
    exact ⟨u, r, hu, hs.typeOf hr, hnode⟩
  | tuple | union | intersection =>
    obtain ⟨us, rs, hus, hrs, hnode⟩ := h
    exact ⟨us, rs, hus, hs.hasTypes hrs, hnode⟩
  | generic =>
    obtain ⟨target, r, us, rs, htarget, hr, hus, hrs, hnode⟩ := h
    exact ⟨target, r, us, rs, htarget, DepictsTarget.mono hr hs, hus, hs.hasTypes hrs, hnode⟩
  | function sig =>
    obtain ⟨signature, hsig, hnode⟩ := h
    exact ⟨signature, hsig.mono hs, hnode⟩
  | typeOf m =>
    obtain ⟨v, hv, hnode⟩ := h
    exact ⟨v, hv.mono hs, hnode⟩
  | object =>
    obtain ⟨ms, rs, hms, hrs, hnode⟩ := h
    exact ⟨ms, rs, hms, hrs.mono hs, hnode⟩
  | conditional =>
    obtain ⟨root, hroot, h⟩ := h
    refine ⟨root, hroot, ?_⟩
    cases root with
    | some root =>
      obtain ⟨a, b, c, d, hrs, hnode⟩ := h
      exact ⟨a, b, c, d, hs.hasTypes hrs, hnode⟩
    | none => exact h
  | indexedAccess =>
    obtain ⟨parts, hparts, h⟩ := h
    refine ⟨parts, hparts, ?_⟩
    cases parts with
    | some parts =>
      obtain ⟨r, r', hrs, hnode⟩ := h
      exact ⟨r, r', hs.hasTypes hrs, hnode⟩
    | none => exact h
  | keyOf =>
    obtain ⟨operand, hoperand, h⟩ := h
    refine ⟨operand, hoperand, ?_⟩
    cases operand with
    | some operand =>
      obtain ⟨r, hr, hnode⟩ := h
      exact ⟨r, hs.typeOf hr, hnode⟩
    | none => exact h

theorem ClassDone.mono {owner : SymbolId} (h : env.ClassDone s owner) (hs : s.Extends s') :
    env.ClassDone s' owner where
  bases hus hu := by
    obtain ⟨r, hr⟩ := h.bases hus hu
    exact ⟨r, hs.typeOf hr⟩
  overrides hm := hs.marked (h.overrides hm)

theorem KeyDone.mono {key : MemberKey} (h : env.KeyDone s key) (hs : s.Extends s') :
    env.KeyDone s' key := by
  cases key with
  | symbol m => exact fun hm => ClassDone.mono (h hm) hs
  | companion m => exact ClassDone.mono h hs

end Environment

end ApiDoc
