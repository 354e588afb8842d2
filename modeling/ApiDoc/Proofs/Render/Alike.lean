import Mathlib.Data.List.Forall2
import ApiDoc.Proofs.Render.Shapes
import ApiDoc.Proofs.Render.Trees

/-!
# Nodes that are written alike

Two nodes, of one graph or of two, are alike along a relation of types and a relation of members if they say the
same of themselves and refer to related nodes in the same places.  Only what is expanded in a node has to be
related: a member that is only pointed to is a name and a place (`Graph.SameStub`), a list of members is looked at
without those that are left out (`Graph.ShownAlike`), and in a text the members of an object type are no more than
their names and types (`Graph.ReadAlike`).

If two writers agree on related nodes they write nodes that are alike the same, as text
(`TypeWriter.Agrees.nodeText`) and as a tree (`TreeWriter.Agrees.typeBody`, `TreeWriter.Agrees.memberBody`).
-/

namespace ApiDoc

open List (Forall₂)

variable {g g' : Graph} {includeHidden : Bool} {R : TypeRef → TypeRef → Prop} {M : MemberRef → MemberRef → Prop}

/-! ### Types -/

/-- The same parameter, but for related constraints and defaults. -/
structure TypeParameter.Alike (R : TypeRef → TypeRef → Prop) (p p' : TypeParameter) : Prop where
  name : p.name = p'.name
  summary : p.summary = p'.summary
  constraint : Option.Rel R p.constraint p'.constraint
  default : Option.Rel R p.default p'.default

/-- The same parameter, but for related types. -/
structure Parameter.Alike (R : TypeRef → TypeRef → Prop) (p p' : Parameter) : Prop where
  name : p.name = p'.name
  summary : p.summary = p'.summary
  type : R p.type p'.type
  optional : p.optional = p'.optional
  rest : p.rest = p'.rest
  default : p.default = p'.default

/-- The same signature, but for related types. -/
structure Signature.Alike (R : TypeRef → TypeRef → Prop) (s s' : Signature) : Prop where
  typeParameters : Forall₂ (TypeParameter.Alike R) s.typeParameters s'.typeParameters
  parameters : Forall₂ (Parameter.Alike R) s.parameters s'.parameters
  returnType : R s.returnType s'.returnType
  thisType : Option.Rel R s.thisType s'.thisType

/-- Members of the same name at the same place, as far as places are shown. -/
def Graph.SameStub (g g' : Graph) (r r' : MemberRef) : Prop :=
  ∃ m m', g.member r = .ok m ∧ g'.member r' = .ok m' ∧ m.name = m'.name ∧
    m.location.display = m'.location.display

/-- The same node, but for types related by `R` and lists of members of an object related by `L`. -/
inductive TypeNode.Alike (g g' : Graph) (R : TypeRef → TypeRef → Prop)
    (L : List MemberRef → List MemberRef → Prop) : TypeNode → TypeNode → Prop
  | native (t : NativeType) : Alike g g' R L (.native t) (.native t)
  | literal (value : LiteralValue) : Alike g g' R L (.literal value) (.literal value)
  | array {a a' : TypeRef} : R a a' → Alike g g' R L (.array a) (.array a')
  | tuple {as as' : List TypeRef} : Forall₂ R as as' → Alike g g' R L (.tuple as) (.tuple as')
  | generic {a a' : TypeRef} {as as' : List TypeRef} : R a a' → Forall₂ R as as' →
      Alike g g' R L (.generic a as) (.generic a' as')
  | function {s s' : Signature} : s.Alike R s' → Alike g g' R L (.function s) (.function s')
  | object {rs rs' : List MemberRef} : L rs rs' → Alike g g' R L (.object rs) (.object rs')
  | union {as as' : List TypeRef} : Forall₂ R as as' → Alike g g' R L (.union as) (.union as')
  | intersection {as as' : List TypeRef} : Forall₂ R as as' →
      Alike g g' R L (.intersection as) (.intersection as')
  | conditional {a a' b b' c c' d d' : TypeRef} : R a a' → R b b' → R c c' → R d d' →
      Alike g g' R L (.conditional a b c d) (.conditional a' b' c' d')
  | indexedAccess {a a' b b' : TypeRef} : R a a' → R b b' →
      Alike g g' R L (.indexedAccess a b) (.indexedAccess a' b')
  | unary (operator : TypeOperator) {a a' : TypeRef} : R a a' →
      Alike g g' R L (.unary operator a) (.unary operator a')
  | parameter (name : String) {r r' : Option MemberRef} : Option.Rel (g.SameStub g') r r' →
      Alike g g' R L (.parameter name r) (.parameter name r')
  | this : Alike g g' R L .this .this
  | typeOf {r r' : Option MemberRef} : Option.Rel (g.SameStub g') r r' →
      Alike g g' R L (.typeOf r) (.typeOf r')
  | named {r r' : Option MemberRef} : Option.Rel (g.SameStub g') r r' →
      Alike g g' R L (.named r) (.named r')

/-! ### Members in texts -/

/-- Whether the text of a member of an object type is its name alone. -/
def MemberBody.isNameOnly : MemberBody → Bool
  | .field _ | .method _ => false
  | .classLike _ | .enumeration _ | .namespaceLike _ | .alias .. => true

/-- Bodies with the same text, but for related types. -/
inductive MemberBody.ReadAlike (R : TypeRef → TypeRef → Prop) : MemberBody → MemberBody → Prop
  | field {f f' : Field} : f.readOnly = f'.readOnly → f.optional = f'.optional → R f.type f'.type →
      ReadAlike R (.field f) (.field f')
  | method {f f' : Method} : f.signature.Alike R f'.signature → ReadAlike R (.method f) (.method f')
  | nameOnly {b b' : MemberBody} : b.isNameOnly = true → b'.isNameOnly = true → ReadAlike R b b'

/-- Members of objects with the same texts, but for related types. -/
def Graph.ReadAlike (g g' : Graph) (R : TypeRef → TypeRef → Prop) : List MemberRef → List MemberRef → Prop :=
  Forall₂ fun r r' => ∃ m m', g.member r = .ok m ∧ g'.member r' = .ok m' ∧ m.name = m'.name ∧
    m.body.ReadAlike R m'.body

/-! ### Members in trees -/

/-- Lists of which the members that are not left out are related. -/
def Graph.ShownAlike (g g' : Graph) (includeHidden : Bool) (M : MemberRef → MemberRef → Prop)
    (rs rs' : List MemberRef) : Prop :=
  ∃ shown shown', TreeWriter.shown g includeHidden rs = .ok shown ∧
    TreeWriter.shown g' includeHidden rs' = .ok shown' ∧ Forall₂ M shown shown'

/-- Members of enums with the same values that are related, without those that are left out. -/
def Graph.EntriesAlike (g g' : Graph) (includeHidden : Bool) (M : MemberRef → MemberRef → Prop)
    (entries entries' : List EnumEntry) : Prop :=
  ∃ shown shown', TreeWriter.shownEntries g includeHidden entries = .ok shown ∧
    TreeWriter.shownEntries g' includeHidden entries' = .ok shown' ∧
    Forall₂ (fun e e' => e.value = e'.value ∧ M e.member e'.member) shown shown'

/-- The same field, but for related types. -/
structure Field.Alike (R : TypeRef → TypeRef → Prop) (f f' : Field) : Prop where
  kind : f.kind = f'.kind
  type : R f.type f'.type
  optional : f.optional = f'.optional
  readOnly : f.readOnly = f'.readOnly
  isConst : f.isConst = f'.isConst
  default : f.default = f'.default

/-- The same method, but for what is related. -/
structure Method.Alike (g g' : Graph) (includeHidden : Bool) (R : TypeRef → TypeRef → Prop)
    (M : MemberRef → MemberRef → Prop) (f f' : Method) : Prop where
  kind : f.kind = f'.kind
  signature : f.signature.Alike R f'.signature
  returnSummary : f.returnSummary = f'.returnSummary
  isAsync : f.isAsync = f'.isAsync
  isGenerator : f.isGenerator = f'.isGenerator
  overloads : g.ShownAlike g' includeHidden M f.overloads f'.overloads
  companion : Option.Rel M f.companion f'.companion

/-- The same class, but for what is related. -/
structure ClassBody.Alike (g g' : Graph) (includeHidden : Bool) (R : TypeRef → TypeRef → Prop)
    (M : MemberRef → MemberRef → Prop) (c c' : ClassBody) : Prop where
  kind : c.kind = c'.kind
  typeParameters : Forall₂ (TypeParameter.Alike R) c.typeParameters c'.typeParameters
  bases : Forall₂ R c.bases c'.bases
  implements : Forall₂ R c.implements c'.implements
  members : g.ShownAlike g' includeHidden M c.members c'.members
  instanceMembers : g.ShownAlike g' includeHidden M c.instanceMembers c'.instanceMembers
  extendedMembers : Forall₂ (g.SameStub g') c.extendedMembers c'.extendedMembers
  constructor : Option.Rel M c.constructor c'.constructor
  indexer : Option.Rel M c.indexer c'.indexer
  newSignature : Option.Rel M c.newSignature c'.newSignature

/-- The same enum, but for what is related. -/
structure EnumBody.Alike (g g' : Graph) (includeHidden : Bool) (M : MemberRef → MemberRef → Prop)
    (e e' : EnumBody) : Prop where
  isConst : e.isConst = e'.isConst
  members : g.EntriesAlike g' includeHidden M e.members e'.members
  namespaceMembers : g.ShownAlike g' includeHidden M e.namespaceMembers e'.namespaceMembers

/-- Bodies of the same kind that are the same, but for what is related. -/
inductive MemberBody.Alike (g g' : Graph) (includeHidden : Bool) (R : TypeRef → TypeRef → Prop)
    (M : MemberRef → MemberRef → Prop) : MemberBody → MemberBody → Prop
  | field {f f' : Field} : f.Alike R f' → Alike g g' includeHidden R M (.field f) (.field f')
  | method {f f' : Method} : f.Alike g g' includeHidden R M f' →
      Alike g g' includeHidden R M (.method f) (.method f')
  | classLike {c c' : ClassBody} : c.Alike g g' includeHidden R M c' →
      Alike g g' includeHidden R M (.classLike c) (.classLike c')
  | enumeration {e e' : EnumBody} : e.Alike g g' includeHidden M e' →
      Alike g g' includeHidden R M (.enumeration e) (.enumeration e')
  | namespaceLike {rs rs' : List MemberRef} : g.ShownAlike g' includeHidden M rs rs' →
      Alike g g' includeHidden R M (.namespaceLike rs) (.namespaceLike rs')
  | alias {a a' : TypeRef} {ps ps' : List TypeParameter} : R a a' → Forall₂ (TypeParameter.Alike R) ps ps' →
      Alike g g' includeHidden R M (.alias a ps) (.alias a' ps')

/-- The same member, but for what is related. -/
structure Member.Alike (g g' : Graph) (includeHidden : Bool) (R : TypeRef → TypeRef → Prop)
    (M : MemberRef → MemberRef → Prop) (m m' : Member) : Prop where
  name : m.name = m'.name
  exportName : m.exportName = m'.exportName
  doc : m.doc = m'.doc
  location : m.location = m'.location
  visibility : m.visibility = m'.visibility
  isStatic : m.isStatic = m'.isStatic
  isAbstract : m.isAbstract = m'.isAbstract
  isOverride : m.isOverride = m'.isOverride
  parent : Option.Rel R m.parent m'.parent
  overrides : Option.Rel (g.SameStub g') m.overrides m'.overrides
  body : m.body.Alike g g' includeHidden R M m'.body

/-! ### Writers that agree -/

/-- What is made of two lists is the same if it is for their elements. -/
theorem mapM_eq_of_forall₂ {α α' β : Type} {f : α → Answer β} {f' : α' → Answer β} {xs : List α} {xs' : List α'}
    (h : Forall₂ (fun x x' => f x = f' x') xs xs') : xs.mapM f = xs'.mapM f' := by
  induction h with
  | nil => rfl
  | cons hx _ ih => rw [List.mapM_cons, List.mapM_cons, hx, ih]

namespace TypeWriter

variable {w w' : TypeWriter (Except Error)}

/-- The writers agree on related types. -/
structure Agrees (w w' : TypeWriter (Except Error)) (R : TypeRef → TypeRef → Prop) : Prop where
  type {a a' : TypeRef} : R a a' → w.type a = w'.type a'
  operand {a a' : TypeRef} : R a a' → w.operand a = w'.operand a'

theorem memberName_eq {r r' : Option MemberRef} (h : Option.Rel (g.SameStub g') r r') :
    memberName g r = memberName g' r' := by
  cases h with
  | none => rfl
  | some h =>
    obtain ⟨m, m', hm, hm', hname, -⟩ := h
    simp [memberName, hm, hm', hname, bind, Except.bind]

theorem objectMember_of_isNameOnly {r : MemberRef} {m : Member} (hm : g.member r = .ok m)
    (h : m.body.isNameOnly = true) : w.objectMember g r = .ok m.name := by
  cases hb : m.body with
  | field _ | method _ => exact nomatch hb ▸ h
  | classLike _ | enumeration _ | namespaceLike _ | «alias» _ _ =>
    simp [objectMember, hm, hb, bind, Except.bind, pure, Except.pure]

namespace Agrees

theorem after (hw : w.Agrees w' R) (mark : String) {r r' : Option TypeRef} (h : Option.Rel R r r') :
    w.after mark r = w'.after mark r' := by
  cases h with
  | none => rfl
  | some h => simp only [TypeWriter.after, hw.type h]

theorem typeParameter (hw : w.Agrees w' R) {p p' : TypeParameter} (h : p.Alike R p') :
    w.typeParameter p = w'.typeParameter p' := by
  simp only [TypeWriter.typeParameter, h.name, hw.after _ h.constraint, hw.after _ h.default]

theorem typeParameters (hw : w.Agrees w' R) {ps ps' : List TypeParameter}
    (h : Forall₂ (TypeParameter.Alike R) ps ps') : w.typeParameters ps = w'.typeParameters ps' := by
  have heach := mapM_eq_of_forall₂ (h.imp fun _ _ => hw.typeParameter)
  have hempty : ps.isEmpty = ps'.isEmpty := by cases h <;> rfl
  simp only [TypeWriter.typeParameters, hempty, heach]

theorem parameter (hw : w.Agrees w' R) {p p' : Parameter} (h : p.Alike R p') :
    w.parameter p = w'.parameter p' := by
  simp only [TypeWriter.parameter, h.name, h.optional, h.rest, hw.type h.type]

theorem receiver (hw : w.Agrees w' R) {r r' : Option TypeRef} (h : Option.Rel R r r') :
    w.receiver r = w'.receiver r' := by
  cases h with
  | none => rfl
  | some h => simp only [TypeWriter.receiver, hw.type h]

theorem signature (hw : w.Agrees w' R) (arrow : String) {s s' : Signature} (h : s.Alike R s') :
    w.signature arrow s = w'.signature arrow s' := by
  have hparams := mapM_eq_of_forall₂ (h.parameters.imp fun _ _ => hw.parameter)
  simp only [TypeWriter.signature, hw.typeParameters h.typeParameters, hw.receiver h.thisType, hparams,
    hw.type h.returnType]

theorem objectMember (hw : w.Agrees w' R) {r r' : MemberRef} {m m' : Member} (hm : g.member r = .ok m)
    (hm' : g'.member r' = .ok m') (hname : m.name = m'.name) (hbody : m.body.ReadAlike R m'.body) :
    w.objectMember g r = w'.objectMember g' r' := by
  generalize hb : m.body = b at hbody
  generalize hb' : m'.body = b' at hbody
  cases hbody with
  | field hreadOnly hoptional htype =>
    simp [TypeWriter.objectMember, hm, hm', hb, hb', hname, hreadOnly, hoptional, hw.type htype, bind, Except.bind]
  | method hsignature =>
    simp [TypeWriter.objectMember, hm, hm', hb, hb', hname, hw.signature ": " hsignature, bind, Except.bind]
  | nameOnly hplain hplain' =>
    rw [objectMember_of_isNameOnly hm (hb ▸ hplain), objectMember_of_isNameOnly hm' (hb' ▸ hplain'), hname]

theorem nodeText (hw : w.Agrees w' R) {node node' : TypeNode} (h : node.Alike g g' R (g.ReadAlike g' R) node') :
    w.nodeText g node = w'.nodeText g' node' := by
  have htypes {as as' : List TypeRef} (has : Forall₂ R as as') : as.mapM w.type = as'.mapM w'.type :=
    mapM_eq_of_forall₂ (has.imp fun _ _ => hw.type)
  have hoperands {as as' : List TypeRef} (has : Forall₂ R as as') : as.mapM w.operand = as'.mapM w'.operand :=
    mapM_eq_of_forall₂ (has.imp fun _ _ => hw.operand)
  cases h with
  | native _ | literal _ | parameter _ _ | this => rfl
  | array ha => simp only [TypeWriter.nodeText, hw.operand ha]
  | tuple has => simp only [TypeWriter.nodeText, htypes has]
  | @generic _ _ as as' ha has =>
    have hempty : as.isEmpty = as'.isEmpty := by cases has <;> rfl
    simp only [TypeWriter.nodeText, hw.type ha, hempty, htypes has]
  | function hs => exact hw.signature _ hs
  | object hrs =>
    cases hrs with
    | nil => rfl
    | cons hr hrs =>
      have heach := mapM_eq_of_forall₂ ((Forall₂.cons hr hrs).imp fun r r' hrr' => by
        obtain ⟨m, m', hm, hm', hname, hbody⟩ := hrr'
        exact hw.objectMember hm hm' hname hbody)
      simp only [TypeWriter.nodeText, heach]
  | union has | intersection has => simp only [TypeWriter.nodeText, hoperands has]
  | conditional ha hb hc hd =>
    simp only [TypeWriter.nodeText, hw.operand ha, hw.operand hb, hw.type hc, hw.type hd]
  | indexedAccess ha hb => simp only [TypeWriter.nodeText, hw.operand ha, hw.type hb]
  | unary operator ha => simp only [TypeWriter.nodeText, hw.operand ha]
  | typeOf hr | named hr => simp only [TypeWriter.nodeText, memberName_eq hr]

end Agrees

end TypeWriter

namespace TreeWriter

variable {w w' : TreeWriter (Except Error)}

/-- The writers agree on related types and members. -/
structure Agrees (w w' : TreeWriter (Except Error)) (R : TypeRef → TypeRef → Prop)
    (M : MemberRef → MemberRef → Prop) : Prop where
  type {a a' : TypeRef} : R a a' → w.type a = w'.type a'
  member {r r' : MemberRef} : M r r' → w.member r = w'.member r'

theorem Agrees.mono {R' : TypeRef → TypeRef → Prop} {M' : MemberRef → MemberRef → Prop} (hw : w.Agrees w' R M)
    (htypes : ∀ a a', R' a a' → R a a') (hmembers : ∀ r r', M' r r' → M r r') : w.Agrees w' R' M' where
  type h := hw.type (htypes _ _ h)
  member h := hw.member (hmembers _ _ h)

theorem pointer_eq {r r' : MemberRef} (h : g.SameStub g' r r') : pointer g r = pointer g' r' := by
  obtain ⟨m, m', hm, hm', hname, hplace⟩ := h
  simp only [pointer, hm, hm', bind, Except.bind, hname, hplace]

theorem pointer?_eq {r r' : Option MemberRef} (h : Option.Rel (g.SameStub g') r r') :
    pointer? g r = pointer? g' r' := by
  cases h with
  | none => rfl
  | some h => exact pointer_eq h

theorem overriddenField_eq {r r' : Option MemberRef} (h : Option.Rel (g.SameStub g') r r') :
    overriddenField g r = overriddenField g' r' := by
  cases h with
  | none => rfl
  | some h => simp only [overriddenField, pointer_eq h]

namespace Agrees

theorem types (hw : w.Agrees w' R M) {rs rs' : List TypeRef} (h : Forall₂ R rs rs') :
    w.types rs = w'.types rs' := by
  simp only [TreeWriter.types, mapM_eq_of_forall₂ (h.imp fun _ _ => hw.type)]

theorem typeField (hw : w.Agrees w' R M) (name : String) {r r' : Option TypeRef} (h : Option.Rel R r r') :
    w.typeField name r = w'.typeField name r' := by
  cases h with
  | none => rfl
  | some h => simp only [TreeWriter.typeField, hw.type h]

theorem memberField (hw : w.Agrees w' R M) (name : String) {r r' : Option MemberRef} (h : Option.Rel M r r') :
    w.memberField name r = w'.memberField name r' := by
  cases h with
  | none => rfl
  | some h => simp only [TreeWriter.memberField, hw.member h]

theorem members (hw : w.Agrees w' R M) {rs rs' : List MemberRef} (h : g.ShownAlike g' includeHidden M rs rs') :
    w.members g includeHidden rs = w'.members g' includeHidden rs' := by
  obtain ⟨shown, shown', hshown, hshown', hrel⟩ := h
  have heach := mapM_eq_of_forall₂ (hrel.imp fun _ _ => hw.member)
  simp only [TreeWriter.members, hshown, hshown', liftM, monadLift, bind, Except.bind, heach]

theorem typeParameter (hw : w.Agrees w' R M) {p p' : TypeParameter} (h : p.Alike R p') :
    w.typeParameter p = w'.typeParameter p' := by
  simp only [TreeWriter.typeParameter, h.name, h.summary, hw.typeField _ h.constraint, hw.typeField _ h.default]

theorem typeParameters (hw : w.Agrees w' R M) {ps ps' : List TypeParameter}
    (h : Forall₂ (TypeParameter.Alike R) ps ps') : w.typeParameters ps = w'.typeParameters ps' := by
  simp only [TreeWriter.typeParameters, mapM_eq_of_forall₂ (h.imp fun _ _ => hw.typeParameter)]

theorem parameter (hw : w.Agrees w' R M) {p p' : Parameter} (h : p.Alike R p') :
    w.parameter p = w'.parameter p' := by
  simp only [TreeWriter.parameter, h.name, h.summary, h.optional, h.rest, h.default, hw.type h.type]

theorem signature (hw : w.Agrees w' R M) {s s' : Signature} (h : s.Alike R s') :
    w.signature s = w'.signature s' := by
  have hparams := mapM_eq_of_forall₂ (h.parameters.imp fun _ _ => hw.parameter)
  simp only [TreeWriter.signature, hw.typeParameters h.typeParameters, hparams, hw.type h.returnType,
    hw.typeField _ h.thisType]

theorem typeBody (hw : w.Agrees w' R M) {node node' : TypeNode}
    (h : node.Alike g g' R (g.ShownAlike g' includeHidden M) node') :
    w.typeBody g includeHidden node = w'.typeBody g' includeHidden node' := by
  cases h with
  | native _ | literal _ | this => rfl
  | array ha => simp only [TreeWriter.typeBody, hw.type ha]
  | tuple has | union has | intersection has => simp only [TreeWriter.typeBody, hw.types has]
  | generic ha has => simp only [TreeWriter.typeBody, hw.type ha, hw.types has]
  | function hs => exact hw.signature hs
  | object hrs => simp only [TreeWriter.typeBody, hw.members hrs]
  | conditional ha hb hc hd =>
    simp only [TreeWriter.typeBody, hw.type ha, hw.type hb, hw.type hc, hw.type hd]
  | indexedAccess ha hb => simp only [TreeWriter.typeBody, hw.type ha, hw.type hb]
  | unary operator ha => simp only [TreeWriter.typeBody, hw.type ha]
  | parameter _ hr | typeOf hr | named hr => simp only [TreeWriter.typeBody, pointer?_eq hr]

theorem enumEntry (hw : w.Agrees w' R M) {e e' : EnumEntry} (hvalue : e.value = e'.value)
    (hmember : M e.member e'.member) : w.enumEntry e = w'.enumEntry e' := by
  simp only [TreeWriter.enumEntry, hw.member hmember, hvalue]

theorem methodFields (hw : w.Agrees w' R M) {f f' : Method} (h : f.Alike g g' includeHidden R M f') :
    w.kindFields g includeHidden (.method f) = w'.kindFields g' includeHidden (.method f') := by
  simp only [TreeWriter.kindFields, h.kind, hw.signature h.signature, h.returnSummary, h.isAsync, h.isGenerator,
    hw.members h.overloads, hw.memberField _ h.companion]

theorem classFields (hw : w.Agrees w' R M) {c c' : ClassBody} (h : c.Alike g g' includeHidden R M c') :
    w.kindFields g includeHidden (.classLike c) = w'.kindFields g' includeHidden (.classLike c') := by
  have hextended : pointers g c.extendedMembers = pointers g' c'.extendedMembers :=
    mapM_eq_of_forall₂ (h.extendedMembers.imp fun _ _ => pointer_eq)
  simp only [TreeWriter.kindFields, hw.typeParameters h.typeParameters, hw.types h.bases, hw.types h.implements,
    hw.members h.members, hw.members h.instanceMembers, hextended, hw.memberField _ h.constructor,
    hw.memberField _ h.indexer, hw.memberField _ h.newSignature]

theorem enumFields (hw : w.Agrees w' R M) {e e' : EnumBody} (h : e.Alike g g' includeHidden M e') :
    w.kindFields g includeHidden (.enumeration e) = w'.kindFields g' includeHidden (.enumeration e') := by
  obtain ⟨shown, shown', hshown, hshown', hrel⟩ := h.members
  have heach : shown.mapM w.enumEntry = shown'.mapM w'.enumEntry :=
    mapM_eq_of_forall₂ (hrel.imp fun _ _ hentry => hw.enumEntry hentry.1 hentry.2)
  simp only [TreeWriter.kindFields, h.isConst, hshown, hshown', heach, hw.members h.namespaceMembers, liftM,
    monadLift, bind, Except.bind]

theorem kindFields (hw : w.Agrees w' R M) {b b' : MemberBody} (h : b.Alike g g' includeHidden R M b') :
    w.kindFields g includeHidden b = w'.kindFields g' includeHidden b' := by
  cases h with
  | field hf =>
    simp only [TreeWriter.kindFields, hf.kind, hw.type hf.type, hf.optional, hf.readOnly, hf.isConst, hf.default]
  | method hf => exact hw.methodFields hf
  | classLike hc => exact hw.classFields hc
  | enumeration he => exact hw.enumFields he
  | namespaceLike hrs => simp only [TreeWriter.kindFields, hw.members hrs]
  | «alias» ha hps => simp only [TreeWriter.kindFields, hw.type ha, hw.typeParameters hps]

end Agrees

/-- Alike members have the same kind. -/
theorem kind_eq {m m' : Member} (h : m.body.Alike g g' includeHidden R M m'.body) : m.kind = m'.kind := by
  unfold Member.kind
  generalize m.body = b at h
  generalize m'.body = b' at h
  cases h with
  | classLike hc => exact congrArg ClassKind.word hc.kind
  | _ => rfl

theorem Agrees.memberBody (hw : w.Agrees w' R M) {m m' : Member} (h : m.Alike g g' includeHidden R M m') :
    w.memberBody g includeHidden m = w'.memberBody g' includeHidden m' := by
  simp only [TreeWriter.memberBody, overriddenField_eq h.overrides, kind_eq h.body, h.name, h.exportName, h.doc,
    h.location, h.visibility, h.isStatic, h.isAbstract, h.isOverride, hw.typeField _ h.parent,
    hw.kindFields h.body]

end TreeWriter

end ApiDoc
