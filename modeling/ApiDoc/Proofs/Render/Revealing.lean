import ApiDoc.Proofs.Render.Equality
import ApiDoc.Proofs.Render.Shapes

/-!
# What the tree of a type tells of its text

A consumer that has only the tree of a type can tell what its text is: every name, mark and part that is
displayed is a field of the tree.  `Reveals` says of two pairs of writers that types with the same tree have
the same text.  If it holds of the parts of two signatures, members or nodes, then those with the same tree
have the same text as well (`Reveals.signature`, `Reveals.objectMember`, `Reveals.nodeText`).

The exception is a whole number of any size, whose tree is a string (`LiteralValue.Confused`).
-/

namespace ApiDoc

open Relation
open Json (Same)

/-! ### Fields of what is written -/

namespace TreeWriter

variable {v : TreeWriter (Except Error)} {g : Graph} {fields : List (String × Json)} {name key : String}

theorem typeField_eq_ok {r : Option TypeRef} (h : v.typeField name r = .ok fields) :
    (r = none ∧ fields = []) ∨ ∃ a j, r = some a ∧ v.type a = .ok j ∧ fields = [(name, j)] := by
  cases r with
  | none => exact .inl ⟨rfl, (Except.ok.inj h).symm⟩
  | some a =>
    obtain ⟨j, hj, rfl⟩ := map_eq_ok_iff.1 h
    exact .inr ⟨a, j, rfl, hj, rfl⟩

theorem memberField_eq_ok {r : Option MemberRef} (h : v.memberField name r = .ok fields) :
    fields = [] ∨ ∃ j, fields = [(name, j)] := by
  cases r with
  | none => exact .inl (Except.ok.inj h).symm
  | some m =>
    obtain ⟨j, -, rfl⟩ := map_eq_ok_iff.1 h
    exact .inr ⟨j, rfl⟩

theorem overriddenField_eq_ok {r : Option MemberRef} (h : overriddenField g r = .ok fields) :
    fields = [] ∨ ∃ j, fields = [("overrides", j)] := by
  cases r with
  | none => exact .inl (Except.ok.inj h).symm
  | some m =>
    obtain ⟨j, -, rfl⟩ := map_eq_ok_iff.1 h
    exact .inr ⟨j, rfl⟩

theorem lookup_typeField_of_ne {r : Option TypeRef} (h : v.typeField name r = .ok fields) (hkey : key ≠ name) :
    fields.lookup key = none := by
  obtain ⟨-, rfl⟩ | ⟨a, j, -, -, rfl⟩ := typeField_eq_ok h
  · rfl
  · exact Json.lookup_cons_of_ne hkey _ _

theorem lookup_memberField_of_ne {r : Option MemberRef} (h : v.memberField name r = .ok fields)
    (hkey : key ≠ name) : fields.lookup key = none := by
  obtain rfl | ⟨j, rfl⟩ := memberField_eq_ok h
  · rfl
  · exact Json.lookup_cons_of_ne hkey _ _

theorem lookup_overriddenField_of_ne {r : Option MemberRef} (h : overriddenField g r = .ok fields)
    (hkey : key ≠ "overrides") : fields.lookup key = none := by
  obtain rfl | ⟨j, rfl⟩ := overriddenField_eq_ok h
  · rfl
  · exact Json.lookup_cons_of_ne hkey _ _

/-- The parts of a signature that is written. -/
theorem signature_eq_ok {s : Signature} (h : v.signature s = .ok fields) :
    ∃ typeParams params returned receiver, v.typeParameters s.typeParameters = .ok typeParams ∧
      s.parameters.mapM v.parameter = .ok params ∧ v.type s.returnType = .ok returned ∧
      v.typeField "thisType" s.thisType = .ok receiver ∧
      fields = [("typeParameters", typeParams), ("parameters", .list params), ("returnType", returned)] ++
        receiver := by
  obtain ⟨typeParams, htypeParams, h⟩ := bind_eq_ok_iff.1 h
  obtain ⟨params, hparams, h⟩ := bind_eq_ok_iff.1 h
  obtain ⟨returned, hreturned, h⟩ := bind_eq_ok_iff.1 h
  obtain ⟨receiver, hreceiver, rfl⟩ := map_eq_ok_iff.1 h
  exact ⟨typeParams, params, returned, receiver, htypeParams, hparams, hreturned, hreceiver, rfl⟩

end TreeWriter

/-- What is written of two lists is the same if the trees of their elements are. -/
theorem mapM_eq_of_same {α β : Type} {f f' : α → Answer Json} {t t' : α → Answer β} {xs xs' : List α}
    {js js' : List Json} (h : xs.mapM f = .ok js) (h' : xs'.mapM f' = .ok js') (hsame : List.Forall₂ Same js js')
    (heach : ∀ x ∈ xs, ∀ x' ∈ xs', ∀ j j', f x = .ok j → f' x' = .ok j' → Same j j' → t x = t' x') :
    xs.mapM t = xs'.mapM t' := by
  rw [mapM_eq_ok_iff] at h h'
  induction hsame generalizing xs xs' with
  | nil =>
    obtain rfl := List.forall₂_nil_right_iff.1 h
    obtain rfl := List.forall₂_nil_right_iff.1 h'
    rfl
  | cons hj _ ih =>
    obtain ⟨x, xs, hx, hxs, rfl⟩ := List.forall₂_cons_right_iff.1 h
    obtain ⟨x', xs', hx', hxs', rfl⟩ := List.forall₂_cons_right_iff.1 h'
    rw [List.mapM_cons, List.mapM_cons, heach x (by simp) x' (by simp) _ _ hx hx' hj,
      ih hxs hxs' fun y hy y' hy' => heach y (by simp [hy]) y' (by simp [hy'])]

theorem isEmpty_eq_of_same {α : Type} {f f' : α → Answer Json} {xs xs' : List α}
    {js js' : List Json} (h : xs.mapM f = .ok js) (h' : xs'.mapM f' = .ok js')
    (hsame : List.Forall₂ Same js js') : xs.isEmpty = xs'.isEmpty := by
  have hlength : xs.length = xs'.length := by
    rw [← length_of_mapM_eq_ok h, ← length_of_mapM_eq_ok h', hsame.length_eq]
  cases xs <;> cases xs' <;> simp_all

/-! ### Parts whose trees tell of their texts -/

/-- Of types with `P` and types with `P'`, those with the same tree have the same text. -/
structure Reveals (v v' : TreeWriter (Except Error)) (w w' : TypeWriter (Except Error)) (P P' : TypeRef → Prop) :
    Prop where
  type {a a' : TypeRef} {j j' : Json} : P a → P' a' → v.type a = .ok j → v'.type a' = .ok j' → Same j j' →
    w.type a = w'.type a'
  operand {a a' : TypeRef} {j j' : Json} : P a → P' a' → v.type a = .ok j → v'.type a' = .ok j' → Same j j' →
    w.operand a = w'.operand a'

namespace Reveals

variable {v v' : TreeWriter (Except Error)} {w w' : TypeWriter (Except Error)} {P P' : TypeRef → Prop}

theorem mono (h : Reveals v v' w w' P P') {Q Q' : TypeRef → Prop} (hQ : ∀ a, Q a → P a) (hQ' : ∀ a, Q' a → P' a) :
    Reveals v v' w w' Q Q' :=
  ⟨fun ha ha' => h.type (hQ _ ha) (hQ' _ ha'), fun ha ha' => h.operand (hQ _ ha) (hQ' _ ha')⟩

section

variable {r r' : Option TypeRef} {fields fields' : List (String × Json)} {name : String}

/-- A type that may be absent is there in both or in neither. -/
theorem typeField (hP : ∀ a, r = some a → P a) (hP' : ∀ a, r' = some a → P' a)
    (h : v.typeField name r = .ok fields) (h' : v'.typeField name r' = .ok fields')
    (hsame : Option.Rel Same (fields.lookup name) (fields'.lookup name)) :
    (r = none ∧ r' = none) ∨ ∃ a a' j j', r = some a ∧ r' = some a' ∧ P a ∧ P' a' ∧ v.type a = .ok j ∧
      v'.type a' = .ok j' ∧ Same j j' := by
  obtain ⟨rfl, rfl⟩ | ⟨a, j, rfl, hj, rfl⟩ := TreeWriter.typeField_eq_ok h <;>
    obtain ⟨rfl, rfl⟩ | ⟨a', j', rfl, hj', rfl⟩ := TreeWriter.typeField_eq_ok h'
  · exact .inl ⟨rfl, rfl⟩
  · simp at hsame
  · simp at hsame
  · simp only [List.lookup_cons_self, Option.rel_some_some] at hsame
    exact .inr ⟨a, a', j, j', rfl, rfl, hP a rfl, hP' a' rfl, hj, hj', hsame⟩

/-- What stands behind a mark is the same if the fields of that name are. -/
theorem after (hr : Reveals v v' w w' P P') (hP : ∀ a, r = some a → P a) (hP' : ∀ a, r' = some a → P' a)
    (h : v.typeField name r = .ok fields) (h' : v'.typeField name r' = .ok fields')
    (hsame : Option.Rel Same (fields.lookup name) (fields'.lookup name)) (mark : String) :
    w.after mark r = w'.after mark r' := by
  obtain ⟨rfl, rfl⟩ | ⟨a, a', j, j', rfl, rfl, ha, ha', hj, hj', hsame⟩ := typeField hP hP' h h' hsame
  · rfl
  · simp only [TypeWriter.after, hr.type ha ha' hj hj' hsame]

theorem receiver (hr : Reveals v v' w w' P P') (hP : ∀ a, r = some a → P a) (hP' : ∀ a, r' = some a → P' a)
    (h : v.typeField name r = .ok fields) (h' : v'.typeField name r' = .ok fields')
    (hsame : Option.Rel Same (fields.lookup name) (fields'.lookup name)) : w.receiver r = w'.receiver r' := by
  obtain ⟨rfl, rfl⟩ | ⟨a, a', j, j', rfl, rfl, ha, ha', hj, hj', hsame⟩ := typeField hP hP' h h' hsame
  · rfl
  · simp only [TypeWriter.receiver, hr.type ha ha' hj hj' hsame]

end

theorem typeParameter (hr : Reveals v v' w w' P P') {p p' : TypeParameter} (hP : ∀ a ∈ p.displayed, P a)
    (hP' : ∀ a ∈ p'.displayed, P' a) {j j' : Json} (h : v.typeParameter p = .ok j)
    (h' : v'.typeParameter p' = .ok j') (hsame : Same j j') : w.typeParameter p = w'.typeParameter p' := by
  obtain ⟨constraint, hconstraint, h⟩ := bind_eq_ok_iff.1 h
  obtain ⟨default, hdefault, rfl⟩ := map_eq_ok_iff.1 h
  obtain ⟨constraint', hconstraint', h'⟩ := bind_eq_ok_iff.1 h'
  obtain ⟨default', hdefault', rfl⟩ := map_eq_ok_iff.1 h'
  have hname : p.name = p'.name := (hsame.field "name" rfl rfl).text_inj
  have hsameConstraint : Option.Rel Same (constraint.lookup "constraint") (constraint'.lookup "constraint") := by
    simpa [List.lookup_append, List.lookup_cons, Json.lookup_textField_of_ne,
      TreeWriter.lookup_typeField_of_ne hdefault, TreeWriter.lookup_typeField_of_ne hdefault'] using
      hsame.lookup "constraint"
  have hsameDefault : Option.Rel Same (default.lookup "default") (default'.lookup "default") := by
    simpa [List.lookup_append, List.lookup_cons, Json.lookup_textField_of_ne,
      TreeWriter.lookup_typeField_of_ne hconstraint, TreeWriter.lookup_typeField_of_ne hconstraint'] using
      hsame.lookup "default"
  have hextends := hr.after (fun a ha => hP a (by simp [TypeParameter.displayed, ha]))
    (fun a ha => hP' a (by simp [TypeParameter.displayed, ha])) hconstraint hconstraint' hsameConstraint " extends "
  have hequals := hr.after (fun a ha => hP a (by simp [TypeParameter.displayed, ha]))
    (fun a ha => hP' a (by simp [TypeParameter.displayed, ha])) hdefault hdefault' hsameDefault " = "
  simp only [TypeWriter.typeParameter, hname, hextends, hequals]

theorem typeParameters (hr : Reveals v v' w w' P P') {ps ps' : List TypeParameter}
    (hP : ∀ a ∈ ps.flatMap TypeParameter.displayed, P a) (hP' : ∀ a ∈ ps'.flatMap TypeParameter.displayed, P' a)
    {j j' : Json} (h : v.typeParameters ps = .ok j) (h' : v'.typeParameters ps' = .ok j') (hsame : Same j j') :
    w.typeParameters ps = w'.typeParameters ps' := by
  obtain ⟨js, hjs, rfl⟩ := map_eq_ok_iff.1 h
  obtain ⟨js', hjs', rfl⟩ := map_eq_ok_iff.1 h'
  have heach := mapM_eq_of_same hjs hjs' hsame.items fun p hp p' hp' j j' hj hj' hsame =>
    hr.typeParameter (fun a ha => hP a (List.mem_flatMap.2 ⟨p, hp, ha⟩))
      (fun a ha => hP' a (List.mem_flatMap.2 ⟨p', hp', ha⟩)) hj hj' hsame
  simp only [TypeWriter.typeParameters, isEmpty_eq_of_same hjs hjs' hsame.items, heach]

theorem parameter (hr : Reveals v v' w w' P P') {p p' : Parameter} (hP : P p.type) (hP' : P' p'.type)
    {j j' : Json} (h : v.parameter p = .ok j) (h' : v'.parameter p' = .ok j') (hsame : Same j j') :
    w.parameter p = w'.parameter p' := by
  obtain ⟨type, htype, rfl⟩ := map_eq_ok_iff.1 h
  obtain ⟨type', htype', rfl⟩ := map_eq_ok_iff.1 h'
  have hname : p.name = p'.name := (hsame.field "name" rfl rfl).text_inj
  have hoptional : p.optional = p'.optional := by
    refine (hsame.field "optional" ?_ ?_).bool_inj <;>
      simp [List.lookup_append, List.lookup_cons, Json.lookup_textField_of_ne]
  have hrest : p.rest = p'.rest := by
    refine (hsame.field "rest" ?_ ?_).bool_inj <;>
      simp [List.lookup_append, List.lookup_cons, Json.lookup_textField_of_ne]
  have hsameType : Same type type' := by
    refine hsame.field "type" ?_ ?_ <;>
      simp [List.lookup_append, List.lookup_cons, Json.lookup_textField_of_ne]
  simp only [TypeWriter.parameter, hname, hoptional, hrest, hr.type hP hP' htype htype' hsameType]

/-- The fields that the text of a signature is made of. -/
def signatureKeys : List String := ["typeParameters", "parameters", "returnType", "thisType"]

theorem signature (hr : Reveals v v' w w' P P') {s s' : Signature} (hP : ∀ a ∈ s.displayed, P a)
    (hP' : ∀ a ∈ s'.displayed, P' a) {fields fields' : List (String × Json)} (h : v.signature s = .ok fields)
    (h' : v'.signature s' = .ok fields')
    (hsame : ∀ key ∈ signatureKeys, Option.Rel Same (fields.lookup key) (fields'.lookup key)) (arrow : String) :
    w.signature arrow s = w'.signature arrow s' := by
  obtain ⟨typeParams, params, returned, receiver, htypeParams, hparams, hreturned, hreceiver, rfl⟩ :=
    TreeWriter.signature_eq_ok h
  obtain ⟨typeParams', params', returned', receiver', htypeParams', hparams', hreturned', hreceiver', rfl⟩ :=
    TreeWriter.signature_eq_ok h'
  simp only [Signature.displayed, List.mem_append] at hP hP'
  have htypeParamTexts : w.typeParameters s.typeParameters = w'.typeParameters s'.typeParameters := by
    refine hr.typeParameters (fun a ha => hP a (by simp only [ha, true_or]))
      (fun a ha => hP' a (by simp only [ha, true_or])) htypeParams htypeParams' ?_
    simpa [List.lookup_cons] using hsame "typeParameters" (by decide)
  have hparamTexts : s.parameters.mapM w.parameter = s'.parameters.mapM w'.parameter := by
    have hsameParams : Same (.list params) (.list params') := by
      simpa [List.lookup_cons] using hsame "parameters" (by decide)
    refine mapM_eq_of_same hparams hparams' hsameParams.items fun p hp p' hp' j j' hj hj' hsame => ?_
    exact hr.parameter (hP p.type (.inl (.inr (List.mem_map_of_mem hp))))
      (hP' p'.type (.inl (.inr (List.mem_map_of_mem hp')))) hj hj' hsame
  have hreturnedText : w.type s.returnType = w'.type s'.returnType := by
    refine hr.type (hP _ (by simp)) (hP' _ (by simp)) hreturned hreturned' ?_
    simpa [List.lookup_cons] using hsame "returnType" (by decide)
  have hreceiverText : w.receiver s.thisType = w'.receiver s'.thisType := by
    refine hr.receiver (fun a ha => hP a (by simp [ha])) (fun a ha => hP' a (by simp [ha])) hreceiver hreceiver' ?_
    simpa [List.lookup_cons] using hsame "thisType" (by decide)
  simp only [TypeWriter.signature, htypeParamTexts, hparamTexts, hreturnedText, hreceiverText]

end Reveals

/-! ### Members of object types -/

theorem TypeWriter.objectMember_of_member {w : TypeWriter (Except Error)} {g : Graph} {r : MemberRef} {m : Member}
    (hm : g.member r = .ok m) :
    w.objectMember g r = match m.body with
      | .field f => do
        return (if f.readOnly then "readonly " else "") ++ m.name ++ (if f.optional then "?" else "") ++ ": " ++
          (← w.type f.type)
      | .method f => return m.name ++ (← w.signature ": " f.signature)
      | _ => return m.name := by
  show (g.member r >>= fun _ => _) = _
  rw [hm]
  rfl

theorem Member.exists_field {m : Member} (h : m.kind = "field") : ∃ f, m.body = .field f := by
  unfold kind at h
  split at h
  · exact ⟨_, ‹_›⟩
  · simp at h
  · next c _ => cases hc : c.kind <;> simp [ClassKind.word, hc] at h
  · simp at h
  · simp at h
  · simp at h

theorem Member.exists_method {m : Member} (h : m.kind = "method") : ∃ f, m.body = .method f := by
  unfold kind at h
  split at h
  · simp at h
  · exact ⟨_, ‹_›⟩
  · next c _ => cases hc : c.kind <;> simp [ClassKind.word, hc] at h
  · simp at h
  · simp at h
  · simp at h

/-- The names of the fields that every member has, or may have. -/
def Member.commonKeys : List String :=
  ["memberType", "name", "exportName"] ++ Documentation.fieldNames ++
    ["location", "visibility", "static", "abstract", "override", "parent", "overrides"]

namespace TreeWriter

variable {v : TreeWriter (Except Error)} {g : Graph} {includeHidden : Bool} {m : Member}
  {fields : List (String × Json)}

/-- The fields of a member: those that every member may have, and those of its kind. -/
theorem memberBody_eq_ok (h : v.memberBody g includeHidden m = .ok fields) :
    ∃ common own, v.kindFields g includeHidden m.body = .ok own ∧ fields = common ++ own ∧
      common.lookup "memberType" = some (.text m.kind) ∧ common.lookup "name" = some (.text m.name) ∧
      ∀ key ∉ Member.commonKeys, common.lookup key = none := by
  obtain ⟨overridden, hoverridden, h⟩ := bind_eq_ok_iff.1 h
  obtain ⟨parent, hparent, h⟩ := bind_eq_ok_iff.1 h
  obtain ⟨own, hown, rfl⟩ := map_eq_ok_iff.1 h
  refine ⟨_, own, hown, rfl, rfl, rfl, fun key hkey => ?_⟩
  simp only [Member.commonKeys, List.mem_append, not_or] at hkey
  obtain ⟨⟨hkey, hdoc⟩, hkey'⟩ := hkey
  simp only [List.mem_cons, List.not_mem_nil, or_false, not_or] at hkey hkey'
  simp only [List.lookup_append, Documentation.lookup_fields_of_not_mem m.doc hdoc,
    Json.lookup_optionalField_of_ne hkey.2.2, lookup_typeField_of_ne hparent hkey'.2.2.2.2.2.1,
    lookup_overriddenField_of_ne hoverridden hkey'.2.2.2.2.2.2, Option.or_none, Option.or_eq_none_iff]
  simp only [Json.lookup_cons_of_ne hkey.1, Json.lookup_cons_of_ne hkey.2.1, Json.lookup_cons_of_ne hkey'.1,
    Json.lookup_cons_of_ne hkey'.2.1, Json.lookup_cons_of_ne hkey'.2.2.1, Json.lookup_cons_of_ne hkey'.2.2.2.1,
    Json.lookup_cons_of_ne hkey'.2.2.2.2.1, List.lookup_nil, and_self]

/-- The fields of a method, those of its signature among them. -/
theorem kindFields_method {f : Method} (h : v.kindFields g includeHidden (.method f) = .ok fields) :
    ∃ signature, v.signature f.signature = .ok signature ∧
      ∀ key ∈ Reveals.signatureKeys, fields.lookup key = signature.lookup key := by
  obtain ⟨signature, hsignature, h⟩ := bind_eq_ok_iff.1 h
  obtain ⟨overloads, -, h⟩ := bind_eq_ok_iff.1 h
  obtain ⟨companion, hcompanion, rfl⟩ := map_eq_ok_iff.1 h
  refine ⟨signature, hsignature, fun key hkey => ?_⟩
  simp only [Reveals.signatureKeys, List.mem_cons, List.not_mem_nil, or_false] at hkey
  obtain rfl | rfl | rfl | rfl := hkey <;>
    simp [List.lookup_append, List.lookup_cons, Json.lookup_textField_of_ne,
      lookup_memberField_of_ne hcompanion]

end TreeWriter

namespace Reveals

variable {v v' : TreeWriter (Except Error)} {w w' : TypeWriter (Except Error)} {P P' : TypeRef → Prop}

/-- Two members of object types with the same tree have the same text. -/
theorem objectMember (hr : Reveals v v' w w' P P') {g : Graph} {includeHidden : Bool} {r r' : MemberRef}
    {m m' : Member} (hm : g.member r = .ok m) (hm' : g.member r' = .ok m') (hP : ∀ a ∈ m.displayed, P a)
    (hP' : ∀ a ∈ m'.displayed, P' a) {fields fields' : List (String × Json)}
    (h : v.memberBody g includeHidden m = .ok fields) (h' : v'.memberBody g includeHidden m' = .ok fields')
    (hsame : Same (.object fields) (.object fields')) : w.objectMember g r = w'.objectMember g r' := by
  obtain ⟨common, own, hown, rfl, hkind, hname, hcommon⟩ := TreeWriter.memberBody_eq_ok h
  obtain ⟨common', own', hown', rfl, hkind', hname', hcommon'⟩ := TreeWriter.memberBody_eq_ok h'
  have hsameKind : m.kind = m'.kind := by
    refine (hsame.field "memberType" ?_ ?_).text_inj <;> simp [List.lookup_append, hkind, hkind']
  have hsameName : m.name = m'.name := by
    refine (hsame.field "name" ?_ ?_).text_inj <;> simp [List.lookup_append, hname, hname']
  have hlookup (key : String) (hkey : key ∉ Member.commonKeys) :
      Option.Rel Same (own.lookup key) (own'.lookup key) := by
    simpa [List.lookup_append, hcommon key hkey, hcommon' key hkey] using hsame.lookup key
  cases hbody : m.body with
  | field f =>
    obtain ⟨f', hbody'⟩ := Member.exists_field (m := m') (by rw [← hsameKind, Member.kind, hbody])
    rw [hbody] at hown
    rw [hbody'] at hown'
    obtain ⟨type, htype, rfl⟩ := map_eq_ok_iff.1 hown
    obtain ⟨type', htype', rfl⟩ := map_eq_ok_iff.1 hown'
    have hsameType : Same type type' := by simpa [List.lookup_cons] using hlookup "type" (by decide)
    have hoptional : f.optional = f'.optional := by
      refine Same.bool_inj ?_
      simpa [List.lookup_cons] using hlookup "optional" (by decide)
    have hreadOnly : f.readOnly = f'.readOnly := by
      refine Same.bool_inj ?_
      simpa [List.lookup_cons] using hlookup "readOnly" (by decide)
    simp only [Member.displayed, hbody, hbody', List.mem_singleton, forall_eq] at hP hP'
    have htext := hr.type hP hP' htype htype' hsameType
    rw [TypeWriter.objectMember_of_member hm, TypeWriter.objectMember_of_member hm', hbody, hbody']
    simp only [hsameName, hoptional, hreadOnly, htext]
  | method f =>
    obtain ⟨f', hbody'⟩ := Member.exists_method (m := m') (by rw [← hsameKind, Member.kind, hbody])
    rw [hbody] at hown
    rw [hbody'] at hown'
    obtain ⟨signature, hsignature, hkeys⟩ := TreeWriter.kindFields_method hown
    obtain ⟨signature', hsignature', hkeys'⟩ := TreeWriter.kindFields_method hown'
    simp only [Member.displayed, hbody, hbody'] at hP hP'
    have hsig := hr.signature hP hP' hsignature hsignature' (fun key hkey => by
      have hnot : key ∉ Member.commonKeys := by
        revert key
        decide
      simpa [hkeys key hkey, hkeys' key hkey] using hlookup key hnot) ": "
    rw [TypeWriter.objectMember_of_member hm, TypeWriter.objectMember_of_member hm', hbody, hbody']
    simp only [hsameName, hsig]
  | classLike _ | enumeration _ | namespaceLike _ | «alias» _ _ =>
    have hother : w'.objectMember g r' = .ok m'.name := by
      rw [TypeWriter.objectMember_of_member hm']
      split
      · next f hbody' =>
        obtain ⟨_, h⟩ := Member.exists_field (m := m) (by rw [hsameKind, Member.kind, hbody'])
        exact nomatch hbody.symm.trans h
      · next f hbody' =>
        obtain ⟨_, h⟩ := Member.exists_method (m := m) (by rw [hsameKind, Member.kind, hbody'])
        exact nomatch hbody.symm.trans h
      · rfl
    rw [TypeWriter.objectMember_of_member hm, hbody, hother, hsameName]
    rfl

end Reveals

/-! ### Types -/

/-- A whole number of any size and a string of the same characters, which JSON does not tell apart. -/
def LiteralValue.Confused (l l' : LiteralValue) : Prop :=
  ∃ digits, (l = .bigint digits ∧ l' = .text digits) ∨ (l = .text digits ∧ l' = .bigint digits)

/-- Literals with the same tree have the same text unless they are confused. -/
theorem LiteralValue.sourceText_of_same {l l' : LiteralValue} (h : Same l.toJson l'.toJson)
    (hfinite : ∀ x, l = .number x → x.IsFinite) (hconfused : ¬ l.Confused l') : l.sourceText = l'.sourceText := by
  cases l <;> cases l' <;> simp only [toJson] at h
  case number.number x y =>
    cases h with
    | null h _ => exact absurd (hfinite x rfl) h
    | decimal _ h => exact Binary64.sourceText_of_sameNumber h
  case bool.bool b c => rw [h.bool_inj]
  case text.text s t => rw [h.text_inj]
  case bigint.bigint s t => rw [h.text_inj]
  case text.bigint s digits => exact absurd ⟨digits, .inr ⟨by rw [h.text_inj], rfl⟩⟩ hconfused
  case bigint.text digits s => exact absurd ⟨digits, .inl ⟨rfl, by rw [h.text_inj]⟩⟩ hconfused
  all_goals
    cases h
    contradiction

namespace TreeWriter

theorem filterM_of_forall {α : Type} {f : α → Answer Bool} {xs : List α} (h : ∀ x, f x = .ok true) :
    xs.filterM f = .ok xs := by
  have haux (xs acc : List α) : xs.filterAuxM f acc = .ok (xs.reverse ++ acc) := by
    induction xs generalizing acc with
    | nil => rfl
    | cons x xs ih =>
      show (f x >>= fun keep => xs.filterAuxM f (cond keep (x :: acc) acc)) = _
      rw [h x]
      show xs.filterAuxM f (x :: acc) = _
      rw [ih, List.reverse_cons, List.append_assoc]
      rfl
  show (xs.filterAuxM f [] >>= fun kept => pure kept.reverse) = _
  rw [haux]
  simp [bind, Except.bind, pure, Except.pure]

/-- With hidden members asked for, all members of a list are written. -/
theorem members_true {v : TreeWriter (Except Error)} {g : Graph} {rs : List MemberRef} {j : Json}
    (h : v.members g true rs = .ok j) : ∃ js, rs.mapM v.member = .ok js ∧ j = .list js := by
  obtain ⟨shown, hshown, h⟩ := bind_eq_ok_iff.1 h
  obtain ⟨js, hjs, rfl⟩ := map_eq_ok_iff.1 h
  have hall : TreeWriter.shown g true rs = .ok rs := filterM_of_forall fun _ => rfl
  obtain rfl : rs = shown := Except.ok.inj (hall.symm.trans hshown)
  exact ⟨js, hjs, rfl⟩

end TreeWriter

namespace Reveals

variable {v v' : TreeWriter (Except Error)} {w w' : TypeWriter (Except Error)} {P P' : TypeRef → Prop}

theorem types (hr : Reveals v v' w w' P P') {rs rs' : List TypeRef} (hP : ∀ a ∈ rs, P a) (hP' : ∀ a ∈ rs', P' a)
    {j j' : Json} (h : v.types rs = .ok j) (h' : v'.types rs' = .ok j') (hsame : Same j j') :
    rs.mapM w.type = rs'.mapM w'.type ∧ rs.mapM w.operand = rs'.mapM w'.operand ∧ rs.isEmpty = rs'.isEmpty := by
  obtain ⟨js, hjs, rfl⟩ := map_eq_ok_iff.1 h
  obtain ⟨js', hjs', rfl⟩ := map_eq_ok_iff.1 h'
  refine ⟨?_, ?_, isEmpty_eq_of_same hjs hjs' hsame.items⟩
  · exact mapM_eq_of_same hjs hjs' hsame.items fun a ha a' ha' j j' => hr.type (hP a ha) (hP' a' ha')
  · exact mapM_eq_of_same hjs hjs' hsame.items fun a ha a' ha' j j' => hr.operand (hP a ha) (hP' a' ha')

theorem memberName {g : Graph} {r r' : Option MemberRef} {j j' : Json} (h : TreeWriter.pointer? g r = .ok j)
    (h' : TreeWriter.pointer? g r' = .ok j') (hsame : Same j j') :
    TypeWriter.memberName g r = TypeWriter.memberName g r' := by
  cases r with
  | none =>
    obtain rfl : Json.null = j := Except.ok.inj h
    cases r' with
    | none => rfl
    | some m' =>
      obtain ⟨member', -, h'⟩ := bind_eq_ok_iff.1 h'
      obtain ⟨place', -, rfl⟩ := map_eq_ok_iff.1 h'
      cases hsame with
      | null _ h => exact h.elim
  | some m =>
    obtain ⟨member, hm, h⟩ := bind_eq_ok_iff.1 h
    obtain ⟨place, -, rfl⟩ := map_eq_ok_iff.1 h
    cases r' with
    | none =>
      obtain rfl : Json.null = j' := Except.ok.inj h'
      cases hsame with
      | null h _ => exact h.elim
    | some m' =>
      obtain ⟨member', hm', h'⟩ := bind_eq_ok_iff.1 h'
      obtain ⟨place', -, rfl⟩ := map_eq_ok_iff.1 h'
      have hname : member.name = member'.name := (hsame.field "name" rfl rfl).text_inj
      simp only [TypeWriter.memberName, hm, hm']
      exact congrArg Except.ok hname

/-- Two nodes with the same tree have the same text. -/
theorem nodeText (hr : Reveals v v' w w' P P') {g : Graph} {node node' : TypeNode}
    (hP : ∀ a ∈ node.displayed g, P a) (hP' : ∀ a ∈ node'.displayed g, P' a)
    {fields fields' : List (String × Json)} (h : v.typeBody g true node = .ok fields)
    (h' : v'.typeBody g true node' = .ok fields')
    (hsame : Same (.object (("kind", .text node.kind) :: fields)) (.object (("kind", .text node'.kind) :: fields')))
    (hliteral : ∀ l l', node = .literal l → node' = .literal l' →
      (∀ x, l = .number x → x.IsFinite) ∧ ¬ l.Confused l')
    (hmember : ∀ rs rs', node = .object rs → node' = .object rs' → ∀ m ∈ rs, ∀ m' ∈ rs', ∀ j j',
      v.member m = .ok j → v'.member m' = .ok j' → Same j j' → w.objectMember g m = w'.objectMember g m') :
    w.nodeText g node = w'.nodeText g node' := by
  have hkind : node.kind = node'.kind := (hsame.field "kind" rfl rfl).text_inj
  -- nodes of different kinds have different trees
  cases node <;> cases node' <;> simp [TypeNode.kind] at hkind
  case native.native t t' =>
    obtain rfl := Except.ok.inj h
    obtain rfl := Except.ok.inj h'
    exact congrArg Except.ok (hsame.field "name" rfl rfl).text_inj
  case literal.literal l l' =>
    obtain rfl := Except.ok.inj h
    obtain rfl := Except.ok.inj h'
    obtain ⟨hfinite, hconfused⟩ := hliteral l l' rfl rfl
    exact congrArg Except.ok (LiteralValue.sourceText_of_same (hsame.field "value" rfl rfl) hfinite hconfused)
  case array.array element element' =>
    obtain ⟨j, hj, rfl⟩ := map_eq_ok_iff.1 h
    obtain ⟨j', hj', rfl⟩ := map_eq_ok_iff.1 h'
    have htext := hr.operand (hP element (by simp [TypeNode.displayed, TypeNode.children]))
      (hP' element' (by simp [TypeNode.displayed, TypeNode.children])) hj hj' (hsame.field "element" rfl rfl)
    simp only [TypeWriter.nodeText, htext]
  case tuple.tuple elements elements' =>
    obtain ⟨j, hj, rfl⟩ := map_eq_ok_iff.1 h
    obtain ⟨j', hj', rfl⟩ := map_eq_ok_iff.1 h'
    simp only [TypeNode.displayed, TypeNode.children] at hP hP'
    have htexts := hr.types hP hP' hj hj' (hsame.field "elements" rfl rfl)
    simp only [TypeWriter.nodeText, htexts.1]
  case generic.generic target arguments target' arguments' =>
    obtain ⟨j, hj, h⟩ := bind_eq_ok_iff.1 h
    obtain ⟨js, hjs, rfl⟩ := map_eq_ok_iff.1 h
    obtain ⟨j', hj', h'⟩ := bind_eq_ok_iff.1 h'
    obtain ⟨js', hjs', rfl⟩ := map_eq_ok_iff.1 h'
    simp only [TypeNode.displayed, TypeNode.children, List.forall_mem_cons] at hP hP'
    have htarget := hr.type hP.1 hP'.1 hj hj' (hsame.field "target" rfl rfl)
    have harguments := hr.types hP.2 hP'.2 hjs hjs' (hsame.field "typeArguments" rfl rfl)
    simp only [TypeWriter.nodeText, htarget, harguments.1, harguments.2.2]
  case function.function s s' =>
    refine hr.signature hP hP' h h' (fun key hkey => ?_) " => "
    have hne : key ≠ "kind" := by
      rintro rfl
      simp [signatureKeys] at hkey
    simpa [Json.lookup_cons_of_ne hne] using hsame.lookup key
  case object.object rs rs' =>
    obtain ⟨j, hj, rfl⟩ := map_eq_ok_iff.1 h
    obtain ⟨j', hj', rfl⟩ := map_eq_ok_iff.1 h'
    obtain ⟨js, hjs, rfl⟩ := TreeWriter.members_true hj
    obtain ⟨js', hjs', rfl⟩ := TreeWriter.members_true hj'
    have hitems := (hsame.field "members" rfl rfl).items
    have htexts := mapM_eq_of_same hjs hjs' hitems (hmember rs rs' rfl rfl)
    have hempty := isEmpty_eq_of_same hjs hjs' hitems
    cases rs <;> cases rs' <;> simp_all [TypeWriter.nodeText]
  case union.union operands operands' | intersection.intersection operands operands' =>
    obtain ⟨j, hj, rfl⟩ := map_eq_ok_iff.1 h
    obtain ⟨j', hj', rfl⟩ := map_eq_ok_iff.1 h'
    simp only [TypeNode.displayed, TypeNode.children] at hP hP'
    have htexts := hr.types hP hP' hj hj' (hsame.field "operands" rfl rfl)
    simp only [TypeWriter.nodeText, htexts.2.1]
  case conditional.conditional check bound whenTrue whenFalse check' bound' whenTrue' whenFalse' =>
    obtain ⟨c, hc, h⟩ := bind_eq_ok_iff.1 h
    obtain ⟨b, hb, h⟩ := bind_eq_ok_iff.1 h
    obtain ⟨t, ht, h⟩ := bind_eq_ok_iff.1 h
    obtain ⟨f, hf, rfl⟩ := map_eq_ok_iff.1 h
    obtain ⟨c', hc', h'⟩ := bind_eq_ok_iff.1 h'
    obtain ⟨b', hb', h'⟩ := bind_eq_ok_iff.1 h'
    obtain ⟨t', ht', h'⟩ := bind_eq_ok_iff.1 h'
    obtain ⟨f', hf', rfl⟩ := map_eq_ok_iff.1 h'
    simp only [TypeNode.displayed, TypeNode.children, List.forall_mem_cons] at hP hP'
    have hcheck := hr.operand hP.1 hP'.1 hc hc' (hsame.field "checkType" rfl rfl)
    have hbound := hr.operand hP.2.1 hP'.2.1 hb hb' (hsame.field "extendsType" rfl rfl)
    have htrue := hr.type hP.2.2.1 hP'.2.2.1 ht ht' (hsame.field "trueType" rfl rfl)
    have hfalse := hr.type hP.2.2.2.1 hP'.2.2.2.1 hf hf' (hsame.field "falseType" rfl rfl)
    simp only [TypeWriter.nodeText, hcheck, hbound, htrue, hfalse]
  case indexedAccess.indexedAccess operand argument operand' argument' =>
    obtain ⟨o, ho, h⟩ := bind_eq_ok_iff.1 h
    obtain ⟨i, hi, rfl⟩ := map_eq_ok_iff.1 h
    obtain ⟨o', ho', h'⟩ := bind_eq_ok_iff.1 h'
    obtain ⟨i', hi', rfl⟩ := map_eq_ok_iff.1 h'
    simp only [TypeNode.displayed, TypeNode.children, List.forall_mem_cons] at hP hP'
    have hoperand := hr.operand hP.1 hP'.1 ho ho' (hsame.field "operand" rfl rfl)
    have hargument := hr.type hP.2.1 hP'.2.1 hi hi' (hsame.field "argument" rfl rfl)
    simp only [TypeWriter.nodeText, hoperand, hargument]
  case unary.unary operator operand operator' operand' =>
    obtain ⟨j, hj, rfl⟩ := map_eq_ok_iff.1 h
    obtain ⟨j', hj', rfl⟩ := map_eq_ok_iff.1 h'
    have hkeyword : operator.keyword = operator'.keyword := (hsame.field "operator" rfl rfl).text_inj
    have htext := hr.operand (hP operand (by simp [TypeNode.displayed, TypeNode.children]))
      (hP' operand' (by simp [TypeNode.displayed, TypeNode.children])) hj hj' (hsame.field "operand" rfl rfl)
    simp only [TypeWriter.nodeText, hkeyword, htext]
  case parameter.parameter name declaredBy name' declaredBy' =>
    obtain ⟨j, -, rfl⟩ := map_eq_ok_iff.1 h
    obtain ⟨j', -, rfl⟩ := map_eq_ok_iff.1 h'
    exact congrArg Except.ok (hsame.field "name" rfl rfl).text_inj
  case this.this => rfl
  case typeOf.typeOf member member' =>
    obtain ⟨j, hj, rfl⟩ := map_eq_ok_iff.1 h
    obtain ⟨j', hj', rfl⟩ := map_eq_ok_iff.1 h'
    have hname := memberName hj hj' (hsame.field "member" rfl rfl)
    simp only [TypeWriter.nodeText, hname]
  case named.named member member' =>
    obtain ⟨j, hj, rfl⟩ := map_eq_ok_iff.1 h
    obtain ⟨j', hj', rfl⟩ := map_eq_ok_iff.1 h'
    have hname := memberName hj hj' (hsame.field "class" rfl rfl)
    simp only [TypeWriter.nodeText, hname]

end Reveals

end ApiDoc
