import ApiDoc.Proofs.Render.Discretion
import ApiDoc.Proofs.Render.Texts

/-!
# Types and members have trees

In a graph in range every type and every member has a tree, unless a place that the tree points to has a
line or column which cannot be counted from one (`Graph.Uncounted`).  The tree is discreet.

Each writer of `TreeWriter` meets this if the writers of its parts do (`TreeWriter.Serves`), and with enough
depth for the nodes that are not open all of them do (`Graph.InRange.views_serves`).
-/

namespace ApiDoc

/-! ### Places -/

/-- Line and column can be counted from one. -/
def Location.IsCountable (l : Location) : Prop := l.line + 1 < UInt64.size ∧ l.col + 1 < UInt64.size

instance (l : Location) : Decidable l.IsCountable := inferInstanceAs (Decidable (_ ∧ _))

theorem Location.meets_display (l : Location) :
    Meets (fun e => e = .overflow ∧ ¬ l.IsCountable) l.display fun _ => True := by
  unfold Location.display Location.fromOne Location.IsCountable
  split
  · split
    · trivial
    · exact ⟨rfl, fun h => absurd h.2 ‹_›⟩
  · exact ⟨rfl, fun h => absurd h.1 ‹_›⟩

/-- The error of a place that cannot be counted, if the graph has one. -/
def Graph.Uncounted (g : Graph) (e : Error) : Prop :=
  e = .overflow ∧ ∃ m ∈ g.members.toList, ¬ m.location.IsCountable

/-- What is written of a member: a discreet tree, and a leak only if the member is hidden. -/
structure Fits (g : Graph) (includeHidden : Bool) (r : MemberRef) (j : Json) : Prop where
  discreet : Discreet g includeHidden j
  hidden : j.Leaks includeHidden → ∃ m, g.member r = .ok m ∧ m.doc.hidden = true

namespace TreeWriter

variable {g : Graph} {includeHidden : Bool}

/-- Whatever is there can be written, and discreetly. -/
structure Serves (w : TreeWriter (Except Error)) (g : Graph) (includeHidden : Bool) : Prop where
  type {r : TypeRef} : g.HasType r → Meets g.Uncounted (w.type r) (Proper g includeHidden)
  member {r : MemberRef} : g.HasMember r → Meets g.Uncounted (w.member r) (Fits g includeHidden r)

/-! ### Pointers and selections -/

theorem meets_member {r : MemberRef} (hr : g.HasMember r) {fail : Error → Prop} :
    Meets fail (g.member r) fun m => m ∈ g.members.toList := by
  obtain ⟨m, hm⟩ := hr.exists_member
  rw [hm]
  exact Arena.mem_toList_iff.2 ⟨r.index, Graph.member_eq_ok_iff.1 hm⟩

theorem meets_pointer (includeHidden : Bool) {r : MemberRef} (hr : g.HasMember r) :
    Meets g.Uncounted (pointer g r) (Proper g includeHidden) := by
  refine (meets_member hr).bind fun m _ hm => ?_
  have hdisplay : Meets g.Uncounted m.location.display fun _ => True := by
    have h := m.location.meets_display
    cases hplace : m.location.display with
    | ok text => trivial
    | error e =>
      rw [hplace] at h
      exact ⟨h.1, m, hm, h.2⟩
  exact hdisplay.map fun _ _ _ => .object <| .cons (by simp) (.text _) <| .cons (by simp) (.text _) .nil

theorem meets_pointer? (includeHidden : Bool) {r : Option MemberRef} (h : ∀ r', r = some r' → g.HasMember r') :
    Meets g.Uncounted (pointer? g r) (Proper g includeHidden) := by
  cases r with
  | none => exact .pure (.plain rfl rfl)
  | some r => exact meets_pointer _ (h r rfl)

theorem meets_overriddenField (includeHidden : Bool) {r : Option MemberRef}
    (h : ∀ r', r = some r' → g.HasMember r') :
    Meets g.Uncounted (overriddenField g r) (SoundFields g includeHidden False False) := by
  cases r with
  | none => exact .pure .nil
  | some r => exact (meets_pointer _ (h r rfl)).map fun _ _ hj => .cons (by simp) hj .nil

/-- A member that is not left out is hidden only if hidden ones are asked for. -/
theorem isSkipped_eq_false {r : MemberRef} (h : isSkipped g includeHidden r = .ok false)
    (hinclude : includeHidden = false) {m : Member} (hm : g.member r = .ok m) : m.doc.hidden = false := by
  subst hinclude
  simpa [isSkipped, hm, bind, Except.bind, pure, Except.pure] using h

theorem meets_isSkipped {r : MemberRef} (hr : g.HasMember r) {fail : Error → Prop} :
    Meets fail (isSkipped g includeHidden r) fun _ => True :=
  .ite (fun _ => .pure trivial) fun _ => (meets_member hr).map fun _ _ _ => trivial

/-- What is kept of a list of members, or of things that stand for members. -/
theorem meets_shown {α : Type} (member : α → MemberRef) {items : List α}
    (h : ∀ a ∈ items, g.HasMember (member a)) {fail : Error → Prop} :
    Meets fail (items.filterM fun a => return !(← isSkipped g includeHidden (member a)))
      fun shown => ∀ a ∈ shown, a ∈ items ∧ isSkipped g includeHidden (member a) = .ok false := by
  have hskip (a : α) (ha : a ∈ items) :
      Meets fail (do return !(← isSkipped g includeHidden (member a))) fun _ => True :=
    (meets_isSkipped (h a ha)).map fun _ _ _ => trivial
  refine (Meets.filterM hskip).mono fun shown _ hshown a ha => ⟨(hshown a ha).1, ?_⟩
  obtain ⟨skip, hskip, hkeep⟩ := map_eq_ok_iff.1 (hshown a ha).2
  rw [hskip]
  simpa using hkeep

end TreeWriter

theorem TreeWriter.marker_proper (g : Graph) (includeHidden : Bool) (text : String) :
    Proper g includeHidden (TreeWriter.marker text) :=
  .object <| .cons (by simp) (.text _) <| .cons (by simp) (.text _) .nil

/-- A member that is not left out stands anywhere. -/
theorem Fits.proper {g : Graph} {includeHidden : Bool} {r : MemberRef} {j : Json}
    (h : Fits g includeHidden r j) (hshown : TreeWriter.isSkipped g includeHidden r = .ok false) :
    Proper g includeHidden j where
  discreet := h.discreet
  silent := fun hleak => by
    obtain ⟨m, hm, hhidden⟩ := h.hidden hleak
    rw [TreeWriter.isSkipped_eq_false hshown hleak.1 hm] at hhidden
    exact Bool.false_ne_true hhidden

theorem Json.mem_putField {key : String} {value : Json} {fields : List (String × Json)}
    {field : String × Json} (h : field ∈ putField key value fields) :
    field = (key, value) ∨ field ∈ fields := by
  fun_induction putField key value fields <;> grind

theorem Json.mem_putField_of_ne {key : String} {value : Json} {fields : List (String × Json)}
    {field : String × Json} (h : field ∈ fields) (hkey : field.1 ≠ key) :
    field ∈ putField key value fields := by
  fun_induction putField key value fields <;> grind

/-- A proper value with one more proper field is proper. -/
theorem Proper.put {g : Graph} {includeHidden : Bool} {j value : Json} {key : String}
    (h : Proper g includeHidden j) (hkey : key ≠ "hidden" ∧ key ≠ "memberType")
    (hvalue : Proper g includeHidden value) : Proper g includeHidden (j.put key value) := by
  cases j with
  | object fields =>
    have hparts := h.discreet _ .self
    refine ⟨.of_parts (by simp [Json.put, Json.items]) fun field hfield => ?_, fun hleak => h.silent ?_⟩
    · rcases Json.mem_putField hfield with rfl | hold
      · exact ⟨hvalue.discreet, fun hleak => absurd hleak hvalue.silent⟩
      · refine ⟨fun inner hinner => h.discreet inner (.field hold hinner), fun hleak => ?_⟩
        obtain ⟨hplace, ⟨kind, hkind⟩, hkept⟩ := hparts.2 field hold hleak
        exact ⟨hplace, ⟨kind, Json.mem_putField_of_ne hkind hkey.2.symm⟩, hkept⟩
    · obtain ⟨hinclude, ⟨kind, hkind⟩, hhidden⟩ := hleak
      refine ⟨hinclude, ⟨kind, ?_⟩, ?_⟩
      · exact (Json.mem_putField hkind).resolve_left fun h => hkey.2 (congrArg Prod.fst h).symm
      · exact (Json.mem_putField hhidden).resolve_left fun h => hkey.1 (congrArg Prod.fst h).symm
  | null | bool _ | integer _ | decimal _ | text _ | list _ => exact h

namespace TreeWriter.Serves

variable {g : Graph} {includeHidden : Bool} {w : TreeWriter (Except Error)}

theorem types (hw : w.Serves g includeHidden) {rs : List TypeRef} (h : ∀ r ∈ rs, g.HasType r) :
    Meets g.Uncounted (w.types rs) (Proper g includeHidden) :=
  (Meets.mapM fun r hr => hw.type (h r hr)).map fun _ _ hjs => .list hjs

theorem typeField (hw : w.Serves g includeHidden) {key : String} (hkey : key ≠ "hidden")
    {r : Option TypeRef} (h : ∀ r', r = some r' → g.HasType r') :
    Meets g.Uncounted (w.typeField key r) (SoundFields g includeHidden False False) := by
  cases r with
  | none => exact .pure .nil
  | some r => exact (hw.type (h r rfl)).map fun _ _ hj => .cons (absurd · hkey) hj .nil

/-- A member with a place of its own may be a leak. -/
theorem memberField (hw : w.Serves g includeHidden) {key : String} (hkey : key ∈ placedKeys)
    {m : Member} (hm : m ∈ g.members.toList) {r : Option MemberRef}
    (h : ∀ r', r = some r' → g.HasMember r' ∧ r' ∈ m.body.placed) :
    Meets g.Uncounted (w.memberField key r) (SoundFields g includeHidden False g.PlacesHidden) := by
  cases r with
  | none => exact .pure .nil
  | some r =>
    obtain ⟨hr, hplaced⟩ := h r rfl
    refine (hw.member hr).map fun j _ hj => ?_
    rintro field (_ | ⟨_, ⟨⟩⟩)
    refine ⟨?_, hj.discreet, fun hleak => ⟨hkey, m, hm, r, hplaced, hj.hidden hleak⟩⟩
    rintro rfl
    simp [placedKeys] at hkey

theorem members (hw : w.Serves g includeHidden) {rs : List MemberRef} (h : ∀ r ∈ rs, g.HasMember r) :
    Meets g.Uncounted (w.members g includeHidden rs) (Proper g includeHidden) := by
  refine (meets_shown id h).bind fun shown _ hshown => ?_
  refine (Meets.mapM fun r hr => ?_).map fun _ _ hjs => Proper.list hjs
  exact (hw.member (h r (hshown r hr).1)).mono fun j _ hj => hj.proper (hshown r hr).2

theorem typeParameter (hw : w.Serves g includeHidden) {p : TypeParameter}
    (h : ∀ r ∈ p.typeRefs, g.HasType r) :
    Meets g.Uncounted (w.typeParameter p) (Proper g includeHidden) := by
  simp only [TypeParameter.mem_typeRefs] at h
  refine (hw.typeField (by simp) fun r hr => h r (.inr (.inl hr))).bind fun _ _ hconstraint => ?_
  refine (hw.typeField (by simp) fun r hr => h r (.inr (.inr hr))).map fun _ _ hdefault => .object ?_
  exact (((SoundFields.cons (by simp) (.text _) .nil).append (.textField (by simp) _)).append
    hconstraint).append hdefault

theorem typeParameters (hw : w.Serves g includeHidden) {ps : List TypeParameter}
    (h : ∀ p ∈ ps, ∀ r ∈ p.typeRefs, g.HasType r) :
    Meets g.Uncounted (w.typeParameters ps) (Proper g includeHidden) :=
  (Meets.mapM fun p hp => hw.typeParameter (h p hp)).map fun _ _ hjs => .list hjs

theorem parameter (hw : w.Serves g includeHidden) {p : Parameter} (h : g.HasType p.type) :
    Meets g.Uncounted (w.parameter p) (Proper g includeHidden) := by
  refine (hw.type h).map fun _ _ htype => .object ?_
  exact (((SoundFields.cons (by simp) (.text _) .nil).append (.textField (by simp) _)).append
    (.cons (by simp) htype <| .cons (by simp) (.bool _) <| .cons (by simp) (.bool _) .nil)).append
    (.optionalText (by simp) _)

theorem signature (hw : w.Serves g includeHidden) {s : Signature} (h : ∀ r ∈ s.typeRefs, g.HasType r) :
    Meets g.Uncounted (w.signature s) (SoundFields g includeHidden False False) := by
  simp only [Signature.mem_typeRefs] at h
  refine (hw.typeParameters fun p hp r hr => h r (.inl ⟨p, hp, hr⟩)).bind fun _ _ htypeParams => ?_
  have hparam (p : Parameter) (hp : p ∈ s.parameters) := hw.parameter (h p.type (.inr (.inl ⟨p, hp, rfl⟩)))
  refine (Meets.mapM hparam).bind fun _ _ hparams => ?_
  refine (hw.type (h _ (by simp))).bind fun _ _ hreturn => ?_
  refine (hw.typeField (by simp) fun r hr => h r (by simp [hr])).map fun _ _ hthis => ?_
  exact (SoundFields.cons (by simp) htypeParams <| .cons (by simp) (.list hparams) <|
    .cons (by simp) hreturn .nil).append hthis

/-! ### Types -/

theorem typeBody (hw : w.Serves g includeHidden) {node : TypeNode} (hnode : node.InRange g) :
    Meets g.Uncounted (w.typeBody g includeHidden node) (SoundFields g includeHidden False False) := by
  obtain ⟨htypes, hmembers⟩ := hnode
  cases node with
  | native _ => exact .pure (.cons (by simp) (.text _) .nil)
  | literal value => exact .pure (.cons (by simp) value.toJson_proper .nil)
  | this => exact .pure .nil
  | array element =>
    refine (hw.type (htypes _ (by simp [TypeNode.typeRefs]))).map fun _ _ hj => ?_
    exact .cons (by simp) hj .nil
  | tuple elements | union elements | intersection elements =>
    exact (hw.types htypes).map fun _ _ hj => .cons (by simp) hj .nil
  | generic target arguments =>
    refine (hw.type (htypes _ (by simp [TypeNode.typeRefs]))).bind fun _ _ htarget => ?_
    refine (hw.types fun r hr => htypes r (by simp [TypeNode.typeRefs, hr])).map fun _ _ hargs => ?_
    exact .cons (by simp) htarget <| .cons (by simp) hargs .nil
  | function s => exact hw.signature htypes
  | object members => exact (hw.members hmembers).map fun _ _ hj => .cons (by simp) hj .nil
  | conditional check bound whenTrue whenFalse =>
    refine (hw.type (htypes check (by simp [TypeNode.typeRefs]))).bind fun _ _ hcheck => ?_
    refine (hw.type (htypes bound (by simp [TypeNode.typeRefs]))).bind fun _ _ hbound => ?_
    refine (hw.type (htypes whenTrue (by simp [TypeNode.typeRefs]))).bind fun _ _ htrue => ?_
    refine (hw.type (htypes whenFalse (by simp [TypeNode.typeRefs]))).map fun _ _ hfalse => ?_
    exact .cons (by simp) hcheck <| .cons (by simp) hbound <| .cons (by simp) htrue <|
      .cons (by simp) hfalse .nil
  | indexedAccess operand argument =>
    refine (hw.type (htypes operand (by simp [TypeNode.typeRefs]))).bind fun _ _ hoperand => ?_
    refine (hw.type (htypes argument (by simp [TypeNode.typeRefs]))).map fun _ _ hargument => ?_
    exact .cons (by simp) hoperand <| .cons (by simp) hargument .nil
  | unary _ operand =>
    refine (hw.type (htypes operand (by simp [TypeNode.typeRefs]))).map fun _ _ hoperand => ?_
    exact .cons (by simp) (.text _) <| .cons (by simp) hoperand .nil
  | parameter _ declaredBy =>
    refine (meets_pointer? includeHidden fun r hr => hmembers r ?_).map fun _ _ hj => ?_
    · simp [TypeNode.memberRefs, hr]
    · exact .cons (by simp) (.text _) <| .cons (by simp) hj .nil
  | typeOf member | named member =>
    refine (meets_pointer? includeHidden fun r hr => hmembers r ?_).map fun _ _ hj => .cons (by simp) hj .nil
    simp [TypeNode.memberRefs, hr]

/-! ### Members -/

theorem enumEntry (hw : w.Serves g includeHidden) {entry : EnumEntry} (h : g.HasMember entry.member)
    (hshown : isSkipped g includeHidden entry.member = .ok false) :
    Meets g.Uncounted (w.enumEntry entry) (Proper g includeHidden) :=
  (hw.member h).map fun _ _ hj => (hj.proper hshown).put (by decide) entry.value.toJson_proper

/-- The members that a body holds are there. -/
theorem hasMember_of_placed {m : Member} (hrange : m.InRange g) {r : MemberRef} (hr : r ∈ m.body.placed) :
    g.HasMember r ∧ r ∈ m.body.placed :=
  ⟨hrange.members r (by simp [Member.memberRefs, hr]), hr⟩

theorem methodFields (hw : w.Serves g includeHidden) {m : Member} (hm : m ∈ g.members.toList)
    (hrange : m.InRange g) {f : Method} (hbody : m.body = .method f) :
    Meets g.Uncounted (w.kindFields g includeHidden (.method f))
      (SoundFields g includeHidden False g.PlacesHidden) := by
  have htype (r : TypeRef) (hr : r ∈ f.signature.typeRefs) : g.HasType r :=
    hrange.types r (by simp [Member.typeRefs, hbody, MemberBody.typeRefs, hr])
  have hoverload (r : MemberRef) (hr : r ∈ f.overloads) : g.HasMember r :=
    hrange.members r (by simp [Member.memberRefs, hbody, MemberBody.listed, hr])
  have hcompanion (r : MemberRef) (hr : f.companion = some r) :=
    hasMember_of_placed hrange (r := r) (by simp [hbody, MemberBody.placed, hr])
  refine (hw.signature htype).bind fun _ _ hsignature => ?_
  refine (hw.members hoverload).bind fun _ _ hoverloads => ?_
  refine (hw.memberField (by decide) hm hcompanion).map fun _ _ hclass => .append ?_ hclass
  refine .append (.append (.append (.cons (by simp) (.text _) .nil) (hsignature.mono id False.elim))
    (.textField (by simp) _)) ?_
  exact .cons (by simp) (.bool _) <| .cons (by simp) (.bool _) <| .cons (by simp) hoverloads .nil

theorem classFields (hw : w.Serves g includeHidden) {m : Member} (hm : m ∈ g.members.toList)
    (hrange : m.InRange g) {c : ClassBody} (hbody : m.body = .classLike c) :
    Meets g.Uncounted (w.kindFields g includeHidden (.classLike c))
      (SoundFields g includeHidden False g.PlacesHidden) := by
  have hplaced (r : MemberRef) (hr : c.constructor = some r ∨ c.indexer = some r ∨ c.newSignature = some r) :=
    hasMember_of_placed hrange (r := r) (by simpa [hbody, MemberBody.placed] using hr)
  obtain ⟨htypes, hmembers⟩ := hrange
  simp only [Member.typeRefs, Member.memberRefs, hbody, MemberBody.typeRefs, MemberBody.listed,
    typeParameterRefs, List.mem_append, List.mem_flatMap] at htypes hmembers
  refine (hw.typeParameters fun p hp r hr => htypes r (by grind)).bind fun _ _ hparams => ?_
  refine (hw.types fun r hr => htypes r (by grind)).bind fun _ _ hbases => ?_
  refine (hw.types fun r hr => htypes r (by grind)).bind fun _ _ himplements => ?_
  refine (hw.members fun r hr => hmembers r (by grind)).bind fun _ _ hstatic => ?_
  refine (hw.members fun r hr => hmembers r (by grind)).bind fun _ _ hinstance => ?_
  refine (Meets.mapM fun r hr => meets_pointer includeHidden (hmembers r (by grind))).bind
    fun _ _ hextended => ?_
  refine (hw.memberField (by decide) hm fun r hr => hplaced r (.inl hr)).bind fun _ _ hconstructor => ?_
  refine (hw.memberField (by decide) hm fun r hr => hplaced r (.inr (.inl hr))).bind
    fun _ _ hindexer => ?_
  refine (hw.memberField (by decide) hm fun r hr => hplaced r (.inr (.inr hr))).map fun _ _ hnew => ?_
  refine .append (.append (.append ?_ hconstructor) hindexer) hnew
  exact .cons (by simp) hparams <| .cons (by simp) hbases <| .cons (by simp) himplements <|
    .cons (by simp) hstatic <| .cons (by simp) hinstance <| .cons (by simp) (.list hextended) .nil

theorem enumFields (hw : w.Serves g includeHidden) {e : EnumBody}
    (hentry : ∀ entry ∈ e.members, g.HasMember entry.member)
    (hmember : ∀ r ∈ e.namespaceMembers, g.HasMember r) :
    Meets g.Uncounted (w.kindFields g includeHidden (.enumeration e))
      (SoundFields g includeHidden False g.PlacesHidden) := by
  refine (meets_shown EnumEntry.member hentry).bind fun _ _ hshown => ?_
  refine (Meets.mapM fun entry h =>
    hw.enumEntry (hentry entry (hshown entry h).1) (hshown entry h).2).bind fun _ _ hentries => ?_
  refine (hw.members hmember).map fun _ _ hmembers => ?_
  exact .cons (by simp) (.bool _) <| .cons (by simp) (.list hentries) <| .cons (by simp) hmembers .nil

theorem kindFields (hw : w.Serves g includeHidden) {m : Member} (hm : m ∈ g.members.toList)
    (hrange : m.InRange g) :
    Meets g.Uncounted (w.kindFields g includeHidden m.body)
      (SoundFields g includeHidden False g.PlacesHidden) := by
  have htype (r : TypeRef) (hr : r ∈ m.body.typeRefs) : g.HasType r :=
    hrange.types r (by simp [Member.typeRefs, hr])
  have hlisted (r : MemberRef) (hr : r ∈ m.body.listed) : g.HasMember r :=
    hrange.members r (by simp [Member.memberRefs, hr])
  cases hbody : m.body with
  | field f =>
    rw [hbody] at htype
    refine (hw.type (htype _ (by simp [MemberBody.typeRefs]))).map fun _ _ hj => ?_
    refine .append ?_ (.optionalText (by simp) _)
    exact .cons (by simp) (.text _) <| .cons (by simp) hj <| .cons (by simp) (.bool _) <|
      .cons (by simp) (.bool _) <| .cons (by simp) (.bool _) .nil
  | method f => exact hw.methodFields hm hrange hbody
  | classLike c => exact hw.classFields hm hrange hbody
  | enumeration e =>
    simp only [hbody, MemberBody.listed, List.mem_append, List.mem_map] at hlisted
    exact hw.enumFields (fun entry hentry => hlisted _ (.inl ⟨entry, hentry, rfl⟩))
      fun r hr => hlisted r (.inr hr)
  | namespaceLike rs =>
    rw [hbody] at hlisted
    exact (hw.members hlisted).map fun _ _ hj => .cons (by simp) hj .nil
  | «alias» type params =>
    simp only [hbody, MemberBody.typeRefs, List.mem_cons, typeParameterRefs, List.mem_flatMap] at htype
    refine (hw.type (htype _ (.inl rfl))).bind fun _ _ hj => ?_
    refine (hw.typeParameters fun p hp r hr => htype r (.inr ⟨p, hp, hr⟩)).map fun _ _ hparams => ?_
    exact .cons (by simp) hj <| .cons (by simp) hparams .nil

/-- What is written of a member tells that it is hidden only if it is. -/
theorem memberBody (hw : w.Serves g includeHidden) {r : MemberRef} {m : Member} (hm : g.member r = .ok m)
    (hmem : m ∈ g.members.toList) (hrange : m.InRange g) :
    Meets g.Uncounted (w.memberBody g includeHidden m) fun fields =>
      Fits g includeHidden r (.object fields) := by
  have hparent (r : TypeRef) (hr : m.parent = some r) : g.HasType r :=
    hrange.types r (by simp [Member.typeRefs, hr])
  have hoverridden (r : MemberRef) (hr : m.overrides = some r) : g.HasMember r :=
    hrange.members r (by simp [Member.memberRefs, hr])
  refine (meets_overriddenField includeHidden hoverridden).bind fun overrides _ hoverrides => ?_
  refine (hw.typeField (by simp) hparent).bind fun parent _ hparent => ?_
  refine (hw.kindFields hmem hrange).map fun kind _ hkind => ?_
  have hfields : SoundFields g includeHidden (m.doc.hidden = true) g.PlacesHidden
      ([("memberType", .text m.kind), ("name", .text m.name)] ++
        Json.optionalField "exportName" .text m.exportName ++ m.doc.fields ++
        [("location", m.location.toJson), ("visibility", m.visibility.toJson),
          ("static", .bool m.isStatic), ("abstract", .bool m.isAbstract),
          ("override", .bool m.isOverride)] ++ parent ++ overrides ++ kind) := by
    refine .append (.append (.append (.append (.append (.append ?_ ?_) ?_) ?_)
      (hparent.mono False.elim False.elim)) (hoverrides.mono False.elim False.elim))
      (hkind.mono False.elim id)
    · exact .cons (by simp) (.text _) <| .cons (by simp) (.text _) .nil
    · exact .optionalText (by simp) _
    · exact m.doc.fields_sound
    · exact .cons (by simp) m.location.toJson_proper <| .cons (by simp) (.text _) <|
        .cons (by simp) (.bool _) <| .cons (by simp) (.bool _) <| .cons (by simp) (.bool _) .nil
  refine ⟨.of_parts (by simp [Json.items]) fun field hfield => ?_, fun hleak => ?_⟩
  · obtain ⟨-, hdiscreet, hkept⟩ := hfields field hfield
    exact ⟨hdiscreet, fun hleak => ⟨(hkept hleak).1, ⟨.text m.kind, by simp [Json.fields]⟩, (hkept hleak).2⟩⟩
  · exact ⟨m, hm, (hfields _ hleak.2.2).1 rfl⟩

/-! ### Files -/

theorem sourceFile (hw : w.Serves g includeHidden) {file : SourceFile} (h : file.InRange g) :
    Meets g.Uncounted (w.sourceFile g includeHidden file) (Proper g includeHidden) := by
  refine (hw.members h).map fun _ _ hmembers => .object ?_
  repeat' apply SoundFields.append
  · exact .cons (by simp) (.text _) <| .cons (by simp) (.text _) <| .cons (by simp) (.bool _) <|
      .cons (by simp) (.bool _) .nil
  · exact .textField (by simp) _
  iterate 4 exact .optionalText (by simp) _
  · exact .customTags _
  · refine .cons (by simp) (.list fun item hitem => ?_) <| .cons (by simp) hmembers .nil
    obtain ⟨i, -, rfl⟩ := List.mem_map.1 hitem
    exact i.toJson_proper

theorem project (hw : w.Serves g includeHidden) {files : List SourceFile}
    (h : ∀ file ∈ files, file.InRange g) :
    Meets g.Uncounted (w.project g includeHidden files) (Proper g includeHidden) :=
  (Meets.mapM fun file hfile => hw.sourceFile (h file hfile)).map fun _ _ hfiles =>
    .object (.cons (by simp) (.list hfiles) .nil)

end TreeWriter.Serves

/-! ### Depth -/

namespace Graph

/-- How many types and members are not open. -/
def nodesLeft (g : Graph) (s : OpenNodes) : Nat :=
  g.typesLeft s.types + (unopened g.members.size (s.members.map MemberRef.index)).card

variable {g : Graph} {s : OpenNodes}

theorem nodesLeft_le (g : Graph) (s : OpenNodes) : g.nodesLeft s ≤ g.types.size + g.members.size :=
  Nat.add_le_add (g.typesLeft_le _) (card_unopened_le _ _)

theorem nodesLeft_enterType {r : TypeRef} (hr : g.HasType r) (hnew : r ∉ s.types) :
    g.nodesLeft (s.enterType r) < g.nodesLeft s :=
  Nat.add_lt_add_right (typesLeft_lt hr hnew) _

theorem nodesLeft_enterMember {r : MemberRef} (hr : g.HasMember r) (hnew : r ∉ s.members) :
    g.nodesLeft (s.enterMember r) < g.nodesLeft s := by
  refine Nat.add_lt_add_left (card_unopened_lt hr fun h => ?_) _
  obtain ⟨r', hr', hindex⟩ := List.mem_map.1 h
  obtain rfl : r' = r := congrArg MemberRef.mk hindex
  exact hnew hr'

/-- With enough depth for the nodes that are not open, types and members can be written. -/
theorem InRange.views_serves (hg : g.InRange) (includeHidden : Bool) {fuel : Nat}
    (hfuel : g.nodesLeft s < fuel) :
    ((views g includeHidden fuel).within s).Serves g includeHidden := by
  induction fuel generalizing s with
  | zero => exact absurd hfuel (Nat.not_lt_zero _)
  | succ fuel ih =>
    constructor
    · intro r hr
      rw [views_type]
      split
      · obtain ⟨text, htext⟩ := hg.exists_typeText hr
        rw [htext]
        exact Meets.pure (TreeWriter.marker_proper _ _ _)
      · have hnew : r ∉ s.types := by simp_all
        have hlt := nodesLeft_enterType hr hnew
        obtain ⟨node, hnode⟩ := hr.exists_type
        rw [hnode]
        exact ((ih (by omega)).typeBody (hg.type hnode)).map fun _ _ hfields =>
          .object (.cons (by simp) (.text _) hfields)
    · intro r hr
      rw [views_member]
      obtain ⟨m, hm⟩ := hr.exists_member
      have hmem := Arena.mem_toList_iff.2 ⟨r.index, Graph.member_eq_ok_iff.1 hm⟩
      rw [hm]
      split
      · have hmarker := TreeWriter.marker_proper g includeHidden m.name
        exact Meets.pure ⟨hmarker.discreet, fun hleak => absurd hleak hmarker.silent⟩
      · have hnew : r ∉ s.members := by simp_all
        have hlt := nodesLeft_enterMember hr hnew
        exact ((ih (by omega)).memberBody hm hmem (hg.member hm)).map fun _ _ hfits => hfits

/-- Whatever is open, the types and members of a graph in range can be written. -/
theorem InRange.view_serves (hg : g.InRange) (includeHidden : Bool) (s : OpenNodes) :
    ((g.view includeHidden).within s).Serves g includeHidden := by
  have := g.nodesLeft_le s
  exact hg.views_serves includeHidden (by omega)

end Graph

/-- **A project in range has a proper tree**, or a place in it cannot be counted. -/
theorem Project.InRange.meets_tree {p : Project} (hp : p.InRange) (config : Config) :
    Meets p.graph.Uncounted (p.tree config) (Proper p.graph config.includeHidden) := by
  rw [p.tree_eq]
  exact (hp.graph.view_serves config.includeHidden {}).project hp.files

end ApiDoc
