import ApiDoc.Proofs.Contents.Safe

/-!
# Types stay in range

A node is put together from the answers of the resolver for its parts, and these are there; so the node refers
to what is there, and resolving a type keeps a session tidy.
-/

namespace ApiDoc

namespace Environment

variable {env : Environment} {inner : Resolver} {ctx : Context} {s s' : Session}

theorem HoldsMember.hasMember {m : SymbolId} {v : Option MemberRef} (h : env.HoldsMember s m v)
    (hs : s.InRange) {r : MemberRef} (hv : v = some r) : s.graph.HasMember r :=
  hs.memberOf (h.1.trans (congrArg some hv))

theorem HoldsMembers.hasMember {ms : List SymbolId} {rs : List MemberRef} (h : env.HoldsMembers s ms rs)
    (hs : s.InRange) {r : MemberRef} (hr : r ∈ rs) : s.graph.HasMember r := by
  obtain ⟨known, hknown, rfl⟩ := h
  induction hknown with
  | nil => simp at hr
  | @cons m v ms known hv _ ih =>
    cases v with
    | none => exact ih (by simpa using hr)
    | some r' =>
      rcases List.mem_cons.1 hr with rfl | hr
      · exact hv.hasMember hs rfl
      · exact ih hr

namespace Safe

/-- A new node that refers to nothing. -/
theorem newMixed : env.Safe ctx s (Resolve.newType .mixed) fun r s' => s'.graph.HasType r :=
  .change (Session.newType_run _) (fun h => h.growType (.of_none rfl rfl)) (.growType s _)
    (by simp [Graph.HasType])

theorem reserveType {t : TypeId} {node : TypeNode} (hnode : node.InRange s.graph) :
    env.Safe ctx s (Resolve.reserveType t node) fun r s' => s'.graph.HasType r := by
  refine .change (Session.reserveType_run t node) (fun h => h.addType ?_) (.addType s t node)
    (by simp [Graph.HasType])
  exact hnode.mono (Session.Keeps.growType s node).grows

end Safe

namespace Trusted

theorem types (hinner : env.Trusted inner) (ts : List TypeId) :
    env.Safe ctx s (inner.types ts) fun rs s' => ∀ r ∈ rs, s'.graph.HasType r :=
  Safe.mapM_mem (R := fun s' r => s'.graph.HasType r) (fun hs hr => hs.grows.hasType hr)
    fun t _ _ _ => hinner.type t

theorem members (hinner : env.Trusted inner) (ms : List SymbolId) :
    env.Safe ctx s (inner.members ms) fun rs s' => env.HoldsMembers s' ms rs :=
  Safe.bind (Safe.mapM (R := fun s' => env.HoldsMember s') (fun hs hv => hv.keep hs)
    fun m _ _ _ => hinner.member m) fun known _ _ hknown => .pure ⟨known, hknown, rfl⟩

/-! ### Signatures -/

theorem symbolType (hinner : env.Trusted inner) (m : SymbolId) :
    env.Safe ctx s (env.symbolType inner m) fun r s' => s'.graph.HasType r := by
  unfold Environment.symbolType
  refine .ask fun decl _ => ?_
  cases decl with
  | some decl => exact .ask fun t _ => hinner.type t
  | none => exact .newMixed

theorem recordOwner {owner : Option MemberRef} {t : TypeId}
    (howner : ∀ r, owner = some r → s.graph.HasMember r) :
    env.Safe ctx s (owner.forM (Resolve.recordOwner t)) fun _ _ => True := by
  cases owner with
  | none => exact .pure trivial
  | some r =>
    exact .change (Session.recordOwner_run t r) (fun h => h.recordOwner (howner r rfl))
      (.recordOwner s t r) trivial

theorem typeParameter (hinner : env.Trusted inner) {owner : Option MemberRef}
    (howner : ∀ r, owner = some r → s.graph.HasMember r) (summaries : NamedTexts) (t : TypeId) :
    env.Safe ctx s (env.typeParameter inner summaries owner t)
      fun p s' => ∀ r ∈ p.typeRefs, s'.graph.HasType r := by
  have htype {s : Session} (u : Option TypeId) : env.Safe ctx s (u.mapM inner.type)
      fun v s' => ∀ r, v = some r → s'.graph.HasType r :=
    .optionMapM fun u' _ => hinner.type u'
  unfold Environment.typeParameter
  refine (recordOwner howner).bind fun _ s₁ _ _ => .ask fun name _ => ?_
  refine (hinner.type t).bind fun r s₂ _ hr => .ask fun u _ => ?_
  refine (htype u).bind fun constraint s₃ hs₃ hconstraint => .ask fun v _ => ?_
  refine (htype v).bind fun default s₄ hs₄ hdefault => .pure fun r' hr' => ?_
  have hmem := hr'
  simp only [TypeParameter.typeRefs, List.mem_cons, List.mem_append, Option.mem_toList] at hmem
  rcases hmem with rfl | hr' | hr'
  · exact hs₄.grows.hasType (hs₃.grows.hasType hr)
  · exact hs₄.grows.hasType (hconstraint r' hr')
  · exact hdefault r' hr'

theorem typeParameters (hinner : env.Trusted inner) {owner : Option MemberRef}
    (howner : ∀ r, owner = some r → s.graph.HasMember r) (summaries : NamedTexts) (ts : List TypeId) :
    env.Safe ctx s (env.typeParameters inner summaries owner ts)
      fun ps s' => ∀ r ∈ typeParameterRefs ps, s'.graph.HasType r := by
  refine Safe.mono (Safe.mapM_mem (R := fun s' (p : TypeParameter) => ∀ r ∈ p.typeRefs, s'.graph.HasType r)
    (fun hs hp r hr => hs.grows.hasType (hp r hr)) fun t _ s' hs' => hinner.typeParameter
      (fun r hr => hs'.grows.hasMember (howner r hr)) summaries t) fun ps s' _ hps r hr => ?_
  obtain ⟨p, hp, hr⟩ := List.mem_flatMap.1 hr
  exact hps p hp r hr

theorem parameter (hinner : env.Trusted inner) (facts : TagFacts) (m : SymbolId) :
    env.Safe ctx s (env.parameter inner facts m) fun p s' => s'.graph.HasType p.type := by
  unfold Environment.parameter
  refine .ask fun name _ => (hinner.symbolType m).bind fun r s' _ hr => .ask fun decl _ => ?_
  cases decl with
  | none => exact .pure hr
  | some decl =>
    refine .ask fun rest _ => .ask fun question _ => .ask fun text _ => ?_
    cases text <;> cases rest <;> cases question <;> exact .pure hr

theorem signature (hinner : env.Trusted inner) {owner : Option MemberRef}
    (howner : ∀ r, owner = some r → s.graph.HasMember r) (sig : SignatureId) (facts : TagFacts) :
    env.Safe ctx s (env.signature inner sig facts owner)
      fun signature s' => ∀ r ∈ signature.typeRefs, s'.graph.HasType r := by
  unfold Environment.signature
  refine .ask fun ts _ => ?_
  refine (hinner.typeParameters howner facts.typeParams ts).bind fun typeParams s₁ _ htypeParams => ?_
  refine .ask fun ms _ => ?_
  refine Safe.bind (Safe.mapM_mem (R := fun s' (p : Parameter) => s'.graph.HasType p.type)
    (fun hs hp => hs.grows.hasType hp) fun m _ _ _ => hinner.parameter facts m) fun params s₂ hs₂ hparams => ?_
  refine .ask fun this _ => ?_
  refine Safe.bind (Safe.optionMapM (R := fun s' r => s'.graph.HasType r) fun m _ => hinner.symbolType m)
    fun receiver s₃ hs₃ hreceiver => ?_
  refine .ask fun t _ => (hinner.type t).bind fun r s₄ hs₄ hr => .pure fun r' hr' => ?_
  simp only [Signature.typeRefs, List.mem_append, List.mem_cons, List.mem_map, Option.mem_toList] at hr'
  rcases hr' with (hr' | ⟨p, hp, rfl⟩) | rfl | hr'
  · exact ((hs₂.trans hs₃).trans hs₄).grows.hasType (htypeParams r' hr')
  · exact (hs₃.trans hs₄).grows.hasType (hparams p hp)
  · exact hr
  · exact hs₄.grows.hasType (hreceiver r' hr')

/-! ### Nodes -/

theorem targetType (hinner : env.Trusted inner) (t : TypeId) (target : Option TypeId) :
    env.Safe ctx s (Environment.targetType inner t target) fun r s' => s'.graph.HasType r := by
  unfold Environment.targetType
  split
  · split
    · exact .newMixed
    · exact hinner.type _
  · exact .newMixed

theorem compositeNode (hinner : env.Trusted inner) (t : TypeId) (shape : Composite) :
    env.Safe ctx s (env.compositeNode inner t shape) fun node s' => node.InRange s'.graph := by
  unfold Environment.compositeNode
  cases shape with
  | named =>
    refine .ask fun m _ => ?_
    cases m with
    | none => exact .pure (.of_none rfl rfl)
    | some m =>
      refine (hinner.member m).bind fun v s' _ hv => .of_tidy fun ht => .pure ?_
      exact .of_members rfl fun r hr => hv.hasMember ht.range (by simpa [TypeNode.memberRefs] using hr)
  | typeOf m =>
    refine (hinner.member m).bind fun v s' _ hv => .of_tidy fun ht => .pure ?_
    exact .of_members rfl fun r hr => hv.hasMember ht.range (by simpa [TypeNode.memberRefs] using hr)
  | object =>
    refine .ask fun ms _ => (hinner.members ms).bind fun rs s' _ hrs => .of_tidy fun ht => .pure ?_
    exact .of_members rfl fun r hr => hrs.hasMember ht.range hr
  | array =>
    refine .ask fun u _ => (hinner.type u).bind fun r s' _ hr => .pure (.of_types rfl ?_)
    simpa [TypeNode.typeRefs] using hr
  | tuple | union | intersection =>
    exact .ask fun us _ => (hinner.types us).bind fun rs s' _ hrs => .pure (.of_types rfl hrs)
  | generic =>
    refine .ask fun target _ => (hinner.targetType t target).bind fun r s₁ _ hr => ?_
    refine .ask fun us _ => (hinner.types us).bind fun rs s₂ hs₂ hrs => .pure (.of_types rfl ?_)
    rintro r' (_ | ⟨_, hr'⟩)
    · exact hs₂.grows.hasType hr
    · exact hrs r' hr'
  | function sig =>
    exact (hinner.signature (by simp) sig {}).bind fun signature s' _ h => .pure (.of_types rfl h)
  | conditional =>
    refine .ask fun root _ => ?_
    cases root with
    | none => exact .pure (.of_none rfl rfl)
    | some root =>
      refine (hinner.type root.check).bind fun r₁ s₁ _ hr₁ => ?_
      refine (hinner.type root.bound).bind fun r₂ s₂ hs₂ hr₂ => ?_
      refine (hinner.type root.whenTrue).bind fun r₃ s₃ hs₃ hr₃ => ?_
      refine (hinner.type root.whenFalse).bind fun r₄ s₄ hs₄ hr₄ => .pure (.of_types rfl ?_)
      have hs₃' := hs₃.trans hs₄
      simp only [TypeNode.typeRefs, List.mem_cons, List.not_mem_nil, or_false]
      rintro r (rfl | rfl | rfl | rfl)
      · exact (hs₂.trans hs₃').grows.hasType hr₁
      · exact hs₃'.grows.hasType hr₂
      · exact hs₄.grows.hasType hr₃
      · exact hr₄
  | indexedAccess =>
    refine .ask fun parts _ => ?_
    cases parts with
    | none => exact .pure (.of_none rfl rfl)
    | some parts =>
      refine (hinner.type parts.1).bind fun r₁ s₁ _ hr₁ => ?_
      refine (hinner.type parts.2).bind fun r₂ s₂ hs₂ hr₂ => .pure (.of_types rfl ?_)
      simp only [TypeNode.typeRefs, List.mem_cons, List.not_mem_nil, or_false]
      rintro r (rfl | rfl)
      · exact hs₂.grows.hasType hr₁
      · exact hr₂
  | keyOf =>
    refine .ask fun operand _ => ?_
    cases operand with
    | none => exact .pure (.of_none rfl rfl)
    | some u =>
      refine (hinner.type u).bind fun r s' _ hr => .pure (.of_types rfl ?_)
      simpa [TypeNode.typeRefs] using hr

/-- A literal refers to nothing. -/
theorem literalNode_inRange {t : TypeId} {node : TypeNode} {g : Graph} (h : env.literalNode t = .ok node) :
    node.InRange g := by
  unfold Environment.literalNode at h
  obtain ⟨flags, -, h⟩ := bind_eq_ok_iff.1 h
  split at h
  · obtain ⟨name, -, rfl⟩ := map_eq_ok_iff.1 h
    exact .of_none rfl rfl
  · obtain ⟨value, -, h⟩ := bind_eq_ok_iff.1 h
    split at h <;> cases h <;> exact .of_none rfl rfl

theorem newTypeNode (hinner : env.Trusted inner) (t : TypeId) :
    env.Safe ctx s (env.newTypeNode inner t) fun r s' => s'.graph.HasType r := by
  unfold Environment.newTypeNode
  refine .ask fun shape _ => ?_
  cases shape with
  | native type => exact .reserveType (.of_none rfl rfl)
  | literal => exact .ask fun node hnode => .reserveType (literalNode_inRange hnode)
  | this => exact .reserveType (.of_none rfl rfl)
  | parameter =>
    refine .ask fun name _ => .get (.of_tidy fun ht => .reserveType (.of_members rfl fun r hr => ?_))
    exact ht.range.ownerOf (by simpa [TypeNode.memberRefs] using hr)
  | substitution base =>
    refine (hinner.type base).bind fun r s' _ hr => ?_
    exact .change_then (Session.rememberType_run t r) (fun h => h.shareType hr) (.shareType s' t r) (.pure hr)
  | composite shape =>
    refine (Safe.reserveType (.of_none rfl rfl)).bind fun r s₁ _ hr => ?_
    refine (hinner.compositeNode t shape).bind fun node s₂ hs₂ hnode => ?_
    have hs₃ := Session.Keeps.putType s₂ r node
    exact .change_then (Session.setType_run r node) (fun h => h.putType hnode) hs₃
      (.pure ((hs₂.trans hs₃).grows.hasType hr))

theorem resolveType (hinner : env.Trusted inner) (t : TypeId) :
    env.Safe ctx s (env.resolveTypeWith inner t) fun r s' => s'.graph.HasType r := by
  unfold resolveTypeWith
  refine .get ?_
  cases hold : s.typeOf? t with
  | some r => exact .of_tidy fun ht => .pure (ht.range.typeOf hold)
  | none => exact hinner.newTypeNode t

end Trusted

end Environment

end ApiDoc
