import ApiDoc.Proofs.Origin.Trace

/-!
# Types and signatures, traced

Resolving a type goes on continuing the session and leaves an entry for the type; a signature pictures what the
checker says of it henceforth.  Nothing needs to be known of the session before.
-/

namespace ApiDoc

namespace Session.Henceforth

variable {s : Session} {α β : Type} {R : Session → α → β → Prop}

/-- What holds henceforth of each of two lists' elements holds henceforth of the lists. -/
theorem forall₂ {as : List α} {bs : List β} (h : List.Forall₂ (fun a b => s.Henceforth (R · a b)) as bs) :
    s.Henceforth fun s' => List.Forall₂ (R s') as bs :=
  fun s' hs hsingle => h.imp fun _ _ hab => hab s' hs hsingle

theorem optionRel {a : Option α} {b : Option β} (h : Option.Rel (fun a b => s.Henceforth (R · a b)) a b) :
    s.Henceforth fun s' => Option.Rel (R s') a b :=
  fun s' hs hsingle => Environment.rel_imp h fun _ _ hab => hab s' hs hsingle

end Session.Henceforth

namespace Environment

variable {env : Environment} {inner : Resolver} {base s s' : Session}

namespace Yields

/-- A new node that is nobody's. -/
theorem newMixed : env.Yields s s (Resolve.newType .mixed) fun r s' => s'.Henceforth fun s'' => s''.IsFresh r := by
  refine .of_anchored fun ha => .change (Session.newType_run _) (fun ha hs => .growType ha hs _) ?_
  refine .fresh ⟨by simp, fun t ht => ?_⟩ (by simp [Session.nodeAt?_growType])
  exact Nat.lt_irrefl _ (ha.types ht)

theorem reserveType {t : TypeId} (node : TypeNode) :
    env.Yields s s (Resolve.reserveType t node) fun r s' => (t, r) ∈ s'.typeMemo :=
  .change (Session.reserveType_run t node) (fun ha hs => .addType ha hs t node) List.mem_cons_self

end Yields

namespace Answers

theorem types (hinner : env.Answers inner) (ts : List TypeId) :
    env.Yields s s (inner.types ts) fun rs s' => List.Forall₂ (fun t r => (t, r) ∈ s'.typeMemo) ts rs :=
  Yields.mapM (R := fun s' t r => (t, r) ∈ s'.typeMemo) (fun hs => hs.type_mem) fun t _ _ _ => hinner.type t

/-- Members are resolved in order, and those of markers are left out. -/
theorem members (hinner : env.Answers inner) (ms : List SymbolId) :
    env.Yields s s (inner.members ms) fun rs s' => ∃ known,
      List.Forall₂ (fun m v => (.symbol m, v) ∈ s'.memberMemo) ms known ∧ rs = known.filterMap id :=
  Yields.bind (Yields.mapM (R := fun s' m v => (.symbol m, v) ∈ s'.memberMemo) (fun hs => hs.member_mem)
    fun m _ _ _ => hinner.member m) fun known _ _ hknown => .pure ⟨known, hknown, rfl⟩

/-! ### Signatures -/

theorem symbolType (hinner : env.Answers inner) (m : SymbolId) :
    env.Yields s s (env.symbolType inner m) fun r s' => s'.Henceforth (env.DepictsSymbolType · m r) := by
  unfold Environment.symbolType
  refine .ask fun decl hdecl => ?_
  cases decl with
  | some decl =>
    refine .ask fun t ht => (hinner.type t).mono fun r s' _ hr => ?_
    exact (Session.Henceforth.typeOf hr).imp fun _ _ hfound => .inl ⟨decl, t, hdecl, ht, hfound⟩
  | none => exact Yields.newMixed.mono fun r s' _ hr => hr.imp fun _ _ hfresh => .inr ⟨hdecl, hfresh⟩

theorem recordOwner (owner : Option MemberRef) (t : TypeId) :
    env.Yields s s (owner.forM (Resolve.recordOwner t)) fun _ _ => True := by
  cases owner with
  | none => exact .pure trivial
  | some r => exact .change (Session.recordOwner_run t r) (fun ha hs => .recordOwner ha hs t r) trivial

theorem optionType (hinner : env.Answers inner) (u : Option TypeId) : env.Yields s s (u.mapM inner.type)
    fun v s' => Option.Rel (fun u r => (u, r) ∈ s'.typeMemo) u v :=
  .optionMapM (R := fun s' u r => (u, r) ∈ s'.typeMemo) fun u' _ => hinner.type u'

theorem typeParameter (hinner : env.Answers inner) (owner : Option MemberRef) (summaries : NamedTexts) (t : TypeId) :
    env.Yields s s (env.typeParameter inner summaries owner t)
      fun p s' => s'.Henceforth (env.DepictsTypeParameter · summaries t p) := by
  unfold Environment.typeParameter
  refine (recordOwner owner t).bind fun _ s₁ _ _ => .ask fun name hname => ?_
  refine (hinner.type t).bind fun r s₂ _ hr => .ask fun u hu => ?_
  refine (hinner.optionType u).bind fun constraint s₃ hs₃ hconstraint => .ask fun v hv => ?_
  refine (hinner.optionType v).bind fun default s₄ hs₄ hdefault => .pure fun s' hs' hsingle => ?_
  have hs₄' := hs₄.toRecalls.trans hs'
  exact {
    name := hname
    summary := rfl
    type := hsingle.typeOf ((hs₃.toRecalls.trans hs₄').type_mem hr)
    constraint := ⟨u, hu, rel_imp hconstraint fun _ _ hfound => hsingle.typeOf (hs₄'.type_mem hfound)⟩
    default := ⟨v, hv, rel_imp hdefault fun _ _ hfound => hsingle.typeOf (hs'.type_mem hfound)⟩ }

theorem typeParameters (hinner : env.Answers inner) (owner : Option MemberRef) (summaries : NamedTexts)
    (ts : List TypeId) :
    env.Yields s s (env.typeParameters inner summaries owner ts)
      fun ps s' => s'.Henceforth fun s'' => List.Forall₂ (env.DepictsTypeParameter s'' summaries) ts ps :=
  Yields.mono (Yields.mapM (R := fun s' t p => s'.Henceforth (env.DepictsTypeParameter · summaries t p))
    (fun hs h => h.mono hs.toRecalls) fun t _ _ _ => hinner.typeParameter owner summaries t)
    fun _ _ _ h => .forall₂ h

theorem parameter (hinner : env.Answers inner) (facts : TagFacts) (m : SymbolId) :
    env.Yields s s (env.parameter inner facts m) fun p s' => s'.Henceforth (env.DepictsParameter · facts m p) := by
  unfold Environment.parameter
  refine .ask fun name hname => (hinner.symbolType m).bind fun r s' _ hr => .ask fun decl hdecl => ?_
  cases decl with
  | none => exact .pure (hr.imp fun _ _ htype => ⟨hname, rfl, htype, none, hdecl, rfl, rfl, rfl⟩)
  | some decl =>
    refine .ask fun rest hrest => .ask fun question hquestion => .ask fun text htext => ?_
    cases text <;> cases rest <;> cases question <;>
      exact .pure (hr.imp fun _ _ htype =>
        ⟨hname, rfl, htype, some decl, hdecl, hrest, htext, _, hquestion, rfl⟩)

/-- A signature pictures what the checker says of it, henceforth. -/
theorem signature (hinner : env.Answers inner) (owner : Option MemberRef) (sig : SignatureId) (facts : TagFacts) :
    env.Yields s s (env.signature inner sig facts owner)
      fun signature s' => s'.Henceforth (env.DepictsSignature · facts sig signature) := by
  unfold Environment.signature
  refine .ask fun ts hts => (hinner.typeParameters owner facts.typeParams ts).bind
    fun typeParameters s₁ _ htypeParameters => .ask fun ms hms => ?_
  refine Yields.bind (Yields.mapM (R := fun s' m p => s'.Henceforth (env.DepictsParameter · facts m p))
    (fun hs h => h.mono hs.toRecalls) fun m _ _ _ => hinner.parameter facts m)
    fun parameters s₂ hs₂ hparameters => .ask fun this hthis => ?_
  refine Yields.bind (Yields.optionMapM (R := fun s' m r => s'.Henceforth (env.DepictsSymbolType · m r))
    fun m _ => hinner.symbolType m) fun thisType s₃ hs₃ hthisType => .ask fun t ht => ?_
  refine (hinner.type t).bind fun r s₄ hs₄ hr => .pure fun s' hs' hsingle => ?_
  have hs₃' := hs₄.toRecalls.trans hs'
  have hs₂' := hs₃.toRecalls.trans hs₃'
  have hs₁' := hs₂.toRecalls.trans hs₂'
  exact {
    typeParameters := ⟨ts, hts, htypeParameters s' hs₁' hsingle⟩
    parameters := ⟨ms, hms, Session.Henceforth.forall₂ hparameters s' hs₂' hsingle⟩
    thisType := ⟨this, hthis, Session.Henceforth.optionRel hthisType s' hs₃' hsingle⟩
    returnType := ⟨t, ht, hsingle.typeOf (hs'.type_mem hr)⟩ }

/-! ### Nodes -/

theorem targetType (hinner : env.Answers inner) (t : TypeId) (target : Option TypeId) :
    env.Yields s s (Environment.targetType inner t target) fun _ _ => True := by
  have hmixed : env.Yields s s (Resolve.newType .mixed) fun _ _ => True := Yields.newMixed.mono fun _ _ _ _ => trivial
  unfold Environment.targetType
  cases target with
  | none => exact hmixed
  | some u =>
    dsimp only
    split
    · exact hmixed
    · exact (hinner.type u).mono fun _ _ _ _ => trivial

theorem compositeNode (hinner : env.Answers inner) (t : TypeId) (shape : Composite) :
    env.Yields s s (env.compositeNode inner t shape) fun _ _ => True := by
  unfold Environment.compositeNode
  cases shape with
  | named =>
    refine .ask fun m _ => ?_
    cases m with
    | some m => exact (hinner.member m).bind fun _ _ _ _ => .pure trivial
    | none => exact .pure trivial
  | array => exact .ask fun u _ => (hinner.type u).bind fun _ _ _ _ => .pure trivial
  | tuple | union | intersection =>
    exact .ask fun us _ => (hinner.types us).bind fun _ _ _ _ => .pure trivial
  | generic =>
    refine .ask fun target _ => (hinner.targetType t target).bind fun _ _ _ _ => ?_
    exact .ask fun us _ => (hinner.types us).bind fun _ _ _ _ => .pure trivial
  | function sig => exact (hinner.signature none sig {}).bind fun _ _ _ _ => .pure trivial
  | typeOf m => exact (hinner.member m).bind fun _ _ _ _ => .pure trivial
  | object => exact .ask fun ms _ => (hinner.members ms).bind fun _ _ _ _ => .pure trivial
  | conditional =>
    refine .ask fun root _ => ?_
    cases root with
    | none => exact .pure trivial
    | some root =>
      refine (hinner.type root.check).bind fun _ _ _ _ => (hinner.type root.bound).bind fun _ _ _ _ => ?_
      exact (hinner.type root.whenTrue).bind fun _ _ _ _ => (hinner.type root.whenFalse).bind fun _ _ _ _ =>
        .pure trivial
  | indexedAccess =>
    refine .ask fun parts _ => ?_
    cases parts with
    | none => exact .pure trivial
    | some parts =>
      exact (hinner.type parts.1).bind fun _ _ _ _ => (hinner.type parts.2).bind fun _ _ _ _ => .pure trivial
  | keyOf =>
    refine .ask fun operand _ => ?_
    cases operand with
    | none => exact .pure trivial
    | some u => exact (hinner.type u).bind fun _ _ _ _ => .pure trivial

theorem newTypeNode (hinner : env.Answers inner) (t : TypeId) :
    env.Yields s s (env.newTypeNode inner t) fun r s' => (t, r) ∈ s'.typeMemo := by
  unfold Environment.newTypeNode
  refine .ask fun shape _ => ?_
  cases shape with
  | native type => exact .reserveType _
  | literal => exact .ask fun node _ => .reserveType node
  | this => exact .reserveType _
  | parameter => exact .ask fun name _ => .get (.reserveType _)
  | substitution base =>
    refine (hinner.type base).bind fun r s' _ hr => ?_
    exact .change_then (Session.rememberType_run t r) (fun ha hs => .shareType ha hs hr t) fun _ =>
      .pure List.mem_cons_self
  | composite shape =>
    refine (Yields.reserveType _).bind fun r s₁ _ hr => ?_
    refine (hinner.compositeNode t shape).bind fun node s₂ hs₂ _ => ?_
    have hr₂ := hs₂.type_mem hr
    exact .change_then (Session.setType_run r node) (fun ha hs => .putType ha hs hr₂ node) fun _ => .pure hr₂

theorem resolveType (hinner : env.Answers inner) (t : TypeId) :
    env.Yields s s (env.resolveTypeWith inner t) fun r s' => (t, r) ∈ s'.typeMemo := by
  unfold resolveTypeWith
  refine .get ?_
  cases hold : s.typeOf? t with
  | some r => exact .pure (Session.mem_of_typeOf? hold)
  | none => exact hinner.newTypeNode t

end Answers

end Environment

end ApiDoc
