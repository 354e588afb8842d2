import ApiDoc.Proofs.Failure.Scripts

/-!
# Members and files by inquiry

Members are scripted as types are, and so are files.  By induction on the depth whole resolvers are
(`scripting_recur`), and putting a project together is one inquiry (`Environment.exists_inquiry`).
-/

namespace ApiDoc

namespace Scripting

variable {inner : Replies → Resolver} (env : Environment)

/-! ### Fields and aliases -/

theorem field (h : Scripting inner) (m : SymbolId) :
    Scripted fun replies => (env.answering replies).field (inner replies) m := by
  unfold Environment.field
  refine .ask (fun _ _ => rfl) fun flags => .ask (fun _ _ => rfl) fun d => ?_
  cases d with
  | none => exact .bind (.const _) fun r => .answer fun _ _ => rfl
  | some d =>
    unfold Environment.declaredField
    refine .ask (fun _ _ => (env.sameSource_replies _ _).fieldKind d) fun kind => ?_
    refine .query (.typeOfSymbolAtLocation m d) fun t => .bind (h.type t) fun type => ?_
    refine .ask (fun _ _ => rfl) fun optional => .ask (fun _ _ => rfl) fun modifiers => ?_
    refine .ask (fun _ _ => rfl) fun default => .ask (fun _ _ => (env.sameSource_replies _ _).tags d) fun facts => ?_
    exact .answer fun _ _ => rfl

theorem accessor (h : Scripting inner) (m : SymbolId) :
    Scripted fun replies => (env.answering replies).accessor (inner replies) m := by
  unfold Environment.accessor
  refine .ask (fun _ _ => rfl) fun flags => .ask (fun _ _ => rfl) fun ds => ?_
  cases ds with
  | nil => exact h.field env m
  | cons first rest =>
    refine .query (.typeOfSymbolAtLocation m first) fun t => .bind (h.type t) fun type => ?_
    refine .ask (fun _ _ => (env.sameSource_replies _ _).accessorTags first rest) fun facts => ?_
    exact .answer fun _ _ => rfl

theorem typeAlias (h : Scripting inner) (m : SymbolId) (slot : MemberRef) :
    Scripted fun replies => (env.answering replies).typeAlias (inner replies) m slot := by
  unfold Environment.typeAlias
  refine .ask (fun _ _ => (env.sameSource_replies _ _).preferredDeclaration? m _) fun d => ?_
  refine .ask (fun _ _ => (env.sameSource_replies _ _).tags? d) fun facts => .ask (fun _ _ => rfl) fun ts => ?_
  refine .bind (h.typeParameters env facts.typeParams (some slot) ts) fun params => ?_
  exact .query (.declaredTypeOfSymbol m) fun t => .bind (h.type t) fun r => .answer fun _ _ => rfl

/-! ### Enums and namespaces -/

theorem enumExports (h : Scripting inner) (numbering : Numbering) (ms : List SymbolId) :
    Scripted fun replies => (env.answering replies).enumExports (inner replies) numbering ms := by
  induction ms generalizing numbering with
  | nil => exact .const _
  | cons m rest ih =>
    unfold Environment.enumExports
    refine .ask (fun _ _ => rfl) fun flags => ?_
    split
    · refine .bind (h.member m) fun v => ?_
      cases v with
      | none => exact ih numbering
      | some r => exact .ask (fun _ _ => rfl) fun name => .ask (fun _ _ => rfl) fun value => .map (ih _)
    · exact .bind (h.member m) fun v => .map (ih numbering)

theorem enumeration (h : Scripting inner) (m : SymbolId) :
    Scripted fun replies => (env.answering replies).enumeration (inner replies) m := by
  unfold Environment.enumeration
  refine .ask (fun _ _ => rfl) fun flags => ?_
  refine .ask (fun _ _ => (env.sameSource_replies _ _).preferredDeclaration? m _) fun d => ?_
  refine .ask (fun _ _ => (env.sameSource_replies _ _).tags? d) fun facts => .ask (fun _ _ => rfl) fun ms => ?_
  exact .bind (h.enumExports env {} ms) fun exports => .answer fun _ _ => rfl

theorem namespaceLike (h : Scripting inner) (m : SymbolId) :
    Scripted fun replies => (env.answering replies).namespaceLike (inner replies) m := by
  unfold Environment.namespaceLike
  refine .ask (fun _ _ => (env.sameSource_replies _ _).preferredDeclaration? m _) fun d => ?_
  refine .ask (fun _ _ => (env.sameSource_replies _ _).tags? d) fun facts => .ask (fun _ _ => rfl) fun ms => ?_
  exact .bind (h.members ms) fun members => .answer fun _ _ => rfl

/-! ### Classes -/

theorem fillOverride (h : Scripting inner) (m : SymbolId) (base : BaseProperty) (slot : MemberRef) :
    Scripted fun replies => (env.answering replies).fillOverride (inner replies) m base slot := by
  unfold Environment.fillOverride
  refine .bind (h.build m slot) fun member => .bind (h.member base.symbol) fun overrides => ?_
  refine .bind (h.type base.base) fun parent => ?_
  cases overrides with
  | none => exact .const _
  | some r =>
    -- the settings are the same whatever the replies are
    refine .bind (.const _) fun inherited => ?_
    exact .const (Resolve.setMember slot (if env.config.inheritDocs then Member.inherit _ inherited else _))

theorem overriding (h : Scripting inner) (m : SymbolId) (base : BaseProperty) :
    Scripted fun replies => (env.answering replies).overriding (inner replies) m base := by
  unfold Environment.overriding
  refine .bind (.const _) fun s => ?_
  cases s.cachedMember m with
  | some slot =>
    refine .bind (.const _) fun member => ?_
    split
    · exact .const _
    · exact .bind (h.fillOverride env m base slot) fun _ => .const _
  | none =>
    refine .ask (fun _ _ => rfl) fun name => .bind (.const _) fun slot => ?_
    exact .bind (h.fillOverride env m base slot) fun _ => .const _

theorem implemented (h : Scripting inner) (d : Option NodeId) :
    Scripted fun replies => (env.answering replies).implemented (inner replies) d := by
  unfold Environment.implemented
  cases d with
  | none => exact .const _
  | some d =>
    refine .ask (fun _ _ => rfl) fun kind => ?_
    split
    · exact .ask (fun _ _ => rfl) fun es => .mapM fun e => .query (.typeAtLocation e) fun t => h.type t
    · exact .const _

theorem addMember (h : Scripting inner) (inherited : List (String × BaseProperty)) (body : ClassBody) (m : SymbolId) :
    Scripted fun replies => (env.answering replies).addMember (inner replies) inherited body m := by
  unfold Environment.addMember
  refine .ask (fun _ _ => rfl) fun flags => ?_
  split
  · exact .const _
  split
  · exact .map (h.member m)
  split
  · refine .ask (fun _ _ => rfl) fun ds => ?_
    cases ds with
    | nil => exact .const _
    | cons d rest =>
      refine .ask (fun _ _ => rfl) fun kind => ?_
      split
      · exact .map (h.member m)
      · exact .map (h.member m)
      · exact .const _
  · refine .ask (fun _ _ => rfl) fun name => ?_
    cases inherited.lookup name with
    | some base => exact .map (h.overriding env m base)
    | none => exact .map (h.member m)

theorem extendedMember (h : Scripting inner) (m property : SymbolId) :
    Scripted fun replies => (env.answering replies).extendedMember (inner replies) m property := by
  unfold Environment.extendedMember
  refine .ask (fun _ _ => rfl) fun owner => ?_
  split
  · exact .const _
  · refine .ask (fun _ _ => rfl) fun flags => ?_
    split
    · exact .const _
    · exact h.member property

/-- The type that a symbol declares is asked for if the symbol declares one. -/
theorem classType (m : SymbolId) (flags : SymbolFlags) {α : Type} {f : Replies → Option TypeId → Resolve α}
    (hf : ∀ declared, Scripted fun replies => f replies declared) :
    Scripted fun replies => liftM ((env.answering replies).classType? m flags) >>= f replies := by
  refine .bind ?_ hf
  unfold Environment.classType?
  split
  · exact .reply (.declaredTypeOfSymbol m) some
  · exact .const _

theorem classBody (h : Scripting inner) (m : SymbolId) (d : Option NodeId) (facts : TagFacts) (slot : MemberRef) :
    Scripted fun replies => (env.answering replies).classBody (inner replies) m d facts slot := by
  unfold Environment.classBody
  refine .ask (fun _ _ => rfl) fun flags => classType env m flags fun declared => ?_
  refine .ask (fun _ _ => rfl) fun ts => .bind (h.typeParameters env _ (some slot) ts) fun params => ?_
  refine .ask (fun _ _ => rfl) fun us => .bind (h.types us) fun bases => ?_
  refine .bind (h.implemented env d) fun implements => .ask (fun _ _ => rfl) fun ms => ?_
  refine .bind (h.members ms) fun members => .ask (fun _ _ => rfl) fun inherited => ?_
  refine .ask (fun _ _ => rfl) fun own => .bind (.foldlM fun body m' => h.addMember env inherited body m') fun body => ?_
  exact .ask (fun _ _ => rfl) fun properties => .map (.mapM fun property => h.extendedMember env m property)

theorem classOfKinds (h : Scripting inner) (m : SymbolId) (slot : MemberRef) (kinds : List SyntaxKind) :
    Scripted fun replies => (env.answering replies).classOfKinds (inner replies) m slot kinds := by
  unfold Environment.classOfKinds
  refine .ask (fun _ _ => (env.sameSource_replies _ _).preferredDeclaration? m kinds) fun d => ?_
  refine .ask (fun _ _ => (env.sameSource_replies _ _).tags? d) fun facts => ?_
  refine .bind (h.classBody env m d facts slot) fun body => ?_
  exact .ask (fun _ _ => rfl) fun member => .const _

theorem companion (h : Scripting inner) (m : SymbolId) :
    Scripted fun replies => (env.answering replies).companion (inner replies) m := by
  unfold Environment.companion
  refine .bind (.const _) fun s => ?_
  cases s.memberOf? (.companion m) with
  | some known => exact .const _
  | none =>
    refine .ask (fun _ _ => rfl) fun name => .bind (.const _) fun slot => ?_
    exact .bind (h.classOfKinds env m slot _) fun member => .const _

/-! ### Methods -/

theorem signatureMember (h : Scripting inner) (m : SymbolId) (slot : MemberRef) (d : NodeId) :
    Scripted fun replies => (env.answering replies).signatureMember (inner replies) m slot d := by
  unfold Environment.signatureMember
  refine .ask (fun _ _ => (env.sameSource_replies _ _).tags d) fun facts => ?_
  refine .query (.signatureFromDeclaration d) fun sig => ?_
  refine .bind (h.signature env sig facts (some slot)) fun signature => .ask (fun _ _ => rfl) fun kind => ?_
  refine .ask (fun _ _ => rfl) fun modifiers => .ask (fun _ _ => rfl) fun generator => ?_
  exact .answer fun _ _ => rfl

theorem overload (h : Scripting inner) (m : SymbolId) (primary : Member) (d : NodeId) :
    Scripted fun replies => (env.answering replies).overload (inner replies) m primary d := by
  unfold Environment.overload
  exact .bind (.const _) fun slot => .bind (h.signatureMember env m slot d) fun member => .const _

theorem method (h : Scripting inner) (m : SymbolId) (slot : MemberRef) :
    Scripted fun replies => (env.answering replies).method (inner replies) m slot := by
  unfold Environment.method
  refine .ask (fun _ _ => rfl) fun ds => .ask (fun _ _ => (env.sameSource_replies _ _).primaryIndex ds) fun i => ?_
  cases ds[i]? with
  | none => exact h.field env m
  | some d =>
    refine .bind (h.signatureMember env m slot d) fun primary => ?_
    refine .bind (.mapM fun d' => h.overload env m primary d') fun overloads => ?_
    refine .bind (.const (env.sharedPrimary primary overloads)) fun shared => ?_
    refine .ask (fun _ _ => rfl) fun flags => .map ?_
    unfold Environment.companion?
    split
    · exact h.companion env m
    · exact .const _

/-! ### Symbols -/

theorem buildMember (h : Scripting inner) (m : SymbolId) (slot : MemberRef) :
    Scripted fun replies => (env.answering replies).buildMemberWith (inner replies) m slot := by
  unfold Environment.buildMemberWith
  refine .ask (fun _ _ => rfl) fun flags => ?_
  cases SymbolClass.of flags with
  | method => exact h.method env m slot
  | marker | field | unclassified => exact h.field env m
  | accessor => exact h.accessor env m
  | classLike => exact h.classOfKinds env m slot _
  | enumeration => exact h.enumeration env m
  | namespaceLike => exact h.namespaceLike env m
  | «alias» => exact h.typeAlias env m slot

theorem newMember (h : Scripting inner) (m : SymbolId) :
    Scripted fun replies => (env.answering replies).newMemberWith (inner replies) m := by
  unfold Environment.newMemberWith
  refine .ask (fun _ _ => rfl) fun flags => ?_
  split
  · exact .const _
  · refine .ask (fun _ _ => rfl) fun name => .bind (.const _) fun slot => ?_
    exact .bind (h.buildMember env m slot) fun member => .const _

theorem resolveMember (h : Scripting inner) (m : SymbolId) :
    Scripted fun replies => (env.answering replies).resolveMemberWith (inner replies) m := by
  unfold Environment.resolveMemberWith
  refine .bind (.const _) fun s => ?_
  cases s.memberOf? (.symbol m) with
  | some known => exact .const _
  | none => exact h.newMember env m

end Scripting

namespace Environment

/-- At each depth, the resolver goes by scripts. -/
theorem scripting_recur (env : Environment) (depth : Nat) :
    Scripting fun replies => (env.answering replies).recur depth := by
  induction depth with
  | zero => exact ⟨fun _ => .const _, fun _ => .const _, fun _ _ => .const _⟩
  | succ depth ih => exact ⟨ih.resolveType env, ih.resolveMember env, ih.buildMember env⟩

variable (env : Environment)

/-! ### Files -/

theorem scripted_resolveMember (m : SymbolId) : Scripted fun replies => (env.answering replies).resolveMember m :=
  (env.scripting_recur env.depth).member m

theorem scripted_exportedMember (m : SymbolId) : Scripted fun replies => (env.answering replies).exportedMember m := by
  unfold exportedMember
  refine .bind (env.scripted_resolveMember m) fun v => ?_
  cases v with
  | none => exact .const _
  | some r => exact .ask (fun _ _ => rfl) fun name => .const _

theorem scripted_fileMembers (f : FileId) (isModule : Bool) :
    Scripted fun replies => (env.answering replies).fileMembers f isModule := by
  unfold fileMembers
  cases isModule with
  | true =>
    refine .ask (fun _ _ => rfl) fun node => .query (.symbolAtLocation node) fun m => ?_
    exact .query (.exportsOfModule m) fun ms => .map (.mapM env.scripted_exportedMember)
  | false => exact .ask (fun _ _ => rfl) fun ms => .map (.mapM env.scripted_resolveMember)

theorem scripted_resolveFile (f : FileId) : Scripted fun replies => (env.answering replies).resolveFile f := by
  unfold resolveFile
  refine .ask (fun _ _ => rfl) fun fileName => .ask (fun _ _ => rfl) fun text => ?_
  refine .ask (fun _ _ => rfl) fun facts => .ask (fun _ _ => rfl) fun isModule => ?_
  refine .ask (fun _ _ => rfl) fun name => .ask (fun _ _ => rfl) fun declaration => ?_
  exact .ask (fun _ _ => rfl) fun imports => .map (env.scripted_fileMembers f isModule)

/-- An inquiry describes how a project is put together: it does the same, whatever the replies are. -/
def Describes (files : List FileId) (run : Inquiry Project) : Prop :=
  ∀ replies, (env.answering replies).assemble files = run.outcome replies

/-- **Putting a project together is an inquiry.** -/
theorem exists_describes (files : List FileId) : ∃ run, env.Describes files run := by
  have hfiles : Scripted fun replies => files.mapM (env.answering replies).resolveFile :=
    .mapM env.scripted_resolveFile
  obtain ⟨run, hrun⟩ := hfiles {}
  refine ⟨run.andThen fun p => .ends (.ok { files := p.1, graph := p.2.graph }), fun replies => ?_⟩
  rw [Inquiry.outcome_andThen, ← hrun replies]
  unfold assemble Resolve.outcome
  generalize (files.mapM (env.answering replies).resolveFile).run.run {} = p
  obtain ⟨e | resolved, s⟩ := p <;> rfl

end Environment

end ApiDoc
