import ApiDoc.Proofs.Run.Containers

/-!
# Fields and methods as runs

Overloads have places that are nobody's.  They are put in there once and then have their gaps filled,
and none of that links them to anything (`Serves.shareSummaries`).
-/

namespace ApiDoc

namespace Environment

variable {env : Environment} {D : Domain} {fail : Error → Prop} {g : env.Gauge D fail} {d : Nat}
  {inner : Resolver} {fs : List Frame} {s : Session}

/-! ### Filling gaps -/

theorem IsBuilt.fillFrom {m : SymbolId} {own : Member} (h : env.IsBuilt m own) (base : Member) :
    env.IsBuilt m (own.fillFrom base) := by
  unfold Member.fillFrom
  split
  · exact ⟨h.parent, h.overrides, h.declared⟩
  · exact h

theorem IsBuilt.fillFromOverloads {m : SymbolId} {primary : Member} (h : env.IsBuilt m primary)
    (overloads : List Member) : env.IsBuilt m (primary.fillFromOverloads overloads) := by
  have hfold : ∀ (others : List Member) {own : Member}, env.IsBuilt m own →
      env.IsBuilt m (others.foldl Member.fillFrom own) := by
    intro others
    induction others with
    | nil => exact id
    | cons base others ih => exact fun hown => ih (hown.fillFrom base)
  exact hfold overloads ⟨h.parent, h.overrides, h.declared⟩

theorem IsBuilt.withOverloads {m : SymbolId} {member : Member} (h : env.IsBuilt m member)
    (overloads : List MemberRef) (companion : Option MemberRef) :
    env.IsBuilt m (member.withOverloads overloads companion) := by
  unfold Member.withOverloads
  split
  · exact ⟨h.parent, h.overrides, h.declared⟩
  · exact h

namespace Serves

/-! ### Fields -/

theorem declaredField (hcov : env.Covers D fail) (hinner : env.Serves D fail (g.ready d) inner)
    {m : SymbolId} {decl : NodeId} (hm : D.symbol m) (hnode : D.node decl)
    (hdecl : env.Declares m decl) (hwork : WorksOn fs (.symbol m)) (hd : Affords g d s)
    (flags : SymbolFlags) :
    env.Exec fail ⟨fs, s⟩ (env.declaredField inner m flags decl) fs
      fun member _ => env.IsBuilt m member ∧ member.parameterNodes = [] := by
  unfold Environment.declaredField
  refine .ask (hcov.fieldKind hnode) fun kind _ _ => ?_
  refine .ask (hcov.typeOfSymbolAtLocation hm hnode) fun t ht htknown => ?_
  refine (hinner.type htknown (hd.type htknown) (.of_mentions hwork (.valueType ht))).bind
    fun r s₁ _ _ => ?_
  refine .ask (hcov.isOptionalField hnode flags) fun optional _ _ => ?_
  refine .ask (hcov.combinedModifierFlags hnode) fun modifiers _ _ => ?_
  refine .ask (hcov.initializerText hnode) fun default _ _ => ?_
  refine .ask (hcov.tags hnode) fun facts hfacts _ => ?_
  exact .answer (hcov.commonMember hm (by rintro d' ⟨⟩; exact ⟨hnode, hdecl⟩)
    (fun h => ⟨decl, hdecl, .inr ⟨facts, hfacts, h⟩⟩) _) fun _ h hbuilt => ⟨hbuilt, parameterNodes_commonMember h⟩

theorem field (hcov : env.Covers D fail) (hinner : env.Serves D fail (g.ready d) inner)
    {m : SymbolId} (hm : D.symbol m) (hwork : WorksOn fs (.symbol m)) (hd : Affords g d s) :
    env.Exec fail ⟨fs, s⟩ (env.field inner m) fs
      fun member _ => env.IsBuilt m member ∧ member.parameterNodes = [] := by
  unfold Environment.field
  refine .ask (hcov.symbolFlags hm) fun flags _ _ => ?_
  refine .ask (hcov.mainDeclaration hm) fun decl _ hdecl => ?_
  cases decl with
  | some decl =>
    exact declaredField hcov hinner hm (hdecl decl rfl).1 (hdecl decl rfl).2 hwork hd flags
  | none =>
    refine .step_then (.refl fs) (Session.newType_run _) .mixed fun _ => ?_
    exact .answer (hcov.commonMember hm (by simp) (by simp) _) fun _ h hbuilt => ⟨hbuilt, parameterNodes_commonMember h⟩

theorem accessor (hcov : env.Covers D fail) (hinner : env.Serves D fail (g.ready d) inner)
    {m : SymbolId} (hm : D.symbol m) (hwork : WorksOn fs (.symbol m)) (hd : Affords g d s) :
    env.Exec fail ⟨fs, s⟩ (env.accessor inner m) fs
      fun member _ => env.IsBuilt m member ∧ member.parameterNodes = [] := by
  unfold Environment.accessor
  refine .ask (hcov.symbolFlags hm) fun flags _ _ => ?_
  refine .ask (hcov.declarations hm) fun ds hds hdsknown => ?_
  cases ds with
  | nil => exact field hcov hinner hm hwork hd
  | cons first rest =>
    have hfirst : D.node first := hdsknown first (by simp)
    have hdeclares : ∀ d' ∈ first :: rest, env.Declares m d' := fun d' hd' => .inr ⟨_, hds, hd'⟩
    refine .ask (hcov.typeOfSymbolAtLocation hm hfirst) fun t ht htknown => ?_
    refine (hinner.type htknown (hd.type htknown) (.of_mentions hwork (.valueType ht))).bind
      fun r s₁ _ _ => ?_
    refine .ask (hcov.accessorTags hdsknown) fun facts _ ⟨d', hd', hfacts⟩ => ?_
    exact .answer (hcov.commonMember hm (by rintro d'' ⟨⟩; exact ⟨hfirst, hdeclares first (by simp)⟩)
      (fun h => ⟨d', hdeclares d' hd', .inr ⟨facts, hfacts, h⟩⟩) _)
        fun _ h hbuilt => ⟨hbuilt, parameterNodes_commonMember h⟩

theorem typeAlias (hcov : env.Covers D fail) (hinner : env.Serves D fail (g.ready d) inner)
    {m : SymbolId} {slot : MemberRef} (hm : D.symbol m) (hwork : WorksOn fs (.symbol m))
    (hmakes : env.Makes fs s slot (env.checker.declaredTypeParameters m)) (hd : Affords g d s) :
    env.Exec fail ⟨fs, s⟩ (env.typeAlias inner m slot) fs fun member s' => env.IsBuilt m member ∧
      env.MadeWith inner slot (env.checker.declaredTypeParameters m) s s' member := by
  unfold Environment.typeAlias
  refine .ask (hcov.preferredDeclaration hm _) fun decl _ hdecl => ?_
  refine .ask (hcov.tagsIfAny fun d' hd' => (hdecl d' hd').1) fun facts hfacts _ => ?_
  refine .ask (hcov.declaredTypeParameters hm) fun ts hts htsknown => ?_
  refine (typeParameters hcov hinner htsknown
    (fun e he => .of_mentions hwork (.typeParameter hts he))
    (by rintro r ⟨⟩ t ht; exact ⟨ts, hts ▸ hmakes, ht⟩) hd
    facts.typeParams).bind fun ps s₁ hs₁ ⟨hregisters, hps⟩ => ?_
  refine .ask (hcov.declaredTypeOfSymbol hm) fun t ht htknown => ?_
  refine (hinner.type htknown ((hd.mono hs₁).type htknown)
    (.of_mentions hwork (.declaredType ht))).bind fun r s₂ hs₂ _ => ?_
  exact .answer (hcov.commonMember hm hdecl (isDeclaredOverride_of_tags
    (fun d' hd' => (hdecl d' hd').2) hfacts) _) fun _ h hbuilt =>
      ⟨hbuilt, (madeWith_of_depicts hts hps (hregisters slot rfl) (parameterNodes_commonMember h)).mono hs₂⟩

/-! ### Methods -/

theorem signatureMember (hcov : env.Covers D fail) (hinner : env.Serves D fail (g.ready d) inner)
    {m : SymbolId} {slot : MemberRef} {decl : NodeId} (hm : D.symbol m) (hnode : D.node decl)
    (hdecl : env.Declares m decl) (hwork : WorksOn fs (.symbol m))
    (hmakes : env.Makes fs s slot (env.parametersAt decl)) (hd : Affords g d s) :
    env.Exec fail ⟨fs, s⟩ (env.signatureMember inner m slot decl) fs
      fun member s' => env.IsBuilt m member ∧ env.MadeWith inner slot (env.parametersAt decl) s s' member := by
  unfold Environment.signatureMember
  refine .ask (hcov.tags hnode) fun facts hfacts _ => ?_
  refine .ask (hcov.signatureFromDeclaration hnode) fun sig hsig hsigknown => ?_
  have hat : env.checker.signatureTypeParameters sig = env.parametersAt decl := by
    rw [parametersAt, hsig]
    rfl
  refine (signature hcov hinner hsigknown (fun e he => .of_mentions hwork (.signature hdecl hsig he))
    (by rintro r ⟨⟩ ts hts t ht; exact ⟨ts, hts ▸ hat ▸ hmakes, ht⟩) hd facts).bind
    fun sign s₁ _ ⟨hregisters, hsign⟩ => ?_
  obtain ⟨ts, hts, hps⟩ := hsign.typeParameters
  refine .ask (hcov.nodeKind hnode) fun kind _ _ => ?_
  refine .ask (hcov.combinedModifierFlags hnode) fun modifiers _ _ => ?_
  refine .ask (hcov.hasAsterisk hnode) fun isGenerator _ _ => ?_
  exact .answer (hcov.commonMember hm (by rintro d' ⟨⟩; exact ⟨hnode, hdecl⟩)
    (fun h => ⟨decl, hdecl, .inr ⟨facts, hfacts, h⟩⟩) _) fun _ h hbuilt =>
      ⟨hbuilt, madeWith_of_depicts (hat.symm.trans hts) hps (hts ▸ hregisters slot rfl) (parameterNodes_commonMember h)⟩

theorem overload (hcov : env.Covers D fail) (hinner : env.Serves D fail (g.ready d) inner)
    {m : SymbolId} {decl : NodeId} (hm : D.symbol m) (hnode : D.node decl)
    (hdecl : env.Declares m decl) (hwork : WorksOn fs (.symbol m)) (hd : Affords g d s)
    (primary : Member) :
    env.Exec fail ⟨fs, s⟩ (env.overload inner m primary decl) fs fun r s' => s'.IsLoose r := by
  refine .of_reachable fun hc => ?_
  unfold Environment.overload
  refine .step_then (.opened (by simp) fs) (Session.newMember_run _) (.openOverload hwork hdecl) fun hs => ?_
  -- a place behind all others is no key's
  have hloose : (s.growMember (.placeholder primary.name)).IsLoose ⟨s.graph.members.size⟩ := by
    refine ⟨by simp, fun key hkey => ?_⟩
    exact absurd (hc.sound.memberBound hkey) (Nat.lt_irrefl _)
  refine (signatureMember hcov hinner hm hnode hdecl ⟨_, _, rfl, rfl⟩ (.overload rfl hdecl) (hd.mono hs)).bind
    fun member s₁ hs₁ ⟨hbuilt, hmade⟩ => ?_
  exact .step_then (.closed (by simp) fs) (Session.setMember_run _ _)
    (.closeOverload hdecl (hs₁.loose hloose) hbuilt.parent hbuilt.overrides (hmade.lists.congr rfl))
    fun hs₂ => .pure (hs₂.loose (hs₁.loose hloose))

/-- Sharing summaries fills the gaps of members that are nobody's. -/
theorem shareSummaries {m : SymbolId} {primary : Member} {overloads : List MemberRef}
    (hbuilt : env.IsBuilt m primary) (hloose : ∀ r ∈ overloads, s.IsLoose r) :
    env.Exec fail ⟨fs, s⟩ (Environment.shareSummaries primary overloads) fs
      fun member _ => env.IsBuilt m member ∧ member.parameterNodes = primary.parameterNodes := by
  unfold Environment.shareSummaries
  refine Exec.bind (Exec.mapM (R := fun _ _ _ => True) (fun _ h => h) fun r hr s' hs' => ?_) ?_
  · obtain ⟨old, hold⟩ := Session.exists_memberAt? (hs'.loose (hloose r hr)).1
    exact .read hold trivial
  intro members s₁ hs₁ _
  have hfilled := hbuilt.fillFromOverloads members
  refine Exec.bind (Exec.forM fun r hr s₂ hs₂ => ?_) fun _ _ _ _ => .pure ⟨hfilled, by simp⟩
  have hr₂ := (hs₁.trans hs₂).loose (hloose r hr)
  obtain ⟨old, hold⟩ := Session.exists_memberAt? hr₂.1
  exact .getMember hold (.step (Session.setMember_run _ _) (.fill hr₂ hold) trivial)

theorem sharedPrimary {m : SymbolId} {primary : Member} {overloads : List MemberRef}
    (hbuilt : env.IsBuilt m primary) (hloose : ∀ r ∈ overloads, s.IsLoose r) :
    env.Exec fail ⟨fs, s⟩ (env.sharedPrimary primary overloads) fs
      fun member _ => env.IsBuilt m member ∧ member.parameterNodes = primary.parameterNodes := by
  unfold Environment.sharedPrimary
  split
  · exact shareSummaries hbuilt hloose
  · exact .pure ⟨hbuilt, rfl⟩

theorem method (hcov : env.Covers D fail) (hinner : env.Serves D fail (g.ready d) inner)
    {m : SymbolId} {slot : MemberRef} (hm : D.symbol m) (hmarker : ¬ env.IsMarker m)
    (hwork : WorksOn fs (.symbol m)) (hmakes : env.Makes fs s slot (env.primaryParameters m)) {call : Call}
    (hready : g.ready (d + 1) call s) (hd : Affords g d s) :
    env.Exec fail ⟨fs, s⟩ (env.method inner m slot) fs
      fun member s' => env.IsBuilt m member ∧ env.MadeWith inner slot (env.primaryParameters m) s s' member := by
  unfold Environment.method
  refine .ask (hcov.callableDeclarations hm) fun ds hdecls hds => ?_
  refine .ask (hcov.primaryIndex fun d' hd' => (hds d' hd').1) fun index hprimary _ => ?_
  cases hindex : ds[index]? with
  | none =>
    have hparams := primaryParameters_of_none hdecls hprimary hindex
    exact (field hcov hinner hm hwork hd).mono fun member s' _ ⟨hbuilt, hlisted⟩ =>
      ⟨hbuilt, hparams ▸ madeWith_nil hlisted⟩
  | some decl =>
    have hparams := primaryParameters_of_some hdecls hprimary hindex
    obtain ⟨hnode, hdecl⟩ := hds decl (List.mem_of_getElem? hindex)
    refine (signatureMember hcov hinner hm hnode hdecl hwork (hparams ▸ hmakes) hd).bind
      fun primary s₁ hs₁ ⟨hbuilt, hmade⟩ => ?_
    refine Exec.bind (Exec.mapM_mem (R := Session.IsLoose) (fun hs h => hs.loose h)
      fun d' hd' s' hs' => ?_) fun overloads s₂ hs₂ hloose => ?_
    · obtain ⟨hnode', hdecl'⟩ := hds d' (List.mem_of_mem_eraseIdx hd')
      exact overload hcov hinner hm hnode' hdecl' hwork (hd.mono (hs₁.trans hs')) primary
    refine (sharedPrimary hbuilt hloose).bind fun shared s₃ hs₃ ⟨hshared, hlisted⟩ => ?_
    refine .ask (hcov.symbolFlags hm) fun flags _ _ => ?_
    have hs₃' := (hs₁.trans hs₂).trans hs₃
    have hcompanion : env.Exec fail ⟨fs, s₃⟩ (env.companion? inner m flags) fs fun _ _ => True := by
      unfold companion?
      split
      · exact companion hcov hinner hm hmarker hwork (g.mono hs₃' hready) (hd.mono hs₃')
      · exact .pure trivial
    rw [hparams]
    exact hcompanion.bind fun c s₄ hs₄ _ => .pure ⟨hshared.withOverloads overloads c,
      (hmade.mono ((hs₂.trans hs₃).trans hs₄)).congr (by simp [hlisted])⟩

end Serves

end Environment

end ApiDoc
