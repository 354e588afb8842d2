import ApiDoc.Proofs.Run.Types

/-!
# Containers as runs

A class works through its members, and each that has the name of a property of a base type is marked as
an override in the end, whether it is met here for the first time, made anew, or an override already
(`Serves.overriding`).  So a class that is done has all its overrides marked (`Serves.classBody`).
-/

namespace ApiDoc

namespace Environment

variable {env : Environment} {D : Domain} {fail : Error → Prop} {g : env.Gauge D fail} {d : Nat}
  {inner : Resolver} {fs : List Frame} {s s' : Session}

/-- A symbol that has the name of a property of a base type is no marker. -/
theorem Overrides.not_isMarker {owner m : SymbolId} {base : BaseProperty}
    (h : env.Overrides owner m base) : ¬ env.IsMarker m := by
  rintro ⟨flags, hflags, hproto⟩
  obtain ⟨⟨-, flags', hflags', hproto', -⟩, -⟩ := h
  obtain rfl : flags = flags' := Except.ok.inj (hflags.symm.trans hflags')
  simp [hproto] at hproto'

namespace Serves

/-! ### Overrides -/

/-- A symbol that overrides a property is made, or made anew, as an override. -/
theorem fillOverride (hinner : env.Serves D fail (g.ready d) inner) {owner m : SymbolId}
    {base : BaseProperty} {slot : MemberRef} (hm : D.symbol m) (hsym : D.symbol base.symbol)
    (htype : D.type base.base) (hover : env.Overrides owner m base)
    (hwork : WorksOn fs (.symbol owner)) (hslot : s.memberOf? (.symbol m) = some (some slot))
    (hbuild : g.ready d (.build m) s) (hd : Affords g d s) :
    env.Exec fail ⟨.rebuild m :: fs, s⟩ (env.fillOverride inner m base slot) fs
      fun _ s' => s'.IsMarked m := by
  have hworks : WorksOn (.rebuild m :: fs) (.symbol m) := ⟨_, _, rfl, rfl⟩
  unfold Environment.fillOverride
  refine (hinner.build hm hbuild hworks (.rebuild rfl hslot)).bind
    fun member s₁ hs₁ ⟨hbuilt, hdone, hlists⟩ => ?_
  have hd₁ := hd.mono hs₁
  refine (hinner.member hsym (hd₁.member hsym) (.of_mentions hworks (.overridden hover))).bind
    fun overrides s₂ hs₂ hoverrides => ?_
  refine (hinner.type htype ((hd₁.mono hs₂).type htype)
    (.of_mentions hworks (.overriddenIn hover))).bind fun parent s₃ hs₃ hparent => ?_
  have hslot₃ : s₃.memberOf? (.symbol m) = some (some slot) :=
    ((hs₁.trans hs₂).trans hs₃).memberOf hslot
  refine .of_reachable fun hc₃ => ?_
  -- what is put in the place is what the machine links
  have hlink : ∀ {linked : Member},
      linked = env.overrideOf member parent overrides (overrides.bind s₃.memberAt?) →
      env.Exec fail ⟨.rebuild m :: fs, s₃⟩ (Resolve.setMember slot linked) fs
        fun _ s' => s'.IsMarked m := by
    rintro linked rfl
    have hat := Session.memberAt?_putMember_self (hc₃.sound.memberBound hslot₃)
    refine .step (Session.setMember_run _ _) (.link hslot₃ hwork hover hbuilt
      (hdone.mono (hs₂.trans hs₃)) (hlists.mono (hs₂.trans hs₃)) (hoverrides.mono hs₃) hparent) ?_
    exact ⟨slot, _, hslot₃, hat _, isOverride_overrideOf _ _ _ _⟩
  cases overrides with
  | none => exact hlink rfl
  | some r =>
    obtain ⟨old, hold⟩ := hc₃.exists_memberAt? (hoverrides.mono hs₃).1
    refine .getMember hold (hlink ?_)
    simp only [Option.bind_some, hold, overrideOf, Member.linkedTo]

/-- However a symbol that overrides a property was met before, it is marked in the end. -/
theorem overriding (hcov : env.Covers D fail) (hinner : env.Serves D fail (g.ready d) inner)
    {owner m : SymbolId} {base : BaseProperty} (hm : D.symbol m) (hsym : D.symbol base.symbol)
    (htype : D.type base.base) (hover : env.Overrides owner m base)
    (hwork : WorksOn fs (.symbol owner)) (hbuild : g.ready d (.build m) s) (hd : Affords g d s) :
    env.Exec fail ⟨fs, s⟩ (env.overriding inner m base) fs fun _ s' => s'.IsMarked m := by
  refine .of_reachable fun hc => ?_
  unfold Environment.overriding
  refine .get ?_
  cases hmemo : s.memberOf? (.symbol m) with
  | none =>
    simp only [Session.cachedMember, hmemo, Option.join_none]
    refine .ask (hcov.symbolName hm) fun name _ _ => ?_
    refine .step_then (.opened (by simp) fs) (Session.reserveMember_run _ _)
      (.openOverride hmemo hover.not_isMarker hwork hover) fun hs => ?_
    exact .bind_of_sameTypes (.closed (by simp) fs)
      (fillOverride hinner hm hsym htype hover hwork (by simp [Session.memberOf?_addMember])
        (g.mono hs hbuild) (hd.mono hs)) fun _ s' _ hmarked => .pure hmarked
  | some v =>
    cases v with
    | none =>
      obtain ⟨m', heq, hmarker⟩ := hc.sound.skipped hmemo
      obtain rfl := MemberKey.symbol.inj heq
      exact absurd hmarker hover.not_isMarker
    | some slot =>
      simp only [Session.cachedMember, hmemo, Option.join_some]
      obtain ⟨old, hold⟩ := hc.exists_memberAt? hmemo
      refine .getMember hold ?_
      split
      · next hmarked => exact .pure ⟨slot, old, hmemo, hold, hmarked⟩
      -- finished as something else, or still open: it is made anew in its place
      · next hplain =>
        refine .silent (.opened (by simp) fs) (.reopen hmemo hold (by simpa using hplain) hwork hover) ?_
        exact .bind_of_sameTypes (.closed (by simp) fs)
          (fillOverride hinner hm hsym htype hover hwork hmemo hbuild hd)
          fun _ s' _ hmarked => .pure hmarked

/-! ### Classes and interfaces -/

theorem implemented (hcov : env.Covers D fail) (hinner : env.Serves D fail (g.ready d) inner)
    {m : SymbolId} {decl : Option NodeId} (hdecl : ∀ d' ∈ decl, D.node d' ∧ env.Declares m d')
    (hwork : WorksOn fs (.symbol m)) (hd : Affords g d s) :
    env.Exec fail ⟨fs, s⟩ (env.implemented inner decl) fs fun _ _ => True := by
  unfold Environment.implemented
  cases decl with
  | none => exact .pure trivial
  | some decl =>
    obtain ⟨hnode, hdeclares⟩ := hdecl decl rfl
    refine .ask (hcov.nodeKind hnode) fun kind _ _ => ?_
    split
    · refine .ask (hcov.implementsClause hnode) fun es hes hesknown => ?_
      refine (Exec.mapM (R := fun _ _ _ => True) (fun _ h => h) fun e he s' hs' => ?_).mono
        fun _ _ _ _ => trivial
      refine .ask (hcov.typeAtLocation (hesknown e he)) fun t ht htknown => ?_
      exact (hinner.type htknown ((hd.mono hs').type htknown)
        (.of_mentions hwork (.implemented hdeclares hes he ht))).mono fun _ _ _ _ => trivial
    · exact .pure trivial

/-- What a table of base properties says about a class. -/
structure IsTableOf (env : Environment) (D : Domain) (owner : SymbolId)
    (table : List (String × BaseProperty)) : Prop where
  found {name base} : table.lookup name = some base → D.symbol base.symbol ∧ D.type base.base ∧
    ∃ us, env.HasBases owner us ∧ env.IsBaseProperty us name base
  missing {name us base} : table.lookup name = none → env.HasBases owner us →
    ¬ env.IsBaseProperty us name base

theorem isTableOf {owner : SymbolId} {flags : SymbolFlags} {declared : Option TypeId}
    {us : List TypeId} {table : List (String × BaseProperty)}
    (hflags : env.checker.symbolFlags owner = .ok flags)
    (hdeclared : env.classType? owner flags = .ok declared)
    (hus : ofDeclared env.checker.baseTypes declared = .ok us)
    (htable : env.baseProperties us = .ok table)
    (hknown : ∀ entry ∈ table, D.symbol entry.2.symbol ∧ D.type entry.2.base) :
    IsTableOf env D owner table where
  found := by
    intro name base hlookup
    have hbase := (lookup_baseProperties htable).1 base hlookup
    obtain ⟨before, after, hsplit, -⟩ := List.lookup_eq_some_iff.1 hlookup
    have hentry := hknown (name, base) (by simp [hsplit])
    refine ⟨hentry.1, hentry.2, us, (hasBases_iff hflags hdeclared hus).2 ⟨?_, rfl⟩, hbase⟩
    cases declared with
    | some t => rfl
    | none =>
      -- without a declared type there are no base types to have a property
      obtain rfl : [] = us := Except.ok.inj hus
      obtain ⟨⟨_, _, hnil, _⟩, -⟩ := hbase
      simp at hnil
  missing := by
    intro name us' base hlookup hbases hbase
    obtain ⟨-, rfl⟩ := (hasBases_iff hflags hdeclared hus).1 hbases
    obtain ⟨⟨_, _, hsplit, -⟩, _, _, hprops, hname, -⟩ := hbase
    exact (lookup_baseProperties htable).2 hlookup base.base (by simp [hsplit]) base.symbol
      ⟨_, hprops, by simp, hname⟩

/-- The place of an index signature exists. -/
def IndexerBound (s : Session) (body : ClassBody) : Prop :=
  ∀ r ∈ body.indexer, r.index < s.graph.members.size

theorem IndexerBound.mono {body : ClassBody} (h : IndexerBound s body) (hs : s.Extends s') :
    IndexerBound s' body :=
  fun r hr => Nat.lt_of_lt_of_le (h r hr) hs.members_le

/-- After a class has come to one of its symbol's members, that is marked if it overrides anything. -/
theorem addMember (hcov : env.Covers D fail) (hinner : env.Serves D fail (g.ready d) inner)
    {owner m : SymbolId} {table : List (String × BaseProperty)} {body : ClassBody}
    {ms : List SymbolId} (hms : env.checker.membersOf owner = .ok ms) (hmem : m ∈ ms)
    (hm : D.symbol m) (htable : IsTableOf env D owner table) (hwork : WorksOn fs (.symbol owner))
    (hbuild : ∀ base, env.Overrides owner m base → g.ready d (.build m) s) (hd : Affords g d s)
    (hbody : IndexerBound s body) :
    env.Exec fail ⟨fs, s⟩ (env.addMember inner table body m) fs
      fun body' s' => (IndexerBound s' body' ∧ body'.typeParameters = body.typeParameters) ∧
        ∀ base, env.Overrides owner m base → s'.IsMarked m := by
  unfold Environment.addMember
  have hmember : env.Exec fail ⟨fs, s⟩ (inner.member m) fs fun v s' => env.HoldsMember s' m v :=
    hinner.member hm (hd.member hm) (.of_mentions hwork (.member hms hmem))
  refine .ask (hcov.symbolFlags hm) fun flags hflags _ => ?_
  -- a member of another sort overrides nothing
  have hother : (flags.has .prototype = true ∨ flags.has .constructor = true ∨
      flags.has .signature = true) → ∀ base, ¬ env.Overrides owner m base := by
    rintro hsort base ⟨⟨-, flags', hflags', hproto, hctor, hsig⟩, -⟩
    obtain rfl : flags = flags' := Except.ok.inj (hflags.symm.trans hflags')
    simp_all
  split
  · next h => exact .pure ⟨⟨hbody, rfl⟩, fun base hover => absurd hover (hother (.inl h) base)⟩
  split
  · next h =>
    exact hmember.bind fun v s' hs' _ => .pure
      ⟨⟨hbody.mono hs', rfl⟩, fun base hover => absurd hover (hother (.inr (.inl h)) base)⟩
  split
  · next h =>
    have hnone := hother (.inr (.inr h))
    refine .ask (hcov.declarations hm) fun ds _ hds => ?_
    cases ds with
    | nil => exact .pure ⟨⟨hbody, rfl⟩, fun base hover => absurd hover (hnone base)⟩
    | cons decl ds =>
      refine .ask (hcov.nodeKind (hds decl (by simp))) fun kind _ _ => ?_
      split
      · refine hmember.bind fun v s' hs' hv => .of_reachable fun hc => .pure ⟨⟨?_, rfl⟩, ?_⟩
        · rintro r rfl
          exact hc.sound.memberBound hv.1
        · exact fun base hover => absurd hover (hnone base)
      · exact hmember.bind fun v s' hs' _ => .pure
          ⟨⟨hbody.mono hs', rfl⟩, fun base hover => absurd hover (hnone base)⟩
      · exact .pure ⟨⟨hbody, rfl⟩, fun base hover => absurd hover (hnone base)⟩
  · next hproto hctor hsig =>
    have hown : env.IsOwnMember owner m :=
      ⟨⟨ms, hms, hmem⟩, flags, hflags, by simpa using hproto, by simpa using hctor, by simpa using hsig⟩
    refine .ask (hcov.symbolName hm) fun name hname _ => ?_
    cases hlookup : table.lookup name with
    | some base =>
      obtain ⟨hsym, htype, us, hus, hbase⟩ := htable.found hlookup
      have hover : env.Overrides owner m base := ⟨hown, us, name, hus, hname, hbase⟩
      exact (overriding hcov hinner hm hsym htype hover hwork (hbuild base hover) hd).bind
        fun r s' hs' hmarked => .pure ⟨⟨hbody.mono hs', rfl⟩, fun _ _ => hmarked⟩
    | none =>
      refine hmember.bind fun v s' hs' _ => .pure ⟨⟨hbody.mono hs', rfl⟩, fun base hover => ?_⟩
      obtain ⟨-, us, name', hus, hname', hbase⟩ := hover
      obtain rfl : name = name' := Except.ok.inj (hname.symm.trans hname')
      exact absurd hbase (htable.missing hlookup hus)

theorem extendedMember (hcov : env.Covers D fail) (hinner : env.Serves D fail (g.ready d) inner)
    {owner m : SymbolId} (hm : D.symbol m) (hlead : env.Leads fs (.symbol m)) (hd : Affords g d s) :
    env.Exec fail ⟨fs, s⟩ (env.extendedMember inner owner m) fs fun _ _ => True := by
  unfold Environment.extendedMember
  refine .ask (hcov.parentSymbol hm) fun parent _ _ => ?_
  split
  · exact .pure trivial
  · refine .ask (hcov.symbolFlags hm) fun flags _ _ => ?_
    split
    · exact .pure trivial
    · exact (hinner.member hm (hd.member hm) hlead).mono fun _ _ _ _ => trivial

/-- **A class that is done** has nodes for its base types and marks on all members that override. -/
theorem classBody (hcov : env.Covers D fail) (hinner : env.Serves D fail (g.ready d) inner)
    {m : SymbolId} {decl : Option NodeId} {slot : MemberRef} (hm : D.symbol m)
    (hdecl : ∀ d' ∈ decl, D.node d' ∧ env.Declares m d') (hwork : WorksOn fs (.symbol m))
    (hmakes : env.Makes fs s slot (env.checker.declaredTypeParameters m))
    (hbuild : ∀ m' base, env.Overrides m m' base → D.symbol m' → g.ready d (.build m') s)
    (hd : Affords g d s) (facts : TagFacts) :
    env.Exec fail ⟨fs, s⟩ (env.classBody inner m decl facts slot) fs
      fun body s' => IndexerBound s' body ∧ env.ClassDone s' m ∧
        ∀ member : Member, member.parameterNodes = (MemberBody.classLike body).parameterNodes →
          env.MadeWith inner slot (env.checker.declaredTypeParameters m) s s' member := by
  have hlead {e : Entity} (h : env.Mentions (.symbol m) e) : env.Leads fs e := .of_mentions hwork h
  unfold Environment.classBody
  refine .ask (hcov.symbolFlags hm) fun flags hflags _ => ?_
  refine .ask (hcov.classType hm flags) fun declared hdeclared htype => ?_
  refine .ask (hcov.declaredTypeParameters hm) fun ts hts htsknown => ?_
  refine (typeParameters hcov hinner htsknown (fun e he => hlead (.typeParameter hts he))
    (by rintro r ⟨⟩ t ht; exact ⟨ts, hts ▸ hmakes, ht⟩) hd facts.typeParams).bind
    fun typeParameters s₁ hs₁ ⟨hregisters, hlisted⟩ => ?_
  refine .ask (Covers.ofDeclared (fun _ => hcov.baseTypes) htype) fun us hus husknown => ?_
  have hbases : ∀ {us' : List TypeId}, env.HasBases m us' ↔ declared.isSome ∧ us' = us :=
    hasBases_iff hflags hdeclared hus
  have hsome : ∀ u ∈ us, env.HasBases m us := by
    intro u hu
    refine hbases.2 ⟨?_, rfl⟩
    cases declared with
    | some t => rfl
    | none =>
      obtain rfl : [] = us := Except.ok.inj hus
      simp at hu
  have hd₁ := hd.mono hs₁
  refine (hinner.types (fun u hu => ⟨husknown u hu, hlead (.base (hsome u hu) hu)⟩) hd₁).bind
    fun bases s₂ hs₂ hbasesAt => ?_
  have hd₂ := hd₁.mono hs₂
  refine (implemented hcov hinner hdecl hwork hd₂).bind fun _ s₃ hs₃ _ => ?_
  have hd₃ := hd₂.mono hs₃
  refine .ask (hcov.exportsOf hm) fun exports hexports hexknown => ?_
  refine (hinner.members (fun m' hm' => ⟨hexknown m' hm', hlead (.exported hexports hm')⟩) hd₃).bind
    fun _ s₄ hs₄ _ => ?_
  have hd₄ := hd₃.mono hs₄
  refine .ask (hcov.baseProperties husknown) fun table htable htknown => ?_
  have htab : IsTableOf env D m table := isTableOf hflags hdeclared hus htable htknown
  refine .ask (hcov.membersOf hm) fun ms hms hmsknown => ?_
  have hs₄' := ((hs₁.trans hs₂).trans hs₃).trans hs₄
  -- the members are worked through in order, and marks stay
  refine Exec.bind (Exec.foldlM
    (R := fun s' m' => ∀ base, env.Overrides m m' base → s'.IsMarked m')
    (I := fun s' body => IndexerBound s' body ∧ body.typeParameters = typeParameters)
    (fun hs h base hover => hs.marked (h base hover))
    (by simp [IndexerBound]) fun m' hm' body s' hs' ⟨hbody, hsame⟩ => ?_) ?_
  · exact (addMember hcov hinner hms hm' (hmsknown m' hm') htab hwork
      (fun base hover => g.mono (hs₄'.trans hs') (hbuild m' base hover (hmsknown m' hm')))
      (hd₄.mono hs') hbody).mono fun body' s'' _ ⟨⟨hbody', hsame'⟩, hmarked⟩ =>
        ⟨⟨hbody', hsame'.trans hsame⟩, hmarked⟩
  rintro body s₅ hs₅ ⟨⟨hbody, hsame⟩, hmarked⟩
  refine .ask (Covers.ofDeclared (fun _ => hcov.propertiesOfType) htype) fun ps hps hpsknown => ?_
  have hplead : ∀ p ∈ ps, env.Leads fs (.symbol p) := by
    intro p hp
    unfold classType? at hdeclared
    split at hdeclared
    · obtain ⟨t, ht, hsome⟩ := bind_eq_ok_iff.1 hdeclared
      obtain rfl : some t = declared := Except.ok.inj hsome
      exact hlead (.inherited ht hps hp)
    · obtain rfl : none = declared := Except.ok.inj hdeclared
      obtain rfl : [] = ps := Except.ok.inj hps
      simp at hp
  refine Exec.bind (Exec.mapM (R := fun _ _ _ => True) (fun _ h => h) fun p hp s' hs' =>
    extendedMember hcov hinner (hpsknown p hp) (hplead p hp) (hd₄.mono (hs₅.trans hs'))) ?_
  intro extended s₆ hs₆ _
  refine .pure ⟨hbody.mono hs₆, ⟨fun hus' hu => ?_, fun {m' base} hover => ?_⟩, fun member hmember => ?_⟩
  · obtain ⟨-, rfl⟩ := hbases.1 hus'
    obtain ⟨r, hr⟩ := hbasesAt.exists_of_mem hu
    exact ⟨r, (((hs₃.trans hs₄).trans hs₅).trans hs₆).typeOf hr⟩
  · obtain ⟨⟨⟨ms', hms', hm'⟩, -⟩, -⟩ := id hover
    obtain rfl : ms = ms' := Except.ok.inj (hms.symm.trans hms')
    exact hs₆.marked (hmarked m' hm' base hover)
  · have hmade : env.MadeWith inner slot (env.checker.declaredTypeParameters m) s s₁ member :=
      madeWith_of_depicts hts hlisted (hregisters slot rfl) (by simp [hmember, MemberBody.parameterNodes, hsame])
    exact hmade.mono ((((hs₂.trans hs₃).trans hs₄).trans hs₅).trans hs₆)

theorem withIndexerSummary {m : SymbolId} {member : Member} (hbuilt : env.IsBuilt m member)
    {indexer : Option MemberRef} (hindexer : ∀ r ∈ indexer, r.index < s.graph.members.size) :
    env.Exec fail ⟨fs, s⟩ (Environment.withIndexerSummary member indexer) fs
      fun member' s' => env.IsBuilt m member' ∧ member'.parameterNodes = member.parameterNodes ∧ s.Extends s' := by
  unfold Environment.withIndexerSummary
  cases indexer with
  | none => exact .pure ⟨hbuilt, rfl, .refl s⟩
  | some r =>
    obtain ⟨old, hold⟩ := Session.exists_memberAt? (hindexer r rfl)
    exact .getMember hold (.pure ⟨⟨hbuilt.parent, hbuilt.overrides, hbuilt.declared⟩, rfl, .refl s⟩)

theorem classOfKinds (hcov : env.Covers D fail) (hinner : env.Serves D fail (g.ready d) inner)
    {m : SymbolId} {slot : MemberRef} (hm : D.symbol m) (hwork : WorksOn fs (.symbol m))
    (hmakes : env.Makes fs s slot (env.checker.declaredTypeParameters m))
    (hbuild : ∀ m' base, env.Overrides m m' base → D.symbol m' → g.ready d (.build m') s)
    (hd : Affords g d s) (kinds : List SyntaxKind) :
    env.Exec fail ⟨fs, s⟩ (env.classOfKinds inner m slot kinds) fs fun member s' => env.IsBuilt m member ∧
      env.ClassDone s' m ∧ env.MadeWith inner slot (env.checker.declaredTypeParameters m) s s' member := by
  unfold Environment.classOfKinds
  refine .ask (hcov.preferredDeclaration hm kinds) fun decl _ hdecl => ?_
  refine .ask (hcov.tagsIfAny fun d' hd' => (hdecl d' hd').1) fun facts hfacts _ => ?_
  refine (classBody hcov hinner hm hdecl hwork hmakes hbuild hd facts).bind
    fun body s₁ hs₁ ⟨hbody, hdone, hmade⟩ => ?_
  refine .ask (hcov.commonMember hm hdecl (isDeclaredOverride_of_tags (fun d' hd' => (hdecl d' hd').2)
    hfacts) _) fun member hmember hbuilt => ?_
  have hmade' := hmade member (parameterNodes_commonMember hmember)
  exact (withIndexerSummary hbuilt hbody).mono fun member' s₂ _ ⟨hbuilt', hlisted, hs₂⟩ =>
    ⟨hbuilt', hdone.mono hs₂, (hmade'.mono hs₂).congr hlisted⟩

/-- The class, interface or namespace that a function is merged with. -/
theorem companion (hcov : env.Covers D fail) (hinner : env.Serves D fail (g.ready d) inner)
    {m : SymbolId} (hm : D.symbol m) (hmarker : ¬ env.IsMarker m) (hwork : WorksOn fs (.symbol m))
    {call : Call} (hready : g.ready (d + 1) call s) (hd : Affords g d s) :
    env.Exec fail ⟨fs, s⟩ (env.companion inner m) fs fun _ _ => True := by
  unfold Environment.companion
  refine .get ?_
  cases hmemo : s.memberOf? (.companion m) with
  | some known => exact .pure trivial
  | none =>
    refine .ask (hcov.symbolName hm) fun name _ _ => ?_
    refine .step_then (.opened (by simp) fs) (Session.reserveMember_run _ _)
      (.openMember hmemo hmarker (.of_worksOn hwork)) fun hs => ?_
    have howner : D.symbol (MemberKey.companion m).owner := hm
    have hmakes : env.Makes (.member (.companion m) :: fs) (s.addMember (.companion m) (.placeholder name))
        ⟨s.graph.members.size⟩ (env.parametersOf (.companion m)) :=
      .member rfl (by simp [Session.memberOf?_addMember])
    refine (classOfKinds hcov hinner hm ⟨_, _, rfl, rfl⟩ hmakes
      (fun m' _ _ hm' => g.newMember hready howner hmemo (.build m') hm') (hd.mono hs) _).bind
      fun member s₁ hs₁ ⟨hbuilt, hdone, hmade⟩ => .of_reachable fun hc => ?_
    have hslot : s₁.memberOf? (.companion m) = some (some ⟨s.graph.members.size⟩) :=
      hs₁.memberOf (by simp [Session.memberOf?_addMember])
    obtain ⟨old, hold⟩ := hc.exists_memberAt? hslot
    exact .step_then (.closed (by simp) fs) (Session.setMember_run _ member)
      (.closeMember hslot hold (by simp) hbuilt hdone hmade.lists) fun _ => .pure trivial

/-! ### Enums and namespaces -/

theorem enumExports (hcov : env.Covers D fail) (hinner : env.Serves D fail (g.ready d) inner)
    {ms : List SymbolId} (hms : ∀ m ∈ ms, D.symbol m ∧ env.Leads fs (.symbol m)) (hd : Affords g d s)
    (numbering : Numbering) :
    env.Exec fail ⟨fs, s⟩ (env.enumExports inner numbering ms) fs fun _ _ => True := by
  induction ms generalizing s numbering with
  | nil => exact .pure trivial
  | cons m ms ih =>
    obtain ⟨hm, hlead⟩ := hms m (by simp)
    have hrest : ∀ m' ∈ ms, D.symbol m' ∧ env.Leads fs (.symbol m') :=
      fun m' hm' => hms m' (by simp [hm'])
    unfold Environment.enumExports
    refine .ask (hcov.symbolFlags hm) fun flags _ _ => ?_
    split
    · refine (hinner.member hm (hd.member hm) hlead).bind fun v s₁ hs₁ _ => ?_
      cases v with
      | none => exact ih hrest (hd.mono hs₁) numbering
      | some r =>
        refine .ask (hcov.symbolName hm) fun name _ _ => ?_
        refine .ask (hcov.enumInitializer hm) fun value _ _ => ?_
        exact (ih hrest (hd.mono hs₁) _).bind fun _ _ _ _ => .pure trivial
    · refine (hinner.member hm (hd.member hm) hlead).bind fun v s₁ hs₁ _ => ?_
      exact (ih hrest (hd.mono hs₁) numbering).bind fun _ _ _ _ => .pure trivial

theorem enumeration (hcov : env.Covers D fail) (hinner : env.Serves D fail (g.ready d) inner)
    {m : SymbolId} (hm : D.symbol m) (hwork : WorksOn fs (.symbol m)) (hd : Affords g d s) :
    env.Exec fail ⟨fs, s⟩ (env.enumeration inner m) fs
      fun member _ => env.IsBuilt m member ∧ member.parameterNodes = [] := by
  unfold Environment.enumeration
  refine .ask (hcov.symbolFlags hm) fun flags _ _ => ?_
  refine .ask (hcov.preferredDeclaration hm _) fun decl _ hdecl => ?_
  refine .ask (hcov.tagsIfAny fun d' hd' => (hdecl d' hd').1) fun facts hfacts _ => ?_
  refine .ask (hcov.exportsOf hm) fun ms hms hmsknown => ?_
  refine (enumExports hcov hinner (fun m' hm' => ⟨hmsknown m' hm',
    .of_mentions hwork (.exported hms hm')⟩) hd {}).bind fun _ _ _ _ => ?_
  exact .answer (hcov.commonMember hm hdecl (isDeclaredOverride_of_tags
    (fun d' hd' => (hdecl d' hd').2) hfacts) _) fun _ h hbuilt => ⟨hbuilt, parameterNodes_commonMember h⟩

theorem namespaceLike (hcov : env.Covers D fail) (hinner : env.Serves D fail (g.ready d) inner)
    {m : SymbolId} (hm : D.symbol m) (hwork : WorksOn fs (.symbol m)) (hd : Affords g d s) :
    env.Exec fail ⟨fs, s⟩ (env.namespaceLike inner m) fs
      fun member _ => env.IsBuilt m member ∧ member.parameterNodes = [] := by
  unfold Environment.namespaceLike
  refine .ask (hcov.preferredDeclaration hm _) fun decl _ hdecl => ?_
  refine .ask (hcov.tagsIfAny fun d' hd' => (hdecl d' hd').1) fun facts hfacts _ => ?_
  refine .ask (hcov.exportsOf hm) fun ms hms hmsknown => ?_
  refine (hinner.members (fun m' hm' => ⟨hmsknown m' hm',
    .of_mentions hwork (.exported hms hm')⟩) hd).bind fun _ _ _ _ => ?_
  exact .answer (hcov.commonMember hm hdecl (isDeclaredOverride_of_tags
    (fun d' hd' => (hdecl d' hd').2) hfacts) _) fun _ h hbuilt => ⟨hbuilt, parameterNodes_commonMember h⟩

end Serves

end Environment

end ApiDoc
