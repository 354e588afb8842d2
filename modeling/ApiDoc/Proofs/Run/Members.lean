import ApiDoc.Proofs.Run.Methods

/-!
# The resolver as a run

With every sort of member shown to be a run, so is the resolver at each depth
(`Environment.recur_serves`).
-/

namespace ApiDoc

namespace Environment

variable {env : Environment} {D : Domain} {fail : Error → Prop} {g : env.Gauge D fail} {d : Nat}
  {inner : Resolver} {fs : List Frame} {s : Session}

theorem isMarker_iff {m : SymbolId} {flags : SymbolFlags}
    (hflags : env.checker.symbolFlags m = .ok flags) :
    env.IsMarker m ↔ SymbolClass.of flags = .marker := by
  have hclass : SymbolClass.of flags = .marker ↔ flags.has .prototype = true := by
    unfold SymbolClass.of
    constructor
    · intro h
      by_contra hproto
      rw [if_neg hproto] at h
      repeat (split at h; · simp at h)
      simp at h
    · intro h
      rw [if_pos h]
  rw [hclass]
  constructor
  · rintro ⟨flags', hflags', hproto⟩
    obtain rfl : flags = flags' := Except.ok.inj (hflags.symm.trans hflags')
    exact hproto
  · exact fun hproto => ⟨flags, hflags, hproto⟩

namespace Serves

/-! ### Members -/

/-- **Building a member is a run of the machine.** -/
theorem buildMember (hcov : env.Covers D fail) (hinner : env.Serves D fail (g.ready d) inner)
    {m : SymbolId} {slot : MemberRef} (hm : D.symbol m) (hready : g.ready (d + 1) (.build m) s)
    (hwork : WorksOn fs (.symbol m)) (hmakes : env.Makes fs s slot (env.parametersOf (.symbol m))) :
    env.Exec fail ⟨fs, s⟩ (env.buildMemberWith inner m slot) fs fun member s' => env.IsBuilt m member ∧
      env.KeyDone s' (.symbol m) ∧ env.MadeWith inner slot (env.parametersOf (.symbol m)) s s' member := by
  have hd : Affords g d s := ⟨g.belowType hready, g.belowMember hready⟩
  unfold buildMemberWith
  refine .ask (hcov.symbolFlags hm) fun flags hflags _ => ?_
  -- only a class or interface has members that override
  have hplain : SymbolClass.of flags ≠ .classLike → ∀ {x : Resolve Member},
      (env.Exec fail ⟨fs, s⟩ x fs fun member s' => env.IsBuilt m member ∧
        env.MadeWith inner slot (env.parametersOf (.symbol m)) s s' member) →
      env.Exec fail ⟨fs, s⟩ x fs fun member s' => env.IsBuilt m member ∧ env.KeyDone s' (.symbol m) ∧
        env.MadeWith inner slot (env.parametersOf (.symbol m)) s s' member := by
    refine fun hne x hx => hx.mono fun member s' _ ⟨hbuilt, hmade⟩ => ⟨hbuilt, fun hclass => ?_, hmade⟩
    obtain ⟨flags', hflags', hclass⟩ := hclass
    obtain rfl : flags = flags' := Except.ok.inj (hflags.symm.trans hflags')
    exact absurd hclass hne
  -- and only a class, an interface, an alias or a function lists type parameters
  have hnone : env.parametersOf (.symbol m) = .ok [] → ∀ {x : Resolve Member},
      (env.Exec fail ⟨fs, s⟩ x fs fun member _ => env.IsBuilt m member ∧ member.parameterNodes = []) →
      env.Exec fail ⟨fs, s⟩ x fs fun member s' => env.IsBuilt m member ∧
        env.MadeWith inner slot (env.parametersOf (.symbol m)) s s' member :=
    fun heq x hx => hx.mono fun member s' _ ⟨hbuilt, hlisted⟩ =>
      ⟨hbuilt, heq ▸ madeWith_nil hlisted⟩
  cases hclass : SymbolClass.of flags with
  | method =>
    have hmarker : ¬ env.IsMarker m := by simp [isMarker_iff hflags, hclass]
    have hparams : env.parametersOf (.symbol m) = env.primaryParameters m := parametersOf_symbol hflags hclass
    rw [hparams] at hmakes hplain ⊢
    exact hplain (by simp [hclass]) (method hcov hinner hm hmarker hwork hmakes hready hd)
  | marker | field | unclassified =>
    exact hplain (by simp [hclass]) (hnone (parametersOf_symbol hflags hclass) (field hcov hinner hm hwork hd))
  | accessor =>
    exact hplain (by simp [hclass]) (hnone (parametersOf_symbol hflags hclass) (accessor hcov hinner hm hwork hd))
  | enumeration =>
    exact hplain (by simp [hclass])
      (hnone (parametersOf_symbol hflags hclass) (enumeration hcov hinner hm hwork hd))
  | namespaceLike =>
    exact hplain (by simp [hclass])
      (hnone (parametersOf_symbol hflags hclass) (namespaceLike hcov hinner hm hwork hd))
  | «alias» =>
    have hparams : env.parametersOf (.symbol m) = env.checker.declaredTypeParameters m :=
      parametersOf_symbol hflags hclass
    rw [hparams] at hmakes hplain ⊢
    exact hplain (by simp [hclass]) (typeAlias hcov hinner hm hwork hmakes hd)
  | classLike =>
    have hparams : env.parametersOf (.symbol m) = env.checker.declaredTypeParameters m :=
      parametersOf_symbol hflags hclass
    rw [hparams] at hmakes ⊢
    have hbuild : ∀ m' base, env.Overrides m m' base → D.symbol m' → g.ready d (.build m') s :=
      fun m' _ hover hm' => g.nested hready hm hm' ⟨⟨flags, hflags, hclass⟩, hover.1.1⟩
    exact (classOfKinds hcov hinner hm hwork hmakes hbuild hd _).mono
      fun member s' _ ⟨hbuilt, hdone, hmade⟩ => ⟨hbuilt, fun _ => hdone, hmade⟩

/-- A symbol that was not met before gets a place, and a member unless an override took it. -/
theorem newMember (hcov : env.Covers D fail) (hinner : env.Serves D fail (g.ready d) inner)
    {m : SymbolId} (hm : D.symbol m) (hnew : s.memberOf? (.symbol m) = none)
    (hready : g.ready (d + 1) (.member m) s) (hlead : env.Leads fs (.symbol m)) :
    env.Exec fail ⟨fs, s⟩ (env.newMemberWith inner m) fs fun v s' => env.HoldsMember s' m v := by
  unfold newMemberWith
  refine .ask (hcov.symbolFlags hm) fun flags hflags _ => ?_
  split
  · next hclass =>
    have hmarker := (isMarker_iff hflags).2 hclass
    refine .step_then (.refl fs) (Session.skipMember_run _) (.skip hnew hmarker)
      fun _ => .pure ⟨?_, ?_⟩
    · simp [Session.memberOf?_skipMember]
    · simp [hmarker]
  · next hclass =>
    have hmarker : ¬ env.IsMarker m := fun h => hclass ((isMarker_iff hflags).1 h)
    refine .ask (hcov.symbolName hm) fun name _ _ => ?_
    refine .step_then (.opened (by simp) fs) (Session.reserveMember_run _ _)
      (.openMember hnew hmarker hlead) fun hs => ?_
    have howner : D.symbol (MemberKey.symbol m).owner := hm
    refine (buildMember hcov hinner hm (g.succ (g.newMember hready howner hnew (.build m) hm))
      ⟨_, _, rfl, rfl⟩ (.member rfl (by simp [Session.memberOf?_addMember]))).bind
      fun member s₁ hs₁ ⟨hbuilt, hdone, hmade⟩ => .of_reachable fun hc => ?_
    have hslot : s₁.memberOf? (.symbol m) = some (some ⟨s.graph.members.size⟩) :=
      hs₁.memberOf (by simp [Session.memberOf?_addMember])
    obtain ⟨old, hold⟩ := hc.exists_memberAt? hslot
    refine .getMember hold ?_
    split
    -- an override was put there while the member was being made
    · next hmarked =>
      exact .silent (.closed (by simp) fs) (.keepMember ⟨_, old, hslot, hold, hmarked⟩ hdone)
        (.pure ⟨hslot, by simp [hmarker]⟩)
    · next hplain =>
      exact .step_then (.closed (by simp) fs) (Session.setMember_run _ member)
        (.closeMember hslot hold (fun _ _ => by simpa using hplain) hbuilt hdone hmade.lists)
        fun hs₂ => .pure ⟨hs₂.memberOf hslot, by simp [hmarker]⟩

/-- **Resolving a symbol is a run of the machine**, after which it is remembered. -/
theorem resolveMember (hcov : env.Covers D fail) (hinner : env.Serves D fail (g.ready d) inner)
    {m : SymbolId} (hm : D.symbol m) (hready : g.ready (d + 1) (.member m) s)
    (hlead : env.Leads fs (.symbol m)) :
    env.Exec fail ⟨fs, s⟩ (env.resolveMemberWith inner m) fs fun v s' => env.HoldsMember s' m v := by
  refine .of_reachable fun hc => ?_
  unfold resolveMemberWith
  refine .get ?_
  cases hmemo : s.memberOf? (.symbol m) with
  | none => exact newMember hcov hinner hm hmemo hready hlead
  | some v =>
    refine .pure ⟨hmemo, ?_⟩
    cases v with
    | none =>
      obtain ⟨m', heq, hmarker⟩ := hc.sound.skipped hmemo
      obtain rfl := MemberKey.symbol.inj heq
      simp [hmarker]
    | some r =>
      have hmarker : ¬ env.IsMarker m := hc.sound.kept hmemo
      simp [hmarker]

end Serves

/-- **The resolver serves** whatever a depth suffices for. -/
theorem recur_serves (hcov : env.Covers D fail) (g : env.Gauge D fail) (d : Nat) :
    env.Serves D fail (g.ready d) (env.recur d) := by
  induction d with
  | zero =>
    constructor
    · exact fun ht hready _ => .fails (g.zero hready ht)
    · exact fun hm hready _ => .fails (g.zero hready hm)
    · exact fun hm hready _ _ => .fails (g.zero hready hm)
  | succ d ih =>
    constructor
    · exact fun ht hready hlead => ih.resolveType hcov ht hready hlead fun hnew hrun => ⟨d + 1, _, hnew, hrun⟩
    · exact fun hm hready hlead => ih.resolveMember hcov hm hready hlead
    · exact fun hm hready hwork hmakes => (ih.buildMember hcov hm hready hwork hmakes).mono
        fun _ _ _ ⟨hbuilt, hdone, hmade⟩ => ⟨hbuilt, hdone, hmade.lists⟩

end Environment

end ApiDoc
