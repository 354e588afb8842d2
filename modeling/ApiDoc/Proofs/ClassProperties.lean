import ApiDoc.Proofs.Interrupted
import ApiDoc.Proofs.Origin.Retelling
import ApiDoc.Proofs.Program.Properties

/-!
# The properties that a class lists

A class lists the members of its own symbol and apart from them those of the properties that its type has from
elsewhere.  These are two walks over two views of the program, and yet together they go through the properties of the
type once, in order: what is listed is what these properties are remembered as (`Environment.class_lists_properties`).
-/

namespace ApiDoc

/-- A class of a symbol: in its own place, or in that of what a function is merged with. -/
def Session.IsClassOf (s : Session) (m : SymbolId) (c : ClassBody) : Prop :=
  ∃ key r member, key.owner = m ∧ s.memberOf? key = some (some r) ∧ s.memberAt? r = some member ∧
    member.body = .classLike c

namespace Environment

variable {env : Environment} {requests : List Request} {s : Session} {key : MemberKey} {m owner : SymbolId}
  {built member : Member} {c : ClassBody}

/-! ### What was listed when a class was built -/

/-- A class that was built in the past lists what is remembered of its properties still. -/
theorem BuiltFor.listsProperties (h : env.BuiltFor s key built) (hkey : ∀ m, key = .symbol m → env.IsClassLike m) :
    ∃ c, built.body = .classLike c ∧ env.ListsProperties s key.owner c := by
  cases key with
  | symbol m =>
    obtain ⟨s₀, s₁, hbuilds, hs₁, -⟩ := h.builds
    obtain ⟨c, hc, hlists⟩ := hbuilds.classLike (hkey m rfl)
    exact ⟨c, hc, hlists.mono hs₁⟩
  | companion m =>
    obtain ⟨depth, slot, s₀, s₁, hs₀, hrun, hs₁, -⟩ := h
    obtain ⟨-, c, hc, hlists⟩ := ((env.recur_answers depth).classOfKinds m slot _).of_ok hs₀ (.refl s₀) hrun
    exact ⟨c, hc, hlists.mono hs₁⟩

/-- A symbol in whose place a class stands is documented as one. -/
theorem Finished.isClassLike (h : env.Finished s (.symbol m) member) (hc : member.body = .classLike c) :
    env.IsClassLike m := by
  obtain ⟨flags, hflags, hshows⟩ := h.shows
  refine ⟨flags, hflags, ?_⟩
  rw [hc] at hshows
  cases hclass : SymbolClass.of flags with
  | classLike => rfl
  | marker | field | accessor | unclassified | method | enumeration | namespaceLike | «alias» =>
    simp [hclass, ShowsSymbol, ShowsEnum] at hshows

/-- Whatever was asked before, and whatever came of it, a class lists what is remembered of its properties. -/
theorem listsProperties_after (h : (env.after {} requests).IsClassOf m c) :
    env.ListsProperties (env.after {} requests) m c := by
  obtain ⟨key, r, member, rfl, hr, hat, hc⟩ := h
  have hbody : ∀ rs, member.body ≠ .namespaceLike rs := by simp [hc]
  have hkey (m : SymbolId) (hm : key = .symbol m) : env.IsClassLike m := by
    subst hm
    exact (finished_after hr hat hbody).isClassLike hc
  obtain ⟨built, hbuilt, hretells⟩ := exists_built_after hr hat hbody
  obtain ⟨c', hc', hlists⟩ := hbuilt.listsProperties hkey
  obtain ⟨params, hsame⟩ := hretells.classLike hc'
  obtain rfl := MemberBody.classLike.inj (hsame.symm.trans hc)
  exact ⟨hlists.own, hlists.extended⟩

/-! ### Two walks -/

variable {ctx : Context} {own inherited : List SymbolId}

theorem isFlagged_prototype_iff : env.checker.isFlagged [.prototype] m = true ↔ env.IsMarker m := by
  cases hflags : env.checker.symbolFlags m with
  | ok flags => simp [Checker.isFlagged_eq hflags, IsMarker, hflags, FlagSet.hasAny]
  | error e => simp [Checker.isFlagged, IsMarker, hflags, Except.toOption]

/-- What a walk that passes over some symbols makes of a symbol. -/
theorem Tidy.rel_guard (ht : env.Tidy ctx s) (hsingle : s.Single) {keep : SymbolId → Bool}
    (hkeep : keep m = true → env.checker.isFlagged [.prototype] m = false) {v : Option MemberRef}
    (hv : if keep m = true then (.symbol m, v) ∈ s.memberMemo else v = none) :
    Option.Rel (fun m r => s.memberOf? (.symbol m) = some (some r)) (Option.guard keep m) v := by
  by_cases hk : keep m = true
  · rw [if_pos hk] at hv
    have hmemo := hsingle.memberOf hv
    cases v with
    | none =>
      -- only markers are remembered without a place
      have hmarker := isFlagged_prototype_iff.2 ((ht.markers hmemo).1 rfl)
      simp [hkeep hk] at hmarker
    | some r => simpa [Option.guard, hk] using hmemo
  · rw [if_neg hk] at hv
    subst hv
    simp [Option.guard, hk]

/-- The walk through the members of the symbol. -/
theorem ListsProperties.forall_instanceMembers (h : env.ListsProperties s owner c) (ht : env.Tidy ctx s)
    (hsingle : s.Single) {ms : List SymbolId} (hms : env.checker.membersOf owner = .ok ms) :
    List.Forall₂ (fun m r => s.memberOf? (.symbol m) = some (some r))
      (ms.filter fun m => !env.checker.isFlagged [.prototype, .constructor, .signature] m) c.instanceMembers := by
  obtain ⟨ms', known, hms', hknown, hlist⟩ := h.own
  obtain rfl : ms = ms' := Except.ok.inj (hms.symm.trans hms')
  rw [hlist, ← List.filterMap_eq_filter]
  refine List.rel_filterMap (R := env.InstanceEntry s) (fun m v hentry => ?_) hknown
  obtain ⟨flags, hflags, hv⟩ := hentry
  refine ht.rel_guard hsingle ?_ ?_
  · simp +contextual [Checker.isFlagged_eq hflags, FlagSet.hasAny]
  · simpa [Checker.isFlagged_eq hflags] using hv

/-- The walk through the properties of the type. -/
theorem ListsProperties.forall_extendedMembers (h : env.ListsProperties s owner c) (ht : env.Tidy ctx s)
    (hsingle : s.Single) {flags : SymbolFlags} {t : TypeId} (hflags : env.checker.symbolFlags owner = .ok flags)
    (hkind : flags.hasAny [.classSymbol, .interfaceSymbol] = true)
    (hdeclared : env.checker.declaredTypeOfSymbol owner = .ok t)
    (hproperties : env.checker.propertiesOfType t = .ok (own ++ inherited))
    (hown : ∀ m ∈ own, env.checker.parentSymbol m = .ok (some owner))
    (hinherited : ∀ m ∈ inherited, env.checker.parentSymbol m ≠ .ok (some owner)) :
    List.Forall₂ (fun m r => s.memberOf? (.symbol m) = some (some r))
      (inherited.filter fun m => !env.checker.isFlagged [.prototype] m) c.extendedMembers := by
  obtain ⟨flags', declared, ms, known, hflags', hclass, hms, hknown, hlist⟩ := h.extended
  obtain rfl : flags = flags' := Except.ok.inj (hflags.symm.trans hflags')
  obtain rfl : some t = declared := by
    simpa [classType?, hkind, hdeclared] using hclass
  obtain rfl : own ++ inherited = ms := Except.ok.inj (hproperties.symm.trans hms)
  -- the symbol's own properties are passed over, and nothing else is
  have hpassed : (own ++ inherited).filter (fun m => decide (m ∈ inherited) && !env.checker.isFlagged [.prototype] m) =
      inherited.filter fun m => !env.checker.isFlagged [.prototype] m := by
    have hnone : ∀ m ∈ own, m ∉ inherited := fun m hm hm' => hinherited m hm' (hown m hm)
    have hempty : own.filter (fun m => decide (m ∈ inherited) && !env.checker.isFlagged [.prototype] m) = [] :=
      List.filter_eq_nil_iff.2 fun m hm => by simp [hnone m hm]
    rw [List.filter_append, hempty, List.nil_append]
    exact List.filter_congr fun m hm => by simp [hm]
  rw [hlist, ← hpassed, ← List.filterMap_eq_filter]
  refine List.rel_filterMap (fun m v ⟨hmem, hentry⟩ => ht.rel_guard hsingle (by simp +contextual) ?_)
    ((List.forall₂_and_left _ _).2 ⟨fun m hm => hm, hknown⟩)
  obtain ⟨parent, hparent, hv⟩ := hentry
  by_cases hbase : m ∈ inherited
  · have hother : parent ≠ some owner := by
      rintro rfl
      exact hinherited m hbase hparent
    rw [if_neg hother] at hv
    obtain ⟨flags', hflags', hv⟩ := hv
    simpa [hbase, Checker.isFlagged_eq hflags', FlagSet.hasAny] using hv
  · obtain rfl : parent = some owner :=
      Except.ok.inj (hparent.symm.trans (hown m ((List.mem_append.1 hmem).resolve_right hbase)))
    simpa [hbase] using hv

/-! ### One list -/

/-- Both walks together go through the properties of the type, in order. -/
theorem ListsProperties.forall_members (h : env.ListsProperties s owner c) (ht : env.Tidy ctx s) (hsingle : s.Single)
    {flags : SymbolFlags} {t : TypeId} {ms : List SymbolId} (hms : env.checker.membersOf owner = .ok ms)
    (hflags : env.checker.symbolFlags owner = .ok flags) (hkind : flags.hasAny [.classSymbol, .interfaceSymbol] = true)
    (hdeclared : env.checker.declaredTypeOfSymbol owner = .ok t)
    (hown : own = ms.filter fun m => !env.checker.isFlagged [.constructor, .signature] m)
    (hproperties : env.checker.propertiesOfType t = .ok (own ++ inherited))
    (hparent : ∀ m ∈ own, env.checker.parentSymbol m = .ok (some owner))
    (hinherited : ∀ m ∈ inherited, env.checker.parentSymbol m ≠ .ok (some owner)) :
    List.Forall₂ (fun m r => s.memberOf? (.symbol m) = some (some r))
      ((own ++ inherited).filter fun m => !env.checker.isFlagged [.prototype] m)
      (c.instanceMembers ++ c.extendedMembers) := by
  have hextended := h.forall_extendedMembers ht hsingle hflags hkind hdeclared hproperties hparent hinherited
  have hinstance := h.forall_instanceMembers ht hsingle hms
  have hapart (m : SymbolId) : (!env.checker.isFlagged [.prototype, .constructor, .signature] m) =
      (!env.checker.isFlagged [.prototype] m && !env.checker.isFlagged [.constructor, .signature] m) := by
    rw [Checker.isFlagged_cons, Bool.not_or]
  rw [List.filter_append, hown, List.filter_filter]
  exact List.rel_append (by simpa only [hapart] using hinstance) hextended

/-- Once a symbol that is documented as a class has been resolved, there is a class of it. -/
theorem exists_class_of_resolved {flags : SymbolFlags} (hflags : env.checker.symbolFlags owner = .ok flags)
    (hclass : SymbolClass.of flags = .classLike) {v : Option MemberRef} {s' : Session}
    (hrun : (env.resolveMember owner).run.run (env.after {} requests) = (.ok v, s')) :
    (∃ c, s'.IsClassOf owner c) ∨ env.Interrupted requests (.symbol owner) ∧ s' = env.after {} requests := by
  refine (exists_shown_of_resolved hflags (by simp [hclass]) hrun).imp_left fun ⟨r, member, hmemo, hat, hshows⟩ => ?_
  rw [hclass] at hshows
  obtain ⟨c, -, hc, -⟩ := hshows
  exact ⟨c, .symbol owner, r, member, rfl, hmemo, hat, hc⟩

/-- **A class lists the properties of its type**, in their order and each once: its own among the instance members,
those that it inherits apart, and all of them as they are remembered.  Only the markers of prototypes are left out.
Once the symbol has been resolved there is such a class, unless an earlier request failed while it was at this very
symbol and has left a placeholder there. -/
theorem class_lists_properties (p : Program) (env : Environment) (henv : env.checker = p.checker)
    (requests : List Request) {owner : SymbolId} {flags : SymbolFlags} {t : TypeId} {own inherited : List SymbolId}
    (hflags : p.checker.symbolFlags owner = .ok flags) (hkind : flags.hasAny [.classSymbol, .interfaceSymbol] = true)
    (hdeclared : p.checker.declaredTypeOfSymbol owner = .ok t) (htype : p.IsClassType t (some owner))
    (hproperties : p.checker.propertiesOfType t = .ok (own ++ inherited)) (hlisted : p.OwnProperties (some owner) own)
    (hown : ∀ m ∈ own, p.checker.parentSymbol m = .ok (some owner))
    (hinherited : ∀ m ∈ inherited, p.checker.parentSymbol m ≠ .ok (some owner)) {v : Option MemberRef} {s' : Session}
    (hrun : (env.resolveMember owner).run.run (env.after {} requests) = (.ok v, s')) :
    p.ClassProperties t (some owner) own inherited ∧
    (SymbolClass.of flags = .classLike → (∃ c, s'.IsClassOf owner c) ∨
      env.Interrupted requests (.symbol owner) ∧ s' = env.after {} requests) ∧
    ∀ c, s'.IsClassOf owner c → List.Forall₂ (fun m r => s'.memberOf? (.symbol m) = some (some r))
      ((own ++ inherited).filter fun m => !p.checker.isFlagged [.prototype] m)
      (c.instanceMembers ++ c.extendedMembers) := by
  have hclass : p.ClassProperties t (some owner) own inherited := by
    obtain ⟨own', inherited', hsame, hclass⟩ := Program.classProperties_of_properties hproperties htype
    obtain rfl := hlisted.unique hclass.lists
    obtain rfl := List.append_cancel_left hsame
    exact hclass
  obtain ⟨ms, hms, hfiltered⟩ := hlisted
  rw [← henv] at hflags hdeclared hproperties hown hinherited hms hfiltered ⊢
  refine ⟨hclass, fun hkept => exists_class_of_resolved hflags hkept hrun, fun c hc => ?_⟩
  rw [← after_member hrun] at hc ⊢
  exact (listsProperties_after hc).forall_members (tidy_after env _) (env.single_after _) hms hflags hkind hdeclared
    hfiltered hproperties hown hinherited

/-! ### A diamond -/

/-- A class with two bases that have one themselves.  The second of the bases has a property of the name of one that
the first inherits. -/
def fourClasses : Program :=
  let property (name : String) (flags : SymbolFlags) (parent : SymbolId) : SymbolData :=
    { name, flags, parent := some parent, type := some ⟨4⟩ }
  let type (owner : SymbolId) (baseTypes : List TypeId) : TypeData :=
    { flags := .of [.object], objectFlags := .of [.classType], symbol := some owner, baseTypes }
  { symbols := ⟨#[
      { name := "Top", flags := .of [.classSymbol], membersOf := [⟨4⟩], declaredType := some ⟨0⟩ },
      { name := "Left", flags := .of [.classSymbol], membersOf := [⟨5⟩], declaredType := some ⟨1⟩ },
      { name := "Right", flags := .of [.classSymbol], membersOf := [⟨6⟩], declaredType := some ⟨2⟩ },
      { name := "Bottom", flags := .of [.classSymbol], membersOf := [⟨7⟩, ⟨8⟩], declaredType := some ⟨3⟩ },
      property "a" (.of [.property]) ⟨0⟩,
      property "b" (.of [.property]) ⟨1⟩,
      property "a" (.of [.property]) ⟨2⟩,
      property "prototype" (.of [.property, .prototype]) ⟨3⟩,
      property "c" (.of [.property]) ⟨3⟩]⟩
    types := ⟨#[type ⟨0⟩ [], type ⟨1⟩ [⟨0⟩], type ⟨2⟩ [⟨0⟩], type ⟨3⟩ [⟨1⟩, ⟨2⟩], { flags := .of [.number] }]⟩ }

/-- The four classes with the usual settings. -/
def diamond : Environment := { checker := fourClasses.checker }

/-- The class lists what it has itself, what its first base has, and what that inherits; the second base adds nothing
to them. -/
theorem class_lists_properties_diamond :
    ∃ s' c, (diamond.resolveMember ⟨3⟩).run.run {} = (.ok (some ⟨0⟩), s') ∧ s'.IsClassOf ⟨3⟩ c ∧
      List.Forall₂ (fun m r => s'.memberOf? (.symbol m) = some (some r)) [⟨8⟩, ⟨5⟩, ⟨4⟩]
        (c.instanceMembers ++ c.extendedMembers) := by
  have hanswer : ((diamond.resolveMember ⟨3⟩).run.run {}).1 = .ok (some ⟨0⟩) := by decide +kernel
  rcases hrun : (diamond.resolveMember ⟨3⟩).run.run {} with ⟨answer, s'⟩
  obtain rfl : answer = .ok (some ⟨0⟩) := (congrArg Prod.fst hrun).symm.trans hanswer
  have hproperties : fourClasses.checker.propertiesOfType ⟨3⟩ = .ok ([⟨7⟩, ⟨8⟩] ++ [⟨5⟩, ⟨4⟩]) := by decide +kernel
  have hflags : fourClasses.checker.symbolFlags ⟨3⟩ = .ok (.of [.classSymbol]) := by decide +kernel
  have hdeclared : fourClasses.checker.declaredTypeOfSymbol ⟨3⟩ = .ok ⟨3⟩ := by decide +kernel
  have htype : fourClasses.IsClassType ⟨3⟩ (some ⟨3⟩) :=
    ⟨⟨.of [.classType], by decide +kernel, by decide +kernel⟩, by decide +kernel⟩
  have hlisted : fourClasses.OwnProperties (some ⟨3⟩) [⟨7⟩, ⟨8⟩] := ⟨[⟨7⟩, ⟨8⟩], by decide +kernel, by decide +kernel⟩
  have hown : ∀ m ∈ [⟨7⟩, ⟨8⟩], fourClasses.checker.parentSymbol m = .ok (some ⟨3⟩) := by decide +kernel
  have hinherited : ∀ m ∈ [⟨5⟩, ⟨4⟩], fourClasses.checker.parentSymbol m ≠ .ok (some ⟨3⟩) := by decide +kernel
  obtain ⟨-, hfound, hlists⟩ := class_lists_properties fourClasses diamond rfl [] hflags (by decide) hdeclared htype
    hproperties hlisted hown hinherited hrun
  obtain ⟨c, hc⟩ := (hfound (by decide +kernel)).resolve_right fun h => not_interrupted_nil _ h.1
  have hshown : (([⟨7⟩, ⟨8⟩] ++ [⟨5⟩, ⟨4⟩] : List SymbolId).filter fun m =>
      !fourClasses.checker.isFlagged [.prototype] m) = [⟨8⟩, ⟨5⟩, ⟨4⟩] := by decide +kernel
  exact ⟨s', c, rfl, hc, hshown ▸ hlists c hc⟩

end Environment

end ApiDoc
