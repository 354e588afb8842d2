import ApiDoc.Proofs.Contents.Fields
import Mathlib.Data.List.Perm.Subperm

/-!
# Containers list what is exported

A class, enum or namespace gets the members of what its symbol exports, in order.  While the members of a class
are worked through, some of them may be built anew in their places, as overrides: that leaves finished members
there (`Trusted.overriding`).
-/

namespace ApiDoc

namespace Environment

variable {env : Environment} {inner : Resolver} {ctx : Context} {s s' : Session}

theorem HoldsMembers.nil : env.HoldsMembers s [] [] := ⟨[], .nil, rfl⟩

theorem HoldsMembers.cons {m : SymbolId} {v : Option MemberRef} {ms : List SymbolId} {rs : List MemberRef}
    (hv : env.HoldsMember s m v) (h : env.HoldsMembers s ms rs) :
    env.HoldsMembers s (m :: ms) (v.toList ++ rs) := by
  obtain ⟨known, hknown, rfl⟩ := h
  refine ⟨v :: known, .cons hv hknown, ?_⟩
  cases v <;> simp

namespace Trusted

/-! ### Overrides -/

/-- A member that is built anew as an override is finished in its place. -/
theorem fillOverride (hinner : env.Trusted inner) {m : SymbolId} {slot : MemberRef}
    (hslot : s.memberOf? (.symbol m) = some (some slot)) (base : BaseProperty) :
    env.Safe ctx s (env.fillOverride inner m base slot) fun _ s' =>
      ∃ member, s'.memberAt? slot = some member ∧ env.Finished s' (.symbol m) member := by
  unfold Environment.fillOverride
  refine .of_tidy fun ht => ?_
  refine (hinner.build m (ht.range.memberOf hslot)).bind fun member s₁ hs₁ ⟨hmember, hlists₁⟩ => ?_
  -- nobody takes the overloads of the new member while what it overrides is resolved
  refine (Safe.holding hlists₁ (hinner.member base.symbol)).bind fun overrides s₂ hs₂ ⟨hoverrides, hlists₂⟩ => ?_
  refine .of_tidy fun ht₂ => ?_
  refine (Safe.holding hlists₂ (hinner.type base.base)).bind fun parent s₃ hs₃ ⟨hparent, hlists₃⟩ => ?_
  have hslot₃ := (hs₁.trans (hs₂.trans hs₃)).memberOf hslot
  have hready := hmember.keep (hs₂.trans hs₃)
  have hlinked : env.Built ctx (.symbol m)
      { member with isOverride := true, parent := some parent, overrides } s₃ := by
    refine ⟨⟨⟨fun r hr => ?_, fun r hr => ?_⟩, ⟨hready.finished.shows, hready.finished.place⟩, hready.owns⟩,
      hlists₃⟩
    · rcases List.mem_append.1 hr with hr | hr
      · obtain rfl : r = parent := by simpa using hr
        exact hparent
      · exact hready.range.types r (List.mem_append_right _ hr)
    · rw [Member.memberRefs, List.append_assoc] at hr
      rcases List.mem_append.1 hr with hr | hr
      · exact hs₃.grows.hasMember (hoverrides.hasMember ht₂.range (by simpa using hr))
      · exact hready.range.members r (by rw [Member.memberRefs, List.append_assoc]; simp_all)
  cases overrides with
  | none => exact .finish hslot₃ hlinked
  | some r =>
    refine .getMember (hs₃.grows.hasMember (hoverrides.hasMember ht₂.range rfl)) fun inherited _ _ => ?_
    refine .finish hslot₃ ?_
    split
    · exact hlinked.congr (.inherit _ inherited)
    · exact hlinked

/-- The member of a declaration that a base type has too: new, or built anew unless it is an override. -/
theorem overriding (hinner : env.Trusted inner) {m : SymbolId} (hmarker : ¬ env.IsMarker m)
    (base : BaseProperty) :
    env.Safe ctx s (env.overriding inner m base) fun r s' => s'.memberOf? (.symbol m) = some (some r) := by
  unfold Environment.overriding
  refine .get (.of_tidy fun ht => ?_)
  cases hold : s.cachedMember m with
  | some slot =>
    have hslot : s.memberOf? (.symbol m) = some (some slot) := by
      simpa [Session.cachedMember, Option.join_eq_some_iff] using hold
    have hr := ht.range.memberOf hslot
    refine .getMember hr fun member _ _ => ?_
    dsimp only
    split
    · exact .pure hslot
    · exact (hinner.fillOverride hslot base).bind fun _ s' hs _ => .pure (hs.memberOf hslot)
  | none =>
    -- a symbol that is not a marker is not remembered without a member
    have hnew : s.memberOf? (.symbol m) = none := by
      cases hmemo : s.memberOf? (.symbol m) with
      | none => rfl
      | some v =>
        cases v with
        | none => exact absurd ((ht.markers hmemo).1 rfl) hmarker
        | some r => simp [Session.cachedMember, hmemo] at hold
    refine .ask fun name hname => .reserve hnew hname (fun e s' hrun => ?_) (by rintro _ ⟨⟩; exact hmarker) (by simp)
      fun slot s' _ hslot => ?_
    · obtain ⟨depth, rfl⟩ := hinner.recur
      refine ⟨depth, s, hnew, .inr ⟨base, ?_⟩⟩
      unfold Environment.overriding
      rw [Exec.run_get, hold, ← hrun]
      exact Exec.run_ask hname _ s
    exact (hinner.fillOverride hslot base).bind fun _ s'' hs hfinished => .pure ⟨hs.memberOf hslot, hfinished⟩

/-! ### Classes and interfaces -/

theorem implemented (hinner : env.Trusted inner) (d : Option NodeId) :
    env.Safe ctx s (env.implemented inner d) fun rs s' => ∀ r ∈ rs, s'.graph.HasType r := by
  unfold Environment.implemented
  cases d with
  | none => exact .pure (by simp)
  | some d =>
    refine .ask fun kind _ => ?_
    split
    · refine .ask fun es _ => Safe.mapM_mem (R := fun s' r => s'.graph.HasType r)
        (fun hs hr => hs.grows.hasType hr) fun e _ s' _ => ?_
      exact .ask fun t _ => hinner.type t
    · exact .pure (by simp)

end Trusted

/-- A class with the members of what its symbol exports, with nothing that is not there, and with an instance
side from among some of its symbol's members. -/
structure ClassReady (env : Environment) (s : Session) (m : SymbolId) (done : List SymbolId) (c : ClassBody) :
    Prop where
  types : ∀ r ∈ (MemberBody.classLike c).typeRefs, s.graph.HasType r
  members : ∀ r ∈ (MemberBody.classLike c).listed ++ (MemberBody.classLike c).placed, s.graph.HasMember r
  exports : ∃ ms, env.checker.exportsOf m = .ok ms ∧ env.HoldsMembers s ms c.members
  lists : Lists s done c.instanceSide

theorem ClassReady.keep {m : SymbolId} {done : List SymbolId} {c : ClassBody} (h : env.ClassReady s m done c)
    (hs : s.Keeps s') : env.ClassReady s' m done c where
  types r hr := hs.grows.hasType (h.types r hr)
  members r hr := hs.grows.hasMember (h.members r hr)
  exports := by
    obtain ⟨ms, hms, hmembers⟩ := h.exports
    exact ⟨ms, hms, hmembers.keep hs⟩
  lists := h.lists.keep hs

/-- A class with other members of its own, which are there. -/
theorem ClassReady.update {m : SymbolId} {done done' : List SymbolId} {c c' : ClassBody}
    (h : env.ClassReady s m done c)
    (htypes : (MemberBody.classLike c').typeRefs = (MemberBody.classLike c).typeRefs)
    (hexports : c'.members = c.members)
    (hmembers : ∀ r ∈ (MemberBody.classLike c').listed ++ (MemberBody.classLike c').placed,
      r ∈ (MemberBody.classLike c).listed ++ (MemberBody.classLike c).placed ∨ s.graph.HasMember r)
    (hlists : Lists s done' c'.instanceSide) : env.ClassReady s m done' c' where
  types := htypes ▸ h.types
  members r hr := (hmembers r hr).elim (h.members r) id
  exports := hexports ▸ h.exports
  lists := hlists

/-- The member of one more symbol takes a place on the instance side, which may have been taken. -/
theorem Lists.put {done : List SymbolId} {before old after : List MemberRef}
    (h : Lists s done (before ++ (old ++ after))) {m : SymbolId} {v : Option MemberRef}
    (hv : s.memberOf? (.symbol m) = some v) : Lists s (done ++ [m]) (before ++ (v.toList ++ after)) := by
  obtain ⟨own, hown, hrs⟩ := h
  have hbefore := List.forall₂_take_append _ _ _ hrs
  have hafter := List.forall₂_drop_append _ _ _ (List.forall₂_drop_append _ _ _ hrs)
  have hrest : (own.take before.length ++ (own.drop before.length).drop old.length).Subperm done := by
    refine List.Subperm.trans (List.Sublist.subperm ?_) hown
    conv_rhs => rw [← List.take_append_drop before.length own]
    exact (List.drop_sublist _ _).append_left _
  cases v with
  | none =>
    exact ⟨_, List.Subperm.trans hrest (List.sublist_append_left _ _).subperm, List.rel_append hbefore hafter⟩
  | some r =>
    refine ⟨_, ?_, List.rel_append hbefore (.cons hv hafter)⟩
    exact List.perm_middle.subperm.trans <| List.perm_append_singleton _ _ |>.symm.subperm.trans
      (hrest.append (List.Subperm.refl _))

theorem Lists.more {done : List SymbolId} {rs : List MemberRef} (h : Lists s done rs) (m : SymbolId) :
    Lists s (done ++ [m]) rs := by
  obtain ⟨own, hown, hrs⟩ := h
  exact ⟨own, List.Subperm.trans hown (List.sublist_append_left _ _).subperm, hrs⟩

/-- The instance side of a class with one more member, in a place that may have been taken. -/
theorem ClassReady.put {owner m : SymbolId} {done : List SymbolId} {c c' : ClassBody} {v : Option MemberRef}
    (h : env.ClassReady s owner done c) (hv : env.HoldsMember s m v) (hrange : s.InRange)
    (before old after : List MemberRef) (hside : c.instanceSide = before ++ (old ++ after))
    (hside' : c'.instanceSide = before ++ (v.toList ++ after))
    (htypes : (MemberBody.classLike c').typeRefs = (MemberBody.classLike c).typeRefs)
    (hexports : c'.members = c.members) (hextended : c'.extendedMembers = c.extendedMembers) :
    env.ClassReady s owner (done ++ [m]) c' := by
  have hrefs (c : ClassBody) (r : MemberRef) :
      r ∈ (MemberBody.classLike c).listed ++ (MemberBody.classLike c).placed ↔
        r ∈ c.members ∨ r ∈ c.extendedMembers ∨ r ∈ c.instanceSide := by
    simp only [MemberBody.listed, MemberBody.placed, ClassBody.instanceSide, List.mem_append]
    grind
  refine h.update htypes hexports (fun r hr => ?_) (hside' ▸ (hside ▸ h.lists).put hv.1)
  rw [hrefs, hexports, hextended, hside'] at hr
  rw [hrefs, hside]
  by_cases hnew : r ∈ v.toList
  · exact .inr (hv.hasMember hrange (Option.mem_toList.1 hnew))
  · simp only [List.mem_append] at hr ⊢
    grind

namespace Trusted

theorem addMember (hinner : env.Trusted inner) {owner : SymbolId} {done : List SymbolId} {c : ClassBody}
    (hc : env.ClassReady s owner done c) (inherited : List (String × BaseProperty)) (m : SymbolId) :
    env.Safe ctx s (env.addMember inner inherited c m) fun c' s' => env.ClassReady s' owner (done ++ [m]) c' := by
  have hmore : env.ClassReady s owner (done ++ [m]) c := { hc with lists := hc.lists.more m }
  have hmember (set : Option MemberRef → ClassBody)
      (hset : ∀ {s' : Session} {v : Option MemberRef}, env.ClassReady s' owner done c → env.HoldsMember s' m v →
        s'.InRange → env.ClassReady s' owner (done ++ [m]) (set v)) :
      env.Safe ctx s (do return set (← inner.member m)) fun c' s' => env.ClassReady s' owner (done ++ [m]) c' :=
    (hinner.member m).bind fun v s' hs hv => .of_tidy fun ht => .pure (hset (hc.keep hs) hv ht.range)
  unfold Environment.addMember
  refine .ask fun flags hflags => ?_
  split
  · exact .pure hmore
  next hproto =>
  have hmarker : ¬ env.IsMarker m := by
    rintro ⟨flags', hflags', hmarked⟩
    obtain rfl : flags = flags' := Except.ok.inj (hflags.symm.trans hflags')
    exact hproto hmarked
  split
  · refine hmember (fun v => { c with constructor := v }) fun h hv hrange => ?_
    exact h.put hv hrange c.instanceMembers c.constructor.toList (c.indexer.toList ++ c.newSignature.toList)
      (by simp [ClassBody.instanceSide]) (by simp [ClassBody.instanceSide]) rfl rfl rfl
  split
  · refine .ask fun ds _ => ?_
    cases ds with
    | nil => exact .pure hmore
    | cons d rest =>
      refine .ask fun kind _ => ?_
      split
      · refine hmember (fun v => { c with indexer := v }) fun h hv hrange => ?_
        exact h.put hv hrange (c.instanceMembers ++ c.constructor.toList) c.indexer.toList c.newSignature.toList
          (by simp [ClassBody.instanceSide]) (by simp [ClassBody.instanceSide]) rfl rfl rfl
      · refine hmember (fun v => { c with newSignature := v }) fun h hv hrange => ?_
        exact h.put hv hrange (c.instanceMembers ++ c.constructor.toList ++ c.indexer.toList) c.newSignature.toList []
          (by simp [ClassBody.instanceSide]) (by simp [ClassBody.instanceSide]) rfl rfl rfl
      · exact .pure hmore
  · refine .ask fun name _ => ?_
    -- the member stands behind those that are there already
    have happend {s' : Session} {v : Option MemberRef} (h : env.ClassReady s' owner done c)
        (hv : env.HoldsMember s' m v) (hrange : s'.InRange) :
        env.ClassReady s' owner (done ++ [m]) { c with instanceMembers := c.instanceMembers ++ v.toList } :=
      h.put hv hrange c.instanceMembers [] (c.constructor.toList ++ c.indexer.toList ++ c.newSignature.toList)
        (by simp [ClassBody.instanceSide]) (by simp [ClassBody.instanceSide]) rfl rfl rfl
    split
    · next base _ =>
      refine (hinner.overriding hmarker base).bind fun r s' hs hr => .of_tidy fun ht => .pure ?_
      exact happend (v := some r) (hc.keep hs) ⟨hr, by simp [hmarker]⟩ ht.range
    · exact hmember (fun v => { c with instanceMembers := c.instanceMembers ++ v.toList }) happend

/-- A property that a type has from elsewhere. -/
theorem extendedMember (hinner : env.Trusted inner) (m property : SymbolId) :
    env.Safe ctx s (env.extendedMember inner m property) fun v s' =>
      ∀ r, v = some r → s'.graph.HasMember r := by
  unfold Environment.extendedMember
  refine .ask fun parent _ => ?_
  split
  · exact .pure (by simp)
  · refine .ask fun flags _ => ?_
    split
    · exact .pure (by simp)
    · exact (hinner.member property).tidy.mono fun v s' _ hv r hr => hv.2.hasMember hv.1.range hr

theorem classBody (hinner : env.Trusted inner) {slot : MemberRef} (hslot : s.graph.HasMember slot)
    (m : SymbolId) (d : Option NodeId) (facts : TagFacts) :
    env.Safe ctx s (env.classBody inner m d facts slot) fun c s' =>
      ∃ ms, env.checker.membersOf m = .ok ms ∧ env.ClassReady s' m ms c := by
  unfold Environment.classBody
  refine .ask fun flags _ => .ask fun declared _ => .ask fun ts _ => ?_
  refine (hinner.typeParameters (by simpa using hslot) facts.typeParams ts).bind fun params s₁ _ hparams => ?_
  refine .ask fun us _ => (hinner.types us).bind fun bases s₂ hs₂ hbases => ?_
  refine (hinner.implemented d).bind fun implements s₃ hs₃ himplements => ?_
  refine .ask fun ms hms => (hinner.members ms).bind fun members s₄ hs₄ hmembers => ?_
  refine .of_tidy fun ht => .ask fun inherited _ => .ask fun own hown => ?_
  refine Safe.bind (Safe.foldlM (I := fun s' done c => env.ClassReady s' m done c) [] ?_
    fun done m' c s' _ hc => hinner.addMember hc inherited m') fun c s₅ _ hc => ?_
  · refine ⟨fun r hr => ?_, fun r hr => ?_, ⟨ms, hms, hmembers⟩, [], List.Subperm.refl _, .nil⟩
    · simp only [MemberBody.typeRefs, List.mem_append] at hr
      rcases hr with (hr | hr) | hr
      · exact (hs₂.trans (hs₃.trans hs₄)).grows.hasType (hparams r hr)
      · exact (hs₃.trans hs₄).grows.hasType (hbases r hr)
      · exact hs₄.grows.hasType (himplements r hr)
    · exact hmembers.hasMember ht.range (by simpa [MemberBody.listed, MemberBody.placed] using hr)
  refine .ask fun properties _ => ?_
  refine Safe.bind (Safe.mapM_mem (R := fun s' (v : Option MemberRef) => ∀ r, v = some r → s'.graph.HasMember r)
    (fun hs hv r hr => hs.grows.hasMember (hv r hr)) fun p _ _ _ => hinner.extendedMember m p)
    fun extended s₆ hs₆ hextended => .pure ⟨own, hown, (hc.keep hs₆).update rfl rfl ?_ (hc.keep hs₆).lists⟩
  simp only [MemberBody.listed, MemberBody.placed, List.mem_append, List.mem_filterMap, id]
  grind

/-- The summary of an index signature changes the words of a member only. -/
theorem withIndexerSummary {key : MemberKey} {member : Member} (hmember : env.Built ctx key member s)
    {indexer : Option MemberRef} (hindexer : ∀ r, indexer = some r → s.graph.HasMember r) :
    env.Safe ctx s (Environment.withIndexerSummary member indexer) (env.Built ctx key) := by
  unfold Environment.withIndexerSummary
  cases indexer with
  | none => exact .pure hmember
  | some r =>
    refine .getMember (hindexer r rfl) fun _ _ _ => .pure (hmember.congr ?_)
    exact ⟨rfl, rfl, rfl, .inl rfl⟩

theorem classOfKinds (hinner : env.Trusted inner) (key : MemberKey)
    (hshows : ∀ {s body}, env.ShowsClass s key.owner body → env.Shows s body key) {slot : MemberRef}
    (hslot : s.graph.HasMember slot) (kinds : List SyntaxKind) :
    env.Safe ctx s (env.classOfKinds inner key.owner slot kinds) (env.Built ctx key) := by
  unfold Environment.classOfKinds
  refine .ask fun d hd => .ask fun facts _ => ?_
  refine (hinner.classBody hslot key.owner d facts).bind fun c s₁ _ ⟨own, hown, hc⟩ => ?_
  obtain ⟨ms, hms, hmembers⟩ := hc.exports
  refine (Safe.commonMember rfl (readsAt_preferredDeclaration hd) (hshows ⟨c, ms, rfl, hms, hmembers⟩)
    hc.types hc.members ⟨own, hown, hc.lists⟩ (by simp)).bind fun member s₂ hs₂ hmember =>
      withIndexerSummary hmember fun r hr => ?_
  exact hs₂.grows.hasMember (hc.members r (by simp [MemberBody.placed, hr]))

/-- Whatever a function is merged with is a class of its own. -/
theorem companion (hinner : env.Trusted inner) {m : SymbolId} (hmethod : env.IsMethodLike m) :
    env.Safe ctx s (env.companion inner m) fun v s' => ∀ r, v = some r →
      s'.memberOf? (.companion m) = some (some r) := by
  unfold Environment.companion
  refine .get ?_
  cases hold : s.memberOf? (.companion m) with
  | some known => exact .pure fun r hr => hold.trans (congrArg some hr)
  | none =>
    refine .ask fun name hname => .reserve hold hname (fun e s' hrun => ?_) (by simp) (by rintro _ ⟨⟩; exact hmethod)
      fun slot s₁ _ hslot => .of_tidy fun ht₁ => ?_
    · obtain ⟨depth, rfl⟩ := hinner.recur
      refine ⟨depth, s, hold, ?_⟩
      unfold Environment.companion
      rw [Exec.run_get, hold, ← hrun]
      exact Exec.run_ask hname _ s
    refine (hinner.classOfKinds (.companion m) id (ht₁.range.memberOf hslot) _).bind fun member s₂ hs₂ hmember => ?_
    refine (Safe.finish (hs₂.memberOf hslot) hmember).bind fun _ s₃ hs₃ hfinished => .pure ⟨?_, hfinished⟩
    rintro _ ⟨⟩
    exact (hs₂.trans hs₃).memberOf hslot

/-! ### Enums and namespaces -/

/-- What an enum exports is parted into its members and the rest, and stays in order. -/
theorem enumExports (hinner : env.Trusted inner) (numbering : Numbering) (ms : List SymbolId) :
    env.Safe ctx s (env.enumExports inner numbering ms) fun found s' =>
      env.HoldsMembers s' (ms.filter env.isEnumMember) (found.1.map EnumEntry.member) ∧
      env.HoldsMembers s' (ms.filter fun m => !env.isEnumMember m) found.2 := by
  induction ms generalizing numbering s with
  | nil => exact .pure ⟨.nil, .nil⟩
  | cons m ms ih =>
    unfold Environment.enumExports
    refine .ask fun flags hflags => ?_
    split
    · next hentry =>
      have hmember : env.isEnumMember m = true := by simpa [isEnumMember, hflags] using hentry
      simp only [List.filter_cons, hmember, Bool.not_true, if_true, Bool.false_eq_true, if_false]
      refine (hinner.member m).bind fun v s₁ _ hv => ?_
      cases v with
      | none =>
        exact (ih numbering).mono fun found s₂ hs₂ h => ⟨.cons (hv.keep hs₂) h.1, h.2⟩
      | some r =>
        refine .ask fun name _ => .ask fun value _ => ?_
        exact (ih _).bind fun found s₂ hs₂ h => .pure ⟨.cons (hv.keep hs₂) h.1, h.2⟩
    · next hother =>
      have hmember : env.isEnumMember m = false := by simpa [isEnumMember, hflags] using hother
      simp only [List.filter_cons, hmember, Bool.not_false, if_true, Bool.false_eq_true, if_false]
      refine (hinner.member m).bind fun v s₁ _ hv => ?_
      exact (ih numbering).bind fun found s₂ hs₂ h => .pure ⟨h.1, .cons (hv.keep hs₂) h.2⟩

theorem enumeration (hinner : env.Trusted inner) {m : SymbolId}
    (hshows : ∀ {s body}, env.ShowsEnum s m body → env.Shows s body (.symbol m)) :
    env.Safe ctx s (env.enumeration inner m) (env.Built ctx (.symbol m)) := by
  unfold Environment.enumeration
  refine .ask fun flags _ => .ask fun d hd => .ask fun facts _ => .ask fun ms hms => ?_
  refine (hinner.enumExports {} ms).bind fun found s₁ _ hfound => .of_tidy fun ht => ?_
  refine Safe.commonMember rfl (readsAt_preferredDeclaration hd)
    (hshows ⟨_, ms, rfl, hms, hfound.1, hfound.2⟩) ?_ (fun r hr => ?_) trivial (by simp)
  · simp [MemberBody.typeRefs]
  · simp only [MemberBody.listed, MemberBody.placed, List.append_nil, List.mem_append] at hr
    exact hr.elim (hfound.1.hasMember ht.range) (hfound.2.hasMember ht.range)

theorem namespaceLike (hinner : env.Trusted inner) {m : SymbolId}
    (hshows : ∀ {s ms rs}, env.checker.exportsOf m = .ok ms → env.HoldsMembers s ms rs →
      env.Shows s (.namespaceLike rs) (.symbol m)) :
    env.Safe ctx s (env.namespaceLike inner m) (env.Built ctx (.symbol m)) := by
  unfold Environment.namespaceLike
  refine .ask fun d hd => .ask fun facts _ => .ask fun ms hms => ?_
  refine (hinner.members ms).bind fun rs s₁ _ hrs => .of_tidy fun ht => ?_
  refine Safe.commonMember rfl (readsAt_preferredDeclaration hd) (hshows hms hrs) ?_ (fun r hr => ?_) trivial
    (by simp)
  · simp [MemberBody.typeRefs]
  · exact hrs.hasMember ht.range (by simpa [MemberBody.listed, MemberBody.placed] using hr)

end Trusted

end Environment

end ApiDoc
