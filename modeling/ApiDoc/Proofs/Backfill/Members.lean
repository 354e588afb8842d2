import ApiDoc.Proofs.Backfill.Containers
import ApiDoc.Proofs.Run.Members
import ApiDoc.Proofs.Sharing

/-!
# Methods and symbols in lock step

The declarations of a method are the same on both sides until they share their summaries, which happens on the second
side only (`Paired.sharedPrimary`).  Overloads have places that are nobody's, so no signature's text changes there.

The place of a new symbol is written once it has been built.  Until then its placeholder says nothing, so no class can
have taken a text from it (`Twin.settle`).  By induction on the depth, whole resolvers go in lock step (`paired_recur`).
-/

namespace ApiDoc

/-- Members that are there can be read. -/
theorem Session.getMembers_run {s : Session} {rs : List MemberRef}
    (h : ∀ r ∈ rs, r.index < s.graph.members.size) :
    ∃ found, (rs.mapM Resolve.getMember).run.run s = (.ok found, s) := by
  obtain ⟨found, hfound⟩ : ∃ found, List.Forall₂ (fun r m => s.memberAt? r = some m) rs found := by
    induction rs with
    | nil => exact ⟨[], .nil⟩
    | cons r rest ih =>
      obtain ⟨member, hmember⟩ := exists_memberAt? (h r (by simp))
      obtain ⟨found, hfound⟩ := ih fun r' hr' => h r' (by simp [hr'])
      exact ⟨member :: found, .cons hmember hfound⟩
  exact ⟨found, readMembers_run hfound⟩

namespace Environment

variable {env : Environment} {inner inner' : Resolver} {s s' : Session}

namespace Paired

/-! ### Declarations -/

theorem signatureMember (h : env.Paired inner inner') (m : SymbolId) (slot : MemberRef) (d : NodeId) :
    env.Lockstep s s' (env.withoutBackfill.signatureMember inner m slot d) (env.signatureMember inner' m slot d)
      fun own full _ => own = full ∧ own.class? = none := by
  unfold Environment.signatureMember
  refine .ask ((sameSource_withoutBackfill env).tags d) fun facts _ => .ask rfl fun sig _ => ?_
  refine .same (h.signature sig facts (some slot)) fun signature _ _ _ => .ask rfl fun kind _ => ?_
  exact .ask rfl fun modifiers _ => .ask rfl fun generator _ => commonMember m (some d) facts (by simp)

/-- An overload is the same on both sides, at a place that is nobody's. -/
theorem overload (h : env.Paired inner inner') (m : SymbolId) (primary : Member) (d : NodeId) :
    env.Lockstep s s' (env.withoutBackfill.overload inner m primary d) (env.overload inner' m primary d)
      fun r r' t' => r = r' ∧ t'.IsLoose r' := by
  unfold Environment.overload
  refine .of_twin fun htwin => ?_
  have hloose : (s'.growMember (.placeholder primary.name)).IsLoose ⟨s'.graph.members.size⟩ := by
    refine ⟨by simp, fun key hkey => ?_⟩
    rw [Session.memberOf?_growMember] at hkey
    exact Nat.lt_irrefl _ (htwin.range hkey)
  refine .change_then (Session.newMember_run _) (Session.newMember_run _) (fun h => h.growMember _)
    (.growMember _) ?_
  rw [htwin.size] at hloose ⊢
  refine (h.signatureMember m _ d).bind ?_
  rintro member _ t t' ht ⟨rfl, -⟩
  have hloose' := ht.loose hloose
  refine Lockstep.bind (.setOther (.refl t' _) fun m' _ => hloose'.2 (.symbol m')) fun _ _ u u' hu _ => ?_
  exact .pure ⟨rfl, hu.loose hloose'⟩

/-! ### Shared summaries -/

/-- An overload takes over summaries on the second side. -/
theorem fillShared {r : MemberRef} (hloose : s'.IsLoose r) (base : Member) :
    env.Lockstep s s' (Pure.pure ()) (Resolve.getMember r >>= fun member => Resolve.setMember r (member.fillFrom base))
      fun _ _ _ => True := by
  obtain ⟨full, hfull⟩ := Session.exists_memberAt? hloose.1
  have hrun : (Resolve.getMember r >>= fun member => Resolve.setMember r (member.fillFrom base)).run.run s' =
      (.ok (), s'.putMember r (full.fillFrom base)) := by
    rw [Exec.run_bind, Session.getMember_run hfull]
    rfl
  refine .change rfl hrun (fun htwin => ?_) (.putMember _ fun m _ _ hm => absurd hm (hloose.2 (.symbol m))) trivial
  obtain ⟨own, hown⟩ := Session.exists_memberAt? (htwin.size ▸ hloose.1)
  have hput := htwin.putMember ((htwin.member hown hfull).fillFrom base)
    fun m _ _ hm => absurd hm (hloose.2 (.symbol m))
  rwa [Session.putMember_self hown] at hput

/-- Sharing summaries between declarations leaves the first side as it is. -/
theorem shareSummaries (primary : Member) {rs : List MemberRef} (hrs : ∀ r ∈ rs, s'.IsLoose r) :
    env.Lockstep s s' (Pure.pure primary) (Environment.shareSummaries primary rs)
      fun own full t' => own = primary ∧ env.Fills t' own full := by
  unfold Environment.shareSummaries
  obtain ⟨found, hfound⟩ := Session.getMembers_run fun r hr => (hrs r hr).1
  refine Lockstep.right (a := ()) (f := fun _ => Pure.pure primary) (P := fun _ others t' => t' = s')
    (.change rfl hfound id (.refl s') rfl) ?_
  rintro others t t' - rfl
  refine Lockstep.right (f := fun _ => Pure.pure primary)
    (Lockstep.forM_right fun r hr _ _ hu => fillShared (hu.loose (hrs r hr)) _) fun _ u u' _ _ => .pure ⟨rfl, ?_⟩
  exact (Fills.refl u' primary).fillFromOverloads others

/-- The main declaration has gaps on the first side that the second has filled. -/
theorem sharedPrimary (primary : Member) {rs : List MemberRef} (hrs : ∀ r ∈ rs, s'.IsLoose r) :
    env.Lockstep s s' (env.withoutBackfill.sharedPrimary primary rs) (env.sharedPrimary primary rs)
      fun own full t' => own = primary ∧ env.Fills t' own full := by
  unfold Environment.sharedPrimary
  rw [if_neg (show ¬ env.withoutBackfill.config.backfillOverloads = true from Bool.false_ne_true)]
  split
  · exact shareSummaries primary hrs
  · exact .pure ⟨rfl, .refl s' primary⟩

theorem companion? (h : env.Paired inner inner') (m : SymbolId) (flags : SymbolFlags) :
    env.Agree s s' (env.withoutBackfill.companion? inner m flags) (env.companion? inner' m flags) := by
  unfold Environment.companion?
  split
  · exact h.companion m
  · exact .pure rfl

theorem method (h : env.Paired inner inner') (m : SymbolId) (slot : MemberRef) :
    env.Lockstep s s' (env.withoutBackfill.method inner m slot) (env.method inner' m slot) (env.BuiltAlike m) := by
  unfold Environment.method
  refine .ask rfl fun ds _ => .ask ((sameSource_withoutBackfill env).primaryIndex ds) fun i _ => ?_
  cases ds[i]? with
  | none => exact builtAlike (h.field m)
  | some d =>
    refine (h.signatureMember m slot d).bind ?_
    rintro primary _ t t' - ⟨rfl, hclass⟩
    refine Lockstep.bind (Lockstep.mapM (R := fun t' r => t'.IsLoose r) (fun hs hr => hs.loose hr)
      fun d' _ _ _ _ => h.overload m primary d') ?_
    rintro rs _ u u' - ⟨rfl, hrs⟩
    refine (sharedPrimary primary hrs).bind ?_
    rintro _ full w w' - ⟨rfl, hfills⟩
    refine .ask rfl fun flags _ => .same (h.companion? m flags) fun v _ _ hs => .pure ?_
    exact ⟨(hfills.keep hs).withOverloads rs v, fun _ => by rw [Member.class?_withOverloads, hclass]⟩

/-! ### Symbols -/

/-- What is built for a symbol has gaps on the first side that the second has filled. -/
theorem buildMember (h : env.Paired inner inner') (m : SymbolId) (slot : MemberRef) :
    env.Lockstep s s' (env.withoutBackfill.buildMemberWith inner m slot) (env.buildMemberWith inner' m slot)
      (env.BuiltAlike m) := by
  unfold buildMemberWith
  refine .ask rfl fun flags hflags => ?_
  cases hclass : SymbolClass.of flags with
  | method => exact h.method m slot
  | marker | field | unclassified => exact builtAlike (h.field m)
  | accessor => exact builtAlike (h.accessor m)
  | enumeration => exact builtAlike (h.enumeration m)
  | namespaceLike => exact builtAlike (h.namespaceLike m)
  | «alias» => exact builtAlike (h.typeAlias m slot)
  | classLike =>
    refine (h.classOfKinds m slot _).mono fun own full t' _ hfills => ⟨hfills, fun hm => ?_⟩
    -- a signature is documented as a method
    obtain ⟨flags', hflags', hsignature⟩ := hm
    obtain rfl := Except.ok.inj (hflags.symm.trans hflags')
    simp only [SymbolClass.of, FlagSet.hasAny, List.any_cons, hsignature, Bool.true_or, Bool.or_true, if_true] at hclass
    split at hclass <;> cases hclass

end Paired

/-! ### New symbols -/

/-- The last part of a new symbol's resolution: its place gets its member, unless an override has taken it. -/
def finishMember (slot : MemberRef) (member : Member) : Resolve (Option MemberRef) := do
  unless (← Resolve.getMember slot).isOverride do Resolve.setMember slot member
  return some slot

/-- A symbol that was met after `s₀` and whose member is not finished: if it is a signature, nothing is said in its
place. -/
structure Pending (env : Environment) (s₀ : Session) (m : SymbolId) (slot : MemberRef) (s : Session) : Prop where
  steady : env.Steady s₀ s
  fresh (key) : s₀.memberOf? key ≠ some (some slot)
  memberOf : s.memberOf? (.symbol m) = some (some slot)
  silent : env.IsSignature m → ∃ old, s.memberAt? slot = some old ∧ old.doc.summary = ""

namespace Pending

variable {s₀ : Session} {m : SymbolId} {slot : MemberRef}

theorem start (htwin : env.Twin s s') (hnew : s'.memberOf? (.symbol m) = none) (name : String) :
    env.Pending s' m ⟨s'.graph.members.size⟩ (s'.addMember (.symbol m) (.placeholder name)) where
  steady := .addMember hnew _
  fresh _ hkey := Nat.lt_irrefl _ (htwin.range hkey)
  memberOf := by rw [Session.memberOf?_addMember, if_pos rfl]
  silent _ := ⟨.placeholder name, by simp [Session.memberAt?_addMember], rfl⟩

theorem keep (h : env.Pending s₀ m slot s) (hs : env.Steady s s') : env.Pending s₀ m slot s' where
  steady := h.steady.trans hs
  fresh := h.fresh
  memberOf := hs.memberOf h.memberOf
  silent hm := by
    obtain ⟨old, hold, hempty⟩ := h.silent hm
    obtain ⟨old', hold', hsame⟩ := hs.summary hm h.memberOf hold
    exact ⟨old', hold', hsame.trans hempty⟩

/-- The place gets the member that was built for the symbol. -/
theorem putMember {own full : Member} (h : env.Pending s₀ m slot s') (htwin : env.Twin s s')
    (hbuilt : env.BuiltAlike m own full s') :
    env.Twin (s.putMember slot own) (s'.putMember slot full) ∧ env.Steady s₀ (s'.putMember slot full) := by
  refine ⟨htwin.putMember hbuilt.1 fun m' old hm' hr hold => ?_, h.steady.toKeeps.trans (.putMember s' slot full),
    fun {m' r member} hm' hr hmember => ?_⟩
  · obtain rfl := MemberKey.symbol.inj (htwin.single hr h.memberOf)
    obtain ⟨_, hold', hempty⟩ := h.silent hm'
    obtain rfl := Option.some.inj (hold.symm.trans hold')
    exact ⟨.inl hempty, hbuilt.1.kept (hbuilt.2 hm')⟩
  · obtain ⟨member', hmember', hsame⟩ := h.steady.summary hm' hr hmember
    refine ⟨member', ?_, hsame⟩
    rw [Session.memberAt?_putMember, if_neg, hmember']
    rintro rfl
    exact h.fresh _ hr

/-- An override that has taken the place stays there. -/
theorem settle {own full : Member} (h : env.Pending s₀ m slot s') (htwin : env.Twin s s')
    (hbuilt : env.BuiltAlike m own full s') :
    env.Outcome s₀ (fun v v' t' => v = v' ∧ t'.memberOf? (.symbol m) = some v')
      ((finishMember slot own).run.run s) ((finishMember slot full).run.run s') := by
  obtain ⟨before', hbefore'⟩ := Session.exists_memberAt? (htwin.range h.memberOf)
  obtain ⟨before, hbefore⟩ := Session.exists_memberAt? (htwin.size ▸ htwin.range h.memberOf)
  unfold finishMember
  rw [Exec.run_bind, Exec.run_bind, Session.getMember_run hbefore, Session.getMember_run hbefore']
  dsimp only
  rw [(htwin.member hbefore hbefore').texts.isOverride]
  cases before.isOverride with
  | true => exact .ok htwin h.steady ⟨rfl, h.memberOf⟩
  | false =>
    obtain ⟨htwin', hsteady⟩ := h.putMember htwin hbuilt
    exact .ok htwin' hsteady ⟨rfl, h.memberOf⟩

end Pending

namespace Paired

/-- The member of a symbol that was not met before. -/
theorem newMember (h : env.Paired inner inner') {m : SymbolId} (hnew : s'.memberOf? (.symbol m) = none) :
    env.Lockstep s s' (env.withoutBackfill.newMemberWith inner m) (env.newMemberWith inner' m)
      fun v v' t' => v = v' ∧ t'.memberOf? (.symbol m) = some v' := by
  unfold newMemberWith
  refine .ask rfl fun flags hflags => ?_
  split
  next hclass =>
    refine .change_then (Session.skipMember_run _) (Session.skipMember_run _)
      (fun h => h.skipMember ((isMarker_iff hflags).2 hclass) hnew) (.of_same (.skipMember hnew) fun _ _ => rfl) ?_
    exact .pure ⟨rfl, by simp [Session.memberOf?_skipMember]⟩
  · refine .ask rfl fun name _ htwin => ?_
    have hbuild := h.buildMember m ⟨s'.graph.members.size⟩ (htwin.addMember (.placeholder name) hnew)
    rw [Exec.run_bind, Exec.run_bind, Session.reserveMember_run, Session.reserveMember_run]
    dsimp only
    rw [Exec.run_bind, Exec.run_bind, ← htwin.size]
    generalize (env.withoutBackfill.buildMemberWith inner m _).run.run _ = p,
      (env.buildMemberWith inner' m _).run.run _ = p' at hbuild ⊢
    cases hbuild with
    | error => exact .error
    | ok htwin' hs hbuilt => exact ((Pending.start htwin hnew name).keep hs).settle htwin' hbuilt

theorem resolveMember (h : env.Paired inner inner') (m : SymbolId) :
    env.Lockstep s s' (env.withoutBackfill.resolveMemberWith inner m) (env.resolveMemberWith inner' m)
      fun v v' t' => v = v' ∧ t'.memberOf? (.symbol m) = some v' := by
  unfold resolveMemberWith
  refine .get (.of_twin fun htwin => ?_)
  rw [← htwin.memberOf]
  cases hknown : s'.memberOf? (.symbol m) with
  | some known => exact .pure ⟨rfl, hknown⟩
  | none => exact h.newMember hknown

end Paired

/-- At each depth, the resolver without completion and the one with it go in lock step. -/
theorem paired_recur (depth : Nat) : env.Paired (env.withoutBackfill.recur depth) (env.recur depth) := by
  induction depth with
  | zero => exact ⟨fun _ => .fails, fun _ => .fails, fun _ _ => .fails⟩
  | succ depth ih => exact ⟨ih.resolveType, ih.resolveMember, ih.buildMember⟩

/-! ### Files -/

theorem agree_resolveMember (m : SymbolId) :
    env.Agree s s' (env.withoutBackfill.resolveMember m) (env.resolveMember m) :=
  (paired_recur env.depth).sameMember m

/-- The name under which a member is exported is no matter of its documentation. -/
theorem agree_exportedMember (m : SymbolId) :
    env.Agree s s' (env.withoutBackfill.exportedMember m) (env.exportedMember m) := by
  unfold exportedMember
  refine .same (agree_resolveMember m) fun v t t' _ => ?_
  cases v with
  | none => exact .pure rfl
  | some r =>
    refine .ask rfl fun name _ => .of_twin fun htwin => .getMember fun own full hown hfull hfills => ?_
    have hexport : full.exportName = own.exportName := by
      have hsame := congrArg Member.exportName hfills.texts.untold
      exact hsame
    rw [hexport]
    refine Lockstep.bind (.setMember ?_ fun m' old hm' hr hold => ?_) fun _ _ _ _ _ _ => .pure rfl
    · refine hfills.congr ⟨?_, hfills.texts.doc, hfills.texts.summaries⟩ rfl rfl rfl
      exact congrArg (fun member : Member => { member with exportName := own.exportName.or (some name) })
        hfills.texts.untold
    · have hkept := htwin.signature hm' hr hown hfull
      obtain rfl := Option.some.inj (hold.symm.trans hfull)
      exact ⟨rfl, hkept⟩

theorem agree_fileMembers (f : FileId) (isModule : Bool) :
    env.Agree s s' (env.withoutBackfill.fileMembers f isModule) (env.fileMembers f isModule) := by
  unfold fileMembers
  cases isModule with
  | true =>
    refine .ask rfl fun node _ => .ask rfl fun m _ => .ask rfl fun ms _ => ?_
    exact .map (.mapM fun m' _ _ => agree_exportedMember m')
  | false => exact .ask rfl fun ms _ => .map (.mapM fun m' _ _ => agree_resolveMember m')

theorem agree_resolveFile (f : FileId) :
    env.Agree s s' (env.withoutBackfill.resolveFile f) (env.resolveFile f) := by
  unfold resolveFile
  refine .ask rfl fun fileName _ => .ask rfl fun text _ => .ask rfl fun facts _ => .ask rfl fun isModule _ => ?_
  refine .ask rfl fun name _ => .ask rfl fun declaration _ => .ask rfl fun imports _ => ?_
  exact .map (agree_fileMembers f isModule)

end Environment

end ApiDoc
