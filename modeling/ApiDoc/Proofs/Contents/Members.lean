import ApiDoc.Proofs.Contents.Methods
import ApiDoc.Proofs.Run.Members

/-!
# Every place is finished

A symbol that is met for the first time gets a place, and while its member is built the symbol is pending.  When
that is done its place holds the member that was built, or an override that took the place meanwhile, and that
is finished as well (`Trusted.newMember`).  So the resolver leaves nothing pending, at any depth
(`recur_trusted`).
-/

namespace ApiDoc

namespace Environment

variable {env : Environment} {inner : Resolver} {ctx : Context} {s s' : Session}

/-- A symbol that was not met before is resolved anew. -/
theorem run_resolveMember {m : SymbolId} (hnew : s.memberOf? (.symbol m) = none) :
    (env.resolveMemberWith inner m).run.run s = (env.newMemberWith inner m).run.run s := by
  unfold resolveMemberWith
  rw [Exec.run_get, hnew]

namespace Trusted

/-- **A built member is what its symbol is documented as.** -/
theorem buildMember (hinner : env.Trusted inner) (m : SymbolId) {slot : MemberRef}
    (hslot : s.graph.HasMember slot) :
    env.Safe ctx s (env.buildMemberWith inner m slot) (env.Built ctx (.symbol m)) := by
  unfold buildMemberWith
  refine .ask fun flags hflags => ?_
  have hshows {s : Session} {body : MemberBody} {c : SymbolClass} (hc : SymbolClass.of flags = c)
      (h : env.ShowsSymbol s m body c) : env.Shows s body (.symbol m) :=
    ⟨flags, hflags, hc ▸ h⟩
  cases hclass : SymbolClass.of flags with
  | method => exact hinner.method hflags hclass hslot
  | marker | field | unclassified => exact hinner.field fun s f => hshows hclass ⟨f, rfl⟩
  | accessor => exact hinner.accessor fun s f => hshows hclass ⟨f, rfl⟩
  | classLike => exact hinner.classOfKinds (.symbol m) (fun h => hshows hclass h) hslot _
  | enumeration => exact hinner.enumeration fun h => hshows hclass h
  | namespaceLike => exact hinner.namespaceLike fun hms hrs => hshows hclass ⟨_, _, hms, hrs, rfl⟩
  | «alias» => exact hinner.typeAlias hslot fun s type params => hshows hclass ⟨type, params, rfl⟩

/-- A symbol that was not met before has a finished member afterwards, or is a marker. -/
theorem newMember (hinner : env.Trusted inner) {m : SymbolId} (hnew : s.memberOf? (.symbol m) = none) :
    env.Safe ctx s (env.newMemberWith inner m) fun v s' => env.HoldsMember s' m v := by
  unfold newMemberWith
  refine .ask fun flags hflags => ?_
  split
  · next hclass =>
    have hmarker : env.IsMarker m := (isMarker_iff hflags).2 hclass
    refine .change_then (Session.skipMember_run _) (fun h => h.skipMember hmarker hnew)
      (.skipMember hnew) (.pure ⟨by simp [Session.memberOf?_skipMember], ?_⟩)
    exact ⟨fun _ => hmarker, fun _ => rfl⟩
  · next hclass =>
    have hmarker : ¬ env.IsMarker m := fun h => hclass ((isMarker_iff hflags).1 h)
    have hkey : ∀ m', MemberKey.symbol m = .symbol m' → ¬ env.IsMarker m' := by
      rintro _ ⟨⟩
      exact hmarker
    refine .ask fun name hname => .reserve hnew hname (fun e s' hrun => ?_) hkey (by simp)
      fun slot s₁ _ hslot => .of_tidy fun ht₁ => ?_
    · obtain ⟨depth, rfl⟩ := hinner.recur
      refine ⟨depth + 1, s, hnew, .inl ?_⟩
      change (env.resolveMemberWith (env.recur depth) m).run.run s = _
      rw [run_resolveMember hnew, ← hrun]
      unfold newMemberWith
      rw [Exec.run_ask hflags]
      split
      · next hmarker' => exact absurd hmarker' hclass
      · exact Exec.run_ask hname _ s
    have hr := ht₁.range.memberOf hslot
    refine (hinner.buildMember m hr).bind fun member s₂ hs₂ hmember => .of_tidy fun ht₂ => ?_
    have hslot₂ := hs₂.memberOf hslot
    have hholds {s' : Session} (h : s'.memberOf? (.symbol m) = some (some slot)) :
        env.HoldsMember s' m (some slot) :=
      ⟨h, (nomatch ·), (absurd · hmarker)⟩
    refine .getMember (hs₂.grows.hasMember hr) fun current hcurrent _ => ?_
    dsimp only
    split
    · next hover =>
      -- an override took the place, and a pending member is none
      obtain ⟨_, hat, hfinished | ⟨-, hplaceholder⟩⟩ := ht₂.finished hslot₂
      · exact .pure ⟨hholds hslot₂, _, hat, hfinished⟩
      · obtain rfl := Option.some.inj (hcurrent.symm.trans hat)
        simp [hplaceholder.plain] at hover
    · exact (Safe.finish hslot₂ hmember).bind fun _ s₃ hs₃ hfinished =>
        .pure ⟨hholds (hs₃.memberOf hslot₂), hfinished⟩

theorem resolveMember (hinner : env.Trusted inner) (m : SymbolId) :
    env.Safe ctx s (env.resolveMemberWith inner m) fun v s' => env.HoldsMember s' m v := by
  unfold resolveMemberWith
  refine .get ?_
  cases hold : s.memberOf? (.symbol m) with
  | some v => exact .of_tidy fun ht => .pure ⟨hold, ht.markers hold⟩
  | none => exact hinner.newMember hold

end Trusted

/-- **At any depth** the resolver keeps a session tidy. -/
theorem recur_trusted (env : Environment) (depth : Nat) : env.Trusted (env.recur depth) := by
  induction depth with
  | zero => exact ⟨⟨0, rfl⟩, fun _ => .fails, fun _ => .fails, fun _ _ _ => .fails⟩
  | succ depth ih =>
    exact ⟨⟨depth + 1, rfl⟩, ih.resolveType, ih.resolveMember, fun m _ hslot => ih.buildMember m hslot⟩

/-! ### Files -/

theorem safe_resolveType (t : TypeId) :
    env.Safe ctx s (env.resolveType t) fun r s' => s'.graph.HasType r :=
  (env.recur_trusted env.depth).type t

theorem safe_resolveMember (m : SymbolId) :
    env.Safe ctx s (env.resolveMember m) fun v s' => env.HoldsMember s' m v :=
  (env.recur_trusted env.depth).member m

/-- Under which name a member is exported changes nothing else. -/
theorem safe_exportedMember (m : SymbolId) :
    env.Safe ctx s (env.exportedMember m) fun v s' => env.HoldsMember s' m v := by
  unfold exportedMember
  refine (safe_resolveMember m).bind fun v s₁ _ hv => .of_tidy fun ht => ?_
  cases v with
  | none => exact .pure hv
  | some r =>
    refine .ask fun name _ => .getMember (ht.range.memberOf hv.1) fun member hmember hrange => ?_
    have hs₂ := Session.Keeps.putMember s₁ r { member with exportName := member.exportName.or (some name) }
    refine .change_then (Session.setMember_run r _) (fun h => h.putMember hrange (fun key hkey => ?_) ?_
      (.inr ⟨member, hmember, rfl⟩)) hs₂ (.pure (hv.keep hs₂))
    · obtain ⟨_, hat, hfinished⟩ := h.finished hkey
      obtain rfl := Option.some.inj (hmember.symm.trans hat)
      have howns := h.owns hkey hat
      refine ⟨hfinished.imp (fun hf => ⟨hf.shows, hf.place⟩) fun ⟨hp, hold⟩ => ⟨hp, ?_⟩, howns⟩
      obtain ⟨_, exported, hsymbol, rfl⟩ := hold
      exact ⟨_, _, hsymbol, rfl⟩
    · intro hloose
      have hbare := h.apart.bare hloose hmember
      exact hbare

/-- The symbols that a file lists: what a module exports, or whatever a script declares. -/
def ListsSymbols (env : Environment) (f : FileId) (ms : List SymbolId) : Prop :=
  (env.checker.isExternalModule f = .ok true ∧ ∃ node m, env.checker.fileNode f = .ok node ∧
    env.checker.symbolAtLocation node = .ok m ∧ env.checker.exportsOfModule m = .ok ms) ∨
  env.checker.isExternalModule f = .ok false ∧ env.checker.fileLocals f = .ok ms

/-- A file with the members of what it lists, in order. -/
def ListsMembers (env : Environment) (s : Session) (f : FileId) (file : SourceFile) : Prop :=
  ∃ ms, env.ListsSymbols f ms ∧ env.HoldsMembers s ms file.members

theorem ListsMembers.keep {f : FileId} {file : SourceFile} (h : env.ListsMembers s f file)
    (hs : s.Keeps s') : env.ListsMembers s' f file := by
  obtain ⟨ms, hms, hmembers⟩ := h
  exact ⟨ms, hms, hmembers.keep hs⟩

theorem safe_fileMembers {f : FileId} {isModule : Bool} (h : env.checker.isExternalModule f = .ok isModule) :
    env.Safe ctx s (env.fileMembers f isModule) fun rs s' =>
      ∃ ms, env.ListsSymbols f ms ∧ env.HoldsMembers s' ms rs := by
  unfold fileMembers
  cases isModule with
  | true =>
    refine .ask fun node hnode => .ask fun m hm => .ask fun ms hms => ?_
    refine Safe.bind (Safe.mapM (R := fun s' => env.HoldsMember s') (fun hs hv => hv.keep hs)
      fun m' _ _ _ => safe_exportedMember m') fun known s' _ hknown => .pure ⟨ms, .inl ?_, known, hknown, rfl⟩
    exact ⟨h, node, m, hnode, hm, hms⟩
  | false =>
    refine .ask fun ms hms => ?_
    refine Safe.bind (Safe.mapM (R := fun s' => env.HoldsMember s') (fun hs hv => hv.keep hs)
      fun m' _ _ _ => safe_resolveMember m') fun known s' _ hknown => .pure ⟨ms, .inr ?_, known, hknown, rfl⟩
    exact ⟨h, hms⟩

theorem safe_resolveFile (f : FileId) :
    env.Safe ctx s (env.resolveFile f) fun file s' => env.ListsMembers s' f file := by
  unfold resolveFile
  refine .ask fun fileName _ => .ask fun text _ => .ask fun facts _ => .ask fun isModule hmodule => ?_
  refine .ask fun name _ => .ask fun declaration _ => .ask fun imports _ => ?_
  exact (safe_fileMembers hmodule).bind fun rs s' _ hrs => .pure hrs

theorem safe_resolveFiles (files : List FileId) :
    env.Safe ctx s (files.mapM env.resolveFile) fun found s' =>
      List.Forall₂ (env.ListsMembers s') files found :=
  Safe.mapM (R := fun s' => env.ListsMembers s') (fun hs h => h.keep hs) fun f _ _ _ => safe_resolveFile f

end Environment

end ApiDoc
