import ApiDoc.Proofs.Interrupted
import ApiDoc.Proofs.Origin.Methods

/-!
# Every member has an origin

Resolvers of all depths keep track of where members come from (`Environment.recur_answers`), and so does whatever is
asked from outside, in any order and whatever comes of it (`Environment.after_traced`).  What was built for a symbol is
what its run makes of it (`Environment.BuiltFor.builds`).
-/

namespace ApiDoc

namespace Environment

/-- What is built for a symbol from one session to another. -/
structure BuildsSymbol (env : Environment) (s : Session) (m : SymbolId) (member : Member) (s' : Session) : Prop where
  made : Made s member s'
  method : env.IsMethodLike m → ∃ ds, env.callableDeclarations m = .ok ds ∧
    (ds ≠ [] → env.AssembledMethod s m ds member s')
  classLike : env.IsClassLike m → ∃ c, member.body = .classLike c ∧ env.ListsProperties s' m c
  enumeration : env.IsEnumeration m → ∃ e ms, member.body = .enumeration e ∧ env.checker.exportsOf m = .ok ms ∧
    env.NumbersExports s' {} ms e.members

variable {env : Environment} {inner : Resolver} {s s' : Session} {key : MemberKey} {m : SymbolId} {member : Member}

namespace Answers

/-- A symbol is built according to its flags. -/
theorem buildMember (hinner : env.Answers inner) (m : SymbolId) (slot : MemberRef) :
    env.Yields s s (env.buildMemberWith inner m slot) (env.BuildsSymbol s m) := by
  unfold buildMemberWith
  refine .ask fun flags hflags => ?_
  have hnot {c : SymbolClass} (hc : SymbolClass.of flags ≠ c) :
      ¬ ∃ flags : SymbolFlags, env.checker.symbolFlags m = .ok flags ∧ SymbolClass.of flags = c := by
    rintro ⟨flags', hflags', hc'⟩
    obtain rfl : flags = flags' := Except.ok.inj (hflags.symm.trans hflags')
    exact hc hc'
  have hbare {x : Resolve Member} (hmethod : SymbolClass.of flags ≠ .method)
      (hclass : SymbolClass.of flags ≠ .classLike) (henum : SymbolClass.of flags ≠ .enumeration)
      (hx : env.Yields s s x fun member _ => member.overloads = []) : env.Yields s s x (env.BuildsSymbol s m) :=
    hx.mono fun member s' _ hnone => ⟨.of_none hnone, fun h => absurd h (hnot hmethod),
      fun h => absurd h (hnot hclass), fun h => absurd h (hnot henum)⟩
  cases hclass : SymbolClass.of flags with
  | method =>
    exact (hinner.method m slot).mono fun member s' _ h =>
      ⟨h.1, fun _ => h.2, fun h => absurd h (hnot (by simp [hclass])), fun h => absurd h (hnot (by simp [hclass]))⟩
  | classLike =>
    refine (hinner.classOfKinds m slot _).mono fun member s' _ h =>
      ⟨?_, fun h => absurd h (hnot (by simp [hclass])), fun _ => h, fun h => absurd h (hnot (by simp [hclass]))⟩
    obtain ⟨c, hbody, -⟩ := h
    exact .of_none (by simp [Member.overloads, hbody])
  | enumeration =>
    refine (hinner.enumeration m).mono fun member s' _ h =>
      ⟨?_, fun h => absurd h (hnot (by simp [hclass])), fun h => absurd h (hnot (by simp [hclass])), fun _ => h⟩
    obtain ⟨e, ms, hbody, -⟩ := h
    exact .of_none (by simp [Member.overloads, hbody])
  | marker | field | unclassified =>
    exact hbare (by simp [hclass]) (by simp [hclass]) (by simp [hclass])
      ((hinner.field m).mono fun _ _ _ h => h.overloads)
  | accessor => exact hbare (by simp [hclass]) (by simp [hclass]) (by simp [hclass]) (hinner.accessor m)
  | namespaceLike => exact hbare (by simp [hclass]) (by simp [hclass]) (by simp [hclass]) (hinner.namespaceLike m)
  | «alias» => exact hbare (by simp [hclass]) (by simp [hclass]) (by simp [hclass]) (hinner.typeAlias m slot)

/-- A new symbol has the member that was built for it, or an override that took its place meanwhile. -/
theorem newMember (hinner : env.Answers inner) (m : SymbolId) :
    env.Yields s s (env.newMemberWith inner m) fun v s' => (.symbol m, v) ∈ s'.memberMemo := by
  unfold newMemberWith
  refine .ask fun flags _ => ?_
  split
  · exact .change_then (Session.skipMember_run _) (fun ha hs => .skipMember ha hs _) fun _ => .pure List.mem_cons_self
  · refine .ask fun name _ => .reserve fun slot s₁ hs₁ hslot => ?_
    refine (hinner.buildMember m slot).ran.bind fun member s₂ hs₂ ⟨hbuilds, ha₁, hrun⟩ => .getMember fun current _ => ?_
    have hslot₂ := hs₂.member_mem hslot
    dsimp only
    split
    · exact .pure hslot₂
    · obtain ⟨depth, rfl⟩ := hinner.recur
      have hbuilt : env.BuiltFor s₂ (.symbol m) member :=
        ⟨depth, slot, s₁, s₂, ha₁, hrun, .refl s₂, fun _ _ haside => ⟨haside, rfl⟩⟩
      refine (Yields.place (P := fun _ s' => (.symbol m, some slot) ∈ s'.memberMemo) hslot₂
        (.built hbuilt member.exportName) (hbuilds.made.mono hs₁ (.refl s₂)) hslot₂).bind_own
        fun _ s₃ _ hslot₃ => .pure hslot₃

theorem resolveMember (hinner : env.Answers inner) (m : SymbolId) :
    env.Yields s s (env.resolveMemberWith inner m) fun v s' => (.symbol m, v) ∈ s'.memberMemo := by
  unfold resolveMemberWith
  refine .get ?_
  cases hold : s.memberOf? (.symbol m) with
  | some v => exact .pure (Session.mem_of_memberOf? hold)
  | none => exact hinner.newMember m

end Answers

/-- **At any depth** the resolver keeps track of where members come from. -/
theorem recur_answers (env : Environment) (depth : Nat) : env.Answers (env.recur depth) := by
  induction depth with
  | zero => exact ⟨⟨0, rfl⟩, fun _ => .fails, fun _ => .fails, fun _ _ => .fails⟩
  | succ depth ih =>
    exact ⟨⟨depth + 1, rfl⟩, ih.resolveType, ih.resolveMember, fun m slot =>
      (ih.buildMember m slot).mono fun _ _ _ h => h.made⟩

/-- What was built for a symbol is what the run that built it makes of the symbol. -/
theorem BuiltFor.builds (h : env.BuiltFor s (.symbol m) member) : ∃ s₀ s₁, env.BuildsSymbol s₀ m member s₁ ∧
    s₁.Recalls s ∧ ∀ o ∈ member.overloads, s₁.MemberAside o → s.MemberAside o ∧ s.memberAt? o = s₁.memberAt? o := by
  obtain ⟨depth, slot, s₀, s₁, hs₀, hrun, hs₁, hown⟩ := h
  obtain ⟨-, hbuilds⟩ := ((env.recur_answers depth).buildMember m slot).of_ok hs₀ (.refl s₀) hrun
  exact ⟨s₀, s₁, hbuilds, hs₁, hown⟩

/-- What was built for a variable, a property or an enum member is a field with its type. -/
theorem BuiltFor.field (h : env.BuiltFor s (.symbol m) member) {flags : SymbolFlags}
    (hflags : env.checker.symbolFlags m = .ok flags) (hclass : SymbolClass.of flags = .field) :
    env.MakesField m member s := by
  obtain ⟨depth, slot, s₀, s₁, hs₀, hrun, hs₁, -⟩ := h
  have hfield : env.Yields s₀ s₀ (env.buildMemberWith (env.recur depth) m slot) (env.MakesField m) := by
    unfold buildMemberWith
    refine .ask fun flags' hflags' => ?_
    obtain rfl : flags = flags' := Except.ok.inj (hflags.symm.trans hflags')
    rw [hclass]
    exact (env.recur_answers depth).field m
  obtain ⟨-, f, hbody, htype⟩ := hfield.of_ok hs₀ (.refl s₀) hrun
  exact ⟨f, hbody, htype.mono hs₁⟩

/-! ### Requests -/

theorem yields_exportedMember (m : SymbolId) : env.Yields s s (env.exportedMember m) fun _ _ => True := by
  unfold exportedMember
  refine ((env.recur_answers env.depth).member m).bind fun v s₁ _ hv => ?_
  cases v with
  | none => exact .pure trivial
  | some r =>
    refine .ask fun name _ => .getMember fun member hmember => ?_
    refine .change_then (Session.setMember_run r _) (fun ha hs => .putMember ha hs hv
      (fun ht => (ht _ _ _ hv hmember).export _) fun o ho => .inl ⟨r, member, hmember, ho⟩) fun _ => .pure trivial

theorem yields_fileMembers (f : FileId) (isModule : Bool) :
    env.Yields s s (env.fileMembers f isModule) fun _ _ => True := by
  unfold fileMembers
  cases isModule with
  | true =>
    refine .ask fun node _ => .ask fun m _ => .ask fun ms _ => ?_
    exact Yields.bind (Yields.mapM (R := fun _ _ _ => True) (fun _ h => h) fun m' _ _ _ => yields_exportedMember m')
      fun _ _ _ _ => .pure trivial
  | false =>
    refine .ask fun ms _ => ?_
    exact Yields.bind (Yields.mapM (R := fun _ _ _ => True) (fun _ h => h) fun m' _ _ _ =>
      ((env.recur_answers env.depth).member m').mono fun _ _ _ _ => trivial) fun _ _ _ _ => .pure trivial

theorem yields_resolveFile (f : FileId) : env.Yields s s (env.resolveFile f) fun _ _ => True := by
  unfold resolveFile
  refine .ask fun fileName _ => .ask fun text _ => .ask fun facts _ => .ask fun isModule _ => ?_
  refine .ask fun name _ => .ask fun declaration _ => .ask fun imports _ => ?_
  exact (yields_fileMembers f isModule).bind fun _ _ _ _ => .pure trivial

theorem passes_request (h : s.Anchored) (request : Request) : env.Passes s s (env.afterRequest s request) := by
  cases request with
  | type t => exact ((env.recur_answers env.depth).type t).of_run h (.refl s)
  | member m => exact ((env.recur_answers env.depth).member m).of_run h (.refl s)
  | file f => exact (yields_resolveFile f).of_run h (.refl s)

/-- Whatever is asked, in whatever order, and whatever comes of it. -/
theorem passes_after (h : s.Anchored) (requests : List Request) : env.Passes s s (env.after s requests) := by
  induction requests generalizing s with
  | nil => exact .refl h (.refl s)
  | cons request requests ih =>
    have hfirst : env.Passes s s (env.afterRequest s request) := passes_request h request
    exact hfirst.trans ((ih hfirst.anchored).rebase hfirst.continues)

/-- **Every member has an origin**, whatever was asked before and whatever came of it. -/
theorem after_traced (env : Environment) (requests : List Request) :
    (env.after {} requests).Anchored ∧ env.Traced (env.after {} requests) := by
  have hpasses : env.Passes {} {} (env.after {} requests) := passes_after .empty requests
  exact ⟨hpasses.anchored, hpasses.traced .empty⟩

/-- What is answered for a symbol is what is remembered of it. -/
theorem memberOf?_of_resolved {requests : List Request} {v : Option MemberRef}
    (hrun : (env.resolveMember m).run.run (env.after {} requests) = (.ok v, s')) :
    s'.memberOf? (.symbol m) = some v := by
  obtain ⟨-, hv⟩ := ((env.recur_answers env.depth).member m).of_ok (env.after_traced requests).1 (.refl _) hrun
  have hsingle := env.single_after (requests ++ [.member m])
  rw [after_member hrun] at hsingle
  exact hsingle.memberOf hv

/-- A symbol that has been resolved and is no marker has a place, with its finished member there, or else the placeholder
that an earlier request left behind. -/
theorem exists_member_of_resolved {requests : List Request} {flags : SymbolFlags}
    (hflags : env.checker.symbolFlags m = .ok flags) (hclass : SymbolClass.of flags ≠ .marker) {v : Option MemberRef}
    (hrun : (env.resolveMember m).run.run (env.after {} requests) = (.ok v, s')) :
    ∃ r member, v = some r ∧ s'.memberOf? (.symbol m) = some (some r) ∧ s'.memberAt? r = some member ∧
      (env.Finished s' (.symbol m) member ∨
        env.Interrupted requests (.symbol m) ∧ env.IsPlaceholder (.symbol m) member ∧ s' = env.after {} requests) := by
  have hmemo := memberOf?_of_resolved hrun
  cases v with
  | none =>
    have ht := tidy_after env (requests ++ [.member m])
    rw [after_member hrun] at ht
    exact absurd ((isMarker_iff hflags).1 ((ht.markers hmemo).1 rfl)) hclass
  | some r =>
    obtain ⟨member, hat, hmember⟩ := finished_or_interrupted hrun hmemo
    exact ⟨r, member, rfl, hmemo, hat, hmember⟩

/-- A symbol that has been resolved and is no marker shows what its flags say, unless an earlier request was interrupted
while it was at this very symbol; then nothing is done. -/
theorem exists_shown_of_resolved {requests : List Request} {flags : SymbolFlags}
    (hflags : env.checker.symbolFlags m = .ok flags) (hclass : SymbolClass.of flags ≠ .marker) {v : Option MemberRef}
    (hrun : (env.resolveMember m).run.run (env.after {} requests) = (.ok v, s')) :
    (∃ r member, s'.memberOf? (.symbol m) = some (some r) ∧ s'.memberAt? r = some member ∧
      env.ShowsSymbol s' m member.body (SymbolClass.of flags)) ∨
    env.Interrupted requests (.symbol m) ∧ s' = env.after {} requests := by
  obtain ⟨r, member, -, hmemo, hat, hfinished | ⟨hinterrupted, -, hsame⟩⟩ :=
    exists_member_of_resolved hflags hclass hrun
  · exact .inl ⟨r, member, hmemo, hat, hfinished.showsSymbol hflags⟩
  · exact .inr ⟨hinterrupted, hsame⟩

end Environment

end ApiDoc
