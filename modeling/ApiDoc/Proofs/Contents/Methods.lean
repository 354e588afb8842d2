import ApiDoc.Proofs.Contents.Containers

/-!
# Methods and their overloads

A symbol with a declaration of its own that can be called gets a method: the main declaration is always one of
them (`primaryIndex_lt`).  The others get places that are nobody's, so nothing that is finished is lost when
they are written (`Trusted.overload`, `Trusted.sharedPrimary`).
-/

namespace ApiDoc

namespace Environment

variable {env : Environment} {inner : Resolver} {ctx : Context} {s s' : Session}

/-! ### The main declaration -/

theorem mem_callableDeclarations_iff {m : SymbolId} {ds : List NodeId}
    (h : env.callableDeclarations m = .ok ds) {d : NodeId} : d ∈ ds ↔ env.IsCallable m d := by
  obtain ⟨all, hall, h⟩ := bind_eq_ok_iff.1 h
  rw [mem_filterM_iff h, map_eq_ok_iff]
  constructor
  · rintro ⟨hd, kind, hkind, hcontainer⟩
    exact ⟨all, kind, hall, hd, hkind, by simpa using hcontainer⟩
  · rintro ⟨all', kind, hall', hd, hkind, hcontainer⟩
    obtain rfl : all = all' := Except.ok.inj (hall.symm.trans hall')
    exact ⟨hd, kind, hkind, by simp [hcontainer]⟩

theorem implementationFrom_lt {ds : List NodeId} {start i : Nat}
    (h : env.implementationFrom start ds = .ok (some i)) : i < start + ds.length := by
  induction ds generalizing start with
  | nil => cases h
  | cons d rest ih =>
    obtain ⟨implements, -, h⟩ := bind_eq_ok_iff.1 h
    cases implements with
    | true =>
      obtain rfl : start = i := by simpa [pure, Except.pure] using h
      simp
    | false =>
      have := ih h
      simp only [List.length_cons]
      omega

/-- The main declaration is one of those there are. -/
theorem primaryIndex_lt {ds : List NodeId} {i : Nat} (h : env.primaryIndex ds = .ok i) (hds : ds ≠ []) :
    i < ds.length := by
  have hpos : 0 < ds.length := List.length_pos_iff.2 hds
  unfold primaryIndex at h
  split at h
  · obtain rfl : 0 = i := Except.ok.inj h
    exact hpos
  · obtain ⟨bodies, hbodies, h⟩ := bind_eq_ok_iff.1 h
    split at h
    · next hcount =>
      obtain rfl : bodies.idxOf true = i := Except.ok.inj h
      rw [← length_of_mapM_eq_ok hbodies]
      exact List.idxOf_lt_length_of_mem (List.count_pos_iff.1 (by omega))
    · obtain ⟨found, hfound, rfl⟩ := map_eq_ok_iff.1 h
      cases found with
      | none => exact hpos
      | some i => simpa using implementationFrom_lt hfound

namespace Trusted

/-! ### Declarations -/

/-- A method made from one declaration, which owns no members yet. -/
structure IsMethod (env : Environment) (s : Session) (m : SymbolId) (member : Member) : Prop where
  range : member.InRange s.graph
  method : ∃ f, member.body = .method f
  place : env.StandsAt m member.location
  bare : member.children = []

theorem IsMethod.congr {m : SymbolId} {member member' : Member} (h : IsMethod env s m member')
    (hsame : member.Resembles member') : IsMethod env s m member where
  range := hsame.inRange h.range
  method := by
    rcases hsame.body with hbody | ⟨f, f', hf, -⟩
    · rw [hbody]
      exact h.method
    · exact ⟨f, hf⟩
  place := hsame.location ▸ h.place
  bare := hsame.children.trans h.bare

theorem IsMethod.keep {m : SymbolId} {member : Member} (h : IsMethod env s m member) (hs : s.Keeps s') :
    IsMethod env s' m member :=
  ⟨h.range.mono hs.grows, h.method, h.place, h.bare⟩

theorem signatureMember (hinner : env.Trusted inner) {m : SymbolId} {slot : MemberRef}
    (hslot : s.graph.HasMember slot) {d : NodeId} (hd : env.Declares m d) :
    env.Safe ctx s (env.signatureMember inner m slot d) fun member s' => IsMethod env s' m member := by
  unfold Environment.signatureMember
  refine .ask fun facts _ => .ask fun sig _ => ?_
  refine (hinner.signature (by simpa using hslot) sig facts).bind fun signature s₁ _ hsignature => ?_
  refine .ask fun kind _ => .ask fun modifiers _ => .ask fun generator _ => .answer fun member hmember => ?_
  obtain ⟨hbody, hparent, hoverrides, hplace⟩ := commonMember_eq_ok hmember
  refine ⟨⟨fun r hr => hsignature r ?_, fun r hr => ?_⟩, ⟨_, hbody⟩, .inl ⟨d, hd, hplace⟩,
    by simp [Member.children, hbody]⟩
  · simpa [Member.typeRefs, hparent, hbody, MemberBody.typeRefs] using hr
  · simp [Member.memberRefs, hoverrides, hbody, MemberBody.listed, MemberBody.placed] at hr

/-- What is put in a place that is nobody's disturbs nothing if it owns nothing. -/
theorem setLoose {r : MemberRef} {member : Member} (hr : s.IsLoose r) (hmember : member.InRange s.graph)
    (hbare : member.children = []) :
    env.Safe ctx s (Resolve.setMember r member) fun _ _ => True := by
  refine .change (Session.setMember_run r member) (fun h => h.putMember hmember ?_ (fun _ => hbare) (.inl ?_))
    (.putMember s r member) trivial
  · exact fun key hkey => absurd hkey (hr.2 key)
  · exact member.overloads_eq_nil hbare ▸ .nil _ _

/-- An overload gets a place that is nobody's, and that no method lists yet. -/
theorem overload (hinner : env.Trusted inner) {m : SymbolId} (primary : Member) {d : NodeId}
    (hd : env.Declares m d) :
    env.Safe ctx s (env.overload inner m primary d) fun r s' => Session.MayList ctx.held s' [r] := by
  unfold Environment.overload
  refine .of_tidy fun ht => ?_
  have hspare := ht.apart.mayList_new ht.range (Member.children_placeholder primary.name)
  have hloose := (hspare.spare (List.mem_singleton_self _)).loose
  refine .change_then (Session.newMember_run _)
    (fun h => h.growMember (Member.placeholder_inRange _ _) (Member.children_placeholder _)) (.growMember s _) ?_
  refine (Safe.holding hspare (hinner.signatureMember hloose.1 hd)).bind fun member s₂ hs₂ ⟨hmember, hspare₂⟩ => ?_
  have hnamed : IsMethod env s₂ m { member with name := primary.name, visibility := primary.visibility } :=
    hmember.congr ⟨rfl, rfl, rfl, .inl rfl⟩
  exact (Safe.holding hspare₂ (setLoose (hs₂.loose hloose) hnamed.range hnamed.bare)).bind
    fun _ s₃ _ h => .pure h.2

/-- Overloads get different places: what was made first is held while the others are made. -/
theorem overloads (hinner : env.Trusted inner) {m : SymbolId} (primary : Member) {ds : List NodeId}
    (hds : ∀ d ∈ ds, env.Declares m d) :
    env.Safe ctx s (ds.mapM (env.overload inner m primary)) fun rs s' => Session.MayList ctx.held s' rs := by
  induction ds generalizing s ctx with
  | nil => exact .pure (.nil _ _)
  | cons d ds ih =>
    rw [List.mapM_cons]
    refine (hinner.overload primary (hds d (by simp))).bind fun r s₁ _ hr => ?_
    refine (Safe.holding hr (ih fun d' hd' => hds d' (by simp [hd']))).bind fun rs s₂ _ ⟨hrs, hr₂⟩ => ?_
    exact .pure (hr₂.cons hrs)

/-- Members in places that are nobody's can be read. -/
theorem getLoose {rs : List MemberRef} (hrs : ∀ r ∈ rs, s.IsLoose r) :
    env.Safe ctx s (rs.mapM Resolve.getMember) fun _ _ => True := by
  refine (Safe.mapM_mem (R := fun _ _ => True) (fun _ h => h) fun r hr s' hs => ?_).mono fun _ _ _ _ => trivial
  obtain ⟨member, hmember⟩ := Session.exists_memberAt? (hs.loose (hrs r hr)).1
  exact .change (Session.getMember_run hmember) id (.refl s') trivial

/-- Sharing summaries between declarations changes words only. -/
theorem sharedPrimary {m : SymbolId} {primary : Member} (hprimary : IsMethod env s m primary)
    {rs : List MemberRef} (hrs : ∀ r ∈ rs, s.IsLoose r) :
    env.Safe ctx s (env.sharedPrimary primary rs) fun member s' => IsMethod env s' m member := by
  unfold Environment.sharedPrimary
  split
  · unfold Environment.shareSummaries
    refine (getLoose hrs).bind fun found s₁ hs₁ _ => ?_
    have hfilled := (hprimary.keep hs₁).congr (.fillFromOverloads primary found)
    refine Safe.bind (Safe.forM fun r hr s' hs' => ?_) fun _ s₂ hs₂ _ => .pure (hfilled.keep hs₂)
    have hloose := hs'.loose (hs₁.loose (hrs r hr))
    refine .of_tidy fun ht => .getMember hloose.1 fun member hat hmember => ?_
    have hsame := Member.Resembles.fillFrom member (primary.fillFromOverloads found)
    exact setLoose hloose (hsame.inRange hmember) (hsame.children.trans (ht.apart.bare hloose hat))
  · exact .pure hprimary

theorem companion? (hinner : env.Trusted inner) {m : SymbolId} (hmethod : env.IsMethodLike m)
    (flags : SymbolFlags) :
    env.Safe ctx s (env.companion? inner m flags) fun v s' => ∀ r, v = some r →
      s'.memberOf? (.companion m) = some (some r) := by
  unfold Environment.companion?
  split
  · exact hinner.companion hmethod
  · exact .pure (by simp)

/-- A method with overloads that it may list and its companion is ready. -/
theorem IsMethod.built {m : SymbolId} {flags : SymbolFlags} (hflags : env.checker.symbolFlags m = .ok flags)
    (hclass : SymbolClass.of flags = .method) {d : NodeId} (hd : env.IsCallable m d) {member : Member}
    (h : IsMethod env s m member) {rs : List MemberRef} (hrs : Session.MayList ctx.held s rs)
    {v : Option MemberRef} (hv : ∀ r, v = some r → s.memberOf? (.companion m) = some (some r))
    (hrange : s.InRange) : env.Built ctx (.symbol m) (member.withOverloads rs v) s := by
  obtain ⟨f, hf⟩ := h.method
  have hwith : member.withOverloads rs v =
      { member with body := .method { f with overloads := rs, companion := v } } := by
    simp [Member.withOverloads, hf]
  rw [hwith]
  refine ⟨⟨⟨fun r hr => h.range.types r ?_, fun r hr => ?_⟩, ⟨⟨flags, hflags, ?_⟩, h.place⟩,
    fun r hr => ⟨m, rfl, hv r hr⟩⟩, hrs⟩
  · simpa [Member.typeRefs, hf, MemberBody.typeRefs] using hr
  · simp only [Member.memberRefs, MemberBody.listed, MemberBody.placed, List.mem_append,
      Option.mem_toList] at hr
    rcases hr with (hr | hr) | hr
    · exact h.range.members r (by simp [Member.memberRefs, hr])
    · exact (hrs.spare hr).loose.1
    · exact hrange.memberOf (hv r hr)
  · rw [hclass]
    exact .inl ⟨⟨d, hd⟩, _, rfl⟩

theorem method (hinner : env.Trusted inner) {m : SymbolId} {flags : SymbolFlags}
    (hflags : env.checker.symbolFlags m = .ok flags) (hclass : SymbolClass.of flags = .method)
    {slot : MemberRef} (hslot : s.graph.HasMember slot) :
    env.Safe ctx s (env.method inner m slot) (env.Built ctx (.symbol m)) := by
  unfold Environment.method
  refine .ask fun ds hds => .ask fun i hi => ?_
  have hcallable {d : NodeId} : d ∈ ds ↔ env.IsCallable m d := mem_callableDeclarations_iff hds
  have hdeclares {d : NodeId} (hd : d ∈ ds) : env.Declares m d := by
    obtain ⟨all, kind, hall, hmem, -⟩ := hcallable.1 hd
    exact .inr ⟨all, hall, hmem⟩
  cases hmain : ds[i]? with
  | none =>
    -- there is no declaration to be called
    have hempty : ds = [] := by
      by_contra hne
      exact absurd (List.getElem?_eq_none_iff.1 hmain) (Nat.not_le_of_lt (primaryIndex_lt hi hne))
    refine hinner.field fun s f => ⟨flags, hflags, ?_⟩
    rw [hclass]
    refine .inr ⟨?_, f, rfl⟩
    rintro ⟨d, hd⟩
    simpa [hempty] using hcallable.2 hd
  | some d =>
    have hd : d ∈ ds := List.mem_of_getElem? hmain
    refine (hinner.signatureMember hslot (hdeclares hd)).bind fun primary s₁ _ hprimary => ?_
    refine (hinner.overloads primary fun d' hd' => hdeclares (List.mem_of_mem_eraseIdx hd')).bind
      fun rs s₂ hs₂ hrs => ?_
    -- the overloads are this method's, so they are held until it is put in its place
    refine (Safe.holding hrs (sharedPrimary (hprimary.keep hs₂) fun r hr => (hrs.spare hr).loose)).bind
      fun shared s₃ _ ⟨hshared, hrs₃⟩ => ?_
    refine .ask fun flags' _ => ?_
    refine (Safe.holding hrs₃ (hinner.companion? ⟨flags, hflags, hclass⟩ flags')).bind
      fun v s₄ hs₄ ⟨hv, hrs₄⟩ => .of_tidy fun ht => .pure ?_
    exact (hshared.keep hs₄).built hflags hclass (hcallable.1 hd) hrs₄ hv ht.range

end Trusted

end Environment

end ApiDoc
