import ApiDoc.Proofs.Run.Requests

/-!
# Places and their type parameters

Each place of a member has a list of type parameters that belongs to it (`Environment.ListsAt`): that of its key, or of
the declaration that the place was made for as an overload.  A place owns no others, and the member that is made there
lists just those, each of which has an owner by then.  `Environment.Listed` holds of every state, shown step by step
(`Step.listed`).

`madeWith_of_maker` is about the pieces of the resolver that make the member of a place.  Whatever such a piece lists
has the place as its owner then, unless it had one when its turn came.
-/

namespace ApiDoc

namespace Environment

variable (env : Environment)

/-! ### The list of a place -/

/-- The list of type parameters of a place. -/
inductive ListOf (s : Session) (r : MemberRef) : Answer (List TypeId) → Prop
  /-- That of its key. -/
  | key {key} (hr : s.memberOf? key = some (some r)) : ListOf s r (env.parametersOf key)
  /-- That of a declaration, for an overload. -/
  | overload {m decl} (hr : s.IsLoose r) (hdecl : env.Declares m decl) : ListOf s r (env.parametersAt decl)

/-- Some type parameters are those of a place: of its key, or of the overload that is made there.  The place owns none
but those, and whatever has been made there lists them. -/
structure ListsAt (c : Stage) (r : MemberRef) (x : Answer (List TypeId)) : Prop where
  listOf : env.ListOf c.session r x
  overload {m decl} : .overload m decl r ∈ c.frames → x = env.parametersAt decl
  owned {t} : c.session.ownerOf? t = some r → ∃ ts, x = .ok ts ∧ t ∈ ts
  made {member} : c.session.memberAt? r = some member → member.IsUnmade ∨ c.session.ListsParameters member x

/-- Every place has its list, and what has been recorded are places that there are. -/
structure Listed (c : Stage) : Prop where
  places {r} : r.index < c.session.graph.members.size → ∃ x, env.ListsAt c r x
  owners {t r} : c.session.ownerOf? t = some r → r.index < c.session.graph.members.size
  overloads {m decl r} : .overload m decl r ∈ c.frames → r.index < c.session.graph.members.size

variable {env} {c c' : Stage} {fs : List Frame} {s s' : Session} {m : SymbolId} {decl : NodeId}
  {r : MemberRef} {member : Member} {t : TypeId} {ts : List TypeId} {x y : Answer (List TypeId)}

theorem ListOf.mono (h : env.ListOf s r x) (hs : s.Extends s') : env.ListOf s' r x := by
  cases h with
  | key hr => exact .key (hs.memberOf hr)
  | overload hr hdecl => exact .overload (hs.loose hr) hdecl

/-- A key that leads to a place tells its list. -/
theorem ListOf.eq_of_memberOf? {key : MemberKey} (h : env.ListOf c.session r x) (hs : env.Sound c)
    (hr : c.session.memberOf? key = some (some r)) : x = env.parametersOf key := by
  cases h with
  | key hr' => rw [hs.memberInj hr hr']
  | overload hloose _ => exact absurd hr (hloose.2 key)

/-- The list of a key is empty, or what its symbol declares, or the list of one of the declarations. -/
theorem parametersOf_eq_ok {key : MemberKey} (hts : env.parametersOf key = .ok ts) :
    ts = [] ∨ env.checker.declaredTypeParameters key.owner = .ok ts ∨
      ∃ decl, env.Declares key.owner decl ∧ env.parametersAt decl = .ok ts := by
  cases key with
  | companion m => exact .inr (.inl hts)
  | symbol m =>
    obtain ⟨flags, -, hts⟩ := bind_eq_ok_iff.1 hts
    cases hsort : SymbolClass.of flags <;> rw [hsort] at hts
    case method =>
      obtain ⟨decls, hdecls, hts⟩ := bind_eq_ok_iff.1 hts
      obtain ⟨index, -, hts⟩ := bind_eq_ok_iff.1 hts
      have hknown := env.covers_all.callableDeclarations (m := m) trivial
      rw [hdecls] at hknown
      cases hdecl : decls[index]? with
      | none =>
        rw [hdecl] at hts
        exact .inl (Except.ok.inj hts).symm
      | some decl =>
        rw [hdecl] at hts
        exact .inr (.inr ⟨decl, (hknown decl (List.mem_of_getElem? hdecl)).2, hts⟩)
    case classLike | «alias» => exact .inr (.inl hts)
    all_goals exact .inl (Except.ok.inj hts).symm

theorem declaresParameter_of_parametersAt (hdecl : env.Declares m decl) (hts : env.parametersAt decl = .ok ts)
    (ht : t ∈ ts) : env.DeclaresParameter m t := by
  obtain ⟨sig, hsig, hts⟩ := bind_eq_ok_iff.1 hts
  exact .signature hdecl hsig hts ht

theorem declaresParameter_of_parametersOf {key : MemberKey} (hts : env.parametersOf key = .ok ts) (ht : t ∈ ts) :
    env.DeclaresParameter key.owner t := by
  rcases parametersOf_eq_ok hts with rfl | hts | ⟨decl, hdecl, hts⟩
  · simp at ht
  · exact .declared hts ht
  · exact declaresParameter_of_parametersAt hdecl hts ht

/-- The type parameters in the list of a place are those of some symbol. -/
theorem ListOf.declares (h : env.ListOf s r x) (hx : x = .ok ts) (ht : t ∈ ts) : ∃ m, env.DeclaresParameter m t := by
  cases h with
  | key _ => exact ⟨_, declaresParameter_of_parametersOf hx ht⟩
  | overload _ hdecl => exact ⟨_, declaresParameter_of_parametersAt hdecl hx ht⟩

/-- What is worked on in a place is worked on with the list of the place. -/
theorem Makes.eq_of_listsAt (h : env.Makes c.frames c.session r y) (hx : env.ListsAt c r x) (hs : env.Sound c) :
    x = y := by
  cases h with
  | member _ hr | rebuild _ hr => exact hx.listOf.eq_of_memberOf? hs hr
  | overload hfs _ => exact hx.overload (hfs ▸ List.mem_cons_self)

/-- What is worked on in a place leads to what the type parameters in its list are made of. -/
theorem Makes.leads (h : env.Makes fs s r x) (hx : x = .ok ts) {e : Entity} (he : env.InTypeParameters ts e) :
    env.Leads fs e := by
  have hat {m : SymbolId} {decl : NodeId} (hdecl : env.Declares m decl) (hts : env.parametersAt decl = .ok ts) :
      env.Mentions (.symbol m) e := by
    obtain ⟨sig, hsig, hts⟩ := bind_eq_ok_iff.1 hts
    exact .signature hdecl hsig (.typeParameter hts he)
  have hof {key : MemberKey} (hts : env.parametersOf key = .ok ts) : env.Mentions (.symbol key.owner) e := by
    rcases parametersOf_eq_ok hts with rfl | hts | ⟨decl, hdecl, hts⟩
    · cases he <;> simp_all
    · exact .typeParameter hts he
    · exact hat hdecl hts
  cases h with
  | member hfs _ | rebuild hfs _ => exact .of_mentions ⟨_, _, hfs, rfl⟩ (hof hx)
  | overload hfs hdecl => exact .of_mentions ⟨_, _, hfs, rfl⟩ (hat hdecl hx)

theorem Makes.lt_size (h : env.Makes c.frames c.session r x) (hl : env.Listed c) (hs : env.Sound c) :
    r.index < c.session.graph.members.size := by
  cases h with
  | member _ hr | rebuild _ hr => exact hs.memberBound hr
  | overload hfs _ => exact hl.overloads (hfs ▸ List.mem_cons_self)

/-! ### What a step does to lists -/

/-- A step opens an overload only in a place behind all others. -/
theorem Step.overload_mem (h : env.Step c c') (hmem : .overload m decl r ∈ c'.frames) :
    .overload m decl r ∈ c.frames ∨
      r = ⟨c.session.graph.members.size⟩ ∧ c'.session.graph.members.size = c.session.graph.members.size + 1 := by
  cases h with
  | openOverload =>
    rcases List.mem_cons.1 hmem with heq | hmem
    · obtain ⟨-, -, rfl⟩ := Frame.overload.inj heq
      exact .inr ⟨rfl, by simp⟩
    · exact .inl hmem
  | openType | openMember | openOverride | reopen => exact .inl (by simpa using hmem)
  | closeType | closeMember | keepMember | link | closeOverload => exact .inl (List.mem_cons_of_mem _ hmem)
  | _ => exact .inl hmem

/-- A step records an owner only where a place lists the parameter. -/
theorem Step.ownerOf? (h : env.Step c c') (howner : c'.session.ownerOf? t = some r) :
    c.session.ownerOf? t = some r ∨ c.session.ownerOf? t = none ∧ env.DeclaresAt c.frames c.session r t ∧
      c' = ⟨c.frames, c.session.recordOwner t r⟩ := by
  cases h with
  | @owner fs s u r' hdeclares =>
    rw [Session.ownerOf?_recordOwner] at howner
    split at howner
    · next heq =>
      subst heq
      cases hold : s.ownerOf? t with
      | some old => exact .inl (by simpa [hold] using howner)
      | none =>
        obtain rfl : r' = r := by simpa [hold] using howner
        exact .inr ⟨rfl, hdeclares, rfl⟩
    · exact .inl howner
  | _ => exact .inl howner

@[simp]
theorem parameterNodes_overrideOf (member : Member) (parent : TypeRef) (overrides : Option MemberRef)
    (inherited : Option Member) :
    (env.overrideOf member parent overrides inherited).parameterNodes = member.parameterNodes := by
  unfold overrideOf
  split
  · split
    · exact Member.parameterNodes_inherit _ _
    · rfl
  · rfl

/-- What stands in a place after a step: what was just put there unmade, what was there and still lists the same, or
what has been made there. -/
theorem Step.memberAt? (h : env.Step c c') (hr : c'.session.memberAt? r = some member) :
    (r.index = c.session.graph.members.size ∧ member.IsUnmade) ∨
    (∃ old, c.session.memberAt? r = some old ∧ member.parameterNodes = old.parameterNodes ∧
      (old.IsUnmade → member.IsUnmade)) ∨
    ∃ x, env.Makes c.frames c.session r x ∧ c.session.ListsParameters member x := by
  have hsame {s : Session} (hr : s.memberAt? r = some member) : ∃ old, s.memberAt? r = some old ∧
      member.parameterNodes = old.parameterNodes ∧ (old.IsUnmade → member.IsUnmade) :=
    ⟨member, hr, rfl, id⟩
  have hadd {s : Session} {name : String} (hr : (if r.index = s.graph.members.size then some (Member.placeholder name)
      else s.memberAt? r) = some member) : (r.index = s.graph.members.size ∧ member.IsUnmade) ∨
        s.memberAt? r = some member := by
    split at hr
    · next heq => exact .inl ⟨heq, Option.some.inj hr ▸ Member.isUnmade_placeholder name⟩
    · exact .inr hr
  cases h with
  | openMember | openOverride =>
    exact (hadd ((Session.memberAt?_addMember _ _ _).symm.trans hr)).imp_right fun hold => .inl (hsame hold)
  | openOverload =>
    exact (hadd ((Session.memberAt?_growMember _ _).symm.trans hr)).imp_right fun hold => .inl (hsame hold)
  | @closeMember fs s key r' old new hslot hold hplain hbuilt hdone hlists =>
    rcases Session.memberAt?_of_putMember hr with ⟨rfl, rfl⟩ | ⟨-, hr⟩
    · exact .inr (.inr ⟨_, .member rfl hslot, hlists⟩)
    · exact .inr (.inl (hsame hr))
  | @link fs s owner m base r' new parent overrides hslot hwork hover hbuilt hdone hlists =>
    rcases Session.memberAt?_of_putMember hr with ⟨rfl, rfl⟩ | ⟨-, hr⟩
    · exact .inr (.inr ⟨_, .rebuild rfl hslot, hlists.congr (parameterNodes_overrideOf _ _ _ _)⟩)
    · exact .inr (.inl (hsame hr))
  | @closeOverload fs s m decl r' new hdecl hloose hparent hoverrides hlists =>
    rcases Session.memberAt?_of_putMember hr with ⟨rfl, rfl⟩ | ⟨-, hr⟩
    · exact .inr (.inr ⟨_, .overload rfl hdecl, hlists⟩)
    · exact .inr (.inl (hsame hr))
  | @fill fs s r' old base hloose hold =>
    rcases Session.memberAt?_of_putMember hr with ⟨rfl, rfl⟩ | ⟨-, hr⟩
    · exact .inr (.inl ⟨old, hold, by simp, fun hunmade => by rwa [hunmade.fillFrom]⟩)
    · exact .inr (.inl (hsame hr))
  | @«export» fs s r' old name hold =>
    rcases Session.memberAt?_of_putMember hr with ⟨rfl, rfl⟩ | ⟨-, hr⟩
    · refine .inr (.inl ⟨old, hold, rfl, ?_⟩)
      rintro ⟨plain, exported, rfl⟩
      exact ⟨plain, name, rfl⟩
    · exact .inr (.inl (hsame hr))
  | _ => exact .inr (.inl (hsame (by simpa using hr)))

/-! ### Every state -/

/-- A step leaves a place its list. -/
theorem ListsAt.step (hx : env.ListsAt c r x) (h : env.Step c c') (hs : env.Sound c)
    (hlt : r.index < c.session.graph.members.size) : env.ListsAt c' r x where
  listOf := hx.listOf.mono (h.extends hs)
  overload hmem := by
    rcases h.overload_mem hmem with hmem | ⟨rfl, -⟩
    · exact hx.overload hmem
    · exact absurd hlt (Nat.lt_irrefl _)
  owned {t} howner := by
    rcases h.ownerOf? howner with howner | ⟨-, ⟨ts, hmakes, ht⟩, -⟩
    · exact hx.owned howner
    · exact ⟨ts, hmakes.eq_of_listsAt hx hs, ht⟩
  made {member} hr := by
    rcases h.memberAt? hr with ⟨heq, -⟩ | ⟨old, hold, hnodes, hunmade⟩ | ⟨y, hmakes, hlists⟩
    · exact absurd hlt (heq ▸ Nat.lt_irrefl _)
    · rcases hx.made hold with hold | hlists
      · exact .inl (hunmade hold)
      · exact .inr ((hlists.mono (h.extends hs)).congr hnodes)
    · obtain rfl := hmakes.eq_of_listsAt hx hs
      exact .inr (hlists.mono (h.extends hs))

/-- The list of a place that a step has opened. -/
theorem Step.opened (h : env.Step c c') (hl : env.Listed c) (hs : env.Sound c)
    (hlt : r.index < c'.session.graph.members.size) (hnew : ¬ r.index < c.session.graph.members.size) :
    ∃ x, env.ListsAt c' r x := by
  have hwas (hsize : c'.session.graph.members.size = c.session.graph.members.size + 1) :
      r = ⟨c.session.graph.members.size⟩ := by
    obtain ⟨index⟩ := r
    simp only at hlt hnew
    congr 1
    omega
  -- nothing was in the place before, and nothing has been recorded
  have hfresh : ∀ x, env.ListOf c'.session r x →
      (∀ m decl, .overload m decl r ∈ c'.frames → x = env.parametersAt decl) → env.ListsAt c' r x := by
    refine fun x hlist hoverload => ⟨hlist, hoverload _ _, fun {t} howner => ?_, fun {member} hr => ?_⟩
    · rcases h.ownerOf? howner with howner | ⟨-, ⟨ts, hmakes, -⟩, -⟩
      · exact absurd (hl.owners howner) hnew
      · exact absurd (hmakes.lt_size hl hs) hnew
    · rcases h.memberAt? hr with ⟨-, hunmade⟩ | ⟨old, hold, -⟩ | ⟨y, hmakes, -⟩
      · exact .inl hunmade
      · exact absurd (Session.memberAt?_eq_some_lt hold) hnew
      · exact absurd (hmakes.lt_size hl hs) hnew
  have hkeyed (key : MemberKey) (hkey : c'.session.memberOf? key = some (some r))
      (hframes : ∀ m decl, .overload m decl r ∈ c'.frames → .overload m decl r ∈ c.frames) : ∃ x, env.ListsAt c' r x :=
    ⟨_, hfresh _ (.key hkey) fun m decl hmem => absurd (hl.overloads (hframes m decl hmem)) hnew⟩
  cases h with
  | @openMember fs s key name =>
    obtain rfl := hwas (by simp)
    exact hkeyed key (by simp [Session.memberOf?_addMember]) (by simp)
  | @openOverride fs s owner m base name =>
    obtain rfl := hwas (by simp)
    exact hkeyed (.symbol m) (by simp [Session.memberOf?_addMember]) (by simp)
  | @openOverload fs s m decl name hwork hdecl =>
    obtain rfl := hwas (by simp)
    refine ⟨_, hfresh _ (.overload ⟨hlt, fun key hkey => ?_⟩ hdecl) fun m' decl' hmem => ?_⟩
    · exact absurd (hs.memberBound hkey) hnew
    · rcases List.mem_cons.1 hmem with heq | hmem
      · obtain ⟨-, rfl, -⟩ := Frame.overload.inj heq
        rfl
      · exact absurd (hl.overloads hmem) hnew
  | _ => exact absurd (by simpa using hlt) hnew

/-- **A step leaves every place its list.** -/
theorem Step.listed (h : env.Step c c') (hl : env.Listed c) (hs : env.Sound c) : env.Listed c' where
  places {r} hlt := by
    by_cases hold : r.index < c.session.graph.members.size
    · obtain ⟨x, hx⟩ := hl.places hold
      exact ⟨x, hx.step h hs hold⟩
    · exact h.opened hl hs hlt hold
  owners {t r} howner := by
    rcases h.ownerOf? howner with howner | ⟨-, ⟨ts, hmakes, -⟩, -⟩
    · exact Nat.lt_of_lt_of_le (hl.owners howner) h.members_le
    · exact Nat.lt_of_lt_of_le (hmakes.lt_size hl hs) h.members_le
  overloads {m decl r} hmem := by
    rcases h.overload_mem hmem with hmem | ⟨rfl, hsize⟩
    · exact Nat.lt_of_lt_of_le (hl.overloads hmem) h.members_le
    · exact hsize ▸ Nat.lt_succ_self _

/-- **In every state, every place has its list.** -/
theorem Reachable.listed (hc : env.Reachable c) : env.Listed c := by
  induction hc with
  | start => exact ⟨fun hlt => absurd hlt (Nat.not_lt_zero _), nofun, nofun⟩
  | step hc hst ih => exact hst.listed ih hc.sound
  | again _ ih =>
    refine ⟨fun hlt => ?_, ih.owners, fun hmem => ih.overloads (by simpa using hmem)⟩
    obtain ⟨x, hx⟩ := ih.places hlt
    exact ⟨x, hx.listOf, fun hmem => hx.overload (by simpa using hmem), hx.owned, hx.made⟩

/-- What is recorded as listed is a type parameter of some symbol. -/
theorem DeclaresAt.declares (h : env.DeclaresAt fs s r t) (hc : env.Reachable ⟨fs, s⟩) :
    ∃ m, env.DeclaresParameter m t := by
  obtain ⟨ts, hmakes, ht⟩ := h
  obtain ⟨x, hx⟩ := hc.listed.places (hmakes.lt_size hc.listed hc.sound)
  exact hx.listOf.declares (hmakes.eq_of_listsAt hx hc.sound) ht

/-! ### Making a member -/

variable (env) in
/-- The piece of the resolver that makes the member in a place, by what is worked on. -/
def maker (inner : Resolver) (r : MemberRef) : Frame → Option (Resolve Member)
  | .member (.symbol m) | .rebuild m => some (env.buildMemberWith inner m r)
  | .member (.companion m) =>
    some (env.classOfKinds inner m r [.classDeclaration, .interfaceDeclaration, .moduleDeclaration])
  | .overload m decl _ => some (env.signatureMember inner m r decl)
  | .request | .type _ => none

/-- **A member that is made lists the type parameters of its place.**  Each has the place as its owner then, unless it
had one when its turn came. -/
theorem madeWith_of_maker {f : Frame} (hc : env.Reachable ⟨f :: fs, s⟩) (hmakes : env.Makes (f :: fs) s r x)
    {depth : Nat} {make : Resolve Member} (hmake : env.maker (env.recur depth) r f = some make)
    (hrun : make.run.run s = (.ok member, s')) : env.MadeWith (env.recur depth) r x s s' member := by
  have hinner := recur_serves env.covers_all env.freeGauge depth
  have hd : Affords env.freeGauge depth s := ⟨fun _ => trivial, fun _ => trivial⟩
  have hbuild {f : Frame} {m : SymbolId} (hf : f.entity? = some (.symbol m)) (hc : env.Reachable ⟨f :: fs, s⟩)
      (hmakes : env.Makes (f :: fs) s r (env.parametersOf (.symbol m)))
      (hrun : (env.buildMemberWith (env.recur depth) m r).run.run s = (.ok member, s')) :
      env.MadeWith (env.recur depth) r (env.parametersOf (.symbol m)) s s' member := by
    have hexec := Serves.buildMember env.covers_all hinner trivial trivial ⟨_, _, rfl, hf⟩ hmakes
    exact (hexec.of_ok hc hrun).2.2.2
  have hmakes' := hmakes
  cases hmakes with
  | @member key rest hfs hr =>
    obtain ⟨rfl, rfl⟩ := List.cons.inj hfs
    cases key with
    | symbol m =>
      obtain rfl := Option.some.inj hmake
      exact hbuild rfl hc hmakes' hrun
    | companion m =>
      obtain rfl := Option.some.inj hmake
      have hexec := Serves.classOfKinds env.covers_all hinner trivial ⟨_, _, rfl, rfl⟩ hmakes'
        (fun _ _ _ _ => trivial) hd [.classDeclaration, .interfaceDeclaration, .moduleDeclaration]
      exact (hexec.of_ok hc hrun).2.2.2
  | rebuild hfs hr =>
    obtain ⟨rfl, rfl⟩ := List.cons.inj hfs
    obtain rfl := Option.some.inj hmake
    exact hbuild rfl hc hmakes' hrun
  | overload hfs hdecl =>
    obtain ⟨rfl, rfl⟩ := List.cons.inj hfs
    obtain rfl := Option.some.inj hmake
    have hexec := Serves.signatureMember env.covers_all hinner trivial trivial hdecl ⟨_, _, rfl, rfl⟩ hmakes' hd
    exact (hexec.of_ok hc hrun).2.2

/-- The place is recorded before anything else is done about a type parameter. -/
theorem run_typeParameter_some (inner : Resolver) (summaries : NamedTexts) (r : MemberRef) (t : TypeId) (s : Session) :
    (env.typeParameter inner summaries (some r) t).run.run s =
      (env.typeParameter inner summaries none t).run.run (s.recordOwner t r) := rfl

/-- Where some type parameters have been listed, the next is recorded, and then it and the others are listed. -/
theorem run_typeParameters_append {inner : Resolver} {summaries : NamedTexts} {before rest : List TypeId}
    {ps : List TypeParameter}
    (hbefore : (env.typeParameters inner summaries (some r) before).run.run s = (.ok ps, s')) :
    ((env.typeParameters inner summaries (some r) (before ++ t :: rest)).run.run s).2 =
      ((do let p ← env.typeParameter inner summaries none t
           return p :: (← env.typeParameters inner summaries (some r) rest) :
        Resolve (List TypeParameter)).run.run (s'.recordOwner t r)).2 := by
  unfold typeParameters at hbefore ⊢
  rw [List.mapM_append, Exec.run_bind, hbefore, List.mapM_cons]
  dsimp only
  rw [Exec.run_bind, Exec.run_bind, run_typeParameter_some, ← Exec.run_bind]
  generalize (_ : Resolve (List TypeParameter)).run.run (s'.recordOwner t r) = p
  obtain ⟨e | ps', s''⟩ := p <;> rfl

/-- Listing type parameters of the place that is worked on is a run of the machine. -/
theorem Makes.exec_typeParameters (hmakes : env.Makes fs s r (.ok ts)) {us : List TypeId} (hsub : us ⊆ ts) (depth : Nat)
    (summaries : NamedTexts) : env.Exec (fun _ => True) ⟨fs, s⟩
      (env.typeParameters (env.recur depth) summaries (some r) us) fs fun _ _ => True := by
  refine (Serves.typeParameters env.covers_all (recur_serves env.covers_all env.freeGauge depth) (fun _ _ => trivial)
    (fun e he => hmakes.leads rfl (he.mono hsub)) ?_ ⟨fun _ => trivial, fun _ => trivial⟩ summaries).mono
      fun _ _ _ _ => trivial
  rintro r' ⟨⟩ u hu
  exact ⟨ts, hmakes, hsub hu⟩

/-- **A type parameter that a place lists has that place as its owner**, unless it had one when its turn came, and
whatever comes of listing it and those behind it. -/
theorem Makes.records {before rest : List TypeId} (hmakes : env.Makes fs s r (.ok (before ++ t :: rest)))
    (hc : env.Reachable ⟨fs, s⟩) {depth : Nat} {summaries : NamedTexts} {ps : List TypeParameter}
    (hbefore : (env.typeParameters (env.recur depth) summaries (some r) before).run.run s = (.ok ps, s')) :
    ((env.typeParameters (env.recur depth) summaries (some r) (before ++ t :: rest)).run.run s).2.ownerOf? t =
      (s'.ownerOf? t).or (some r) := by
  have hsteps := ((hmakes.exec_typeParameters (by simp) depth summaries).of_ok hc hbefore).1
  have hc₁ := hc.steps hsteps
  have hmakes₁ := hmakes.mono (hc.extends hsteps)
  have hstep : env.Step ⟨fs, s'⟩ ⟨fs, s'.recordOwner t r⟩ := .owner ⟨_, hmakes₁, by simp⟩
  have hc₂ := hc₁.step hstep
  have hmakes₂ := hmakes₁.mono (hstep.extends hc₁.sound)
  -- the place is recorded by now, and the rest is a run from there
  have hrest : env.Exec (fun _ => True) ⟨fs, s'.recordOwner t r⟩ (do
      let p ← env.typeParameter (env.recur depth) summaries none t
      return p :: (← env.typeParameters (env.recur depth) summaries (some r) rest)) fs fun _ _ => True := by
    refine (Serves.typeParameter env.covers_all (recur_serves env.covers_all env.freeGauge depth) trivial
      (List.mem_append_right before List.mem_cons_self) (fun e he => hmakes₂.leads rfl he) (by simp)
        ⟨fun _ => trivial, fun _ => trivial⟩ summaries).bind fun p s₂ hs₂ _ => ?_
    exact ((hmakes₂.mono hs₂).exec_typeParameters (by simp) depth summaries).bind fun _ _ _ _ => .pure trivial
  obtain ⟨fs', hsteps'⟩ := hrest.steps hc₂
  have howner : (s'.recordOwner t r).ownerOf? t = some ((s'.ownerOf? t).getD r) := by
    rw [Session.ownerOf?_recordOwner, if_pos rfl, Option.or_some]
  rw [run_typeParameters_append hbefore, Option.or_some]
  exact (hc₂.extends hsteps').ownerOf howner

end Environment

end ApiDoc
