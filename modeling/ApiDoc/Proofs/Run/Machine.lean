import ApiDoc.Proofs.Run.Listing

/-!
# Resolution as a machine

Resolving is a mutual recursion over types and members that works on one session.  Here it is seen from
outside, as a machine that takes small steps: it opens a type or a member by reserving a place, works on
others while that one stays open, and closes it by putting in what was made.  The state is the session
together with what is open, innermost first.  `Environment.Step` lists every step there is, each with
what is known when it is taken; what holds of every reachable state is shown step by step
(`ApiDoc.Proofs.Run.Sound`), and that the resolver does nothing else is shown once
(`ApiDoc.Proofs.Run.Members`).

A request that fails leaves open what it has opened.  A later one starts on top of that, behind a
`Frame.request`.
-/

namespace ApiDoc

/-- The symbol that a key is about. -/
def MemberKey.owner : MemberKey → SymbolId
  | symbol m => m
  | companion m => m

/-- Something a run is in the middle of. -/
inductive Frame where
  /-- A request from outside. -/
  | request
  /-- A type whose node is not made yet. -/
  | type (t : TypeId)
  /-- A member that is not made yet. -/
  | member (key : MemberKey)
  /-- A member that is made, or made anew, as an override. -/
  | rebuild (m : SymbolId)
  /-- An overload that is not made yet, by its symbol, its declaration and its place. -/
  | overload (m : SymbolId) (decl : NodeId) (r : MemberRef)
  deriving DecidableEq

/-- The type or symbol that is worked on. -/
def Frame.entity? : Frame → Option Entity
  | request => none
  | type t => some (.type t)
  | member key => some (.symbol key.owner)
  | rebuild m => some (.symbol m)
  | overload m _ _ => some (.symbol m)

/-- A session in the middle of a run. -/
structure Stage where
  /-- What is open, innermost first. -/
  frames : List Frame
  /-- The session. -/
  session : Session

/-- The innermost work is on a type or symbol. -/
def WorksOn (fs : List Frame) (e : Entity) : Prop := ∃ f rest, fs = f :: rest ∧ f.entity? = some e

/-- The member with its link to what it overrides. -/
def Member.linkedTo (member : Member) (parent : TypeRef) (overrides : Option MemberRef) : Member :=
  { member with isOverride := true, parent := some parent, overrides }

namespace Environment

variable (env : Environment)

/-- What a run works on leads to a type or symbol; what comes from outside may be any. -/
def Leads (fs : List Frame) (e : Entity) : Prop := ∀ a, WorksOn fs a → env.LeadsTo a e

/-- A type among the type parameters of a symbol, or of the signature of one of its declarations. -/
inductive DeclaresParameter (m : SymbolId) (t : TypeId) : Prop
  | declared {ts} (hts : env.checker.declaredTypeParameters m = .ok ts) (ht : t ∈ ts)
  | signature {d sig ts} (hd : env.Declares m d) (hsig : env.checker.signatureFromDeclaration d = .ok sig)
      (hts : env.checker.signatureTypeParameters sig = .ok ts) (ht : t ∈ ts)

/-- What is worked on is the member in a place, and it lists some type parameters. -/
inductive Makes (fs : List Frame) (s : Session) (r : MemberRef) : Answer (List TypeId) → Prop
  /-- The member of a key. -/
  | member {key rest} (hfs : fs = .member key :: rest) (hr : s.memberOf? key = some (some r)) :
      Makes fs s r (env.parametersOf key)
  /-- A member made as an override. -/
  | rebuild {m rest} (hfs : fs = .rebuild m :: rest) (hr : s.memberOf? (.symbol m) = some (some r)) :
      Makes fs s r (env.parametersOf (.symbol m))
  /-- An overload. -/
  | overload {m decl rest} (hfs : fs = .overload m decl r :: rest) (hdecl : env.Declares m decl) :
      Makes fs s r (env.parametersAt decl)

/-- What is worked on is the member in a place, and it lists a type as a parameter. -/
def DeclaresAt (fs : List Frame) (s : Session) (r : MemberRef) (t : TypeId) : Prop :=
  ∃ ts, env.Makes fs s r (.ok ts) ∧ t ∈ ts

/-- The member as an override of what stands in another's place, whose documentation it takes over if
the settings say so. -/
def overrideOf (member : Member) (parent : TypeRef) (overrides : Option MemberRef)
    (inherited : Option Member) : Member :=
  match inherited with
  | some base =>
    if env.config.inheritDocs then (member.linkedTo parent overrides).inherit base
    else member.linkedTo parent overrides
  | none => member.linkedTo parent overrides

/-- One step of a run. -/
inductive Step : Stage → Stage → Prop
  /-- A `mixed` node for something without a type. -/
  | mixed {fs s} : Step ⟨fs, s⟩ ⟨fs, s.growType .mixed⟩
  /-- The member that declares a type parameter. -/
  | owner {fs s t r} (hdeclares : env.DeclaresAt fs s r t) : Step ⟨fs, s⟩ ⟨fs, s.recordOwner t r⟩
  /-- A type without parts. -/
  | leaf {fs s t shape node} (hnew : s.typeOf? t = none) (hshape : TypeShape.of env.checker t = .ok shape)
      (hnode : env.DepictsLeaf t shape node)
      (howner : shape = .parameter → ∃ name, node = .parameter name (s.ownerOf? t)) :
      Step ⟨fs, s⟩ ⟨fs, s.addType t node⟩
  /-- A type that stands for another. -/
  | share {fs s t base r} (hshape : TypeShape.of env.checker t = .ok (.substitution base))
      (hbase : s.typeOf? base = some r) (hold : ∀ r', s.typeOf? t = some r' → r' = r) :
      Step ⟨fs, s⟩ ⟨fs, s.shareType t r⟩
  /-- A type with parts gets its place. -/
  | openType {fs s t shape} (hnew : s.typeOf? t = none)
      (hshape : TypeShape.of env.checker t = .ok (.composite shape)) (hlead : env.Leads fs (.type t)) :
      Step ⟨fs, s⟩ ⟨.type t :: fs, s.addType t .mixed⟩
  /-- A type with parts gets its node. -/
  | closeType {fs s t shape r node} (hshape : TypeShape.of env.checker t = .ok (.composite shape))
      (hr : s.typeOf? t = some r) (hnode : env.DepictsComposite s t shape node) :
      Step ⟨.type t :: fs, s⟩ ⟨fs, s.putType r node⟩
  /-- A marker is passed over. -/
  | skip {fs s m} (hnew : s.memberOf? (.symbol m) = none) (hmarker : env.IsMarker m) :
      Step ⟨fs, s⟩ ⟨fs, s.skipMember (.symbol m)⟩
  /-- A member gets its place. -/
  | openMember {fs s key name} (hnew : s.memberOf? key = none) (hmarker : ¬ env.IsMarker key.owner)
      (hlead : env.Leads fs (.symbol key.owner)) :
      Step ⟨fs, s⟩ ⟨.member key :: fs, s.addMember key (.placeholder name)⟩
  /-- A member is put in its place. -/
  | closeMember {fs s key r old member} (hr : s.memberOf? key = some (some r))
      (hold : s.memberAt? r = some old) (hplain : ∀ m, key = .symbol m → old.isOverride = false)
      (hbuilt : env.IsBuilt key.owner member) (hdone : env.KeyDone s key)
      (hlists : s.ListsParameters member (env.parametersOf key)) :
      Step ⟨.member key :: fs, s⟩ ⟨fs, s.putMember r member⟩
  /-- An override has taken the place of a member. -/
  | keepMember {fs s m} (hmarked : s.IsMarked m) (hdone : env.KeyDone s (.symbol m)) :
      Step ⟨.member (.symbol m) :: fs, s⟩ ⟨fs, s⟩
  /-- An override gets its place. -/
  | openOverride {fs s owner m base name} (hnew : s.memberOf? (.symbol m) = none)
      (hmarker : ¬ env.IsMarker m) (hwork : WorksOn fs (.symbol owner))
      (hover : env.Overrides owner m base) :
      Step ⟨fs, s⟩ ⟨.rebuild m :: fs, s.addMember (.symbol m) (.placeholder name)⟩
  /-- A member that is not an override yet is made anew. -/
  | reopen {fs s owner m base r old} (hr : s.memberOf? (.symbol m) = some (some r))
      (hold : s.memberAt? r = some old) (hplain : old.isOverride = false)
      (hwork : WorksOn fs (.symbol owner)) (hover : env.Overrides owner m base) :
      Step ⟨fs, s⟩ ⟨.rebuild m :: fs, s⟩
  /-- An override is put in its place, linked to what it overrides. -/
  | link {fs s owner m base r member parent overrides} (hr : s.memberOf? (.symbol m) = some (some r))
      (hwork : WorksOn fs (.symbol owner)) (hover : env.Overrides owner m base)
      (hbuilt : env.IsBuilt m member) (hdone : env.KeyDone s (.symbol m))
      (hlists : s.ListsParameters member (env.parametersOf (.symbol m)))
      (hoverrides : env.HoldsMember s base.symbol overrides) (hparent : s.typeOf? base.base = some parent) :
      Step ⟨.rebuild m :: fs, s⟩
        ⟨fs, s.putMember r (env.overrideOf member parent overrides (overrides.bind s.memberAt?))⟩
  /-- An overload gets its place. -/
  | openOverload {fs s m decl name} (hwork : WorksOn fs (.symbol m)) (hdecl : env.Declares m decl) :
      Step ⟨fs, s⟩
        ⟨.overload m decl ⟨s.graph.members.size⟩ :: fs, s.growMember (.placeholder name)⟩
  /-- An overload is put in its place. -/
  | closeOverload {fs s m decl r member} (hdecl : env.Declares m decl) (hr : s.IsLoose r)
      (hparent : member.parent = none) (hoverrides : member.overrides = none)
      (hlists : s.ListsParameters member (env.parametersAt decl)) :
      Step ⟨.overload m decl r :: fs, s⟩ ⟨fs, s.putMember r member⟩
  /-- An overload has its gaps filled. -/
  | fill {fs s r old base} (hr : s.IsLoose r) (hold : s.memberAt? r = some old) :
      Step ⟨fs, s⟩ ⟨fs, s.putMember r (old.fillFrom base)⟩
  /-- A member is exported under a name. -/
  | export {fs s r member name} (hr : s.memberAt? r = some member) :
      Step ⟨fs, s⟩ ⟨fs, s.putMember r { member with exportName := name }⟩

/-- Any number of steps. -/
def Steps : Stage → Stage → Prop := Relation.ReflTransGen env.Step

/-- The states that requests lead to, whatever came of them. -/
inductive Reachable : Stage → Prop
  | start : Reachable ⟨[], {}⟩
  | step {c c'} : Reachable c → env.Step c c' → Reachable c'
  | again {fs s} : Reachable ⟨fs, s⟩ → Reachable ⟨.request :: fs, s⟩

variable {env}

theorem Reachable.steps {c c' : Stage} (hc : env.Reachable c) (h : env.Steps c c') :
    env.Reachable c' := by
  induction h with
  | refl => exact hc
  | tail _ hst ih => exact ih.step hst

theorem Makes.mono {fs : List Frame} {s s' : Session} {r : MemberRef} {x : Answer (List TypeId)}
    (h : env.Makes fs s r x) (hs : s.Extends s') : env.Makes fs s' r x := by
  cases h with
  | member hfs hr => exact .member hfs (hs.memberOf hr)
  | rebuild hfs hr => exact .rebuild hfs (hs.memberOf hr)
  | overload hfs hdecl => exact .overload hfs hdecl

theorem DeclaresAt.mono {fs : List Frame} {s s' : Session} {r : MemberRef} {t : TypeId}
    (h : env.DeclaresAt fs s r t) (hs : s.Extends s') : env.DeclaresAt fs s' r t := by
  obtain ⟨ts, hmakes, ht⟩ := h
  exact ⟨ts, hmakes.mono hs, ht⟩

/-- What is worked on leads to itself. -/
theorem Leads.of_worksOn {fs : List Frame} {a : Entity} (h : WorksOn fs a) : env.Leads fs a := by
  rintro a' ⟨f', rest', rfl, hf'⟩
  obtain ⟨f, rest, heq, hf⟩ := h
  obtain ⟨rfl, rfl⟩ := List.cons.inj heq
  obtain rfl : a = a' := Option.some.inj (hf.symm.trans hf')
  exact .refl

theorem Leads.of_mentions {fs : List Frame} {a e : Entity} (h : WorksOn fs a)
    (hm : env.Mentions a e) : env.Leads fs e :=
  fun a' ha' => (of_worksOn h a' ha').tail hm

theorem isOverride_overrideOf (member : Member) (parent : TypeRef) (overrides : Option MemberRef)
    (inherited : Option Member) :
    (env.overrideOf member parent overrides inherited).isOverride = true := by
  unfold overrideOf
  split
  · split <;> rfl
  · rfl

/-- The links of a member are those it was given, whatever documentation it takes over. -/
theorem overrideOf_links (member : Member) (parent : TypeRef) (overrides : Option MemberRef)
    (inherited : Option Member) :
    (env.overrideOf member parent overrides inherited).parent = some parent ∧
      (env.overrideOf member parent overrides inherited).overrides = overrides := by
  unfold overrideOf
  split
  · split <;> exact ⟨rfl, rfl⟩
  · exact ⟨rfl, rfl⟩

/-! ### What a step does to a session -/

/-- What a step remembers of types: a new node at the end, or a share in the node of what the type
stands for. -/
theorem Step.typeOf? {c c' : Stage} {t : TypeId} {r : TypeRef} (h : env.Step c c')
    (hr : c'.session.typeOf? t = some r) :
    c.session.typeOf? t = some r ∨
    (c.session.typeOf? t = none ∧ r = ⟨c.session.graph.types.size⟩ ∧
      c'.session.graph.types.size = c.session.graph.types.size + 1 ∧
      ∃ shape, TypeShape.of env.checker t = .ok shape ∧ ∀ base, shape ≠ .substitution base) ∨
    ∃ base, TypeShape.of env.checker t = .ok (.substitution base) ∧ c.session.typeOf? base = some r := by
  cases h with
  | @leaf _ s u shape node hnew hshape hnode _ =>
    obtain ⟨rfl, hplace⟩ | ⟨-, hr⟩ := Session.typeOf?_addType_eq_some_iff.1 hr
    · refine .inr (.inl ⟨hnew, hplace.symm, by simp, shape, hshape, ?_⟩)
      rintro base rfl
      exact hnode
    · exact .inl hr
  | @share _ s u base r' hshape hbase hold =>
    obtain ⟨rfl, rfl⟩ | ⟨-, hr⟩ := Session.typeOf?_shareType_eq_some_iff.1 hr
    · exact .inr (.inr ⟨base, hshape, hbase⟩)
    · exact .inl hr
  | @openType _ s u shape hnew hshape hlead =>
    obtain ⟨rfl, hplace⟩ | ⟨-, hr⟩ := Session.typeOf?_addType_eq_some_iff.1 hr
    · exact .inr (.inl ⟨hnew, hplace.symm, by simp, _, hshape, by simp⟩)
    · exact .inl hr
  | _ => exact .inl (by simpa using hr)

/-- What a step remembers of members: a new member at the end, or none for a marker. -/
theorem Step.memberOf? {c c' : Stage} {key : MemberKey} {v : Option MemberRef} (h : env.Step c c')
    (hv : c'.session.memberOf? key = some v) :
    c.session.memberOf? key = some v ∨
    c.session.memberOf? key = none ∧
      ((v = none ∧ ∃ m, key = .symbol m ∧ env.IsMarker m) ∨
        (v = some ⟨c.session.graph.members.size⟩ ∧
          c'.session.graph.members.size = c.session.graph.members.size + 1 ∧
          ¬ env.IsMarker key.owner)) := by
  cases h with
  | @skip _ s m hnew hmarker =>
    obtain ⟨rfl, hplace⟩ | ⟨-, hv⟩ := Session.memberOf?_skipMember_eq_some_iff.1 hv
    · exact .inr ⟨hnew, .inl ⟨hplace.symm, m, rfl, hmarker⟩⟩
    · exact .inl hv
  | @openMember _ s k name hnew hmarker hlead =>
    obtain ⟨rfl, hplace⟩ | ⟨-, hv⟩ := Session.memberOf?_addMember_eq_some_iff.1 hv
    · exact .inr ⟨hnew, .inr ⟨hplace.symm, by simp, hmarker⟩⟩
    · exact .inl hv
  | @openOverride _ s owner m base name hnew hmarker hwork hover =>
    obtain ⟨rfl, hplace⟩ | ⟨-, hv⟩ := Session.memberOf?_addMember_eq_some_iff.1 hv
    · exact .inr ⟨hnew, .inr ⟨hplace.symm, by simp, hmarker⟩⟩
    · exact .inl hv
  | _ => exact .inl (by simpa using hv)

/-- A step remembers at most one new type. -/
theorem Step.typeOf?_new {c c' : Stage} {t t' : TypeId} {r r' : TypeRef} (h : env.Step c c')
    (ht : c.session.typeOf? t = none) (ht' : c.session.typeOf? t' = none)
    (hr : c'.session.typeOf? t = some r) (hr' : c'.session.typeOf? t' = some r') : t = t' := by
  have hadd : ∀ u (s' : Session) (r₀ : TypeRef),
      (∀ v, s'.typeOf? v = if v = u then some r₀ else c.session.typeOf? v) →
      s'.typeOf? t = some r → s'.typeOf? t' = some r' → t = t' := by
    intro u s' r₀ hs' hr hr'
    rw [hs'] at hr hr'
    split at hr
    · split at hr'
      · simp_all
      · simp [ht'] at hr'
    · simp [ht] at hr
  cases h with
  | leaf => exact hadd _ _ _ (Session.typeOf?_addType _ _) hr hr'
  | openType => exact hadd _ _ _ (Session.typeOf?_addType _ _) hr hr'
  | share => exact hadd _ _ _ (Session.typeOf?_shareType _ _) hr hr'
  | _ => simp_all

/-- A step remembers at most one new member. -/
theorem Step.memberOf?_new {c c' : Stage} {key key' : MemberKey} {v v' : Option MemberRef}
    (h : env.Step c c') (hkey : c.session.memberOf? key = none)
    (hkey' : c.session.memberOf? key' = none) (hv : c'.session.memberOf? key = some v)
    (hv' : c'.session.memberOf? key' = some v') : key = key' := by
  have hadd : ∀ u (s' : Session) (v₀ : Option MemberRef),
      (∀ k, s'.memberOf? k = if k = u then some v₀ else c.session.memberOf? k) →
      s'.memberOf? key = some v → s'.memberOf? key' = some v' → key = key' := by
    intro u s' v₀ hs' hv hv'
    rw [hs'] at hv hv'
    split at hv
    · split at hv'
      · simp_all
      · simp [hkey'] at hv'
    · simp [hkey] at hv
  cases h with
  | skip => exact hadd _ _ _ (Session.memberOf?_skipMember _) hv hv'
  | openMember => exact hadd _ _ _ (Session.memberOf?_addMember _ _) hv hv'
  | openOverride => exact hadd _ _ _ (Session.memberOf?_addMember _ _) hv hv'
  | _ => simp_all

theorem Step.types_le {c c' : Stage} (h : env.Step c c') :
    c.session.graph.types.size ≤ c'.session.graph.types.size := by
  cases h <;> simp

theorem Step.members_le {c c' : Stage} (h : env.Step c c') :
    c.session.graph.members.size ≤ c'.session.graph.members.size := by
  cases h <;> simp

end Environment

end ApiDoc
