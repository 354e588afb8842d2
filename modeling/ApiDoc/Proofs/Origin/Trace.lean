import ApiDoc.Proofs.Origin.Continuing

/-!
# Where members come from

Whatever is asked of the resolver, and whatever comes of it, what stands in the place of a key is a placeholder, or
the outcome of a run that built it, perhaps linked to what it overrides (`Environment.Origin`).  The run is known, with
the session it started from, so that what holds of each such run holds of every finished member; and the overloads
that it made are still what they were when it ended.

`Environment.Yields` says of a piece of the resolver that it goes on continuing a session and keeps track of origins,
with a postcondition if it succeeds.  The piece starts in one session and may continue an earlier one, the *base*:
what was made since then and is unclaimed yet is the piece's own, and may be changed.
-/

namespace ApiDoc

namespace Environment

variable (env : Environment)

/-- The run that builds the member of a key, to stand at a place. -/
def buildKey (inner : Resolver) (slot : MemberRef) : MemberKey → Resolve Member
  | .symbol m => env.buildMemberWith inner m slot
  | .companion m => env.classOfKinds inner m slot [.classDeclaration, .interfaceDeclaration, .moduleDeclaration]

/-- A member that was built for a key in the past of a session, and whose overloads are what they were then. -/
def BuiltFor (s : Session) (key : MemberKey) (member : Member) : Prop :=
  ∃ depth slot s₀ s₁, s₀.Anchored ∧ (env.buildKey (env.recur depth) slot key).run.run s₀ = (.ok member, s₁) ∧
    s₁.Recalls s ∧
    ∀ o ∈ member.overloads, s₁.MemberAside o → s.MemberAside o ∧ s.memberAt? o = s₁.memberAt? o

/-- How a member came into the place of a key: it was reserved, it was built there, or it was built and linked to
what it overrides.  The name under which it is exported may have been added since. -/
inductive Origin (s : Session) (key : MemberKey) : Member → Prop
  | reserved (name : String) (exported : Option String) :
      Origin s key { Member.placeholder name with exportName := exported }
  | built {member : Member} (h : env.BuiltFor s key member) (exported : Option String) :
      Origin s key { member with exportName := exported }
  | linked {member : Member} (h : env.BuiltFor s key member) (parent : TypeRef) (overrides : Option MemberRef)
      (inherited : Option Member) (exported : Option String) :
      Origin s key { env.overrideOf member parent overrides inherited with exportName := exported }

/-- The origin of every member in the place of a key is known. -/
def Traced (s : Session) : Prop :=
  ∀ key o member, (key, some o) ∈ s.memberMemo → s.memberAt? o = some member → env.Origin s key member

/-- What a piece of the resolver leaves behind it: a session that continues the base, in which entries lead somewhere
and the origin of members is known if it was before. -/
structure Passes (base s s' : Session) : Prop where
  anchored : s'.Anchored
  continues : base.Continues s'
  traced : env.Traced s → env.Traced s'

/-- A piece of the resolver goes on continuing the base. -/
def Yields (base s : Session) {α : Type} (x : Resolve α) (post : α → Session → Prop) : Prop :=
  s.Anchored → base.Continues s →
    match x.run.run s with
    | (.ok a, s') => env.Passes base s s' ∧ post a s'
    | (.error _, s') => env.Passes base s s'

/-- The overloads of a member that was built from one session to another were made in between. -/
def Made (s : Session) (member : Member) (s' : Session) : Prop :=
  ∀ o ∈ member.overloads, s.graph.members.size ≤ o.index ∧ o.index < s'.graph.members.size

variable {env} {base s s' : Session} {key : MemberKey} {member : Member} {o : MemberRef} {α β : Type}

/-! ### Origins -/

theorem BuiltFor.mono (h : env.BuiltFor s key member) (hs : s.Continues s') : env.BuiltFor s' key member := by
  obtain ⟨depth, slot, s₀, s₁, hs₀, hrun, hs₁, hown⟩ := h
  refine ⟨depth, slot, s₀, s₁, hs₀, hrun, hs₁.trans hs.toRecalls, fun o ho haside => ?_⟩
  obtain ⟨hstill, hsame⟩ := hown o ho haside
  obtain ⟨hstill', hsame'⟩ := hs.member hstill
  exact ⟨hstill', hsame'.trans hsame⟩

/-- The overloads of a built member do not change when something else does. -/
theorem BuiltFor.differs {os : List MemberRef} (h : env.BuiltFor s key member) (hd : s.DiffersAt os s')
    (hos : ∀ o ∈ os, o ∈ member.overloads → ¬ s.MemberAside o) : env.BuiltFor s' key member := by
  obtain ⟨depth, slot, s₀, s₁, hs₀, hrun, hs₁, hown⟩ := h
  refine ⟨depth, slot, s₀, s₁, hs₀, hrun, hs₁.trans (.differs hd), fun o ho haside => ?_⟩
  obtain ⟨hstill, hsame⟩ := hown o ho haside
  have hother : o ∉ os := fun hmem => hos o hmem ho hstill
  refine ⟨⟨hd.size ▸ hstill.1, hd.memberMemo ▸ hstill.2⟩, ?_⟩
  rw [hd.memberAt hother, hsame]

@[simp]
theorem overloads_overrideOf (member : Member) (parent : TypeRef) (overrides : Option MemberRef)
    (inherited : Option Member) :
    (env.overrideOf member parent overrides inherited).overloads = member.overloads := by
  unfold overrideOf
  split
  · split
    · exact (Member.Resembles.inherit _ _).overloads
    · rfl
  · rfl

/-- What holds of built members holds of origins, if linking and exporting keep it. -/
theorem Origin.mono (h : env.Origin s key member)
    (hs : ∀ m : Member, m.overloads = member.overloads → env.BuiltFor s key m → env.BuiltFor s' key m) :
    env.Origin s' key member := by
  cases h with
  | reserved name exported => exact .reserved name exported
  | @built m h exported => exact .built (hs m rfl h) exported
  | linked h parent overrides inherited exported =>
    exact .linked (hs _ (overloads_overrideOf _ parent overrides inherited).symm h) parent overrides inherited exported

theorem Origin.export (h : env.Origin s key member) (exported : Option String) :
    env.Origin s key { member with exportName := exported } := by
  cases h with
  | reserved name _ => exact .reserved name exported
  | built h _ => exact .built h exported
  | linked h parent overrides inherited _ => exact .linked h parent overrides inherited exported

namespace Traced

theorem empty : env.Traced {} := by
  intro key o member hkey
  simp at hkey

/-- Where the same is remembered of members, and members in the place of keys are the same. -/
theorem of_same (h : env.Traced s) (hs : s.Continues s')
    (hmemo : ∀ key o, (key, some o) ∈ s'.memberMemo → (key, some o) ∈ s.memberMemo)
    (hat : ∀ key o, (key, some o) ∈ s.memberMemo → s'.memberAt? o = s.memberAt? o) : env.Traced s' := by
  intro key o member hkey hmember
  have hold := hmemo key o hkey
  rw [hat key o hold] at hmember
  exact (h key o member hold hmember).mono fun _ _ hbuilt => hbuilt.mono hs

/-- A place is reserved for a key. -/
theorem addMember (h : env.Traced s) (hs : s.Anchored) (key : MemberKey) (name : String) :
    env.Traced (s.addMember key (.placeholder name)) := by
  intro k o member hk hmember
  rw [Session.memberAt?_addMember] at hmember
  rcases List.mem_cons.1 hk with heq | hk
  · obtain rfl := Option.some.inj (Prod.mk.inj heq).2
    rw [if_pos rfl] at hmember
    obtain rfl := Option.some.inj hmember
    exact .reserved name none
  · rw [if_neg (Nat.ne_of_lt (hs.members hk))] at hmember
    exact (h k o member hk hmember).mono fun _ _ hbuilt => hbuilt.mono (.addMember s key name)

/-- Members change in the places of keys, and have an origin there, or some change that nobody claims. -/
theorem differs {os : List MemberRef} (h : env.Traced s) (hd : s.DiffersAt os s')
    (hos : (∀ o ∈ os, ∃ key, (key, some o) ∈ s.memberMemo) ∨ ∀ o ∈ os, s.Unclaimed o)
    (horigin : ∀ o ∈ os, ∀ key member, (key, some o) ∈ s.memberMemo → s'.memberAt? o = some member →
      env.Origin s key member) : env.Traced s' := by
  intro key o member hkey hmember
  rw [hd.memberMemo] at hkey
  by_cases hmem : o ∈ os
  · refine (horigin o hmem key member hkey hmember).mono fun m _ hbuilt => hbuilt.differs hd fun o' ho' _ haside => ?_
    rcases hos with hplaces | hunclaimed
    · obtain ⟨key', hkey'⟩ := hplaces o' ho'
      exact haside.2 key' hkey'
    · exact (hunclaimed o hmem).aside.2 key hkey
  · rw [hd.memberAt hmem] at hmember
    refine (h key o member hkey hmember).mono fun m hsame hbuilt => hbuilt.differs hd fun o' ho' hlists haside => ?_
    rcases hos with hplaces | hunclaimed
    · obtain ⟨key', hkey'⟩ := hplaces o' ho'
      exact haside.2 key' hkey'
    · exact (hunclaimed o' ho').unlisted ⟨o, member, hmember, hsame ▸ hlists⟩

end Traced

/-! ### What changes leave behind them -/

namespace Passes

theorem refl (ha : s.Anchored) (hs : base.Continues s) : env.Passes base s s := ⟨ha, hs, id⟩

theorem trans {s'' : Session} (h : env.Passes base s s') (h' : env.Passes base s' s'') : env.Passes base s s'' :=
  ⟨h'.anchored, h'.continues, fun ht => h'.traced (h.traced ht)⟩

/-- What continues a session continues what that session continues. -/
theorem rebase (h : env.Passes s s s') (hs : base.Continues s) : env.Passes base s s' :=
  ⟨h.anchored, hs.trans h.continues, h.traced⟩

/-- A change that leaves the members and what is remembered of them as they are. -/
theorem of_types (hs : base.Continues s) (ha : s'.Anchored) (hs' : s.Continues s')
    (hmemo : s'.memberMemo = s.memberMemo) (hmembers : s'.graph.members = s.graph.members) :
    env.Passes base s s' where
  anchored := ha
  continues := hs.trans hs'
  traced ht := by
    refine ht.of_same hs' (fun key o h => hmemo ▸ h) fun key o _ => ?_
    rw [Session.memberAt?, Session.memberAt?, hmembers]

variable (ha : s.Anchored) (hs : base.Continues s)

include ha hs

theorem growType (node : TypeNode) : env.Passes base s (s.growType node) :=
  of_types hs (ha.growType node) (.growType s node) rfl rfl

theorem addType (t : TypeId) (node : TypeNode) : env.Passes base s (s.addType t node) :=
  of_types hs (ha.addType t node) (.addType s t node) rfl rfl

theorem shareType {t : TypeId} {r : TypeRef} (ht : (t, r) ∈ s.typeMemo) (u : TypeId) :
    env.Passes base s (s.shareType u r) :=
  of_types hs (ha.shareType ht u) (.shareType ht u) rfl rfl

theorem putType {t : TypeId} {r : TypeRef} (ht : (t, r) ∈ s.typeMemo) (node : TypeNode) :
    env.Passes base s (s.putType r node) :=
  of_types hs (ha.putType r node) (.putType ht node) rfl rfl

theorem recordOwner (t : TypeId) (o : MemberRef) : env.Passes base s (s.recordOwner t o) :=
  of_types hs (ha.recordOwner t o) (.recordOwner s t o) (by simp) (by simp)

theorem growMember (name : String) : env.Passes base s (s.growMember (.placeholder name)) where
  anchored := ha.growMember name
  continues := hs.trans (.growMember s name)
  traced ht := ht.of_same (.growMember s name) (fun _ _ => id) fun key o hkey => by
    rw [Session.memberAt?_growMember, if_neg (Nat.ne_of_lt (ha.members hkey))]

theorem addMember (key : MemberKey) (name : String) : env.Passes base s (s.addMember key (.placeholder name)) where
  anchored := ha.addMember key name
  continues := hs.trans (.addMember s key name)
  traced ht := ht.addMember ha key name

theorem skipMember (key : MemberKey) : env.Passes base s (s.skipMember key) where
  anchored := ha.skipMember key
  continues := hs.trans (.skipMember s key)
  traced ht := ht.of_same (.skipMember s key) (fun k o hk => by simpa [Session.skipMember] using hk) fun _ _ _ => rfl

/-- The place of a key gets a member with an origin, whose overloads are listed already or made since the base. -/
theorem putMember (hkey : (key, some o) ∈ s.memberMemo) (horigin : env.Traced s → env.Origin s key member)
    (hlists : ∀ o' ∈ member.overloads, s.Lists o' ∨
      base.graph.members.size ≤ o'.index ∧ o'.index < s.graph.members.size) :
    env.Passes base s (s.putMember o member) := by
  have hd := Session.differsAt_putMember s o member
  have hat : ∀ o' ∈ [o], ∀ m, (s.putMember o member).memberAt? o' = some m → m = member := by
    intro o' ho' m hm
    obtain rfl := List.mem_singleton.1 ho'
    rw [Session.memberAt?_putMember_self (ha.members hkey)] at hm
    exact (Option.some.inj hm).symm
  refine ⟨ha.differs hd fun o' ho' m hm r hr => ?_, hs.differs hd (by simpa using .inl ⟨key, hkey⟩)
    fun o' ho' m hm r hr => ?_, fun ht => ht.differs hd (.inl (by simpa using ⟨key, hkey⟩))
    fun o' ho' key' m hkey' hm => ?_⟩
  · obtain rfl := hat o' ho' m hm
    exact (hlists r hr).elim ha.listed And.right
  · obtain rfl := hat o' ho' m hm
    exact (hlists r hr).imp_right And.left
  · obtain rfl := hat o' ho' m hm
    obtain rfl := List.mem_singleton.1 ho'
    obtain rfl := ha.apart hkey hkey'
    exact horigin ht

/-- What was made since the base and is unclaimed may be changed. -/
theorem amend {os : List MemberRef} (hd : s.DiffersAt os s')
    (hos : ∀ o ∈ os, s.Unclaimed o ∧ base.graph.members.size ≤ o.index)
    (hbare : ∀ o ∈ os, ∀ m, s'.memberAt? o = some m → m.overloads = []) : env.Passes base s s' where
  anchored := ha.differs hd fun o ho m hm => by simp [hbare o ho m hm]
  continues := hs.differs hd (fun o ho => .inr (hos o ho).2) fun o ho m hm => by simp [hbare o ho m hm]
  traced ht := ht.differs hd (.inr fun o ho => (hos o ho).1) fun o ho key _ hkey =>
    absurd hkey ((hos o ho).1.aside.2 key)

end Passes

namespace Yields

/-! ### Sequences -/

variable {P Q : α → Session → Prop}

theorem of_anchored {x : Resolve α} (h : s.Anchored → env.Yields base s x P) : env.Yields base s x P :=
  fun ha => h ha ha

theorem pure {a : α} (h : P a s) : env.Yields base s (Pure.pure a) P :=
  fun ha hs => ⟨.refl ha hs, h⟩

theorem fails {e : Error} : env.Yields base s (throw e) P :=
  fun ha hs => .refl ha hs

/-- The second part starts where the first left off. -/
theorem bind_own {x : Resolve α} {f : α → Resolve β} {Q : β → Session → Prop} (hx : env.Yields base s x P)
    (hf : ∀ a s', base.Continues s' → P a s' → env.Yields base s' (f a) Q) : env.Yields base s (x >>= f) Q := by
  intro ha hs
  have h := hx ha hs
  rw [Exec.run_bind]
  generalize x.run.run s = p at h
  obtain ⟨r, s'⟩ := p
  cases r with
  | error e => exact h
  | ok a =>
    obtain ⟨hpass, hP⟩ := h
    have h' := hf a s' hpass.continues hP hpass.anchored hpass.continues
    dsimp only at h' ⊢
    generalize (f a).run.run s' = p at h'
    obtain ⟨r, s''⟩ := p
    cases r with
    | ok b => exact ⟨hpass.trans h'.1, h'.2⟩
    | error e => exact hpass.trans h'

/-- A piece that changes nothing of its own continues the session it starts from. -/
theorem on {x : Resolve α} (hx : env.Yields s s x P) :
    env.Yields base s x fun a s' => s.Continues s' ∧ P a s' := by
  intro ha hs
  have h := hx ha (.refl s)
  generalize x.run.run s = p at h
  obtain ⟨r, s'⟩ := p
  cases r with
  | error e => exact h.rebase hs
  | ok a => exact ⟨h.1.rebase hs, h.1.continues, h.2⟩

theorem bind {x : Resolve α} {f : α → Resolve β} {Q : β → Session → Prop} (hx : env.Yields s s x P)
    (hf : ∀ a s', s.Continues s' → P a s' → env.Yields base s' (f a) Q) : env.Yields base s (x >>= f) Q :=
  hx.on.bind_own fun a s' _ h => hf a s' h.1 h.2

theorem mono {x : Resolve α} (hx : env.Yields base s x P) (h : ∀ a s', base.Continues s' → P a s' → Q a s') :
    env.Yields base s x Q := by
  have hbind := hx.bind_own fun a s' hs hp => Yields.pure (h a s' hs hp)
  rwa [bind_pure] at hbind

/-- What comes of a piece is what its run says. -/
theorem ran {x : Resolve α} (hx : env.Yields base s x P) :
    env.Yields base s x fun a s' => P a s' ∧ s.Anchored ∧ x.run.run s = (.ok a, s') := by
  intro ha hs
  have h := hx ha hs
  generalize x.run.run s = p at h
  obtain ⟨r, s'⟩ := p
  cases r with
  | error e => exact h
  | ok a => exact ⟨h.1, h.2, ha, rfl⟩

/-- An answer of the checker changes nothing. -/
theorem ask {x : Answer α} {f : α → Resolve β} {Q : β → Session → Prop}
    (hf : ∀ a, x = .ok a → env.Yields base s (f a) Q) : env.Yields base s (liftM x >>= f) Q := by
  cases x with
  | ok a => exact hf a rfl
  | error e => exact fails

theorem answer {x : Answer α} (h : ∀ a, x = .ok a → P a s) : env.Yields base s (liftM x) P := by
  cases x with
  | ok a => exact pure (h a rfl)
  | error e => exact fails

theorem get {f : Session → Resolve β} {Q : β → Session → Prop} (h : env.Yields base s (f s) Q) :
    env.Yields base s (MonadState.get >>= f) Q :=
  h

/-- A change of the session. -/
theorem change {x : Resolve α} {a : α} (hrun : x.run.run s = (.ok a, s'))
    (hpass : s.Anchored → base.Continues s → env.Passes base s s') (h : P a s') : env.Yields base s x P := by
  intro ha hs
  rw [hrun]
  exact ⟨hpass ha hs, h⟩

/-- A change and what comes after it. -/
theorem change_then {x : Resolve α} {a : α} {f : α → Resolve β} {Q : β → Session → Prop}
    (hrun : x.run.run s = (.ok a, s')) (hpass : s.Anchored → base.Continues s → env.Passes base s s')
    (hf : base.Continues s' → env.Yields base s' (f a) Q) : env.Yields base s (x >>= f) Q := by
  have hx : env.Yields base s x fun b s₁ => b = a ∧ s₁ = s' := change hrun hpass ⟨rfl, rfl⟩
  refine hx.bind_own ?_
  rintro _ _ hs ⟨rfl, rfl⟩
  exact hf hs

/-- A member that is read is the one that is there. -/
theorem getMember {r : MemberRef} {f : Member → Resolve β} {Q : β → Session → Prop}
    (h : ∀ member, s.memberAt? r = some member → env.Yields base s (f member) Q) :
    env.Yields base s (Resolve.getMember r >>= f) Q := by
  intro ha hs
  rw [Exec.run_bind]
  cases hr : s.memberAt? r with
  | some member =>
    rw [Session.getMember_run hr]
    exact h member hr ha hs
  | none =>
    rw [Session.getMember_run_of_none hr]
    exact .refl ha hs

/-! ### What comes of a piece -/

theorem of_ok {x : Resolve α} (h : env.Yields base s x P) (ha : s.Anchored) (hs : base.Continues s) {a : α}
    (hrun : x.run.run s = (.ok a, s')) : env.Passes base s s' ∧ P a s' := by
  have hx := h ha hs
  rwa [hrun] at hx

theorem of_run {x : Resolve α} (h : env.Yields base s x P) (ha : s.Anchored) (hs : base.Continues s) :
    env.Passes base s (x.run.run s).2 := by
  have hx := h ha hs
  rcases hrun : x.run.run s with ⟨r, s'⟩
  rw [hrun] at hx
  cases r with
  | ok a => exact hx.1
  | error e => exact hx

/-! ### Lists -/

/-- Elements are worked on in order, and what holds of each stays so. -/
theorem mapM {f : α → Resolve β} {R : Session → α → β → Prop} {xs : List α}
    (hR : ∀ {s s' a b}, s.Continues s' → R s a b → R s' a b)
    (hf : ∀ a ∈ xs, ∀ s', s.Continues s' → env.Yields s' s' (f a) fun b s'' => R s'' a b) :
    env.Yields s s (xs.mapM f) fun bs s' => List.Forall₂ (R s') xs bs := by
  induction xs generalizing s with
  | nil => exact .pure .nil
  | cons a xs ih =>
    rw [List.mapM_cons]
    refine (hf a (by simp) s (.refl s)).bind fun b s₁ hs₁ hb => ?_
    refine (ih fun a' ha' s' hs' => hf a' (by simp [ha']) s' (hs₁.trans hs')).bind
      fun bs s₂ hs₂ hbs => .pure ?_
    exact .cons (hR hs₂ hb) hbs

theorem optionMapM {f : α → Resolve β} {R : Session → α → β → Prop} {x : Option α}
    (hf : ∀ a, x = some a → env.Yields s s (f a) fun b s' => R s' a b) :
    env.Yields s s (x.mapM f) fun b s' => Option.Rel (R s') x b := by
  cases x with
  | none => exact .pure .none
  | some a => exact (hf a rfl).bind fun b s' _ hb => .pure (.some hb)

/-- What is accumulated keeps an invariant about the elements that were worked on. -/
theorem foldlM {f : β → α → Resolve β} {I : Session → List α → β → Prop} {xs : List α} (done : List α) {b : β}
    (hb : I s done b)
    (hf : ∀ done a b s', s.Continues s' → I s' done b →
      env.Yields s' s' (f b a) fun b' s'' => I s'' (done ++ [a]) b') :
    env.Yields s s (xs.foldlM f b) fun b' s' => I s' (done ++ xs) b' := by
  induction xs generalizing s b done with
  | nil => exact .pure (by simpa using hb)
  | cons a xs ih =>
    rw [List.foldlM_cons]
    refine (hf done a b s (.refl s) hb).bind fun b₁ s₁ hs₁ hb₁ => ?_
    have hrest := ih (done ++ [a]) hb₁ fun done' a' b' s' hs' => hf done' a' b' s' (hs₁.trans hs')
    rw [List.append_assoc] at hrest
    exact hrest.on.mono fun _ _ _ h => h.2

end Yields

/-! ### Resolvers -/

/-- A resolver of some depth whose answers are what is remembered afterwards. -/
structure Answers (env : Environment) (inner : Resolver) : Prop where
  recur : ∃ depth, inner = env.recur depth
  type {s : Session} (t : TypeId) : env.Yields s s (inner.type t) fun r s' => (t, r) ∈ s'.typeMemo
  member {s : Session} (m : SymbolId) : env.Yields s s (inner.member m) fun v s' => (.symbol m, v) ∈ s'.memberMemo
  build {s : Session} (m : SymbolId) (slot : MemberRef) : env.Yields s s (inner.build m slot) (Made s)

end Environment

end ApiDoc
