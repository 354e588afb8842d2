import ApiDoc.Proofs.Contents.Tidy
import ApiDoc.Proofs.Run.Exec

/-!
# Pieces of the resolver that keep a session tidy

`Environment.Safe` says of a piece of the resolver that it keeps a session tidy.  If it succeeds, no other keys
are pending than before, and its answer satisfies a postcondition; if it fails, the only other keys that are pending
are those whose own resolution failed, then and there (`Environment.FailedMember`).  Overloads that are held remain
spare.  The rules follow the ways in which the resolver is put together.
-/

namespace ApiDoc

namespace Environment

/-- The resolution of a key that was not met before has failed with an error, and this is the session it left.  A
symbol is resolved for itself or as an override. -/
def FailedMember (env : Environment) (e : Error) (s : Session) : MemberKey → Prop
  | .symbol m => ∃ depth s₀, s₀.memberOf? (.symbol m) = none ∧
      (((env.recur depth).member m).run.run s₀ = (.error e, s) ∨
        ∃ base, (env.overriding (env.recur depth) m base).run.run s₀ = (.error e, s))
  | .companion m => ∃ depth s₀, s₀.memberOf? (.companion m) = none ∧
      (env.companion (env.recur depth) m).run.run s₀ = (.error e, s)

/-- The keys that are pending when a piece fails. -/
def failing (env : Environment) (ctx : Context) (e : Error) (s : Session) : Context :=
  { ctx with pending := fun key => ctx.pending key ∨ env.FailedMember e s key }

/-- A piece of the resolver keeps a session tidy, whatever comes of it. -/
def Safe (env : Environment) (ctx : Context) (s : Session) {α : Type} (x : Resolve α)
    (post : α → Session → Prop) : Prop :=
  env.Tidy ctx s →
    match x.run.run s with
    | (.ok a, s') => env.Tidy ctx s' ∧ s.Keeps s' ∧ post a s'
    | (.error e, s') => env.Tidy (env.failing ctx e s') s' ∧ s.Keeps s'

variable {env : Environment} {ctx : Context} {α β : Type} {s s' : Session}

namespace Safe

/-! ### Sequences -/

theorem of_tidy {x : Resolve α} {post : α → Session → Prop}
    (h : env.Tidy ctx s → env.Safe ctx s x post) : env.Safe ctx s x post :=
  fun ht => h ht ht

theorem pure {a : α} {post : α → Session → Prop} (h : post a s) :
    env.Safe ctx s (Pure.pure a) post :=
  fun ht => ⟨ht, .refl s, h⟩

theorem fails {e : Error} {post : α → Session → Prop} : env.Safe ctx s (throw e) post :=
  fun ht => ⟨ht.weaken (fun _ => .inl) fun _ => id, .refl s⟩

/-- The second part starts where the first left off. -/
theorem bind {x : Resolve α} {f : α → Resolve β} {P : α → Session → Prop} {Q : β → Session → Prop}
    (hx : env.Safe ctx s x P)
    (hf : ∀ a s', s.Keeps s' → P a s' → env.Safe ctx s' (f a) Q) :
    env.Safe ctx s (x >>= f) Q := by
  intro ht
  have h := hx ht
  rw [Exec.run_bind]
  generalize x.run.run s = p at h
  obtain ⟨r, s'⟩ := p
  cases r with
  | error e => exact h
  | ok a =>
    obtain ⟨ht', hs, hP⟩ := h
    have h' := hf a s' hs hP ht'
    dsimp only at h' ⊢
    generalize (f a).run.run s' = p at h'
    obtain ⟨r, s''⟩ := p
    cases r with
    | ok b => exact ⟨h'.1, hs.trans h'.2.1, h'.2.2⟩
    | error e => exact ⟨h'.1, hs.trans h'.2⟩

theorem mono {x : Resolve α} {P Q : α → Session → Prop} (hx : env.Safe ctx s x P)
    (h : ∀ a s', s.Keeps s' → P a s' → Q a s') : env.Safe ctx s x Q := by
  have hbind := hx.bind fun a s' hs hp => Safe.pure (h a s' hs hp)
  rwa [bind_pure] at hbind

/-- Where a piece succeeds, the session is tidy. -/
theorem tidy {x : Resolve α} {P : α → Session → Prop} (hx : env.Safe ctx s x P) :
    env.Safe ctx s x fun a s' => env.Tidy ctx s' ∧ P a s' := by
  have hbind : env.Safe ctx s (x >>= Pure.pure) fun a s' => env.Tidy ctx s' ∧ P a s' :=
    hx.bind fun a s' _ hp => of_tidy fun ht => pure ⟨ht, hp⟩
  rwa [bind_pure] at hbind

/-- An answer of the checker changes nothing. -/
theorem ask {x : Answer α} {f : α → Resolve β} {post : β → Session → Prop}
    (hf : ∀ a, x = .ok a → env.Safe ctx s (f a) post) :
    env.Safe ctx s (liftM x >>= f) post := by
  cases x with
  | ok a => exact hf a rfl
  | error e => exact fails

theorem answer {x : Answer α} {post : α → Session → Prop} (h : ∀ a, x = .ok a → post a s) :
    env.Safe ctx s (liftM x) post := by
  cases x with
  | ok a => exact pure (h a rfl)
  | error e => exact fails

theorem get {f : Session → Resolve β} {post : β → Session → Prop}
    (h : env.Safe ctx s (f s) post) : env.Safe ctx s (MonadState.get >>= f) post :=
  h

/-- A change that keeps the session tidy. -/
theorem change {x : Resolve α} {a : α} {post : α → Session → Prop} (hrun : x.run.run s = (.ok a, s'))
    (ht : env.Tidy ctx s → env.Tidy ctx s') (hs : s.Keeps s') (h : post a s') :
    env.Safe ctx s x post := by
  intro htidy
  rw [hrun]
  exact ⟨ht htidy, hs, h⟩

/-- A change and what comes after it. -/
theorem change_then {x : Resolve α} {a : α} {f : α → Resolve β} {post : β → Session → Prop}
    (hrun : x.run.run s = (.ok a, s')) (ht : env.Tidy ctx s → env.Tidy ctx s') (hs : s.Keeps s')
    (hf : env.Safe ctx s' (f a) post) : env.Safe ctx s (x >>= f) post := by
  have hx : env.Safe ctx s x fun b s₁ => b = a ∧ s₁ = s' := change hrun ht hs ⟨rfl, rfl⟩
  refine hx.bind ?_
  rintro _ _ - ⟨rfl, rfl⟩
  exact hf

/-- A member that is there is found, and refers to what is there. -/
theorem getMember {r : MemberRef} {f : Member → Resolve β} {post : β → Session → Prop}
    (hr : s.graph.HasMember r)
    (h : ∀ member, s.memberAt? r = some member → member.InRange s.graph →
      env.Safe ctx s (f member) post) :
    env.Safe ctx s (Resolve.getMember r >>= f) post := by
  intro ht
  obtain ⟨member, hmember⟩ := Session.exists_memberAt? hr
  rw [Exec.run_bind, Session.getMember_run hmember]
  exact h member hmember (ht.range.member hmember) ht

/-- Spare members remain so while they are held. -/
theorem holding {x : Resolve α} {post : α → Session → Prop} {os : List MemberRef}
    (hos : Session.MayList ctx.held s os) (hx : env.Safe (ctx.holding os) s x post) :
    env.Safe ctx s x fun a s' => post a s' ∧ Session.MayList ctx.held s' os := by
  intro ht
  have h := hx (ht.holding fun o ho => hos.spare ho)
  generalize x.run.run s = p at h ⊢
  obtain ⟨r, s'⟩ := p
  cases r with
  | error e => exact ⟨h.1.weaken (fun _ => id) fun _ => .inl, h.2⟩
  | ok a =>
    obtain ⟨ht', hs, hpost⟩ := h
    exact ⟨ht'.weaken (fun _ => id) fun _ => .inl, hs, hpost, hos.nodup, fun ho => ht'.apart.held (.inr ho), hos.free⟩

/-- A new key is pending until what follows has finished it, or its resolution has failed. -/
theorem reserve {key : MemberKey} {name : String} {f : MemberRef → Resolve β}
    {post : β → Session → Prop} (hnew : s.memberOf? key = none)
    (hname : env.checker.symbolName key.owner = .ok name)
    (hfailed : ∀ e s', (Resolve.reserveMember key (.placeholder name) >>= f).run.run s = (.error e, s') →
      env.FailedMember e s' key)
    (hmarker : ∀ m, key = .symbol m → ¬ env.IsMarker m) (hmethod : ∀ m, key = .companion m → env.IsMethodLike m)
    (h : ∀ slot s', s.Keeps s' → s'.memberOf? key = some (some slot) →
      env.Safe (ctx.opening key) s' (f slot) fun b s'' => post b s'' ∧
        ∃ member, s''.memberAt? slot = some member ∧ env.Finished s'' key member) :
    env.Safe ctx s (Resolve.reserveMember key (.placeholder name) >>= f) post := by
  intro ht
  have hkey : (s.addMember key (.placeholder name)).memberOf? key = some (some ⟨s.graph.members.size⟩) := by
    simp [Session.memberOf?_addMember]
  have hs := Session.Keeps.addMember hnew (.placeholder name)
  have hf := h ⟨s.graph.members.size⟩ _ hs hkey (ht.addMember hname hnew hmarker hmethod)
  -- what follows runs from the session with the new key, and fails just where the whole does
  have hrest : (Resolve.reserveMember key (.placeholder name) >>= f).run.run s =
      (f ⟨s.graph.members.size⟩).run.run (s.addMember key (.placeholder name)) := by
    rw [Exec.run_bind, Session.reserveMember_run]
  rw [← hrest] at hf
  generalize hp : (Resolve.reserveMember key (.placeholder name) >>= f).run.run s = p at hf
  obtain ⟨r, s''⟩ := p
  cases r with
  | error e =>
    refine ⟨hf.1.weaken (fun k hk => ?_) fun _ => id, hs.trans hf.2⟩
    rcases hk with (hk | rfl) | hk
    · exact .inl hk
    · exact .inr (hfailed e s'' hp)
    · exact .inr hk
  | ok b =>
    obtain ⟨ht'', hs'', hpost, hfinished⟩ := hf
    refine ⟨ht''.finish fun r hr => ?_, hs.trans hs'', hpost⟩
    obtain rfl : ⟨s.graph.members.size⟩ = r := by simpa [hs''.memberOf hkey] using hr
    exact hfinished

/-! ### What comes of a piece -/

theorem of_ok {x : Resolve α} {post : α → Session → Prop} (h : env.Safe ctx s x post)
    (ht : env.Tidy ctx s) {a : α} (hrun : x.run.run s = (.ok a, s')) :
    env.Tidy ctx s' ∧ s.Keeps s' ∧ post a s' := by
  have hx := h ht
  rwa [hrun] at hx

/-- Whatever comes of it, the session is in order apart from places that are left unfinished. -/
theorem of_run {x : Resolve α} {post : α → Session → Prop} (h : env.Safe ctx s x post)
    (ht : env.Tidy ctx s) :
    env.Tidy ctx.abandoned (x.run.run s).2 ∧ s.Keeps (x.run.run s).2 := by
  have hx := h ht
  rcases hrun : x.run.run s with ⟨r, s'⟩
  rw [hrun] at hx
  cases r with
  | ok a => exact ⟨hx.1.abandoned, hx.2.1⟩
  | error e => exact ⟨hx.1.weaken (fun _ _ => trivial) fun _ => id, hx.2⟩

theorem of_error {x : Resolve α} {post : α → Session → Prop} (h : env.Safe ctx s x post)
    (ht : env.Tidy ctx s) {e : Error} (hrun : x.run.run s = (.error e, s')) :
    env.Tidy (env.failing ctx e s') s' ∧ s.Keeps s' := by
  have hx := h ht
  rwa [hrun] at hx

/-! ### Lists -/

/-- Elements are worked on in order, and what holds of each stays so. -/
theorem mapM {f : α → Resolve β} {R : Session → α → β → Prop} {xs : List α}
    (hR : ∀ {s s' a b}, s.Keeps s' → R s a b → R s' a b)
    (hf : ∀ a ∈ xs, ∀ s', s.Keeps s' → env.Safe ctx s' (f a) fun b s'' => R s'' a b) :
    env.Safe ctx s (xs.mapM f) fun bs s' => List.Forall₂ (R s') xs bs := by
  induction xs generalizing s with
  | nil => exact .pure .nil
  | cons a xs ih =>
    rw [List.mapM_cons]
    refine (hf a (by simp) s (.refl s)).bind fun b s₁ hs₁ hb => ?_
    refine (ih fun a' ha' s' hs' => hf a' (by simp [ha']) s' (hs₁.trans hs')).bind
      fun bs s₂ hs₂ hbs => .pure ?_
    exact .cons (hR hs₂ hb) hbs

/-- What holds of each answer stays so. -/
theorem mapM_mem {f : α → Resolve β} {R : Session → β → Prop} {xs : List α}
    (hR : ∀ {s s' b}, s.Keeps s' → R s b → R s' b)
    (hf : ∀ a ∈ xs, ∀ s', s.Keeps s' → env.Safe ctx s' (f a) fun b s'' => R s'' b) :
    env.Safe ctx s (xs.mapM f) fun bs s' => ∀ b ∈ bs, R s' b := by
  induction xs generalizing s with
  | nil => exact .pure (by simp)
  | cons a xs ih =>
    rw [List.mapM_cons]
    refine (hf a (by simp) s (.refl s)).bind fun b s₁ hs₁ hb => ?_
    refine (ih fun a' ha' s' hs' => hf a' (by simp [ha']) s' (hs₁.trans hs')).bind
      fun bs s₂ hs₂ hbs => .pure ?_
    rintro b' (_ | ⟨_, hb'⟩)
    · exact hR hs₂ hb
    · exact hbs b' hb'

theorem optionMapM {f : α → Resolve β} {R : Session → β → Prop} {x : Option α}
    (hf : ∀ a, x = some a → env.Safe ctx s (f a) fun b s' => R s' b) :
    env.Safe ctx s (x.mapM f) fun b s' => ∀ b', b = some b' → R s' b' := by
  cases x with
  | none => exact .pure (by simp)
  | some a => exact (hf a rfl).bind fun b s' _ hb => .pure (by simpa using hb)

theorem forM {f : α → Resolve PUnit} {xs : List α}
    (hf : ∀ a ∈ xs, ∀ s', s.Keeps s' → env.Safe ctx s' (f a) fun _ _ => True) :
    env.Safe ctx s (xs.forM f) fun _ _ => True := by
  induction xs generalizing s with
  | nil => exact .pure trivial
  | cons a xs ih =>
    refine (hf a (by simp) s (.refl s)).bind fun _ s₁ hs₁ _ => ?_
    exact ih fun a' ha' s' hs' => hf a' (by simp [ha']) s' (hs₁.trans hs')

/-- What is accumulated keeps an invariant about the elements that were worked on. -/
theorem foldlM {f : β → α → Resolve β} {I : Session → List α → β → Prop} {xs : List α} (done : List α) {b : β}
    (hb : I s done b)
    (hf : ∀ done a b s', s.Keeps s' → I s' done b →
      env.Safe ctx s' (f b a) fun b' s'' => I s'' (done ++ [a]) b') :
    env.Safe ctx s (xs.foldlM f b) fun b' s' => I s' (done ++ xs) b' := by
  induction xs generalizing s b done with
  | nil => exact .pure (by simpa using hb)
  | cons a xs ih =>
    rw [List.foldlM_cons]
    refine (hf done a b s (.refl s) hb).bind fun b₁ s₁ hs₁ hb₁ => ?_
    have hrest := ih (done ++ [a]) hb₁ fun done' a' b' s' hs' => hf done' a' b' s' (hs₁.trans hs')
    rwa [List.append_assoc] at hrest

end Safe

/-! ### Resolvers -/

/-- A member that is ready to be put in the place of a key, if it may list its overloads. -/
structure Ready (env : Environment) (s : Session) (key : MemberKey) (member : Member) : Prop where
  range : member.InRange s.graph
  finished : env.Finished s key member
  owns : env.Owns s key member.body

theorem Ready.keep {key : MemberKey} {member : Member} (h : env.Ready s key member) (hs : s.Keeps s') :
    env.Ready s' key member :=
  ⟨h.range.mono hs.grows, h.finished.keep hs, h.owns.keep hs⟩

/-- What a built member has to be: ready for the place of its key, with overloads that it may list. -/
def Built (env : Environment) (ctx : Context) (key : MemberKey) (member : Member) (s : Session) : Prop :=
  env.Ready s key member ∧ Session.MayList ctx.held s member.overloads

/-- A member without overloads may list them. -/
theorem Ready.built {key : MemberKey} {member : Member} (h : env.Ready s key member)
    (hnone : member.overloads = []) : env.Built ctx key member s :=
  ⟨h, hnone ▸ .nil _ _⟩

/-- The place of a key gets its finished member. -/
theorem Safe.finish {key : MemberKey} {slot : MemberRef} {member : Member}
    (hslot : s.memberOf? key = some (some slot)) (hmember : env.Built ctx key member s) :
    env.Safe ctx s (Resolve.setMember slot member) fun _ s' =>
      ∃ member, s'.memberAt? slot = some member ∧ env.Finished s' key member := by
  obtain ⟨hready, hlists⟩ := hmember
  have hs := Session.Keeps.putMember s slot member
  refine .of_tidy fun ht => .change (Session.setMember_run slot member)
    (fun h => h.putMember hready.range (fun key' hkey' => ?_) (fun hloose => absurd hslot (hloose.2 key)) (.inl hlists))
    hs ⟨member, Session.memberAt?_putMember_self (ht.range.memberOf hslot) member, hready.finished.keep hs⟩
  obtain rfl := h.single hslot hkey'
  exact ⟨.inl hready.finished, hready.owns⟩

/-- A resolver of some depth that keeps sessions tidy, and whose answers are what they should be. -/
structure Trusted (env : Environment) (inner : Resolver) : Prop where
  recur : ∃ depth, inner = env.recur depth
  type {ctx : Context} {s : Session} (t : TypeId) :
    env.Safe ctx s (inner.type t) fun r s' => s'.graph.HasType r
  member {ctx : Context} {s : Session} (m : SymbolId) :
    env.Safe ctx s (inner.member m) fun v s' => env.HoldsMember s' m v
  build {ctx : Context} {s : Session} (m : SymbolId) {slot : MemberRef} :
    s.graph.HasMember slot → env.Safe ctx s (inner.build m slot) (env.Built ctx (.symbol m))

end Environment

end ApiDoc
