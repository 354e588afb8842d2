import ApiDoc.Proofs.Run.Sound

/-!
# The resolver as the machine

`Environment.Exec` says of a piece of the resolver that it is a run of the machine: from a reachable state
it takes steps, leaves open what it should, and answers with something that satisfies a
postcondition; or it fails with an error of a given sort, at a state that is reachable all the same.  What types
are open there beside those that were is known as well: their own resolution failed, then and there
(`Environment.FailedType`).  The rules below follow the ways in which the resolver is put together: answers of the
checker, sequences, lists.
-/

namespace ApiDoc

namespace Environment

/-- The resolution of a type that was not met before has failed with an error, and this is the session it left. -/
def FailedType (env : Environment) (e : Error) (s : Session) (t : TypeId) : Prop :=
  ∃ depth s₀, s₀.typeOf? t = none ∧ ((env.recur depth).type t).run.run s₀ = (.error e, s)

/-- The types that are open when a piece fails: all that were, and others only if their resolution failed. -/
def Leaves (env : Environment) (e : Error) (s : Session) (fs fs' : List Frame) : Prop :=
  ∀ t, (.type t ∈ fs → .type t ∈ fs') ∧ (.type t ∈ fs' → .type t ∈ fs ∨ env.FailedType e s t)

/-- A piece of the resolver is a run of the machine from one state to another. -/
def Exec (env : Environment) (fail : Error → Prop) {α : Type} (c : Stage) (x : Resolve α)
    (fs : List Frame) (post : α → Session → Prop) : Prop :=
  env.Reachable c →
    match x.run.run c.session with
    | (.ok a, s) => env.Steps c ⟨fs, s⟩ ∧ post a s
    | (.error e, s) => fail e ∧ ∃ fs', env.Steps c ⟨fs', s⟩ ∧ env.Leaves e s c.frames fs'

variable {env : Environment} {fail : Error → Prop} {α β : Type} {fs fs' fs'' : List Frame}
  {s s' : Session}

/-- The same types are open. -/
def SameTypes (fs fs' : List Frame) : Prop := ∀ t, Frame.type t ∈ fs' ↔ Frame.type t ∈ fs

theorem SameTypes.refl (fs : List Frame) : SameTypes fs fs := fun _ => .rfl

theorem SameTypes.opened {f : Frame} (hf : ∀ t, f ≠ .type t) (fs : List Frame) : SameTypes fs (f :: fs) :=
  fun t => List.mem_cons.trans (or_iff_right (hf t).symm)

theorem SameTypes.closed {f : Frame} (hf : ∀ t, f ≠ .type t) (fs : List Frame) : SameTypes (f :: fs) fs :=
  fun t => (opened hf fs t).symm

theorem Leaves.refl (e : Error) (s : Session) (fs : List Frame) : env.Leaves e s fs fs := fun _ => ⟨id, .inl⟩

theorem Leaves.after {e : Error} (h : env.Leaves e s fs' fs'') (hsame : SameTypes fs fs') : env.Leaves e s fs fs'' :=
  fun t => ⟨fun ht => (h t).1 ((hsame t).2 ht), fun ht => ((h t).2 ht).imp_left (hsame t).1⟩

namespace Exec

/-! ### Sequences -/

theorem of_reachable {c : Stage} {x : Resolve α} {post : α → Session → Prop}
    (h : env.Reachable c → env.Exec fail c x fs post) : env.Exec fail c x fs post :=
  fun hc => h hc hc

theorem pure {a : α} {post : α → Session → Prop} (h : post a s) :
    env.Exec fail ⟨fs, s⟩ (Pure.pure a) fs post :=
  fun _ => ⟨.refl, h⟩

theorem fails {e : Error} {post : α → Session → Prop} (h : fail e) :
    env.Exec fail ⟨fs, s⟩ (throw e) fs' post :=
  fun _ => ⟨h, fs, .refl, .refl e s fs⟩

theorem run_bind (x : Resolve α) (f : α → Resolve β) (s : Session) :
    (x >>= f).run.run s = match x.run.run s with
      | (.ok a, s') => (f a).run.run s'
      | (.error e, s') => (.error e, s') := by
  rw [ExceptT.run_bind, StateT.run_bind]
  generalize x.run.run s = p
  obtain ⟨r, s'⟩ := p
  cases r <;> rfl

theorem run_get (f : Session → Resolve β) (s : Session) :
    (MonadState.get >>= f).run.run s = (f s).run.run s := rfl

theorem run_ask {x : Answer α} {a : α} (h : x = .ok a) (f : α → Resolve β) (s : Session) :
    (liftM x >>= f).run.run s = (f a).run.run s := by
  subst h
  rfl

theorem bind_eq_ok {x : Resolve α} {f : α → Resolve β} {b : β} (h : (x >>= f).run.run s = (.ok b, s')) :
    ∃ a s₁, x.run.run s = (.ok a, s₁) ∧ (f a).run.run s₁ = (.ok b, s') := by
  rw [run_bind] at h
  rcases hx : x.run.run s with ⟨e | a, s₁⟩
  · rw [hx] at h
    cases h
  · rw [hx] at h
    exact ⟨a, s₁, rfl, h⟩

/-- A sequence fails in its first part or in the second. -/
theorem bind_eq_error {x : Resolve α} {f : α → Resolve β} {e : Error} (h : (x >>= f).run.run s = (.error e, s')) :
    x.run.run s = (.error e, s') ∨
      ∃ a s₁, x.run.run s = (.ok a, s₁) ∧ (f a).run.run s₁ = (.error e, s') := by
  rw [run_bind] at h
  rcases hx : x.run.run s with ⟨e' | a, s₁⟩
  · rw [hx] at h
    cases h
    exact .inl rfl
  · rw [hx] at h
    exact .inr ⟨a, s₁, rfl, h⟩

/-- Where the checker has no answer nothing has happened. -/
theorem ask_eq_error {x : Answer α} {f : α → Resolve β} {e : Error}
    (h : (liftM x >>= f).run.run s = (.error e, s')) :
    s' = s ∨ ∃ a, x = .ok a ∧ (f a).run.run s = (.error e, s') := by
  cases x with
  | error e' => exact .inl (congrArg Prod.snd h).symm
  | ok a => exact .inr ⟨a, rfl, h⟩

/-- The second part starts where the first left off, with the same types open. -/
theorem bind_of_sameTypes {c : Stage} {x : Resolve α} {f : α → Resolve β} {P : α → Session → Prop}
    {Q : β → Session → Prop} (hsame : SameTypes c.frames fs') (hx : env.Exec fail c x fs' P)
    (hf : ∀ a s', c.session.Extends s' → P a s' → env.Exec fail ⟨fs', s'⟩ (f a) fs'' Q) :
    env.Exec fail c (x >>= f) fs'' Q := by
  intro hc
  have h := hx hc
  rw [run_bind]
  generalize x.run.run c.session = p at h
  obtain ⟨r, s'⟩ := p
  cases r with
  | error e => exact h
  | ok a =>
    obtain ⟨hsteps, hP⟩ := h
    have h' := hf a s' (hc.extends hsteps) hP (hc.steps hsteps)
    dsimp only at h' ⊢
    generalize (f a).run.run s' = p at h'
    obtain ⟨r, s''⟩ := p
    cases r with
    | ok b => exact ⟨hsteps.trans h'.1, h'.2⟩
    | error e =>
      obtain ⟨hfail, fs₁, hsteps', hleaves⟩ := h'
      exact ⟨hfail, fs₁, hsteps.trans hsteps', hleaves.after hsame⟩

/-- The first part leaves open what was. -/
theorem bind {x : Resolve α} {f : α → Resolve β} {P : α → Session → Prop} {Q : β → Session → Prop}
    (hx : env.Exec fail ⟨fs, s⟩ x fs P)
    (hf : ∀ a s', s.Extends s' → P a s' → env.Exec fail ⟨fs, s'⟩ (f a) fs' Q) :
    env.Exec fail ⟨fs, s⟩ (x >>= f) fs' Q :=
  hx.bind_of_sameTypes (.refl fs) hf

theorem mono {c : Stage} {x : Resolve α} {P Q : α → Session → Prop} (hx : env.Exec fail c x fs P)
    (h : ∀ a s', c.session.Extends s' → P a s' → Q a s') : env.Exec fail c x fs Q := by
  intro hc
  have hrun := hx hc
  generalize x.run.run c.session = p at hrun
  obtain ⟨r, s'⟩ := p
  cases r with
  | error e => exact hrun
  | ok a => exact ⟨hrun.1, h a s' (hc.extends hrun.1) hrun.2⟩

/-- What is known after a run, and that it was one. -/
theorem ran {c : Stage} {x : Resolve α} {post : α → Session → Prop} (hx : env.Exec fail c x fs post) :
    env.Exec fail c x fs fun a s' => x.run.run c.session = (.ok a, s') ∧ post a s' := by
  intro hc
  have hrun := hx hc
  generalize x.run.run c.session = p at hrun ⊢
  obtain ⟨r, s'⟩ := p
  cases r with
  | error e => exact hrun
  | ok a => exact ⟨hrun.1, rfl, hrun.2⟩

theorem both {c : Stage} {x : Resolve α} {P Q : α → Session → Prop} (hP : env.Exec fail c x fs P)
    (hQ : env.Exec fail c x fs Q) : env.Exec fail c x fs fun a s' => P a s' ∧ Q a s' := by
  intro hc
  have hp := hP hc
  have hq := hQ hc
  generalize x.run.run c.session = p at hp hq ⊢
  obtain ⟨r, s'⟩ := p
  cases r with
  | error e => exact hp
  | ok a => exact ⟨hp.1, hp.2, hq.2⟩

/-- An answer of the checker changes nothing. -/
theorem ask {c : Stage} {x : Answer α} {f : α → Resolve β} {P : α → Prop} {post : β → Session → Prop}
    (hx : Meets fail x P) (hf : ∀ a, x = .ok a → P a → env.Exec fail c (f a) fs post) :
    env.Exec fail c (liftM x >>= f) fs post := by
  cases x with
  | ok a => exact hf a rfl hx
  | error e => exact fun _ => ⟨hx, c.frames, .refl, .refl e _ _⟩

theorem answer {x : Answer α} {P : α → Prop} {post : α → Session → Prop} (hx : Meets fail x P)
    (h : ∀ a, x = .ok a → P a → post a s) : env.Exec fail ⟨fs, s⟩ (liftM x) fs post := by
  cases x with
  | ok a => exact fun _ => ⟨.refl, h a rfl hx⟩
  | error e => exact fun _ => ⟨hx, fs, .refl, .refl e _ _⟩

theorem get {f : Session → Resolve β} {post : β → Session → Prop}
    (h : env.Exec fail ⟨fs, s⟩ (f s) fs' post) : env.Exec fail ⟨fs, s⟩ (MonadState.get >>= f) fs' post :=
  h

theorem read {r : MemberRef} {member : Member} {post : Member → Session → Prop}
    (hr : s.memberAt? r = some member) (h : post member s) :
    env.Exec fail ⟨fs, s⟩ (Resolve.getMember r) fs post := by
  intro _
  rw [Session.getMember_run hr]
  exact ⟨.refl, h⟩

theorem getMember {r : MemberRef} {member : Member} {f : Member → Resolve β}
    {post : β → Session → Prop} (hr : s.memberAt? r = some member)
    (h : env.Exec fail ⟨fs, s⟩ (f member) fs' post) :
    env.Exec fail ⟨fs, s⟩ (Resolve.getMember r >>= f) fs' post := by
  intro hc
  rw [run_bind, Session.getMember_run hr]
  exact h hc

/-- One step. -/
theorem step {x : Resolve α} {a : α} {post : α → Session → Prop}
    (hrun : x.run.run s = (.ok a, s')) (hst : env.Step ⟨fs, s⟩ ⟨fs', s'⟩) (h : post a s') :
    env.Exec fail ⟨fs, s⟩ x fs' post := by
  intro _
  rw [show x.run.run (Stage.mk fs s).session = (.ok a, s') from hrun]
  exact ⟨.single hst, h⟩

/-- A step of the machine that the resolver takes by doing nothing. -/
theorem silent {x : Resolve α} {post : α → Session → Prop} (hsame : SameTypes fs fs')
    (hst : env.Step ⟨fs, s⟩ ⟨fs', s⟩) (h : env.Exec fail ⟨fs', s⟩ x fs'' post) :
    env.Exec fail ⟨fs, s⟩ x fs'' post := by
  intro hc
  have hx := h (hc.step hst)
  dsimp only at hx ⊢
  generalize x.run.run s = p at hx
  obtain ⟨r, s'⟩ := p
  cases r with
  | ok a => exact ⟨.head hst hx.1, hx.2⟩
  | error e =>
    obtain ⟨hfail, fs₁, hsteps, hleaves⟩ := hx
    exact ⟨hfail, fs₁, .head hst hsteps, hleaves.after hsame⟩

/-- A step and what comes after it. -/
theorem step_then {x : Resolve α} {a : α} {f : α → Resolve β} {post : β → Session → Prop}
    (hsame : SameTypes fs fs') (hrun : x.run.run s = (.ok a, s')) (hst : env.Step ⟨fs, s⟩ ⟨fs', s'⟩)
    (hf : s.Extends s' → env.Exec fail ⟨fs', s'⟩ (f a) fs'' post) :
    env.Exec fail ⟨fs, s⟩ (x >>= f) fs'' post := by
  refine of_reachable fun hc => ?_
  have hs : s.Extends s' := hc.extends (.single hst)
  have hx : env.Exec fail ⟨fs, s⟩ x fs' fun b s₁ => b = a ∧ s₁ = s' := step hrun hst ⟨rfl, rfl⟩
  refine hx.bind_of_sameTypes hsame ?_
  rintro _ _ - ⟨rfl, rfl⟩
  exact hf hs

/-- A step with which a type is opened.  If what comes after it fails, so does the resolution of the type. -/
theorem opening {t : TypeId} {x : Resolve α} {a : α} {f : α → Resolve β} {post : β → Session → Prop}
    (hrun : x.run.run s = (.ok a, s')) (hst : env.Step ⟨fs, s⟩ ⟨.type t :: fs, s'⟩)
    (hf : s.Extends s' → env.Exec fail ⟨.type t :: fs, s'⟩ (f a) fs'' post)
    (hfailed : ∀ e s'', (x >>= f).run.run s = (.error e, s'') → env.FailedType e s'' t) :
    env.Exec fail ⟨fs, s⟩ (x >>= f) fs'' post := by
  intro hc
  have h := hf (hc.extends (.single hst)) (hc.step hst)
  have hrest : (x >>= f).run.run s = (f a).run.run s' := by rw [run_bind, hrun]
  dsimp only at h ⊢
  rw [← hrest] at h
  generalize hp : (x >>= f).run.run s = p at h
  obtain ⟨r, s''⟩ := p
  cases r with
  | ok b => exact ⟨.head hst h.1, h.2⟩
  | error e =>
    obtain ⟨hfail, fs₁, hsteps, hleaves⟩ := h
    refine ⟨hfail, fs₁, .head hst hsteps, fun u => ⟨fun hu => (hleaves u).1 (by simp [hu]), fun hu => ?_⟩⟩
    rcases (hleaves u).2 hu with hmem | hcut
    · rcases List.mem_cons.1 hmem with heq | hmem
      · obtain rfl := Frame.type.inj heq
        exact .inr (hfailed e s'' hp)
      · exact .inl hmem
    · exact .inr hcut

/-- A last step, and the answer. -/
theorem closing {x : Resolve α} {a : α} {b : β} {post : β → Session → Prop}
    (hrun : x.run.run s = (.ok a, s')) (hst : env.Step ⟨fs, s⟩ ⟨fs', s'⟩) (h : s.Extends s' → post b s') :
    env.Exec fail ⟨fs, s⟩ (x >>= fun _ => Pure.pure b) fs' post := by
  intro hc
  rw [run_bind, show x.run.run (Stage.mk fs s).session = (.ok a, s') from hrun]
  exact ⟨.single hst, h (hc.extends (.single hst))⟩

/-! ### Lists -/

/-- Elements are worked on in order, and what holds of each stays so. -/
theorem mapM {f : α → Resolve β} {R : Session → α → β → Prop} {xs : List α}
    (hR : ∀ {s s' a b}, s.Extends s' → R s a b → R s' a b)
    (hf : ∀ a ∈ xs, ∀ s', s.Extends s' → env.Exec fail ⟨fs, s'⟩ (f a) fs fun b s'' => R s'' a b) :
    env.Exec fail ⟨fs, s⟩ (xs.mapM f) fs fun bs s' => List.Forall₂ (R s') xs bs := by
  induction xs generalizing s with
  | nil => exact .pure .nil
  | cons a xs ih =>
    rw [List.mapM_cons]
    refine (hf a (by simp) s (.refl s)).bind fun b s₁ hs₁ hb => ?_
    refine (ih fun a' ha' s' hs' => hf a' (by simp [ha']) s' (hs₁.trans hs')).bind
      fun bs s₂ hs₂ hbs => .pure ?_
    exact .cons (hR hs₂ hb) hbs

/-- Each element is worked on in the session that those before it lead to, and what that comes to stays. -/
theorem mapM_from {f : α → Resolve β} {R : Session → α → Session → Prop} {xs : List α}
    (hR : ∀ {s₀ s s' a}, s.Extends s' → R s₀ a s → R s₀ a s')
    (hf : ∀ a ∈ xs, ∀ s', s.Extends s' → env.Exec fail ⟨fs, s'⟩ (f a) fs fun _ s'' => R s' a s'') :
    env.Exec fail ⟨fs, s⟩ (xs.mapM f) fs fun _ s' => ∀ before a rest, xs = before ++ a :: rest →
      ∃ bs s₁, (before.mapM f).run.run s = (.ok bs, s₁) ∧ R s₁ a s' := by
  induction xs generalizing s with
  | nil => exact .pure (by simp)
  | cons a xs ih =>
    rw [List.mapM_cons]
    refine (hf a (by simp) s (.refl s)).ran.bind fun b s₁ hs₁ ⟨hrun, ha⟩ => ?_
    refine (ih fun a' ha' s' hs' => hf a' (by simp [ha']) s' (hs₁.trans hs')).bind
      fun bs s₂ hs₂ hrest => .pure fun before a' rest heq => ?_
    cases before with
    | nil =>
      obtain ⟨rfl, rfl⟩ := List.cons.inj heq
      exact ⟨[], s, rfl, hR hs₂ ha⟩
    | cons first before =>
      obtain ⟨rfl, rfl⟩ := List.cons.inj heq
      obtain ⟨bs', s₃, hrun', ha'⟩ := hrest before a' rest rfl
      refine ⟨b :: bs', s₃, ?_, ha'⟩
      rw [List.mapM_cons, run_bind, hrun]
      dsimp only
      rw [run_bind, hrun']
      rfl

theorem mapM_mem {f : α → Resolve β} {R : Session → β → Prop} {xs : List α}
    (hR : ∀ {s s' b}, s.Extends s' → R s b → R s' b)
    (hf : ∀ a ∈ xs, ∀ s', s.Extends s' → env.Exec fail ⟨fs, s'⟩ (f a) fs fun b s'' => R s'' b) :
    env.Exec fail ⟨fs, s⟩ (xs.mapM f) fs fun bs s' => ∀ b ∈ bs, R s' b := by
  refine (mapM (R := fun s' _ b => R s' b) hR hf).mono fun bs s' _ hall => ?_
  clear hf
  induction hall with
  | nil => simp
  | cons hb _ ih =>
    rintro b' (_ | ⟨_, hb'⟩)
    · exact hb
    · exact ih b' hb'

theorem optionMapM {f : α → Resolve β} {R : Session → α → β → Prop} {x : Option α}
    (hf : ∀ a, x = some a → env.Exec fail ⟨fs, s⟩ (f a) fs fun b s' => R s' a b) :
    env.Exec fail ⟨fs, s⟩ (x.mapM f) fs fun b s' => Option.Rel (R s') x b := by
  cases x with
  | none => exact .pure .none
  | some a => exact (hf a rfl).bind fun b s' _ hb => .pure (.some hb)

theorem forM {f : α → Resolve PUnit} {xs : List α}
    (hf : ∀ a ∈ xs, ∀ s', s.Extends s' → env.Exec fail ⟨fs, s'⟩ (f a) fs fun _ _ => True) :
    env.Exec fail ⟨fs, s⟩ (xs.forM f) fs fun _ _ => True := by
  induction xs generalizing s with
  | nil => exact .pure trivial
  | cons a xs ih =>
    refine (hf a (by simp) s (.refl s)).bind fun _ s₁ hs₁ _ => ?_
    exact ih fun a' ha' s' hs' => hf a' (by simp [ha']) s' (hs₁.trans hs')

/-- What is accumulated keeps an invariant, and what holds of each element stays so. -/
theorem foldlM {f : β → α → Resolve β} {R : Session → α → Prop} {I : Session → β → Prop}
    {xs : List α} {b : β} (hR : ∀ {s s' a}, s.Extends s' → R s a → R s' a)
    (hb : I s b)
    (hf : ∀ a ∈ xs, ∀ b s', s.Extends s' → I s' b →
      env.Exec fail ⟨fs, s'⟩ (f b a) fs fun b' s'' => I s'' b' ∧ R s'' a) :
    env.Exec fail ⟨fs, s⟩ (xs.foldlM f b) fs fun b' s' => I s' b' ∧ ∀ a ∈ xs, R s' a := by
  induction xs generalizing s b with
  | nil => exact .pure ⟨hb, by simp⟩
  | cons a xs ih =>
    rw [List.foldlM_cons]
    refine (hf a (by simp) b s (.refl s) hb).bind fun b₁ s₁ hs₁ ⟨hb₁, ha⟩ => ?_
    refine (ih hb₁ fun a' ha' b' s' hs' => hf a' (by simp [ha']) b' s' (hs₁.trans hs')).mono
      fun b₂ s₂ hs₂ ⟨hb₂, hall⟩ => ⟨hb₂, ?_⟩
    rintro a' (_ | ⟨_, ha'⟩)
    · exact hR hs₂ ha
    · exact hall a' ha'

end Exec

end Environment

end ApiDoc
