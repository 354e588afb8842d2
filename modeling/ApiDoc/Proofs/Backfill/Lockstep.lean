import ApiDoc.Proofs.Backfill.Twins

/-!
# Pieces of the resolver in lock step

`Environment.Lockstep` compares two pieces of the resolver that start from twins.  Either both fail with the same error,
or both succeed: then they leave twins behind, what signatures say on the second side has stayed, and the two answers
satisfy a postcondition.  In most places the answers are the same (`Environment.Agree`).  The rules follow the ways in
which the resolver is put together.
-/

namespace ApiDoc

namespace Environment

/-- What comes of two pieces that started from twins: the same error, or twins and answers that go together. -/
inductive Outcome (env : Environment) (s' : Session) {α α' : Type} (post : α → α' → Session → Prop) :
    Except Error α × Session → Except Error α' × Session → Prop
  | ok {a a' t t'} : env.Twin t t' → env.Steady s' t' → post a a' t' → Outcome env s' post (.ok a, t) (.ok a', t')
  | error {e t t'} : Outcome env s' post (.error e, t) (.error e, t')

/-- Two pieces of the resolver that fail alike, and take twins to twins. -/
def Lockstep (env : Environment) (s s' : Session) {α α' : Type} (x : Resolve α) (x' : Resolve α')
    (post : α → α' → Session → Prop) : Prop :=
  env.Twin s s' → env.Outcome s' post (x.run.run s) (x'.run.run s')

/-- Two pieces of the resolver with the same answer. -/
def Agree (env : Environment) (s s' : Session) {α : Type} (x x' : Resolve α) : Prop :=
  env.Lockstep s s' x x' fun a a' _ => a = a'

variable {env : Environment} {α α' β β' : Type} {s s' : Session}

theorem Outcome.after {s₀ : Session} {post : α → α' → Session → Prop} {p : Except Error α × Session}
    {p' : Except Error α' × Session} (h : env.Outcome s' post p p') (hs : env.Steady s₀ s') :
    env.Outcome s₀ post p p' := by
  cases h with
  | ok ht hs' hpost => exact .ok ht (hs.trans hs') hpost
  | error => exact .error

namespace Lockstep

/-! ### Sequences -/

theorem of_twin {x : Resolve α} {x' : Resolve α'} {post : α → α' → Session → Prop}
    (h : env.Twin s s' → env.Lockstep s s' x x' post) : env.Lockstep s s' x x' post :=
  fun ht => h ht ht

theorem pure {a : α} {a' : α'} {post : α → α' → Session → Prop} (h : post a a' s') :
    env.Lockstep s s' (Pure.pure a) (Pure.pure a') post :=
  fun ht => .ok ht (.refl s') h

theorem fails {e : Error} {post : α → α' → Session → Prop} : env.Lockstep s s' (throw e) (throw e) post :=
  fun _ => .error

/-- The second parts start where the first left off. -/
theorem bind {x : Resolve α} {x' : Resolve α'} {f : α → Resolve β} {f' : α' → Resolve β'}
    {P : α → α' → Session → Prop} {Q : β → β' → Session → Prop} (hx : env.Lockstep s s' x x' P)
    (hf : ∀ a a' t t', env.Steady s' t' → P a a' t' → env.Lockstep t t' (f a) (f' a') Q) :
    env.Lockstep s s' (x >>= f) (x' >>= f') Q := by
  intro ht
  have h := hx ht
  rw [Exec.run_bind, Exec.run_bind]
  generalize x.run.run s = p, x'.run.run s' = p' at h
  cases h with
  | ok ht' hs hP => exact (hf _ _ _ _ hs hP ht').after hs
  | error => exact .error

theorem mono {x : Resolve α} {x' : Resolve α'} {P Q : α → α' → Session → Prop} (hx : env.Lockstep s s' x x' P)
    (h : ∀ a a' t', env.Steady s' t' → P a a' t' → Q a a' t') : env.Lockstep s s' x x' Q := by
  have hbind := hx.bind fun a a' t t' hs hp => Lockstep.pure (h a a' t' hs hp)
  rwa [bind_pure, bind_pure] at hbind

/-- Where both answers are the same, what follows is about one answer. -/
theorem same {x x' : Resolve α} {f : α → Resolve β} {f' : α → Resolve β'} {post : β → β' → Session → Prop}
    (hx : env.Agree s s' x x') (hf : ∀ a t t', env.Steady s' t' → env.Lockstep t t' (f a) (f' a) post) :
    env.Lockstep s s' (x >>= f) (x' >>= f') post := by
  refine Lockstep.bind hx ?_
  rintro a _ t t' hs rfl
  exact hf a t t' hs

/-- An answer that is made from another. -/
theorem map {x x' : Resolve α} {f : α → β} (hx : env.Agree s s' x x') :
    env.Agree s s' (x >>= fun a => Pure.pure (f a)) (x' >>= fun a => Pure.pure (f a)) :=
  same hx fun _ _ _ _ => .pure rfl

/-- What happens on the second side only. -/
theorem right {a : α} {x' : Resolve α'} {f : α → Resolve β} {f' : α' → Resolve β'}
    {P : α → α' → Session → Prop} {Q : β → β' → Session → Prop} (hx : env.Lockstep s s' (Pure.pure a) x' P)
    (hf : ∀ a' t t', env.Steady s' t' → P a a' t' → env.Lockstep t t' (f a) (f' a') Q) :
    env.Lockstep s s' (f a) (x' >>= f') Q := by
  rw [← pure_bind a f]
  have hsame : env.Lockstep s s' (Pure.pure a) x' fun b a' t' => b = a ∧ P a a' t' := by
    intro ht
    have h : env.Outcome s' P (.ok a, s) (x'.run.run s') := hx ht
    change env.Outcome s' _ (.ok a, s) (x'.run.run s')
    generalize x'.run.run s' = p' at h
    cases h with
    | ok ht' hs hP => exact .ok ht' hs ⟨rfl, hP⟩
  refine hsame.bind ?_
  rintro _ a' t t' hs ⟨rfl, hP⟩
  exact hf a' t t' hs hP

/-- An answer of the checker is the same on both sides and changes nothing. -/
theorem ask {x x' : Answer α} {f : α → Resolve β} {f' : α → Resolve β'} {post : β → β' → Session → Prop}
    (hx : x = x') (hf : ∀ a, x' = .ok a → env.Lockstep s s' (f a) (f' a) post) :
    env.Lockstep s s' (liftM x >>= f) (liftM x' >>= f') post := by
  subst hx
  cases x with
  | ok a => exact hf a rfl
  | error e => exact fails

theorem answer {x x' : Answer α} {post : α → α → Session → Prop} (hx : x = x')
    (h : ∀ a, x' = .ok a → post a a s') : env.Lockstep s s' (liftM x) (liftM x') post := by
  subst hx
  cases x with
  | ok a => exact pure (h a rfl)
  | error e => exact fails

theorem get {f : Session → Resolve β} {f' : Session → Resolve β'} {post : β → β' → Session → Prop}
    (h : env.Lockstep s s' (f s) (f' s') post) :
    env.Lockstep s s' (MonadState.get >>= f) (MonadState.get >>= f') post :=
  h

/-- A change that takes twins to twins. -/
theorem change {x : Resolve α} {x' : Resolve α'} {a : α} {a' : α'} {t t' : Session}
    {post : α → α' → Session → Prop} (hrun : x.run.run s = (.ok a, t)) (hrun' : x'.run.run s' = (.ok a', t'))
    (htwin : env.Twin s s' → env.Twin t t') (hs : env.Steady s' t') (h : post a a' t') :
    env.Lockstep s s' x x' post := by
  intro ht
  rw [hrun, hrun']
  exact .ok (htwin ht) hs h

/-- A change and what comes after it. -/
theorem change_then {x : Resolve α} {x' : Resolve α'} {a : α} {a' : α'} {t t' : Session} {f : α → Resolve β}
    {f' : α' → Resolve β'} {post : β → β' → Session → Prop} (hrun : x.run.run s = (.ok a, t))
    (hrun' : x'.run.run s' = (.ok a', t')) (htwin : env.Twin s s' → env.Twin t t') (hs : env.Steady s' t')
    (hf : env.Lockstep t t' (f a) (f' a') post) : env.Lockstep s s' (x >>= f) (x' >>= f') post := by
  intro ht
  rw [Exec.run_bind, Exec.run_bind, hrun, hrun']
  exact (hf (htwin ht)).after hs

/-- A new key gets the same place on both sides. -/
theorem reserve {key : MemberKey} {member : Member} {f : MemberRef → Resolve β} {f' : MemberRef → Resolve β'}
    {post : β → β' → Session → Prop} (hnew : s'.memberOf? key = none)
    (hf : ∀ slot t t', env.Steady s' t' → t'.memberOf? key = some (some slot) →
      env.Lockstep t t' (f slot) (f' slot) post) :
    env.Lockstep s s' (Resolve.reserveMember key member >>= f) (Resolve.reserveMember key member >>= f') post := by
  have hs : env.Steady s' (s'.addMember key member) := .addMember hnew member
  refine .of_twin fun htwin => .change_then (Session.reserveMember_run key member)
    (Session.reserveMember_run key member) (fun h => h.addMember member hnew) hs ?_
  rw [htwin.size]
  refine hf _ _ _ hs ?_
  rw [Session.memberOf?_addMember, if_pos rfl, htwin.size]

/-- A place is there on both sides or on neither. -/
theorem getMember {r : MemberRef} {f : Member → Resolve β} {f' : Member → Resolve β'}
    {post : β → β' → Session → Prop}
    (h : ∀ own full, s.memberAt? r = some own → s'.memberAt? r = some full → env.Fills s' own full →
      env.Lockstep s s' (f own) (f' full) post) :
    env.Lockstep s s' (Resolve.getMember r >>= f) (Resolve.getMember r >>= f') post := by
  intro ht
  cases hown : s.memberAt? r with
  | none =>
    have hfull : s'.memberAt? r = none := by
      rw [Session.memberAt?, Arena.get?_eq_none_iff] at hown ⊢
      rwa [ht.size]
    rw [Exec.run_bind, Exec.run_bind, Session.getMember_run_of_none hown, Session.getMember_run_of_none hfull]
    exact .error
  | some own =>
    obtain ⟨full, hfull⟩ := ht.exists_full hown
    rw [Exec.run_bind, Exec.run_bind, Session.getMember_run hown, Session.getMember_run hfull]
    exact h own full hown hfull (ht.member hown hfull) ht

/-- The place of a signature gets nothing that says anything else. -/
theorem setMember {r : MemberRef} {own full : Member} (hfills : env.Fills s' own full)
    (hsignature : ∀ m old, env.IsSignature m → s'.memberOf? (.symbol m) = some (some r) → s'.memberAt? r = some old →
      old.doc.summary = full.doc.summary ∧ Text.Kept own.doc.summary full.doc.summary) :
    env.Lockstep s s' (Resolve.setMember r own) (Resolve.setMember r full) fun _ _ _ => True :=
  .change (Session.setMember_run r own) (Session.setMember_run r full)
    (fun h => h.putMember hfills fun m old hm hr hold => (hsignature m old hm hr hold).imp_left .inr)
    (.putMember full fun m old hm hr hold => (hsignature m old hm hr hold).1) trivial

/-- A place that is no signature's gets any member. -/
theorem setOther {r : MemberRef} {own full : Member} (hfills : env.Fills s' own full)
    (hother : ∀ m, env.IsSignature m → s'.memberOf? (.symbol m) ≠ some (some r)) :
    env.Lockstep s s' (Resolve.setMember r own) (Resolve.setMember r full) fun _ _ _ => True :=
  .setMember hfills fun m _ hm hr => absurd hr (hother m hm)

/-! ### Lists -/

/-- Elements are worked on in order with the same answers, and what holds of each stays so. -/
theorem mapM {f f' : α → Resolve β} {R : Session → β → Prop} {xs : List α}
    (hR : ∀ {t u b}, env.Steady t u → R t b → R u b)
    (hf : ∀ a ∈ xs, ∀ t t', env.Steady s' t' →
      env.Lockstep t t' (f a) (f' a) fun b b' u' => b = b' ∧ R u' b') :
    env.Lockstep s s' (xs.mapM f) (xs.mapM f') fun bs bs' t' => bs = bs' ∧ ∀ b ∈ bs', R t' b := by
  induction xs generalizing s s' with
  | nil => exact .pure ⟨rfl, by simp⟩
  | cons a xs ih =>
    rw [List.mapM_cons, List.mapM_cons]
    refine (hf a (by simp) s s' (.refl s')).bind ?_
    rintro b _ t t' hs ⟨rfl, hb⟩
    refine (ih fun a' ha' u u' hs' => hf a' (by simp [ha']) u u' (hs.trans hs')).bind ?_
    rintro bs _ u u' hs' ⟨rfl, hbs⟩
    refine .pure ⟨rfl, ?_⟩
    rintro b' (_ | ⟨_, hb'⟩)
    · exact hR hs' hb
    · exact hbs b' hb'

/-- What is accumulated is the same on both sides and keeps an invariant. -/
theorem foldlM {f f' : β → α → Resolve β} {I : Session → β → Prop} {xs : List α} {b : β} (hb : I s' b)
    (hf : ∀ a b t t', I t' b → env.Lockstep t t' (f b a) (f' b a) fun c c' u' => c = c' ∧ I u' c') :
    env.Lockstep s s' (xs.foldlM f b) (xs.foldlM f' b) fun c c' t' => c = c' ∧ I t' c' := by
  induction xs generalizing s s' b with
  | nil => exact .pure ⟨rfl, hb⟩
  | cons a xs ih =>
    rw [List.foldlM_cons, List.foldlM_cons]
    refine (hf a b s s' hb).bind ?_
    rintro c _ t t' - ⟨rfl, hc⟩
    exact ih hc

/-- A list that is worked on in order on the second side only. -/
theorem forM_right {f' : α → Resolve PUnit} {xs : List α}
    (hf : ∀ a ∈ xs, ∀ t t', env.Steady s' t' →
      env.Lockstep t t' (Pure.pure ()) (f' a) fun _ _ _ => True) :
    env.Lockstep s s' (Pure.pure ()) (xs.forM f') fun _ _ _ => True := by
  induction xs generalizing s s' with
  | nil => exact .pure trivial
  | cons a xs ih =>
    refine (hf a (by simp) s s' (.refl s')).right (f := Pure.pure) fun _ t t' hs _ => ?_
    exact ih fun a' ha' u u' hs' => hf a' (by simp [ha']) u u' (hs.trans hs')

end Lockstep

namespace Agree

theorem mapM {f f' : α → Resolve β} {xs : List α} (hf : ∀ a t t', env.Agree t t' (f a) (f' a)) :
    env.Agree s s' (xs.mapM f) (xs.mapM f') := by
  refine Lockstep.mono (Lockstep.mapM (R := fun _ _ => True) (fun _ h => h) fun a _ t t' _ => ?_)
    fun bs bs' t' _ h => h.1
  exact (hf a t t').mono fun _ _ _ _ h => ⟨h, trivial⟩

theorem optionMapM {f f' : α → Resolve β} {x : Option α} (hf : ∀ a t t', env.Agree t t' (f a) (f' a)) :
    env.Agree s s' (x.mapM f) (x.mapM f') := by
  cases x with
  | none => exact .pure rfl
  | some a => exact .map (hf a s s')

end Agree

end Environment

end ApiDoc
