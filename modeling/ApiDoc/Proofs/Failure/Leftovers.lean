import ApiDoc.Proofs.Failure.Inquiry
import ApiDoc.Proofs.Memos

/-!
# What a failure leaves behind

A resolution gets a place before it is worked out, and what is remembered stays even if the resolution fails.  So a
failure leaves unfinished exactly what it interrupts: every new entry of the memos leads to a finished node or member,
or its own resolution was under way and has failed with the same error, and its place is as it was when it was reserved
(`Environment.LeftBehind`).  Whoever asks again is answered with that place.

That a place stays untouched while its type is open is seen from outside: no type is opened twice, and no two types
with parts share a place (`Environment.OpenPlaces`).
-/

namespace ApiDoc

namespace Environment

variable {env : Environment} {c c' : Stage} {fs : List Frame} {s s' : Session} {e : Error}

/-! ### Open types -/

/-- Each type is open at most once, and in its place stands `mixed`. -/
structure OpenPlaces (env : Environment) (c : Stage) : Prop where
  once (t) : c.frames.count (.type t) ≤ 1
  mixed {t} : .type t ∈ c.frames → ∃ shape r, TypeShape.of env.checker t = .ok (.composite shape) ∧
    c.session.typeOf? t = some r ∧ c.session.nodeAt? r = some .mixed

/-- Where nothing new is opened and open types keep their places, they stay as they are. -/
theorem OpenPlaces.step (h : env.OpenPlaces c) (hs : env.Sound c) (hst : env.Step c c')
    (hcount : ∀ t, c'.frames.count (.type t) ≤ c.frames.count (.type t))
    (hclosed : ∀ t, c.frames = .type t :: c'.frames → .type t ∉ c'.frames) : env.OpenPlaces c' where
  once t := Nat.le_trans (hcount t) (h.once t)
  mixed {t} ht := by
    have hmem : Frame.type t ∈ c.frames :=
      List.count_pos_iff.1 (Nat.lt_of_lt_of_le (List.count_pos_iff.2 ht) (hcount t))
    obtain ⟨shape, r, hshape, hr, hnode⟩ := h.mixed hmem
    -- if a type with this place were closed it would be this one, but this one stays open
    have hplace : ∀ t' fs, c.frames = .type t' :: fs → c'.frames = fs →
        (∃ shape, TypeShape.of env.checker t' = .ok (.composite shape)) → c.session.typeOf? t' ≠ some r := by
      rintro t' _ hfs rfl ⟨shape', hshape'⟩ hr'
      obtain rfl := hs.typeInj hshape hshape' (by simp) (by simp) hr hr'
      exact hclosed t hfs ht
    refine ⟨shape, r, hshape, (hst.extends hs).typeOf hr, ?_⟩
    rcases hst.nodeAt? hnode hplace with hsame | ⟨name, owner, hparam, -⟩
    · exact hsame
    · cases hparam

theorem Step.openPlaces (h : env.Step c c') (hs : env.Sound c) (ho : env.OpenPlaces c) : env.OpenPlaces c' := by
  have hst := h
  cases h with
  | @openType fs s t shape hnew hshape hlead =>
    -- a type that is open has been met before, and this one has not
    have hfresh : Frame.type t ∉ fs := fun hmem => by
      obtain ⟨-, r, -, hr, -⟩ := ho.mixed hmem
      exact absurd (hnew.symm.trans hr) (by simp)
    refine ⟨fun u => ?_, fun {u} hu => ?_⟩
    · by_cases hut : u = t
      · subst hut
        simp [List.count_eq_zero.2 hfresh]
      · simpa [List.count_cons, Ne.symm hut] using ho.once u
    · by_cases hut : u = t
      · subst hut
        exact ⟨shape, ⟨s.graph.types.size⟩, hshape, by simp [Session.typeOf?_addType],
          by simp [Session.nodeAt?_addType]⟩
      · have hmem : Frame.type u ∈ fs := by simpa [hut] using hu
        obtain ⟨shape', r, hshape', hr, hnode⟩ := ho.mixed hmem
        have hlt := Session.nodeAt?_eq_some_lt hnode
        refine ⟨shape', r, hshape', Session.typeOf?_addType_of_some hnew hr, ?_⟩
        rw [Session.nodeAt?_addType, if_neg (Nat.ne_of_lt hlt)]
        exact hnode
  | @closeType fs s t shape r node hshape hr hnode =>
    have honce : fs.count (.type t) = 0 := by simpa using ho.once t
    refine ho.step hs hst (fun u => List.count_le_count_cons) fun t' hfs => ?_
    obtain rfl := Frame.type.inj (List.cons.inj hfs).1
    exact List.count_eq_zero.1 honce
  | openMember | openOverride | reopen | openOverload =>
    refine ho.step hs hst (fun u => by simp) fun t' hfs => ?_
    have hlength := congrArg List.length hfs
    simp only [List.length_cons] at hlength
    omega
  | _ => exact ho.step hs hst (fun u => by simp) fun t' hfs => by simp at hfs

/-- In every state the places of open types are untouched. -/
theorem Reachable.openPlaces (hc : env.Reachable c) : env.OpenPlaces c := by
  induction hc with
  | start => exact ⟨by simp, by simp⟩
  | step hc hst ih => exact hst.openPlaces hc.sound ih
  | again _ ih => exact ⟨fun t => by simpa using ih.once t, fun ht => ih.mixed (by simpa using ht)⟩

/-! ### What is left behind -/

/-- What has become of a session by a failure.  Nothing is forgotten, and whatever is remembered beyond that is
finished, or its own resolution has failed and its place is untouched. -/
structure LeftBehind (env : Environment) (e : Error) (s s' : Session) : Prop where
  remembers : s'.Remembers s
  types {t r} : s.typeOf? t = none → s'.typeOf? t = some r →
    (∃ shape, TypeShape.of env.checker t = .ok shape ∧ env.Depicts s' t r shape) ∨
      env.FailedType e s' t ∧ s'.nodeAt? r = some .mixed
  members {key r} : s.memberOf? key = none → s'.memberOf? key = some (some r) →
    ∃ member, s'.memberAt? r = some member ∧
      (env.Finished s' key member ∨ env.FailedMember e s' key ∧ env.IsPlaceholder key member)

variable {α : Type} {x : Resolve α} {post post' : α → Session → Prop}

/-- Where only the keys that are remembered are pending. -/
theorem Tidy.pendingOld (h : env.Tidy Context.closed.abandoned s) :
    env.Tidy { Context.closed with pending := fun key => s.memberOf? key ≠ none } s :=
  { h with
    finished := fun {key r} hr => by
      obtain ⟨member, hat, hmember⟩ := h.finished hr
      exact ⟨member, hat, hmember.imp_right fun hp => ⟨by simp [hr], hp.2⟩⟩ }

/-- What a request that fails leaves behind. -/
theorem leftBehind_of_error (hexec : env.Exec (fun _ => True) ⟨.request :: fs, s⟩ x (.request :: fs) post)
    (hsafe : ∀ ctx, env.Safe ctx s x post') (hc : env.Reachable ⟨fs, s⟩)
    (ht : env.Tidy Context.closed.abandoned s) (hrun : x.run.run s = (.error e, s')) :
    env.LeftBehind e s s' where
  remembers := by
    obtain ⟨-, fs', hsteps, -⟩ := hexec.of_error hc.again hrun
    exact hc.again.remembers hsteps
  types {t r} hnew hr := by
    obtain ⟨-, fs', hsteps, hleaves⟩ := hexec.of_error hc.again hrun
    have hc' := hc.again.steps hsteps
    by_cases hopen : Frame.type t ∈ fs'
    · obtain ⟨-, r', -, hr', hmixed⟩ := hc'.openPlaces.mixed hopen
      obtain rfl := Option.some.inj (hr.symm.trans hr')
      rcases (hleaves t).2 hopen with hold | hfailed
      · -- what was open before was met before
        obtain ⟨-, r', -, hr', -⟩ := hc.openPlaces.mixed (t := t) (by simpa using hold)
        exact absurd (hnew.symm.trans hr') (by simp)
      · exact .inr ⟨hfailed, hmixed⟩
    · exact .inl (hc'.sound.typesDone hr hopen)
  members {key r} hnew hr := by
    obtain ⟨ht', -⟩ := (hsafe _).of_error ht.pendingOld hrun
    obtain ⟨member, hat, hfinished | ⟨hold | hfailed, hplaceholder⟩⟩ := ht'.finished hr
    · exact ⟨member, hat, .inl hfinished⟩
    · exact absurd hnew hold
    · exact ⟨member, hat, .inr ⟨hfailed, hplaceholder⟩⟩

/-! ### Asking again -/

/-- The resolver of some depth answers from memory. -/
theorem recur_type_run {t : TypeId} {r : TypeRef} (depth : Nat) (hr : s.typeOf? t = some r) :
    ((env.recur (depth + 1)).type t).run.run s = (.ok r, s) := by
  change (env.resolveTypeWith (env.recur depth) t).run.run s = _
  unfold resolveTypeWith
  rw [Exec.run_get, hr]
  rfl

theorem exec_recur_type (depth : Nat) (t : TypeId) :
    env.Exec (fun _ => True) ⟨.request :: fs, s⟩ ((env.recur depth).type t) (.request :: fs)
      fun r s' => s'.typeOf? t = some r :=
  (recur_serves env.covers_all env.freeGauge depth).type trivial trivial (leads_request fs _)

/-- A type with parts that fails has its place, and nothing was put there. -/
theorem failed_compositeNode {t : TypeId} {shape : Composite} (depth : Nat) (hc : env.Reachable ⟨fs, s⟩)
    (hnew : s.typeOf? t = none) (hshape : TypeShape.of env.checker t = .ok (.composite shape))
    (hrun : (env.compositeNode (env.recur depth) t shape).run.run (s.addType t .mixed) = (.error e, s')) :
    ∃ r, s'.typeOf? t = some r ∧ s'.nodeAt? r = some .mixed := by
  have hopen : env.Reachable ⟨.type t :: .request :: fs, s.addType t .mixed⟩ :=
    hc.again.step (.openType hnew hshape (leads_request fs _))
  have hserves := recur_serves env.covers_all env.freeGauge depth
  have hknown : env.ShapeKnown .all t (.composite shape) := by
    have hmeets := (env.covers_all).shape (t := t) trivial
    rwa [hshape] at hmeets
  obtain ⟨-, fs', hsteps, hleaves⟩ :=
    (hserves.compositeNode env.covers_all trivial hknown ⟨_, _, rfl, rfl⟩ ⟨fun _ => trivial, fun _ => trivial⟩).of_error
      hopen hrun
  obtain ⟨-, r, -, hr, hmixed⟩ := (hopen.steps hsteps).openPlaces.mixed ((hleaves t).1 (by simp))
  exact ⟨r, hr, hmixed⟩

/-- Where the resolution of a type that was not met before can fail: before it gets a place, in the type that it stands
for, or in its parts. -/
theorem newTypeNode_eq_error {inner : Resolver} {t : TypeId}
    (h : (env.newTypeNode inner t).run.run s = (.error e, s')) :
    s' = s ∨ (∃ base, TypeShape.of env.checker t = .ok (.substitution base) ∧
        (inner.type base).run.run s = (.error e, s')) ∨
      ∃ shape, TypeShape.of env.checker t = .ok (.composite shape) ∧
        (env.compositeNode inner t shape).run.run (s.addType t .mixed) = (.error e, s') := by
  unfold newTypeNode at h
  obtain hsame | ⟨shape, hshape, h⟩ := Exec.ask_eq_error h
  · exact .inl hsame
  cases shape with
  | native type => cases (Session.reserveType_run t (.native type)).symm.trans h
  | this => cases (Session.reserveType_run t .this).symm.trans h
  | literal =>
    obtain hsame | ⟨node, -, h⟩ := Exec.ask_eq_error h
    · exact .inl hsame
    · cases (Session.reserveType_run t node).symm.trans h
  | parameter =>
    obtain hsame | ⟨name, -, h⟩ := Exec.ask_eq_error h
    · exact .inl hsame
    · rw [Exec.run_get] at h
      cases (Session.reserveType_run t _).symm.trans h
  | substitution base =>
    obtain hbase | ⟨r, s₁, -, h⟩ := Exec.bind_eq_error h
    · exact .inr (.inl ⟨base, hshape, hbase⟩)
    · cases h
  | composite shape =>
    -- from here on the type has its place, whatever comes of its parts
    dsimp only at h
    rw [Exec.run_bind, Session.reserveType_run] at h
    obtain hnode | ⟨node, s₁, -, h⟩ := Exec.bind_eq_error h
    · exact .inr (.inr ⟨shape, hshape, hnode⟩)
    · cases h

/-- **Asking for a type again** after it has failed: nothing has happened, or the answer is the place that it, or the
type that it stands for, was given, and nothing was ever put there. -/
theorem recur_type_again (depth : Nat) {t : TypeId} (hc : env.Reachable ⟨fs, s⟩)
    (hrun : ((env.recur depth).type t).run.run s = (.error e, s')) :
    s' = s ∨ ∃ r s'', ((env.recur depth).type t).run.run s' = (.ok r, s'') ∧ s''.graph = s'.graph ∧
      s'.nodeAt? r = some .mixed := by
  induction depth generalizing t with
  | zero => exact .inl (congrArg Prod.snd hrun).symm
  | succ depth ih =>
    obtain ⟨-, fs', hsteps, -⟩ := (exec_recur_type (depth + 1) t).of_error hc.again hrun
    cases hnew : s.typeOf? t with
    | some r => cases (recur_type_run depth hnew).symm.trans hrun
    | none =>
      have hnode : (env.newTypeNode (env.recur depth) t).run.run s = (.error e, s') := by
        rw [← run_resolveType hnew]
        exact hrun
      rcases newTypeNode_eq_error hnode with hsame | ⟨base, hshape, hbase⟩ | ⟨shape, hshape, hparts⟩
      · exact .inl hsame
      · rcases ih hbase with hsame | ⟨r, s'', hagain, hgraph, hmixed⟩
        · exact .inl hsame
        right
        cases hmet : s'.typeOf? t with
        | some r' =>
          -- the type it stands for has led back to it, and both share a place
          have hc' := hc.again.steps hsteps
          have hshared := hc'.sound.shared hshape hmet
          obtain ⟨hsteps', hr⟩ := (exec_recur_type depth base).of_ok hc'.again hagain
          obtain rfl : r' = r := Option.some.inj (((hc'.again.extends hsteps').typeOf hshared).symm.trans hr)
          exact ⟨r', s', recur_type_run depth hmet, rfl, hmixed⟩
        | none =>
          refine ⟨r, s''.shareType t r, ?_, hgraph, hmixed⟩
          change (env.resolveTypeWith (env.recur depth) t).run.run s' = _
          rw [run_resolveType hmet, newTypeNode, Exec.run_ask hshape]
          dsimp only
          rw [Exec.run_bind, hagain]
          rfl
      · obtain ⟨r, hr, hmixed⟩ := failed_compositeNode depth hc hnew hshape hparts
        exact .inr ⟨r, s', recur_type_run depth hr, rfl, hmixed⟩

/-- The resolution of a symbol that was not met before fails before the symbol gets a place, or leaves it that place. -/
theorem newMember_eq_error {m : SymbolId} (depth : Nat) (hc : env.Reachable ⟨fs, s⟩)
    (hnew : s.memberOf? (.symbol m) = none)
    (h : (env.newMemberWith (env.recur depth) m).run.run s = (.error e, s')) :
    s' = s ∨ ∃ r, s'.memberOf? (.symbol m) = some (some r) := by
  unfold newMemberWith at h
  obtain hsame | ⟨flags, hflags, h⟩ := Exec.ask_eq_error h
  · exact .inl hsame
  split at h
  · rw [Exec.run_bind, Session.skipMember_run] at h
    cases h
  next hclass =>
  obtain hsame | ⟨name, -, h⟩ := Exec.ask_eq_error h
  · exact .inl hsame
  rw [Exec.run_bind, Session.reserveMember_run] at h
  dsimp only at h
  -- from here on the symbol has its place, and keeps it
  have hmarker : ¬ env.IsMarker m := fun hm => hclass ((isMarker_iff hflags).1 hm)
  have hopen : env.Reachable ⟨.member (.symbol m) :: .request :: fs, s.addMember (.symbol m) (.placeholder name)⟩ :=
    hc.again.step (.openMember hnew hmarker (leads_request fs _))
  have hslot : (s.addMember (.symbol m) (.placeholder name)).memberOf? (.symbol m) =
      some (some ⟨s.graph.members.size⟩) := by
    simp [Session.memberOf?_addMember]
  have hbuild : env.Exec (fun _ => True)
      ⟨.member (.symbol m) :: .request :: fs, s.addMember (.symbol m) (.placeholder name)⟩
      (env.buildMemberWith (env.recur depth) m ⟨s.graph.members.size⟩) (.member (.symbol m) :: .request :: fs) _ :=
    Serves.buildMember env.covers_all (recur_serves env.covers_all env.freeGauge depth) trivial trivial
      ⟨_, _, rfl, rfl⟩ (.member rfl hslot)
  obtain hrun | ⟨member, s₁, hrun, h⟩ := Exec.bind_eq_error h
  · obtain ⟨-, fs', hsteps, -⟩ := hbuild.of_error hopen hrun
    exact .inr ⟨_, (hopen.extends hsteps).memberOf hslot⟩
  · -- what is built is put in the place, and that does not fail
    obtain ⟨hsteps, -⟩ := hbuild.of_ok hopen hrun
    obtain ⟨old, hold⟩ := (hopen.steps hsteps).exists_memberAt? ((hopen.extends hsteps).memberOf hslot)
    rw [Exec.run_bind, Session.getMember_run hold] at h
    dsimp only at h
    split at h
    · cases h
    · rw [Exec.run_bind, Session.setMember_run] at h
      cases h

/-- **Asking for a member again** after it has failed: nothing has happened, or the answer is the place that it was
given. -/
theorem resolveMember_again {m : SymbolId} (hc : env.Reachable ⟨fs, s⟩)
    (hrun : (env.resolveMember m).run.run s = (.error e, s')) :
    s' = s ∨ ∃ r, s'.memberOf? (.symbol m) = some (some r) := by
  cases hnew : s.memberOf? (.symbol m) with
  | some v => cases (resolveMember_run hnew).symm.trans hrun
  | none =>
    obtain ⟨depth, hdepth⟩ := env.exists_depth
    refine newMember_eq_error (e := e) depth hc hnew ?_
    rw [← run_resolveMember hnew, ← hrun, resolveMember, hdepth]
    rfl

/-! ### Requests -/

/-- **A failure leaves only what it interrupted unfinished**, whatever was asked before.  Nothing is forgotten, each
new entry leads to what its type or symbol is documented as, or its own resolution was under way and failed with the
same error, and its place is untouched.  Whoever asks again gets that place for an answer; only where nothing had been
given a place is the failure repeated. -/
theorem failure_leaves_places (env : Environment) (requests : List Request) :
    let s := env.after {} requests
    (∀ t e s', (env.resolveType t).run.run s = (.error e, s') → env.LeftBehind e s s' ∧
      (s' = s ∨ ∃ r s'', (env.resolveType t).run.run s' = (.ok r, s'') ∧ s''.graph = s'.graph ∧
        s'.nodeAt? r = some .mixed)) ∧
    ∀ m e s', (env.resolveMember m).run.run s = (.error e, s') → env.LeftBehind e s s' ∧
      (s' = s ∨ ∃ r, (env.resolveMember m).run.run s' = (.ok (some r), s')) := by
  intro s
  obtain ⟨⟨fs, hc⟩, -⟩ := env.after_reachable requests .start
  obtain ⟨answered, hserved⟩ := (Served.start : env.Served [] {}).after requests
  have ht := hserved.tidy.1
  refine ⟨fun t e s' hrun => ⟨?_, recur_type_again env.depth hc hrun⟩,
    fun m e s' hrun => ⟨?_, (resolveMember_again hc hrun).imp_right fun ⟨r, hr⟩ => ⟨r, resolveMember_run hr⟩⟩⟩
  · exact leftBehind_of_error (exec_resolveType env.covers_all freeGauge_suffices trivial (leads_request fs _))
      (fun _ => safe_resolveType t) hc ht hrun
  · exact leftBehind_of_error (exec_resolveMember env.covers_all freeGauge_suffices trivial (leads_request fs _))
      (fun _ => safe_resolveMember m) hc ht hrun

/-! ### An array without elements -/

/-- A function that returns an array, and no answer to what the type of the elements is. -/
def withheldElement : Environment :=
  let given : Environment := {
    checker := Program.checker {
      files := ⟨#[{ name := "a.ts", node := ⟨0⟩, symbol := ⟨0⟩, locals := [⟨0⟩] }]⟩
      symbols := ⟨#[{ name := "f", flags := .of [.function], declarations := [⟨0⟩] }]⟩
      types := ⟨#[{ flags := .of [.number] },
        { flags := .of [.object], objectFlags := .of [.reference], element := some ⟨0⟩ }]⟩
      signatures := ⟨#[{ returnType := ⟨1⟩ }]⟩
      nodes := ⟨#[{ kind := .functionDeclaration, file := ⟨0⟩, signature := some ⟨0⟩ }]⟩ } }
  given.answering (given.checker.replies.refuse (.elementTypeOfArray ⟨1⟩) (.checker "no element"))

/-- The array and the function fail, and both are answered when they are asked for again. -/
theorem failure_leaves_places_withheldElement :
    let s₁ := withheldElement.after {} [.type ⟨1⟩]
    let s₂ := withheldElement.after {} [.member ⟨0⟩]
    ((withheldElement.resolveType ⟨1⟩).run.run {} = (.error (.checker "no element"), s₁) ∧
      withheldElement.LeftBehind (.checker "no element") {} s₁ ∧
      ∃ r s', (withheldElement.resolveType ⟨1⟩).run.run s₁ = (.ok r, s') ∧ s'.graph = s₁.graph ∧
        s₁.nodeAt? r = some .mixed) ∧
    (withheldElement.resolveMember ⟨0⟩).run.run {} = (.error (.checker "no element"), s₂) ∧
      withheldElement.LeftBehind (.checker "no element") {} s₂ ∧
      ∃ r, (withheldElement.resolveMember ⟨0⟩).run.run s₂ = (.ok (some r), s₂) := by
  intro s₁ s₂
  obtain ⟨htype, hmember⟩ := failure_leaves_places withheldElement []
  have hrun₁ : (withheldElement.resolveType ⟨1⟩).run.run {} = (.error (.checker "no element"), s₁) :=
    Prod.ext (by decide +kernel) rfl
  have hrun₂ : (withheldElement.resolveMember ⟨0⟩).run.run {} = (.error (.checker "no element"), s₂) :=
    Prod.ext (by decide +kernel) rfl
  -- both were given a place
  have hmet₁ : s₁.typeMemo ≠ [] := by decide +kernel
  have hmet₂ : s₂.memberMemo ≠ [] := by decide +kernel
  obtain ⟨hleft₁, hsame₁ | hagain₁⟩ := htype _ _ _ hrun₁
  · exact absurd (congrArg Session.typeMemo hsame₁) hmet₁
  obtain ⟨hleft₂, hsame₂ | hagain₂⟩ := hmember _ _ _ hrun₂
  · exact absurd (congrArg Session.memberMemo hsame₂) hmet₂
  exact ⟨⟨hrun₁, hleft₁, hagain₁⟩, hrun₂, hleft₂, hagain₂⟩

/-- After the function has failed, the array is remembered and is not what it is documented as; asked for again it is
`mixed`, and the function an empty namespace. -/
theorem unfinished_after_failure :
    let s' := withheldElement.after {} [.member ⟨0⟩]
    (withheldElement.resolveMember ⟨0⟩).run.run {} = (.error (.checker "no element"), s') ∧
    (¬ ∀ t r, Session.typeOf? {} t = none → s'.typeOf? t = some r →
      ∃ shape, TypeShape.of withheldElement.checker t = .ok shape ∧ withheldElement.Depicts s' t r shape) ∧
    (withheldElement.resolveType ⟨1⟩).run.run s' = (.ok ⟨0⟩, s') ∧ s'.nodeAt? ⟨0⟩ = some .mixed ∧
    (withheldElement.resolveMember ⟨0⟩).run.run s' = (.ok (some ⟨0⟩), s') ∧
      s'.memberAt? ⟨0⟩ = some (.placeholder "f") := by
  intro s'
  have hr : s'.typeOf? ⟨1⟩ = some ⟨0⟩ := by decide +kernel
  have hkey : s'.memberOf? (.symbol ⟨0⟩) = some (some ⟨0⟩) := by decide +kernel
  refine ⟨Prod.ext (by decide +kernel) rfl, fun hall => ?_, resolveType_run hr, by decide +kernel,
    resolveMember_run hkey, by decide +kernel⟩
  obtain ⟨shape, hshape, hdepicts⟩ := hall ⟨1⟩ ⟨0⟩ rfl hr
  have harray : TypeShape.of withheldElement.checker ⟨1⟩ = .ok (.composite .array) := by decide +kernel
  obtain rfl := Except.ok.inj (harray.symm.trans hshape)
  -- an array that is finished has the type of its elements
  obtain ⟨node, -, u, r, helement, -⟩ := hdepicts
  have hwithheld : withheldElement.checker.elementTypeOfArray ⟨1⟩ = .error (.checker "no element") := by
    decide +kernel
  cases hwithheld.symm.trans helement

end Environment

end ApiDoc
