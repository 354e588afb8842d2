import ApiDoc.Proofs.Bounds

/-!
# What is remembered

Whatever was asked of a session before, and whatever came of it, its memos only grow: new entries are put in front
of the old ones, and no entry was ever made over another (`Session.Remembers`, `Session.Single`).  What they lead to
is apart: types share a node only if they stand for the same type in the end, two keys never share a member, and no
key leads to an overload.  So what is answered once is answered again, and changes nothing
(`Environment.memos_stable_and_injective`).
-/

namespace ApiDoc

/-- What is asked of a session from outside. -/
inductive Request where
  /-- The node of a type. -/
  | type (t : TypeId)
  /-- The member of a symbol. -/
  | member (m : SymbolId)
  /-- A file with its members. -/
  | file (f : FileId)

namespace Session

/-- A later session remembers what an earlier one did: entries are only put in front of those there are, and what
was found is found again. -/
structure Remembers (later earlier : Session) : Prop where
  types : earlier.typeMemo <:+ later.typeMemo
  members : earlier.memberMemo <:+ later.memberMemo
  typeOf {t r} : earlier.typeOf? t = some r → later.typeOf? t = some r
  memberOf {key v} : earlier.memberOf? key = some v → later.memberOf? key = some v

/-- No entry of a memo hides another one: each was made for something that had none, or had the same. -/
structure Single (s : Session) : Prop where
  typeOf {t r} : (t, r) ∈ s.typeMemo → s.typeOf? t = some r
  memberOf {key v} : (key, v) ∈ s.memberMemo → s.memberOf? key = some v

theorem Remembers.refl (s : Session) : s.Remembers s := ⟨List.suffix_rfl, List.suffix_rfl, id, id⟩

theorem Remembers.trans {s s' s'' : Session} (h : s''.Remembers s') (h' : s'.Remembers s) : s''.Remembers s where
  types := h'.types.trans h.types
  members := h'.members.trans h.members
  typeOf ht := h.typeOf (h'.typeOf ht)
  memberOf hv := h.memberOf (h'.memberOf hv)

@[simp]
theorem typeMemo_recordOwner (s : Session) (t : TypeId) (r : MemberRef) :
    (s.recordOwner t r).typeMemo = s.typeMemo := by
  unfold recordOwner
  split <;> dsimp only <;> split <;> rfl

@[simp]
theorem memberMemo_recordOwner (s : Session) (t : TypeId) (r : MemberRef) :
    (s.recordOwner t r).memberMemo = s.memberMemo := by
  unfold recordOwner
  split <;> dsimp only <;> split <;> rfl

end Session

namespace Environment

variable (env : Environment)

/-- The session after a request, whatever comes of it. -/
def afterRequest (s : Session) : Request → Session
  | .type t => ((env.resolveType t).run.run s).2
  | .member m => ((env.resolveMember m).run.run s).2
  | .file f => ((env.resolveFile f).run.run s).2

/-- The session after some requests, one after the other. -/
def after (s : Session) (requests : List Request) : Session := requests.foldl env.afterRequest s

/-- A type is documented as the one it stands for. -/
def StandsFor (t base : TypeId) : Prop := TypeShape.of env.checker t = .ok (.substitution base)

/-- A type leads to another that stands for none, from one that it stands for to the next. -/
def EndsIn (t u : TypeId) : Prop :=
  Relation.ReflTransGen env.StandsFor t u ∧ ∀ base, ¬ env.StandsFor u base

variable {env} {c c' : Stage}

/-! ### Steps -/

/-- **A step forgets nothing.** -/
theorem Step.remembers (h : env.Step c c') (hs : env.Sound c) : c'.session.Remembers c.session where
  types := by
    cases h with
    | leaf | openType | share => exact List.suffix_cons _ _
    | owner => simp
    | _ => exact List.suffix_rfl
  members := by
    cases h with
    | skip | openMember | openOverride => exact List.suffix_cons _ _
    | owner => simp
    | _ => exact List.suffix_rfl
  typeOf := (h.extends hs).typeOf
  memberOf := (h.extends hs).memberOf

/-- A step hides nothing: the entry that it makes is the one that is found. -/
theorem Step.single (h : env.Step c c') (hs : env.Sound c) (hc : c.session.Single) : c'.session.Single where
  typeOf {t r} ht := by
    have hext := h.extends hs
    have hold (ht : (t, r) ∈ c.session.typeMemo) := hext.typeOf (hc.typeOf ht)
    -- a new entry stands in front, where it is found first
    cases h with
    | leaf | openType =>
      rcases List.mem_cons.1 ht with heq | ht
      · obtain ⟨rfl, rfl⟩ := Prod.mk.inj heq
        simp [Session.typeOf?_addType]
      · exact hold ht
    | share =>
      rcases List.mem_cons.1 ht with heq | ht
      · obtain ⟨rfl, rfl⟩ := Prod.mk.inj heq
        simp [Session.typeOf?_shareType]
      · exact hold ht
    | owner => exact hold (by simpa using ht)
    | _ => exact hold ht
  memberOf {key v} hv := by
    have hext := h.extends hs
    have hold (hv : (key, v) ∈ c.session.memberMemo) := hext.memberOf (hc.memberOf hv)
    cases h with
    | openMember | openOverride =>
      rcases List.mem_cons.1 hv with heq | hv
      · obtain ⟨rfl, rfl⟩ := Prod.mk.inj heq
        simp [Session.memberOf?_addMember]
      · exact hold hv
    | skip =>
      rcases List.mem_cons.1 hv with heq | hv
      · obtain ⟨rfl, rfl⟩ := Prod.mk.inj heq
        simp [Session.memberOf?_skipMember]
      · exact hold hv
    | owner => exact hold (by simpa using hv)
    | _ => exact hold hv

theorem Reachable.single (h : env.Reachable c) : c.session.Single := by
  induction h with
  | start => constructor <;> simp
  | step hc hst ih => exact hst.single hc.sound ih
  | again _ ih => exact ih

theorem Reachable.remembers (hc : env.Reachable c) (h : env.Steps c c') : c'.session.Remembers c.session := by
  induction h with
  | refl => exact .refl _
  | tail hsteps hst ih => exact (hst.remembers (hc.steps hsteps).sound).trans ih

/-- A remembered type leads to one that stands for none and has the same node. -/
theorem Reachable.endsIn (h : env.Reachable c) {t : TypeId} {r : TypeRef} (hr : c.session.typeOf? t = some r) :
    ∃ u shape, env.EndsIn t u ∧ TypeShape.of env.checker u = .ok shape ∧ c.session.typeOf? u = some r := by
  induction h generalizing t r with
  | start => simp at hr
  | again _ ih => exact ih hr
  | @step c c' hc hst ih =>
    have hext := hst.extends hc.sound
    rcases hst.typeOf? hr with hold | ⟨-, -, -, shape, hshape, hown⟩ | ⟨base, hbase, hr'⟩
    · obtain ⟨u, shape, hu, hshape, hr'⟩ := ih hold
      exact ⟨u, shape, hu, hshape, hext.typeOf hr'⟩
    · refine ⟨t, shape, ⟨.refl, fun base hbase => hown base ?_⟩, hshape, hr⟩
      exact Except.ok.inj (hshape.symm.trans hbase)
    · obtain ⟨u, shape, hu, hshape, hr'⟩ := ih hr'
      exact ⟨u, shape, ⟨.head hbase hu.1, hu.2⟩, hshape, hext.typeOf hr'⟩

/-- Types that share a node stand for the same type in the end. -/
theorem Reachable.endsIn_same (h : env.Reachable c) {t t' : TypeId} {r : TypeRef}
    (hr : c.session.typeOf? t = some r) (hr' : c.session.typeOf? t' = some r) :
    ∃ u, env.EndsIn t u ∧ env.EndsIn t' u := by
  obtain ⟨u, shape, hu, hshape, hur⟩ := h.endsIn hr
  obtain ⟨u', shape', hu', hshape', hur'⟩ := h.endsIn hr'
  have hown {u : TypeId} {shape : TypeShape} (hshape : TypeShape.of env.checker u = .ok shape)
      (hu : ∀ base, ¬ env.StandsFor u base) (base : TypeId) : shape ≠ .substitution base := by
    rintro rfl
    exact hu base hshape
  obtain rfl := h.sound.typeInj hshape hshape' (hown hshape hu.2) (hown hshape' hu'.2) hur hur'
  exact ⟨u, hu, hu'⟩

/-! ### Requests -/

variable {s : Session}

/-- A request is a run of the machine on top of what was left open before. -/
theorem exec_request (request : Request) {fs : List Frame} (hc : env.Reachable ⟨fs, s⟩) :
    ∃ fs', env.Steps ⟨.request :: fs, s⟩ ⟨fs', env.afterRequest s request⟩ := by
  have hcov := env.covers_all
  cases request with
  | type t => exact (exec_resolveType hcov freeGauge_suffices trivial (leads_request fs _)).steps hc.again
  | member m => exact (exec_resolveMember hcov freeGauge_suffices trivial (leads_request fs _)).steps hc.again
  | file f => exact (exec_resolveFile hcov freeGauge_suffices trivial (not_worksOn_request fs)).steps hc.again

/-- Requests lead from states of the machine to such, and nothing is forgotten. -/
theorem after_reachable (requests : List Request) {fs : List Frame} (hc : env.Reachable ⟨fs, s⟩) :
    (∃ fs', env.Reachable ⟨fs', env.after s requests⟩) ∧ (env.after s requests).Remembers s ∧
      s.Extends (env.after s requests) := by
  induction requests generalizing s fs with
  | nil => exact ⟨⟨fs, hc⟩, .refl s, .refl s⟩
  | cons request requests ih =>
    obtain ⟨fs', hsteps⟩ := exec_request request hc
    obtain ⟨hreachable, hremembers, hextends⟩ := ih (hc.again.steps hsteps)
    exact ⟨hreachable, hremembers.trans (hc.again.remembers hsteps), (hc.again.extends hsteps).trans hextends⟩

/-- Requests lead from sessions that were served to such. -/
theorem Served.after {answered : List SourceFile} (requests : List Request) (h : env.Served answered s) :
    ∃ answered', env.Served answered' (env.after s requests) := by
  induction requests generalizing s answered with
  | nil => exact ⟨answered, h⟩
  | cons request requests ih =>
    suffices hserved : ∃ answered', env.Served answered' (env.afterRequest s request) by
      obtain ⟨answered', hserved⟩ := hserved
      exact ih hserved
    cases request with
    | type t => exact ⟨_, .type t h⟩
    | member m => exact ⟨_, .member m h⟩
    | file f =>
      rcases hrun : (env.resolveFile f).run.run s with ⟨r, s'⟩
      rw [afterRequest, hrun]
      cases r with
      | ok file => exact ⟨_, .file h hrun⟩
      | error e => exact ⟨_, .failed h hrun⟩

/-- There is always some way down. -/
theorem exists_depth (env : Environment) : ∃ n, env.depth = n + 1 :=
  Nat.exists_eq_succ_of_ne_zero (by simp [depth])

/-- A type that is remembered is answered from memory. -/
theorem resolveType_run {t : TypeId} {r : TypeRef} (hr : s.typeOf? t = some r) :
    (env.resolveType t).run.run s = (.ok r, s) := by
  obtain ⟨n, hn⟩ := env.exists_depth
  rw [resolveType, hn]
  change (env.resolveTypeWith (env.recur n) t).run.run s = _
  rw [resolveTypeWith]
  refine (Exec.run_get _ s).trans ?_
  simp only [hr]
  rfl

/-- A symbol that is remembered is answered from memory. -/
theorem resolveMember_run {m : SymbolId} {v : Option MemberRef} (hv : s.memberOf? (.symbol m) = some v) :
    (env.resolveMember m).run.run s = (.ok v, s) := by
  obtain ⟨n, hn⟩ := env.exists_depth
  rw [resolveMember, hn]
  change (env.resolveMemberWith (env.recur n) m).run.run s = _
  rw [resolveMemberWith]
  refine (Exec.run_get _ s).trans ?_
  simp only [hv]
  rfl

/-- **The memos are stable and injective**, whatever was asked before and whatever came of it.  What is remembered
stays; types share a node only if they stand for the same type in the end; two keys never share a member, and no key
leads to an overload; and a request that was answered once is answered in the same way at any later time, and changes
nothing. -/
theorem memos_stable_and_injective (env : Environment) (requests : List Request) :
    let s := env.after {} requests
    (∀ later, (env.after s later).Remembers s) ∧ s.Single ∧
    (∀ t t' r, s.typeOf? t = some r → s.typeOf? t' = some r → ∃ u, env.EndsIn t u ∧ env.EndsIn t' u) ∧
    (∀ key key' r, s.memberOf? key = some (some r) → s.memberOf? key' = some (some r) → key = key') ∧
    (∀ r member o, s.memberAt? r = some member → o ∈ member.overloads → ∀ later key,
      (env.after s later).memberOf? key ≠ some (some o)) ∧
    (∀ t r s', (env.resolveType t).run.run s = (.ok r, s') → ∀ later,
      (env.resolveType t).run.run (env.after s' later) = (.ok r, env.after s' later)) ∧
    ∀ m v s', (env.resolveMember m).run.run s = (.ok v, s') → ∀ later,
      (env.resolveMember m).run.run (env.after s' later) = (.ok v, env.after s' later) := by
  intro s
  obtain ⟨⟨fs, hc⟩, -⟩ := env.after_reachable requests .start
  obtain ⟨answered, hserved⟩ := (Served.start : env.Served [] {}).after requests
  have ht := hserved.tidy.1
  refine ⟨fun later => (after_reachable later hc).2.1, hc.single, fun t t' r => hc.endsIn_same,
    fun key key' r => ht.single, fun r member o hr ho later key => ?_, fun t r s' hrun later => ?_,
    fun m v s' hrun later => ?_⟩
  · exact ((after_reachable later hc).2.2.loose (ht.apart.loose hr ho)).2 key
  · obtain ⟨hsteps, hr⟩ := (exec_resolveType env.covers_all freeGauge_suffices trivial (leads_request fs _)).of_ok
      hc.again hrun
    exact resolveType_run ((after_reachable later (hc.again.steps hsteps)).2.1.typeOf hr)
  · obtain ⟨hsteps, hv⟩ := (exec_resolveMember env.covers_all freeGauge_suffices trivial (leads_request fs _)).of_ok
      hc.again hrun
    exact resolveMember_run ((after_reachable later (hc.again.steps hsteps)).2.1.memberOf hv.1)

/-! ### A function with an overload -/

/-- A function that is declared twice: the first declaration returns a type that stands for that of numbers. -/
def twiceDeclared : Environment where
  checker := Program.checker {
    files := ⟨#[{ name := "a.ts", node := ⟨0⟩, symbol := ⟨0⟩, locals := [⟨0⟩] }]⟩
    symbols := ⟨#[{ name := "f", flags := .of [.function], declarations := [⟨0⟩, ⟨1⟩] }]⟩
    types := ⟨#[{ flags := .of [.number] }, { flags := .of [.substitution], substitutionBase := some ⟨0⟩ }]⟩
    signatures := ⟨#[{ returnType := ⟨1⟩ }, { returnType := ⟨0⟩ }]⟩
    nodes := ⟨#[{ kind := .functionDeclaration, file := ⟨0⟩, signature := some ⟨0⟩ },
      { kind := .functionDeclaration, file := ⟨0⟩, signature := some ⟨1⟩, hasBody := true }]⟩ }

/-- Both types share a node, and the overload never is a key's, whatever is asked for later. -/
theorem memos_stable_and_injective_twiceDeclared :
    let s := twiceDeclared.after {} [.member ⟨0⟩]
    s.typeOf? ⟨0⟩ = some ⟨0⟩ ∧ s.typeOf? ⟨1⟩ = some ⟨0⟩ ∧
    (∃ u, twiceDeclared.EndsIn ⟨0⟩ u ∧ twiceDeclared.EndsIn ⟨1⟩ u) ∧
    (∃ member, s.memberAt? ⟨0⟩ = some member ∧ ⟨1⟩ ∈ member.overloads ∧ ∀ later key,
      (twiceDeclared.after s later).memberOf? key ≠ some (some ⟨1⟩)) ∧
    (twiceDeclared.resolveMember ⟨0⟩).run.run s = (.ok (some ⟨0⟩), s) := by
  intro s
  obtain ⟨-, -, hends, -, hoverloads, -, -⟩ := memos_stable_and_injective twiceDeclared [.member ⟨0⟩]
  obtain ⟨-, -, -, -, -, -, hagain⟩ := memos_stable_and_injective twiceDeclared []
  have ht : s.typeOf? ⟨0⟩ = some ⟨0⟩ := by decide +kernel
  have ht' : s.typeOf? ⟨1⟩ = some ⟨0⟩ := by decide +kernel
  have hat : (s.memberAt? ⟨0⟩).map Member.overloads = some [⟨1⟩] := by decide +kernel
  obtain ⟨member, hmember, hlisted⟩ := Option.map_eq_some_iff.1 hat
  have hmem : ⟨1⟩ ∈ member.overloads := by simp [hlisted]
  have hanswer : ((twiceDeclared.resolveMember ⟨0⟩).run.run {}).1 = .ok (some ⟨0⟩) := by decide +kernel
  exact ⟨ht, ht', hends _ _ _ ht ht', ⟨member, hmember, hmem, hoverloads _ _ _ hmember hmem⟩,
    hagain _ _ _ (Prod.ext hanswer rfl) []⟩

end Environment

end ApiDoc
