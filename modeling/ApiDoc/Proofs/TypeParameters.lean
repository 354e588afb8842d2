import ApiDoc.Proofs.Memos
import ApiDoc.Proofs.ParameterLists
import ApiDoc.Proofs.Program.Outline
import ApiDoc.Proofs.Program.WellFormed

/-!
# Who declares a type parameter

The member that declares a type parameter is recorded when a member that lists the parameter is made, and it is kept
twice: among the owners and in the node of the parameter.  The node may be there before or after.

The owner is the place that lists the parameter first (`Environment.FirstListedAt`), and as long as nothing but type
parameters and receivers are listed, the node of a parameter has its name and its owner in every state
(`type_parameters_agree`).  A type that stands for a parameter shares its node, so a list with such a type would put a
second owner in the node.
-/

namespace ApiDoc

namespace Session

variable {s : Session} {t : TypeId} {owner : MemberRef} {p : TypeRef} {name : String} {declaredBy : Option MemberRef}

/-- The owner is recorded in the node as well. -/
theorem nodeAt?_recordOwner_self (hp : s.typeOf? t = some p) (hnode : s.nodeAt? p = some (.parameter name declaredBy)) :
    (s.recordOwner t owner).nodeAt? p = some (.parameter name (declaredBy.or (some owner))) := by
  have hat : s.graph.types.get? p.index = some (.parameter name declaredBy) := hnode
  simp only [recordOwner]
  split <;> split <;> simp_all [nodeAt?, typeOf?, Arena.get?_modify]

/-- The node of another type is left alone. -/
theorem nodeAt?_recordOwner_of_ne {node : TypeNode} (hne : s.typeOf? t ≠ some p) (hnode : s.nodeAt? p = some node) :
    (s.recordOwner t owner).nodeAt? p = some node :=
  (nodeAt?_recordOwner hnode).resolve_right fun h => hne h.1

end Session

namespace Environment

/-! ### Later states -/

/-- The states that further steps and requests lead to. -/
inductive Later (env : Environment) (c : Stage) : Stage → Prop
  | refl : Later env c c
  | step {c' c''} (h : Later env c c') (hstep : env.Step c' c'') : Later env c c''
  | again {fs s} (h : Later env c ⟨fs, s⟩) : Later env c ⟨.request :: fs, s⟩

variable {env : Environment} {c c' c'' : Stage} {fs : List Frame} {s : Session} {t : TypeId} {p : TypeRef}
  {r : MemberRef}

namespace Later

theorem steps (h : env.Later c c') (hsteps : env.Steps c' c'') : env.Later c c'' := by
  induction hsteps with
  | refl => exact h
  | tail _ hst ih => exact ih.step hst

theorem reachable (h : env.Later c c') (hc : env.Reachable c) : env.Reachable c' := by
  induction h with
  | refl => exact hc
  | step _ hst ih => exact ih.step hst
  | again _ ih => exact ih.again

theorem «extends» (h : env.Later c c') (hc : env.Reachable c) : c.session.Extends c'.session := by
  induction h with
  | refl => exact .refl _
  | step h hst ih => exact ih.trans (hst.extends (h.reachable hc).sound)
  | again _ ih => exact ih

/-- Further requests lead to later states. -/
theorem after (h : env.Later c ⟨fs, s⟩) (hc : env.Reachable c) (requests : List Request) :
    ∃ fs', env.Later c ⟨fs', env.after s requests⟩ := by
  induction requests generalizing s fs with
  | nil => exact ⟨fs, h⟩
  | cons request requests ih =>
    obtain ⟨fs', hsteps⟩ := exec_request request (h.reachable hc)
    exact ih (h.again.steps hsteps)

end Later

/-! ### Nodes and owners -/

variable (env) in
/-- Nothing but type parameters and receivers are listed as type parameters. -/
def ListsOnlyParameters : Prop := ∀ m t shape, env.DeclaresParameter m t → TypeShape.of env.checker t = .ok shape →
  shape = .parameter ∨ shape = .this

variable (env) in
/-- The node of every type parameter has its name, and the owner that is recorded. -/
def ParametersAgree (s : Session) : Prop := ∀ t p, TypeShape.of env.checker t = .ok .parameter → s.typeOf? t = some p →
  ∃ name, env.typeParameterName t = .ok name ∧ s.nodeAt? p = some (.parameter name (s.ownerOf? t))

/-- Every type that is remembered has a shape. -/
theorem Reachable.exists_shape (hc : env.Reachable c) (hp : c.session.typeOf? t = some p) :
    ∃ shape, TypeShape.of env.checker t = .ok shape := by
  obtain ⟨u, shape, ⟨hchain, -⟩, hshape, -⟩ := hc.endsIn hp
  rcases Relation.ReflTransGen.cases_head hchain with rfl | ⟨base, hbase, -⟩
  · exact ⟨shape, hshape⟩
  · exact ⟨_, hbase⟩

/-- An owner that is recorded is recorded in the node of its parameter, and in no other. -/
theorem ParametersAgree.recordOwner {fs : List Frame} {s : Session} (ha : env.ParametersAgree s)
    (hlisted : env.ListsOnlyParameters) (hc : env.Reachable ⟨fs, s⟩) {u : TypeId}
    (hdeclares : env.DeclaresAt fs s r u) : env.ParametersAgree (s.recordOwner u r) := by
  intro t p hshape hp
  rw [Session.typeOf?_recordOwner] at hp
  obtain ⟨name, hname, hnode⟩ := ha t p hshape hp
  refine ⟨name, hname, ?_⟩
  rw [Session.ownerOf?_recordOwner]
  by_cases heq : t = u
  · subst heq
    rw [if_pos rfl]
    exact Session.nodeAt?_recordOwner_self hp hnode
  · rw [if_neg heq]
    refine Session.nodeAt?_recordOwner_of_ne (fun hu => heq ?_) hnode
    -- what is listed stands for no other type, so it has a node for itself
    obtain ⟨m, hm⟩ := hdeclares.declares hc
    obtain ⟨shape, hshape'⟩ := hc.exists_shape hu
    have hown : ∀ base, shape ≠ .substitution base := by
      rcases hlisted m u shape hm hshape' with rfl | rfl <;> simp
    exact hc.sound.typeInj hshape hshape' (by simp) hown hp hu

/-- **A step keeps nodes and owners in agreement.** -/
theorem Step.parametersAgree (h : env.Step c c') (hc : env.Reachable c) (hlisted : env.ListsOnlyParameters)
    (ha : env.ParametersAgree c.session) : env.ParametersAgree c'.session := by
  -- another node at the end leaves those that are there
  have hold {s : Session} (ha : env.ParametersAgree s) (hs : ∀ t p, s.typeOf? t = some p → p.index < s.graph.types.size)
      {t : TypeId} {p : TypeRef} (hshape : TypeShape.of env.checker t = .ok .parameter) (hp : s.typeOf? t = some p)
      (node : TypeNode) : ∃ name, env.typeParameterName t = .ok name ∧
        (s.growType node).nodeAt? p = some (.parameter name (s.ownerOf? t)) := by
    obtain ⟨name, hname, hnode⟩ := ha t p hshape hp
    refine ⟨name, hname, ?_⟩
    rw [Session.nodeAt?_growType, if_neg (Nat.ne_of_lt (hs t p hp)), hnode]
  have hbound : ∀ t p, c.session.typeOf? t = some p → p.index < c.session.graph.types.size :=
    fun _ _ => hc.sound.typeBound
  cases h with
  | owner hdeclares => exact ha.recordOwner hlisted hc hdeclares
  | mixed => exact fun t p hshape hp => hold ha hbound hshape hp _
  | @leaf _ s u shape node hnew hshape hnode howner =>
    intro t p hshape' hp
    obtain ⟨rfl, rfl⟩ | ⟨-, hp⟩ := Session.typeOf?_addType_eq_some_iff.1 hp
    · obtain rfl := Except.ok.inj (hshape.symm.trans hshape')
      obtain ⟨name, rfl⟩ := howner rfl
      obtain ⟨name', owner, hname, heq⟩ := hnode
      obtain ⟨rfl, -⟩ := TypeNode.parameter.inj heq
      exact ⟨name, hname, by rw [Session.nodeAt?_addType, if_pos rfl]; rfl⟩
    · exact hold ha hbound hshape' hp node
  | @openType _ s u shape hnew hshape hlead =>
    intro t p hshape' hp
    obtain ⟨rfl, -⟩ | ⟨-, hp⟩ := Session.typeOf?_addType_eq_some_iff.1 hp
    · exact absurd (Except.ok.inj (hshape.symm.trans hshape')) (by simp)
    · exact hold ha hbound hshape' hp _
  | @share _ s u base r hshape hbase _ =>
    intro t p hshape' hp
    obtain ⟨rfl, -⟩ | ⟨-, hp⟩ := Session.typeOf?_shareType_eq_some_iff.1 hp
    · exact absurd (Except.ok.inj (hshape.symm.trans hshape')) (by simp)
    · exact ha t p hshape' hp
  | @closeType _ s u shape r node hshape hr hnode =>
    intro t p hshape' hp
    have hne : r ≠ p := by
      rintro rfl
      obtain rfl := hc.sound.typeInj hshape hshape' (by simp) (by simp) hr hp
      exact absurd (Except.ok.inj (hshape.symm.trans hshape')) (by simp)
    obtain ⟨name, hname, hnode⟩ := ha t p hshape' hp
    exact ⟨name, hname, by rw [Session.nodeAt?_putType, if_neg hne]; exact hnode⟩
  | _ => exact ha

/-- Nodes and owners agree in every state. -/
theorem Reachable.parametersAgree (hc : env.Reachable c) (hlisted : env.ListsOnlyParameters) :
    env.ParametersAgree c.session := by
  induction hc with
  | start => exact fun t p _ hp => absurd hp (by simp)
  | step hc hst ih => exact hst.parametersAgree hc hlisted ih
  | again _ ih => exact ih

/-! ### The first place -/

variable (env) in
/-- A place was the first to list a type parameter: there was a state in which the parameter had no owner and none of
the members that were there listed it, when the place that was worked on did. -/
def FirstListedAt (c : Stage) (t : TypeId) (r : MemberRef) : Prop :=
  ∃ fs s, env.Reachable ⟨fs, s⟩ ∧ s.ownerOf? t = none ∧
    (∀ r' member p, s.memberAt? r' = some member → s.typeOf? t = some p → p ∉ member.parameterNodes) ∧
    env.DeclaresAt fs s r t ∧ env.Later ⟨fs, s.recordOwner t r⟩ c

/-- As long as a type parameter has no owner, no member lists it. -/
theorem Reachable.unlisted (hc : env.Reachable c) (hlisted : env.ListsOnlyParameters) {m : SymbolId}
    (ht : env.DeclaresParameter m t) (hnone : c.session.ownerOf? t = none) {member : Member}
    (hr : c.session.memberAt? r = some member) (hp : c.session.typeOf? t = some p) : p ∉ member.parameterNodes := by
  obtain ⟨x, hx⟩ := hc.listed.places (Session.memberAt?_eq_some_lt hr)
  -- what is listed stands for itself, so the node tells the parameter
  have hown {m : SymbolId} {u : TypeId} (hu : env.DeclaresParameter m u) (hp : c.session.typeOf? u = some p) :
      ∃ shape, TypeShape.of env.checker u = .ok shape ∧ ∀ base, shape ≠ .substitution base := by
    obtain ⟨shape, hshape⟩ := hc.exists_shape hp
    refine ⟨shape, hshape, ?_⟩
    rcases hlisted m u shape hu hshape with rfl | rfl <;> simp
  intro hmem
  rcases hx.made hr with ⟨name, exported, rfl⟩ | ⟨ts, rfl, hts, howned⟩
  · simp [Member.placeholder, Member.parameterNodes, MemberBody.parameterNodes] at hmem
  · obtain ⟨u, hu, hup⟩ := exists_of_forall₂ hts.flip hmem
    obtain ⟨m', hm'⟩ := hx.listOf.declares rfl hu
    obtain ⟨shape, hshape, hsub⟩ := hown ht hp
    obtain ⟨shape', hshape', hsub'⟩ := hown hm' hup
    obtain rfl := hc.sound.typeInj hshape hshape' hsub hsub' hp hup
    obtain ⟨owner, howner⟩ := howned t hu
    exact absurd (hnone.symm.trans howner) (by simp)

/-- The owner of a type parameter is the place that listed it first. -/
theorem Reachable.firstListedAt (hc : env.Reachable c) (hlisted : env.ListsOnlyParameters)
    (hr : c.session.ownerOf? t = some r) : env.FirstListedAt c t r := by
  induction hc with
  | start => cases hr
  | @step c c' hc hst ih =>
    rcases hst.ownerOf? hr with hold | ⟨hnone, hdeclares, rfl⟩
    · obtain ⟨fs, s, hs, hnone, hunlisted, hdeclares, hlater⟩ := ih hold
      exact ⟨fs, s, hs, hnone, hunlisted, hdeclares, hlater.step hst⟩
    · obtain ⟨m, hm⟩ := hdeclares.declares hc
      exact ⟨c.frames, c.session, hc, hnone, fun r' member p => hc.unlisted hlisted hm hnone, hdeclares, .refl⟩
  | again hc ih =>
    obtain ⟨fs, s, hs, hnone, hunlisted, hdeclares, hlater⟩ := ih hr
    exact ⟨fs, s, hs, hnone, hunlisted, hdeclares, hlater.again⟩

/-- **Type parameters agree with who declares them**, in all states that requests lead to or pass through.
- The node of a parameter has its name and its owner, and none as long as there is none.
- Every place has a list of type parameters that is told by its key or its declaration.  A place that owns a parameter
  has it in its list, and a member that is made lists just those, each with an owner.
- An owner was the first to list its parameter.
- Whatever comes of listing some parameters in a place, each has that place as its owner then, unless it had one when
  its turn came, and so has each that a member lists, once that is made.
- Later states, and with them later requests, change neither an owner nor what a node says of it. -/
theorem type_parameters_agree (env : Environment) (hlisted : env.ListsOnlyParameters) :
    (∀ requests, ∃ fs, env.Reachable ⟨fs, env.after {} requests⟩ ∧ ∀ further, ∃ fs',
      env.Later ⟨fs, env.after {} requests⟩ ⟨fs', env.after (env.after {} requests) further⟩) ∧
    ∀ c, env.Reachable c →
      (∀ t p, TypeShape.of env.checker t = .ok .parameter → c.session.typeOf? t = some p →
        ∃ name, env.typeParameterName t = .ok name ∧
          c.session.nodeAt? p = some (.parameter name (c.session.ownerOf? t))) ∧
      (∀ r, r.index < c.session.graph.members.size → ∃ x, env.ListsAt c r x) ∧
      (∀ t r, c.session.ownerOf? t = some r → r.index < c.session.graph.members.size ∧ env.FirstListedAt c t r) ∧
      (∀ r before t rest, env.Makes c.frames c.session r (.ok (before ++ t :: rest)) → ∀ depth summaries ps s',
        (env.typeParameters (env.recur depth) summaries (some r) before).run.run c.session = (.ok ps, s') →
          ((env.typeParameters (env.recur depth) summaries (some r) (before ++ t :: rest)).run.run
            c.session).2.ownerOf? t = (s'.ownerOf? t).or (some r)) ∧
      (∀ f fs r x, c.frames = f :: fs → env.Makes c.frames c.session r x → ∀ depth make member s',
        env.maker (env.recur depth) r f = some make → make.run.run c.session = (.ok member, s') →
          env.Registers (env.recur depth) r x c.session s' ∧ s'.ListsParameters member x) ∧
      ∀ c', env.Later c c' → ∀ t r, c.session.ownerOf? t = some r → c'.session.ownerOf? t = some r ∧
        ∀ p node, TypeShape.of env.checker t = .ok .parameter → c.session.typeOf? t = some p →
          c.session.nodeAt? p = some node → c'.session.typeOf? t = some p ∧ c'.session.nodeAt? p = some node := by
  refine ⟨fun requests => ?_, fun c hc => ⟨hc.parametersAgree hlisted, fun r => hc.listed.places,
    fun t r hr => ⟨hc.listed.owners hr, hc.firstListedAt hlisted hr⟩,
    fun r before t rest hmakes depth summaries ps s' => hmakes.records hc, ?_, ?_⟩⟩
  · obtain ⟨⟨fs, hc⟩, -⟩ := env.after_reachable requests .start
    exact ⟨fs, hc, Later.refl.after hc⟩
  · obtain ⟨frames, s⟩ := c
    rintro f fs r x rfl hmakes depth make member s' hmake hrun
    have hmade := madeWith_of_maker hc hmakes hmake hrun
    exact ⟨hmade.registers, hmade.lists⟩
  · intro c' h t r hr
    have hr' : c'.session.ownerOf? t = some r := (h.extends hc).ownerOf hr
    refine ⟨hr', fun p node hshape hp hnode => ?_⟩
    have hp' := (h.extends hc).typeOf hp
    obtain ⟨name, hname, hat⟩ := hc.parametersAgree hlisted t p hshape hp
    obtain ⟨name', hname', hat'⟩ := (h.reachable hc).parametersAgree hlisted t p hshape hp'
    obtain rfl : name = name' := Except.ok.inj (hname.symm.trans hname')
    rw [hr', ← hr, ← hat, hnode] at hat'
    exact ⟨hp', hat'⟩

/-! ### A type parameter that is listed twice -/

/-- A class and a function that list the same type parameter. -/
def listedTwice : Environment where
  checker := Program.checker {
    files := ⟨#[{ name := "a.ts", node := ⟨0⟩, symbol := ⟨0⟩, locals := [⟨0⟩, ⟨1⟩] }]⟩
    symbols := ⟨#[{ name := "f", flags := .of [.function], declarations := [⟨0⟩] },
      { name := "C", flags := .of [.classSymbol], typeParameters := [⟨0⟩], declaredType := some ⟨1⟩ },
      { name := "T", flags := .of [.typeParameter] }]⟩
    types := ⟨#[{ flags := .of [.typeParameter], symbol := some ⟨2⟩ }, { flags := .of [.object], symbol := some ⟨1⟩ }]⟩
    signatures := ⟨#[{ typeParameters := [⟨0⟩], returnType := ⟨0⟩ }]⟩
    nodes := ⟨#[{ kind := .functionDeclaration, file := ⟨0⟩, signature := some ⟨0⟩ }]⟩ }

theorem listsOnlyParameters_listedTwice : listedTwice.ListsOnlyParameters := by
  have hzero : ∀ m t, listedTwice.DeclaresParameter m t → t = ⟨0⟩ := by
    intro m t h
    cases h with
    | declared hts ht =>
      obtain ⟨data, hdata, rfl⟩ := map_eq_ok_iff.1 hts
      exact Program.forall_get? (P := fun data : SymbolData => ∀ t ∈ data.typeParameters, t = ⟨0⟩) (by decide)
        (Error.orOutOfBounds_eq_ok_iff.1 hdata) t ht
    | signature _ _ hts ht =>
      obtain ⟨data, hdata, rfl⟩ := map_eq_ok_iff.1 hts
      exact Program.forall_get? (P := fun data : SignatureData => ∀ t ∈ data.typeParameters, t = ⟨0⟩) (by decide)
        (Error.orOutOfBounds_eq_ok_iff.1 hdata) t ht
  have hparameter : TypeShape.of listedTwice.checker ⟨0⟩ = .ok .parameter := by decide +kernel
  intro m t shape h hshape
  obtain rfl := hzero m t h
  exact .inl (Except.ok.inj (hshape.symm.trans hparameter))

/-- Whichever of the two is asked for first lists the parameter first, and stays its owner. -/
theorem type_parameters_agree_listedTwice :
    (listedTwice.after {} [.type ⟨0⟩]).nodeAt? ⟨0⟩ = some (.parameter "T" none) ∧
    (let s := listedTwice.after {} [.type ⟨0⟩, .member ⟨1⟩, .member ⟨0⟩]
     s.memberOf? (.symbol ⟨1⟩) = some (some ⟨0⟩) ∧ s.nodeAt? ⟨0⟩ = some (.parameter "T" (some ⟨0⟩)) ∧
       ∃ fs, listedTwice.FirstListedAt ⟨fs, s⟩ ⟨0⟩ ⟨0⟩) ∧
    let s := listedTwice.after {} [.member ⟨0⟩, .member ⟨1⟩]
    s.memberOf? (.symbol ⟨0⟩) = some (some ⟨0⟩) ∧ s.nodeAt? ⟨0⟩ = some (.parameter "T" (some ⟨0⟩)) ∧
      ∃ fs, listedTwice.FirstListedAt ⟨fs, s⟩ ⟨0⟩ ⟨0⟩ := by
  obtain ⟨hstates, hagree⟩ := type_parameters_agree listedTwice listsOnlyParameters_listedTwice
  have hname : listedTwice.typeParameterName ⟨0⟩ = .ok "T" := by decide +kernel
  have hnode (requests : List Request) (hp : (listedTwice.after {} requests).typeOf? ⟨0⟩ = some ⟨0⟩) :
      (listedTwice.after {} requests).nodeAt? ⟨0⟩ =
        some (.parameter "T" ((listedTwice.after {} requests).ownerOf? ⟨0⟩)) := by
    obtain ⟨fs, hc, -⟩ := hstates requests
    obtain ⟨name, hname', hat⟩ := (hagree _ hc).1 ⟨0⟩ ⟨0⟩ (by decide +kernel) hp
    obtain rfl : "T" = name := Except.ok.inj (hname.symm.trans hname')
    exact hat
  have hfirst (requests : List Request) (hr : (listedTwice.after {} requests).ownerOf? ⟨0⟩ = some ⟨0⟩) :
      ∃ fs, listedTwice.FirstListedAt ⟨fs, listedTwice.after {} requests⟩ ⟨0⟩ ⟨0⟩ := by
    obtain ⟨fs, hc, -⟩ := hstates requests
    exact ⟨fs, ((hagree _ hc).2.2.1 _ _ hr).2⟩
  have hlate : (listedTwice.after {} [.type ⟨0⟩, .member ⟨1⟩, .member ⟨0⟩]).ownerOf? ⟨0⟩ = some ⟨0⟩ := by
    decide +kernel
  have hearly : (listedTwice.after {} [.member ⟨0⟩, .member ⟨1⟩]).ownerOf? ⟨0⟩ = some ⟨0⟩ := by decide +kernel
  refine ⟨?_, ⟨by decide +kernel, ?_, hfirst _ hlate⟩, by decide +kernel, ?_, hfirst _ hearly⟩
  · rw [hnode _ (by decide +kernel)]
    decide +kernel
  · rw [hnode _ (by decide +kernel), hlate]
  · rw [hnode _ (by decide +kernel), hearly]

end Environment

end ApiDoc
