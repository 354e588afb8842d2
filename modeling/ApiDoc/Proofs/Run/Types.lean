import ApiDoc.Proofs.Run.Exec
import ApiDoc.Proofs.Run.Queries

/-!
# Types as runs

`Environment.Serves` is what the resolver is expected to do with what a step refers to, and
`Environment.Gauge` how far down it can go: what is left at a depth suffices for some calls, always for
what is below the first meeting with a type or a symbol, and along a chain of substitutions or nested
classes for one link less.  From a resolver that serves one depth, the resolving of types at the next is
shown to be a run of the machine (`Serves.resolveType`).
-/

namespace ApiDoc

/-- What a step of resolving refers to another. -/
inductive Call where
  /-- The node of a type. -/
  | type (t : TypeId)
  /-- The member of a symbol. -/
  | member (m : SymbolId)
  /-- A fresh member for a symbol. -/
  | build (m : SymbolId)

/-- A call about a known handle. -/
def Domain.call (D : Domain) : Call → Prop
  | .type t => D.type t
  | .member m => D.symbol m
  | .build m => D.symbol m

namespace Environment

/-- A symbol among the members of a class or interface. -/
def Contains (env : Environment) (owner m : SymbolId) : Prop :=
  env.IsClassLike owner ∧ ∃ ms, env.checker.membersOf owner = .ok ms ∧ m ∈ ms

/-- Which calls a depth suffices for. -/
structure Gauge (env : Environment) (D : Domain) (fail : Error → Prop) where
  /-- The depth suffices for a call in a session. -/
  ready : Nat → Call → Session → Prop
  zero {call s} : ready 0 call s → D.call call → fail .tooDeep
  succ {d call s} : ready d call s → ready (d + 1) call s
  mono {d call s s'} : s.Extends s' → ready d call s → ready d call s'
  -- after the first meeting with a type or a symbol, one less suffices for everything
  newType {d call t node s} : ready (d + 1) call s → D.type t → s.typeOf? t = none →
    ∀ call', D.call call' → ready d call' (s.addType t node)
  newMember {d call key member s} : ready (d + 1) call s → D.symbol key.owner →
    s.memberOf? key = none → ∀ call', D.call call' → ready d call' (s.addMember key member)
  -- one link of a chain
  substitution {d t base s} : ready (d + 1) (.type t) s → D.type t → D.type base →
    env.checker.substitutionBase t = .ok (some base) → ready d (.type base) s
  belowType {d m t s} : ready (d + 1) (.build m) s → D.type t → ready d (.type t) s
  belowMember {d m m' s} : ready (d + 1) (.build m) s → D.symbol m' → ready d (.member m') s
  nested {d m m' s} : ready (d + 1) (.build m) s → D.symbol m → D.symbol m' → env.Contains m m' →
    ready d (.build m') s

/-- What the resolver is expected to do with a call that a depth suffices for. -/
structure Serves (env : Environment) (D : Domain) (fail : Error → Prop)
    (ready : Call → Session → Prop) (inner : Resolver) : Prop where
  type {fs s t} : D.type t → ready (.type t) s → env.Leads fs (.type t) →
    env.Exec fail ⟨fs, s⟩ (inner.type t) fs fun r s' => s'.typeOf? t = some r
  member {fs s m} : D.symbol m → ready (.member m) s → env.Leads fs (.symbol m) →
    env.Exec fail ⟨fs, s⟩ (inner.member m) fs fun v s' => env.HoldsMember s' m v
  build {fs s m slot} : D.symbol m → ready (.build m) s → WorksOn fs (.symbol m) →
    env.Makes fs s slot (env.parametersOf (.symbol m)) →
    env.Exec fail ⟨fs, s⟩ (inner.build m slot) fs fun member s' => env.IsBuilt m member ∧
      env.KeyDone s' (.symbol m) ∧ s'.ListsParameters member (env.parametersOf (.symbol m))

variable {env : Environment} {D : Domain} {fail : Error → Prop} {g : env.Gauge D fail} {d : Nat}
  {inner : Resolver} {fs : List Frame} {s s' : Session}

/-- A depth suffices for the types and members that anything refers to. -/
structure Affords (g : env.Gauge D fail) (d : Nat) (s : Session) : Prop where
  type {t} : D.type t → g.ready d (.type t) s
  member {m} : D.symbol m → g.ready d (.member m) s

theorem Affords.mono (h : Affords g d s) (hs : s.Extends s') : Affords g d s' :=
  ⟨fun ht => g.mono hs (h.type ht), fun hm => g.mono hs (h.member hm)⟩

/-- A type that was not met before is resolved anew. -/
theorem run_resolveType {t : TypeId} (hnew : s.typeOf? t = none) :
    (env.resolveTypeWith inner t).run.run s = (env.newTypeNode inner t).run.run s := by
  unfold resolveTypeWith
  rw [Exec.run_get, hnew]

namespace Serves

/-! ### Lists of types and members -/

theorem types (hinner : env.Serves D fail (g.ready d) inner) {ts : List TypeId}
    (hts : ∀ t ∈ ts, D.type t ∧ env.Leads fs (.type t)) (hd : Affords g d s) :
    env.Exec fail ⟨fs, s⟩ (inner.types ts) fs fun rs s' => s'.HasTypes ts rs :=
  Exec.mapM (fun hs => hs.typeOf) fun t ht _ hs' =>
    hinner.type (hts t ht).1 ((hd.mono hs').type (hts t ht).1) (hts t ht).2

theorem members (hinner : env.Serves D fail (g.ready d) inner) {ms : List SymbolId}
    (hms : ∀ m ∈ ms, D.symbol m ∧ env.Leads fs (.symbol m)) (hd : Affords g d s) :
    env.Exec fail ⟨fs, s⟩ (inner.members ms) fs fun rs s' => env.HoldsMembers s' ms rs := by
  unfold Resolver.members
  refine Exec.bind (Exec.mapM (R := fun s' => env.HoldsMember s') (fun hs h => h.mono hs)
    fun m hm _ hs' => hinner.member (hms m hm).1 ((hd.mono hs').member (hms m hm).1) (hms m hm).2) ?_
  intro known _ _ hknown
  exact .pure ⟨known, hknown, rfl⟩

/-! ### Signatures -/

theorem symbolType (hcov : env.Covers D fail) (hinner : env.Serves D fail (g.ready d) inner)
    {m : SymbolId} (hm : D.symbol m)
    (hlead : ∀ decl t, env.checker.typeOfSymbolAtLocation m decl = .ok t → env.Leads fs (.type t))
    (hd : Affords g d s) :
    env.Exec fail ⟨fs, s⟩ (env.symbolType inner m) fs fun r s' => env.DepictsSymbolType s' m r := by
  unfold Environment.symbolType
  refine .ask (hcov.mainDeclaration hm) fun decl hdecl hknown => ?_
  cases decl with
  | some decl =>
    refine .ask (hcov.typeOfSymbolAtLocation hm (hknown decl rfl).1) fun t ht htype => ?_
    exact (hinner.type htype (hd.type htype) (hlead decl t ht)).mono
      fun r s' _ hr => .inl ⟨decl, t, hdecl, ht, hr⟩
  | none =>
    -- the node stands behind all others, so it is no type's
    refine .of_reachable fun hc => .step (Session.newType_run _) .mixed (.inr ⟨hdecl, ?_, ?_⟩)
    · simp [Session.nodeAt?_growType]
    · intro t ht
      exact absurd (hc.sound.typeBound ht) (Nat.lt_irrefl _)

theorem recordOwner {owner : Option MemberRef} {t : TypeId} (howner : ∀ r ∈ owner, env.DeclaresAt fs s r t) :
    env.Exec fail ⟨fs, s⟩ (owner.forM (Resolve.recordOwner t)) fs
      fun _ s' => ∀ r ∈ owner, s'.ownerOf? t = (s.ownerOf? t).or (some r) := by
  cases owner with
  | none => exact .pure (by simp)
  | some r =>
    refine .step (Session.recordOwner_run t r) (.owner (howner r rfl)) ?_
    rintro r' ⟨⟩
    rw [Session.ownerOf?_recordOwner, if_pos rfl]

theorem typeParameter (hcov : env.Covers D fail) (hinner : env.Serves D fail (g.ready d) inner)
    {ts : List TypeId} {t : TypeId} (ht : D.type t) (hmem : t ∈ ts)
    (hlead : ∀ e, env.InTypeParameters ts e → env.Leads fs e) {owner : Option MemberRef}
    (howner : ∀ r ∈ owner, env.DeclaresAt fs s r t) (hd : Affords g d s) (summaries : NamedTexts) :
    env.Exec fail ⟨fs, s⟩ (env.typeParameter inner summaries owner t) fs
      fun p s' => (∀ r ∈ owner, s'.ownerOf? t = (s.ownerOf? t).or (some r)) ∧
        env.DepictsTypeParameter s' summaries t p := by
  unfold Environment.typeParameter
  refine (recordOwner howner).bind fun _ s₁ hs₁ howned => ?_
  refine .ask (hcov.typeParameterName ht) fun name hname _ => ?_
  have hd₁ := hd.mono hs₁
  refine (hinner.type ht (hd₁.type ht) (hlead _ (.parameter hmem))).bind fun r s₂ hs₂ hr => ?_
  have hd₂ := hd₁.mono hs₂
  refine .ask (hcov.constraintOf ht) fun u hu huknown => ?_
  refine Exec.bind (Exec.optionMapM (R := fun s' u r => s'.typeOf? u = some r) fun u' hu' => ?_) ?_
  · subst hu'
    exact hinner.type (huknown u' rfl) (hd₂.type (huknown u' rfl)) (hlead _ (.constraint hmem hu))
  intro constraint s₃ hs₃ hconstraint
  have hd₃ := hd₂.mono hs₃
  refine .ask (hcov.defaultOf ht) fun v hv hvknown => ?_
  refine Exec.bind (Exec.optionMapM (R := fun s' u r => s'.typeOf? u = some r) fun v' hv' => ?_) ?_
  · subst hv'
    exact hinner.type (hvknown v' rfl) (hd₃.type (hvknown v' rfl)) (hlead _ (.default hmem hv))
  intro default s₄ hs₄ hdefault
  refine .pure ⟨fun r' hr' => ?_, {
    name := hname
    summary := rfl
    type := hs₄.typeOf (hs₃.typeOf hr)
    constraint := ⟨u, hu, rel_imp hconstraint fun _ _ => hs₄.typeOf⟩
    default := ⟨v, hv, hdefault⟩ }⟩
  have hrecorded := howned r' hr'
  rw [Option.or_some] at hrecorded ⊢
  exact ((hs₂.trans hs₃).trans hs₄).ownerOf hrecorded

theorem typeParameters (hcov : env.Covers D fail) (hinner : env.Serves D fail (g.ready d) inner)
    {ts : List TypeId} (hts : ∀ t ∈ ts, D.type t)
    (hlead : ∀ e, env.InTypeParameters ts e → env.Leads fs e) {owner : Option MemberRef}
    (howner : ∀ r ∈ owner, ∀ t ∈ ts, env.DeclaresAt fs s r t) (hd : Affords g d s) (summaries : NamedTexts) :
    env.Exec fail ⟨fs, s⟩ (env.typeParameters inner summaries owner ts) fs
      fun ps s' => (∀ r ∈ owner, env.Registers inner r (.ok ts) s s') ∧
        List.Forall₂ (env.DepictsTypeParameter s' summaries) ts ps := by
  have hone : ∀ t ∈ ts, ∀ s', s.Extends s' → env.Exec fail ⟨fs, s'⟩ (env.typeParameter inner summaries owner t) fs
      fun p s'' => (∀ r ∈ owner, s''.ownerOf? t = (s'.ownerOf? t).or (some r)) ∧
        env.DepictsTypeParameter s'' summaries t p :=
    fun t ht s' hs' => typeParameter hcov hinner (hts t ht) ht hlead (fun r hr => (howner r hr t ht).mono hs')
      (hd.mono hs') summaries
  have howned := Exec.mapM_from (R := fun s₀ t s' => ∀ r ∈ owner, s'.ownerOf? t = (s₀.ownerOf? t).or (some r))
    (fun hs h r hr => by
      have hrecorded := h r hr
      rw [Option.or_some] at hrecorded ⊢
      exact hs.ownerOf hrecorded)
    fun t ht s' hs' => (hone t ht s' hs').mono fun _ _ _ h => h.1
  have hdepicted := Exec.mapM (R := fun s' => env.DepictsTypeParameter s' summaries) (fun hs h => h.mono hs)
    fun t ht s' hs' => (hone t ht s' hs').mono fun _ _ _ h => h.2
  refine (howned.both hdepicted).mono fun ps s' _ ⟨hregisters, hps⟩ => ⟨?_, hps⟩
  rintro r ⟨⟩
  refine ⟨summaries, fun before t rest hx => ?_⟩
  obtain ⟨ps', s₁, hrun, hrecorded⟩ := hregisters before t rest (Except.ok.inj hx)
  exact ⟨ps', s₁, hrun, hrecorded r rfl⟩

theorem parameter (hcov : env.Covers D fail) (hinner : env.Serves D fail (g.ready d) inner)
    {m : SymbolId} (hm : D.symbol m)
    (hlead : ∀ decl t, env.checker.typeOfSymbolAtLocation m decl = .ok t → env.Leads fs (.type t))
    (hd : Affords g d s) (facts : TagFacts) :
    env.Exec fail ⟨fs, s⟩ (env.parameter inner facts m) fs
      fun p s' => env.DepictsParameter s' facts m p := by
  unfold Environment.parameter
  refine .ask (hcov.symbolName hm) fun name hname _ => ?_
  refine (symbolType hcov hinner hm hlead hd).bind fun r s' _ hr => ?_
  refine .ask (hcov.mainDeclaration hm) fun decl hdecl hknown => ?_
  cases decl with
  | none => exact .pure ⟨hname, rfl, hr, none, hdecl, rfl, rfl, rfl⟩
  | some decl =>
    have hnode := (hknown decl rfl).1
    refine .ask (hcov.hasDotDotDot hnode) fun rest hrest _ => ?_
    refine .ask (hcov.hasQuestionToken hnode) fun question hquestion _ => ?_
    refine .ask (hcov.initializerText hnode) fun text htext _ => ?_
    cases text <;> cases rest <;> cases question <;>
      exact .pure ⟨hname, rfl, hr, some decl, hdecl, hrest, htext, _, hquestion, rfl⟩

theorem signature (hcov : env.Covers D fail) (hinner : env.Serves D fail (g.ready d) inner)
    {sig : SignatureId} (hsig : D.signature sig) (hlead : ∀ e, env.InSignature sig e → env.Leads fs e)
    {owner : Option MemberRef} (howner : ∀ r ∈ owner, ∀ ts, env.checker.signatureTypeParameters sig = .ok ts →
      ∀ t ∈ ts, env.DeclaresAt fs s r t) (hd : Affords g d s) (facts : TagFacts) :
    env.Exec fail ⟨fs, s⟩ (env.signature inner sig facts owner) fs
      fun signature s' => (∀ r ∈ owner, env.Registers inner r (env.checker.signatureTypeParameters sig) s s') ∧
        env.DepictsSignature s' facts sig signature := by
  unfold Environment.signature
  refine .ask (hcov.signatureTypeParameters hsig) fun ts hts htsknown => ?_
  refine (typeParameters hcov hinner htsknown (fun e he => hlead e (.typeParameter hts he))
    (fun r hr => howner r hr ts hts) hd facts.typeParams).bind
    fun typeParameters s₁ hs₁ ⟨hregisters, htypeParameters⟩ => ?_
  refine .ask (hcov.signatureParameters hsig) fun ms hms hmsknown => ?_
  refine Exec.bind (Exec.mapM (R := fun s' => env.DepictsParameter s' facts) (fun hs h => h.mono hs)
    fun m hm s' hs' => parameter hcov hinner (hmsknown m hm)
      (fun _ _ ht => hlead _ (.parameter hms hm ht)) (hd.mono (hs₁.trans hs')) facts) ?_
  intro parameters s₂ hs₂ hparameters
  refine .ask (hcov.signatureThisParameter hsig) fun this hthis hthisknown => ?_
  refine Exec.bind (Exec.optionMapM (R := fun s' => env.DepictsSymbolType s') fun m hm => ?_) ?_
  · subst hm
    exact symbolType hcov hinner (hthisknown m rfl) (fun _ _ ht => hlead _ (.receiver hthis ht))
      (hd.mono (hs₁.trans hs₂))
  intro thisType s₃ hs₃ hthisType
  refine .ask (hcov.returnType hsig) fun t ht htknown => ?_
  refine (hinner.type htknown ((hd.mono ((hs₁.trans hs₂).trans hs₃)).type htknown)
    (hlead _ (.result ht))).bind fun r s₄ hs₄ hr => .pure ⟨fun owner' howner' => ?_, ?_⟩
  · exact hts ▸ (hregisters owner' howner').mono ((hs₂.trans hs₃).trans hs₄)
  · exact {
      typeParameters := ⟨ts, hts, htypeParameters.imp fun _ _ h => h.mono ((hs₂.trans hs₃).trans hs₄)⟩
      parameters := ⟨ms, hms, hparameters.imp fun _ _ h => h.mono (hs₃.trans hs₄)⟩
      thisType := ⟨this, hthis, rel_imp hthisType fun _ _ h => h.mono hs₄⟩
      returnType := ⟨t, ht, hr⟩ }

/-! ### Nodes -/

theorem targetType (hinner : env.Serves D fail (g.ready d) inner) {t : TypeId} {target : Option TypeId}
    (htarget : ∀ u ∈ target, D.type u ∧ env.Leads fs (.type u)) (hd : Affords g d s) :
    env.Exec fail ⟨fs, s⟩ (Environment.targetType inner t target) fs
      fun r s' => DepictsTarget s' t target r := by
  have hmixed : (target = none ∨ target = some t) → env.Exec fail ⟨fs, s⟩ (Resolve.newType .mixed) fs
      fun r s' => DepictsTarget s' t target r := by
    refine fun hself => .of_reachable fun hc => ?_
    refine .step (Session.newType_run _) .mixed (.inr ⟨hself, ?_, fun u hu => ?_⟩)
    · simp [Session.nodeAt?_growType]
    · exact absurd (hc.sound.typeBound hu) (Nat.lt_irrefl _)
  unfold Environment.targetType
  cases target with
  | none => exact hmixed (.inl rfl)
  | some u =>
    dsimp only
    split
    · next heq => exact hmixed (.inr (by rw [heq]))
    · next hne =>
      exact (hinner.type (htarget u rfl).1 (hd.type (htarget u rfl).1) (htarget u rfl).2).mono
        fun r s' _ hr => .inl ⟨u, rfl, hne, hr⟩

/-- The node of a type with parts pictures the type. -/
theorem compositeNode (hcov : env.Covers D fail) (hinner : env.Serves D fail (g.ready d) inner)
    {t : TypeId} {shape : Composite} (ht : D.type t) (hknown : env.ShapeKnown D t (.composite shape))
    (hwork : WorksOn fs (.type t)) (hd : Affords g d s) :
    env.Exec fail ⟨fs, s⟩ (env.compositeNode inner t shape) fs
      fun node s' => env.DepictsComposite s' t shape node := by
  have hlead {e : Entity} (h : env.Mentions (.type t) e) : env.Leads fs e := .of_mentions hwork h
  have htype {u : TypeId} {s' : Session} (hu : D.type u) (hm : env.Mentions (.type t) (.type u))
      (hs : s.Extends s') :
      env.Exec fail ⟨fs, s'⟩ (inner.type u) fs fun r s' => s'.typeOf? u = some r :=
    hinner.type hu ((hd.mono hs).type hu) (hlead hm)
  unfold Environment.compositeNode
  cases shape with
  | named =>
    refine .ask (hcov.typeSymbol ht) fun m hm hmknown => ?_
    cases m with
    | none => exact .pure ⟨none, none, hm, rfl, rfl⟩
    | some m =>
      have hsym := hmknown m rfl
      exact (hinner.member hsym (hd.member hsym) (hlead (.typeSymbol hm))).bind
        fun v s' _ hv => .pure ⟨some m, v, hm, rfl, hv⟩
  | array =>
    refine .ask (hcov.elementTypeOfArray ht) fun u hu huknown => ?_
    exact (htype huknown (.element hu) (.refl s)).bind fun r s' _ hr => .pure ⟨u, r, hu, hr, rfl⟩
  | tuple =>
    refine .ask (hcov.typeArguments ht) fun us hus husknown => ?_
    exact (hinner.types (fun u hu => ⟨husknown u hu, hlead (.argument hus hu)⟩) hd).bind
      fun rs s' _ hrs => .pure ⟨us, rs, hus, hrs, rfl⟩
  | generic =>
    refine .ask (hcov.referenceTarget ht) fun target htarget htknown => ?_
    have hknown : ∀ u ∈ target, D.type u ∧ env.Leads fs (.type u) := by
      rintro u rfl
      exact ⟨htknown u rfl, hlead (.target htarget)⟩
    refine (hinner.targetType hknown hd).bind fun r s₁ hs₁ hr => ?_
    refine .ask (hcov.typeArguments ht) fun us hus husknown => ?_
    refine (hinner.types (fun u hu => ⟨husknown u hu, hlead (.argument hus hu)⟩) (hd.mono hs₁)).bind
      fun rs s₂ hs₂ hrs => .pure ⟨target, r, us, rs, htarget, hr.mono hs₂, hus, hrs, rfl⟩
  | function sig =>
    obtain ⟨hsig, sigs, hsigs, hmem⟩ := hknown
    exact (signature hcov hinner hsig (fun e he => hlead (.callSignature hsigs hmem he)) (by simp) hd
      {}).bind fun signature s' _ h => .pure ⟨signature, h.2, rfl⟩
  | typeOf m =>
    obtain ⟨hm, hsym⟩ := hknown
    exact (hinner.member hm (hd.member hm) (hlead (.typeSymbol hsym))).bind
      fun v s' _ hv => .pure ⟨v, hv, rfl⟩
  | object =>
    refine .ask (hcov.propertiesOfType ht) fun ms hms hmsknown => ?_
    exact (hinner.members (fun m hm => ⟨hmsknown m hm, hlead (.property hms hm)⟩) hd).bind
      fun rs s' _ hrs => .pure ⟨ms, rs, hms, hrs, rfl⟩
  | union =>
    refine .ask (hcov.operandTypes ht) fun us hus husknown => ?_
    exact (hinner.types (fun u hu => ⟨husknown u hu, hlead (.operand hus hu)⟩) hd).bind
      fun rs s' _ hrs => .pure ⟨us, rs, hus, hrs, rfl⟩
  | intersection =>
    refine .ask (hcov.operandTypes ht) fun us hus husknown => ?_
    exact (hinner.types (fun u hu => ⟨husknown u hu, hlead (.operand hus hu)⟩) hd).bind
      fun rs s' _ hrs => .pure ⟨us, rs, hus, hrs, rfl⟩
  | conditional =>
    refine .ask (hcov.conditionalRoot ht) fun root hroot hrknown => ?_
    cases root with
    | none => exact .pure ⟨none, hroot, rfl⟩
    | some root =>
      -- one part after the other, and what comes later leaves the places of the earlier ones
      obtain ⟨hcheck, hbound, htrue, hfalse⟩ := hrknown root rfl
      refine (htype hcheck (.conditional hroot (by simp)) (.refl s)).bind fun r₁ s₁ hs₁ hr₁ => ?_
      refine (htype hbound (.conditional hroot (by simp)) hs₁).bind fun r₂ s₂ hs₂ hr₂ => ?_
      have hs₂' := hs₁.trans hs₂
      refine (htype htrue (.conditional hroot (by simp)) hs₂').bind fun r₃ s₃ hs₃ hr₃ => ?_
      refine (htype hfalse (.conditional hroot (by simp)) (hs₂'.trans hs₃)).bind
        fun r₄ s₄ hs₄ hr₄ => .pure ⟨some root, hroot, r₁, r₂, r₃, r₄, ?_, rfl⟩
      have hs₃' := hs₃.trans hs₄
      exact .cons ((hs₂.trans hs₃').typeOf hr₁) (.cons (hs₃'.typeOf hr₂)
        (.cons (hs₄.typeOf hr₃) (.cons hr₄ .nil)))
  | indexedAccess =>
    refine .ask (hcov.indexedAccessParts ht) fun parts hparts hpknown => ?_
    cases parts with
    | none => exact .pure ⟨none, hparts, rfl⟩
    | some parts =>
      obtain ⟨operand, argument⟩ := parts
      obtain ⟨hoperand, hargument⟩ := hpknown _ rfl
      refine (htype hoperand (.indexedAccess hparts (by simp)) (.refl s)).bind
        fun r₁ s₁ hs₁ hr₁ => ?_
      refine (htype hargument (.indexedAccess hparts (by simp)) hs₁).bind
        fun r₂ s₂ hs₂ hr₂ => .pure ⟨_, hparts, r₁, r₂, ?_, rfl⟩
      exact .cons (hs₂.typeOf hr₁) (.cons hr₂ .nil)
  | keyOf =>
    refine .ask (hcov.indexOperand ht) fun operand hoperand hoknown => ?_
    cases operand with
    | none => exact .pure ⟨none, hoperand, rfl⟩
    | some u =>
      exact (htype (hoknown u rfl) (.indexOperand hoperand) (.refl s)).bind
        fun r s' _ hr => .pure ⟨some u, hoperand, r, hr, rfl⟩

/-- A type without parts gets its node at once. -/
theorem leaf {t : TypeId} {shape : TypeShape} {node : TypeNode} (hnew : s.typeOf? t = none)
    (hshape : TypeShape.of env.checker t = .ok shape) (hnode : env.DepictsLeaf t shape node)
    (howner : shape = .parameter → ∃ name, node = .parameter name (s.ownerOf? t)) :
    env.Exec fail ⟨fs, s⟩ (Resolve.reserveType t node) fs fun r s' => s'.typeOf? t = some r :=
  .step (Session.reserveType_run t node) (.leaf hnew hshape hnode howner) (by simp [Session.typeOf?_addType])

theorem newTypeNode (hcov : env.Covers D fail) (hinner : env.Serves D fail (g.ready d) inner)
    {t : TypeId} (ht : D.type t) (hnew : s.typeOf? t = none) (hready : g.ready (d + 1) (.type t) s)
    (hlead : env.Leads fs (.type t))
    (hfailed : ∀ {e s'}, (env.newTypeNode inner t).run.run s = (.error e, s') → env.FailedType e s' t) :
    env.Exec fail ⟨fs, s⟩ (env.newTypeNode inner t) fs fun r s' => s'.typeOf? t = some r := by
  unfold Environment.newTypeNode at hfailed ⊢
  refine .ask (hcov.shape ht) fun shape hshape hknown => ?_
  cases shape with
  | native type => exact leaf hnew hshape rfl nofun
  | literal =>
    exact .ask (hcov.literalNode ht) fun node hnode _ => leaf hnew hshape hnode nofun
  | this => exact leaf hnew hshape rfl nofun
  | parameter =>
    refine .ask (hcov.typeParameterName ht) fun name hname _ => ?_
    exact .get (leaf hnew hshape ⟨name, _, hname, rfl⟩ fun _ => ⟨name, rfl⟩)
  | substitution base =>
    obtain ⟨hbase, hsub⟩ := hknown
    have hlead' : env.Leads fs (.type base) := fun a ha => (hlead a ha).tail (.substitution hsub)
    refine (hinner.type hbase (g.substitution hready ht hbase hsub) hlead').bind
      fun r s' _ hr => .of_reachable fun hc => ?_
    -- the base may have led back to the type, which then shares the place already
    have hold : ∀ r', s'.typeOf? t = some r' → r' = r := by
      intro r' hr'
      have := hc.sound.shared hshape hr'
      exact Option.some.inj (this.symm.trans hr)
    exact .step_then (.refl fs) (Session.rememberType_run t r) (.share hshape hr hold)
      fun _ => .pure (by simp [Session.typeOf?_shareType])
  | composite shape =>
    -- the place comes first, so that the parts may refer back to it
    refine .opening (Session.reserveType_run t .mixed) (.openType hnew hshape hlead) (fun hs => ?_)
      fun e s' hrun => hfailed (by rw [hshape]; exact hrun)
    have hd : Affords g d (s.addType t .mixed) :=
      ⟨fun ht' => g.newType hready ht hnew (.type _) ht',
        fun hm' => g.newType hready ht hnew (.member _) hm'⟩
    refine (compositeNode hcov hinner ht hknown ⟨_, _, rfl, rfl⟩ hd).bind fun node s' hs' hnode => ?_
    have hr : s'.typeOf? t = some ⟨s.graph.types.size⟩ :=
      hs'.typeOf (by simp [Session.typeOf?_addType])
    exact .closing (Session.setType_run _ node) (.closeType hshape hr hnode) fun hs'' => hs''.typeOf hr

/-- **Resolving a type is a run of the machine**, after which the type has a place. -/
theorem resolveType (hcov : env.Covers D fail) (hinner : env.Serves D fail (g.ready d) inner)
    {t : TypeId} (ht : D.type t) (hready : g.ready (d + 1) (.type t) s)
    (hlead : env.Leads fs (.type t))
    (hfailed : ∀ {e s'}, s.typeOf? t = none → (env.resolveTypeWith inner t).run.run s = (.error e, s') →
      env.FailedType e s' t) :
    env.Exec fail ⟨fs, s⟩ (env.resolveTypeWith inner t) fs fun r s' => s'.typeOf? t = some r := by
  unfold resolveTypeWith
  refine .get ?_
  cases hold : s.typeOf? t with
  | some r => exact .pure hold
  | none =>
    exact newTypeNode hcov hinner ht hold hready hlead fun hrun => hfailed hold (by rwa [run_resolveType hold])

end Serves

end Environment

end ApiDoc
