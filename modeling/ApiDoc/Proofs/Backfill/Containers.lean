import ApiDoc.Proofs.Backfill.Types
import ApiDoc.Proofs.Contents.Fields

/-!
# Members in lock step

Fields, aliases, enums and namespaces are the same on both sides.  Overrides are where documentation is inherited: the
second side fills the gaps of a member there, and only there and between overloads does it differ from the first
(`Paired.fillOverride`).

A class or interface is the same on both sides except for its summary, which ends with that of its index signature.  If
the first side finds nothing there, the second may find a text that was filled in (`Paired.withIndexerSummary`).
-/

namespace ApiDoc

namespace Environment

variable {env : Environment} {inner inner' : Resolver} {s s' : Session}

/-- A member is a class if its body is one. -/
theorem class?_commonMember {m : SymbolId} {d : Option NodeId} {facts : TagFacts} {body : MemberBody} {member : Member}
    (h : env.commonMember m d facts body = .ok member) (hbody : ∀ c, body ≠ .classLike c) : member.class? = none := by
  obtain ⟨rfl, -⟩ := commonMember_eq_ok h
  unfold Member.class?
  split
  · next c hc => exact absurd hc (hbody c)
  · rfl

/-- An index signature is the member of a signature. -/
def IndexedBy (env : Environment) (s : Session) (indexer : Option MemberRef) : Prop :=
  ∀ r, indexer = some r → ∃ m, env.IsSignature m ∧ s.memberOf? (.symbol m) = some (some r)

theorem IndexedBy.keep {indexer : Option MemberRef} (h : env.IndexedBy s indexer) (hs : env.Steady s s') :
    env.IndexedBy s' indexer := by
  intro r hr
  obtain ⟨m, hm, hslot⟩ := h r hr
  exact ⟨m, hm, hs.memberOf hslot⟩

namespace Paired

/-! ### Fields and aliases -/

/-- What all members share is read off the same declaration. -/
theorem commonMember (m : SymbolId) (d : Option NodeId) (facts : TagFacts) {body : MemberBody}
    (hbody : ∀ c, body ≠ .classLike c) :
    env.Lockstep s s' (liftM (env.withoutBackfill.commonMember m d facts body))
      (liftM (env.commonMember m d facts body)) fun own full _ => own = full ∧ own.class? = none :=
  .answer rfl fun _ hmember => ⟨rfl, class?_commonMember hmember hbody⟩

/-- Members that are the same have no gaps to fill. -/
theorem builtAlike {m : SymbolId} {x x' : Resolve Member}
    (h : env.Lockstep s s' x x' fun own full _ => own = full ∧ own.class? = none) :
    env.Lockstep s s' x x' (env.BuiltAlike m) := by
  refine h.mono ?_
  rintro own _ t' - ⟨rfl, hclass⟩
  exact ⟨.refl t' own, fun _ => hclass⟩

theorem field (h : env.Paired inner inner') (m : SymbolId) :
    env.Lockstep s s' (env.withoutBackfill.field inner m) (env.field inner' m)
      fun own full _ => own = full ∧ own.class? = none := by
  unfold Environment.field
  refine .ask rfl fun flags _ => .ask rfl fun d _ => ?_
  cases d with
  | none => exact .same (newType _) fun r _ _ _ => commonMember m none {} (by simp)
  | some d =>
    unfold Environment.declaredField
    refine .ask ((sameSource_withoutBackfill env).fieldKind d) fun kind _ => .ask rfl fun t _ => ?_
    refine .same (h.type t) fun r _ _ _ => ?_
    refine .ask rfl fun optional _ => .ask rfl fun modifiers _ => .ask rfl fun default _ => ?_
    exact .ask ((sameSource_withoutBackfill env).tags d) fun facts _ => commonMember m (some d) facts (by simp)

theorem accessor (h : env.Paired inner inner') (m : SymbolId) :
    env.Lockstep s s' (env.withoutBackfill.accessor inner m) (env.accessor inner' m)
      fun own full _ => own = full ∧ own.class? = none := by
  unfold Environment.accessor
  refine .ask rfl fun flags _ => .ask rfl fun ds _ => ?_
  cases ds with
  | nil => exact h.field m
  | cons first rest =>
    refine .ask rfl fun t _ => .same (h.type t) fun r _ _ _ => ?_
    refine .ask ((sameSource_withoutBackfill env).accessorTags first rest) fun facts _ => ?_
    exact commonMember m (some first) facts (by simp)

theorem typeAlias (h : env.Paired inner inner') (m : SymbolId) (slot : MemberRef) :
    env.Lockstep s s' (env.withoutBackfill.typeAlias inner m slot) (env.typeAlias inner' m slot)
      fun own full _ => own = full ∧ own.class? = none := by
  unfold Environment.typeAlias
  refine .ask ((sameSource_withoutBackfill env).preferredDeclaration? m _) fun d _ => ?_
  refine .ask ((sameSource_withoutBackfill env).tags? d) fun facts _ => .ask rfl fun ts _ => ?_
  refine .same (h.typeParameters facts.typeParams (some slot) ts) fun params _ _ _ => ?_
  exact .ask rfl fun t _ => .same (h.type t) fun r _ _ _ => commonMember m d facts (by simp)

/-! ### Enums and namespaces -/

theorem enumExports (h : env.Paired inner inner') (numbering : Numbering) (ms : List SymbolId) :
    env.Agree s s' (env.withoutBackfill.enumExports inner numbering ms) (env.enumExports inner' numbering ms) := by
  induction ms generalizing numbering s s' with
  | nil => exact .pure rfl
  | cons m rest ih =>
    unfold Environment.enumExports
    refine .ask rfl fun flags _ => ?_
    split
    · refine .same (h.sameMember m) fun v _ _ _ => ?_
      cases v with
      | none => exact ih numbering
      | some r => exact .ask rfl fun name _ => .ask rfl fun value _ => .map (ih _)
    · exact .same (h.sameMember m) fun v _ _ _ => .map (ih numbering)

theorem enumeration (h : env.Paired inner inner') (m : SymbolId) :
    env.Lockstep s s' (env.withoutBackfill.enumeration inner m) (env.enumeration inner' m)
      fun own full _ => own = full ∧ own.class? = none := by
  unfold Environment.enumeration
  refine .ask rfl fun flags _ => .ask ((sameSource_withoutBackfill env).preferredDeclaration? m _) fun d _ => ?_
  refine .ask ((sameSource_withoutBackfill env).tags? d) fun facts _ => .ask rfl fun ms _ => ?_
  exact .same (h.enumExports {} ms) fun exports _ _ _ => commonMember m d facts (by simp)

theorem namespaceLike (h : env.Paired inner inner') (m : SymbolId) :
    env.Lockstep s s' (env.withoutBackfill.namespaceLike inner m) (env.namespaceLike inner' m)
      fun own full _ => own = full ∧ own.class? = none := by
  unfold Environment.namespaceLike
  refine .ask ((sameSource_withoutBackfill env).preferredDeclaration? m _) fun d _ => ?_
  refine .ask ((sameSource_withoutBackfill env).tags? d) fun facts _ => .ask rfl fun ms _ => ?_
  exact .same (h.members ms) fun rs _ _ _ => commonMember m d facts (by simp)

/-! ### Overrides -/

/-- An override is linked on both sides, and inherits documentation on the second. -/
theorem fillOverride (h : env.Paired inner inner') {m : SymbolId} {slot : MemberRef} (hm : ¬ env.IsSignature m)
    (hslot : s'.memberOf? (.symbol m) = some (some slot)) (base : BaseProperty) :
    env.Lockstep s s' (env.withoutBackfill.fillOverride inner m base slot) (env.fillOverride inner' m base slot)
      fun _ _ _ => True := by
  unfold Environment.fillOverride
  refine (h.build m slot).bind fun own full t t' ht hbuilt => ?_
  refine .same (h.sameMember base.symbol) fun overrides u u' hu => ?_
  refine .same (h.type base.base) fun parent w w' hw => .of_twin fun htwin => ?_
  have hslot' := (ht.trans (hu.trans hw)).memberOf hslot
  have hother (m' : SymbolId) (hm' : env.IsSignature m') : w'.memberOf? (.symbol m') ≠ some (some slot) := by
    intro hr
    obtain rfl := MemberKey.symbol.inj (htwin.single hr hslot')
    exact hm hm'
  have hfills := hbuilt.1.keep (hu.trans hw)
  have hlinked : env.Fills w' { own with isOverride := true, parent := some parent, overrides }
      { full with isOverride := true, parent := some parent, overrides } := by
    refine hfills.congr ⟨?_, hfills.texts.doc, hfills.texts.summaries⟩ rfl rfl rfl
    exact congrArg (fun member : Member => { member with isOverride := true, parent := some parent, overrides })
      hfills.texts.untold
  cases overrides with
  | none => exact .setOther hlinked hother
  | some r =>
    refine .getMember fun base base' _ _ _ => .setOther ?_ hother
    rw [if_neg (show ¬ env.withoutBackfill.config.inheritDocs = true from Bool.false_ne_true)]
    split
    · exact hlinked.inherit base'
    · exact hlinked

/-- What a base type has too is an override in the same place on both sides. -/
theorem overriding (h : env.Paired inner inner') {m : SymbolId} (hm : ¬ env.IsSignature m) (hmarker : ¬ env.IsMarker m)
    (base : BaseProperty) :
    env.Agree s s' (env.withoutBackfill.overriding inner m base) (env.overriding inner' m base) := by
  unfold Environment.overriding
  refine .get (.of_twin fun htwin => ?_)
  rw [htwin.cachedMember]
  cases hcached : s.cachedMember m with
  | some slot =>
    have hslot : s'.memberOf? (.symbol m) = some (some slot) := by
      rw [htwin.memberOf]
      exact Option.join_eq_some_iff.1 hcached
    refine .getMember fun own full _ _ hfills => ?_
    rw [hfills.texts.isOverride]
    cases own.isOverride with
    | true => exact .pure rfl
    | false => exact (h.fillOverride hm hslot base).bind fun _ _ _ _ _ _ => .pure rfl
  | none =>
    have hnew : s'.memberOf? (.symbol m) = none := by
      rcases hv : s'.memberOf? (.symbol m) with _ | _ | slot
      · rfl
      · exact absurd (htwin.markers hv) hmarker
      · simp [Session.cachedMember, ← htwin.memberOf, hv] at hcached
    refine .ask rfl fun name _ => .reserve hnew fun slot t t' _ hslot => ?_
    exact (h.fillOverride hm hslot base).bind fun _ _ _ _ _ _ => .pure rfl

/-! ### Classes and interfaces -/

theorem implemented (h : env.Paired inner inner') (d : Option NodeId) :
    env.Agree s s' (env.withoutBackfill.implemented inner d) (env.implemented inner' d) := by
  unfold Environment.implemented
  cases d with
  | none => exact .pure rfl
  | some d =>
    refine .ask rfl fun kind _ => ?_
    split
    · exact .ask rfl fun ds _ => Agree.mapM fun d' _ _ => .ask rfl fun t _ => h.type t
    · exact .pure rfl

theorem addMember (h : env.Paired inner inner') (inherited : List (String × BaseProperty)) {body : ClassBody}
    (hbody : env.IndexedBy s' body.indexer) (m : SymbolId) :
    env.Lockstep s s' (env.withoutBackfill.addMember inner inherited body m) (env.addMember inner' inherited body m)
      fun c c' t' => c = c' ∧ env.IndexedBy t' c'.indexer := by
  unfold Environment.addMember
  refine .ask rfl fun flags hflags => ?_
  split
  · exact .pure ⟨rfl, hbody⟩
  next hprototype =>
  split
  · exact .same (h.sameMember m) fun v _ _ ht => .pure ⟨rfl, hbody.keep ht⟩
  split
  next hsignature =>
    -- what becomes the indexer is a signature by its flags
    refine .ask rfl fun ds _ => ?_
    cases ds with
    | nil => exact .pure ⟨rfl, hbody⟩
    | cons d rest =>
      refine .ask rfl fun kind _ => ?_
      split
      · refine (h.member m).bind ?_
        rintro v _ t t' ht ⟨rfl, hv⟩
        exact .pure ⟨rfl, fun r hr => ⟨m, ⟨flags, hflags, hsignature⟩, hv.trans (congrArg some hr)⟩⟩
      · exact .same (h.sameMember m) fun v _ _ ht => .pure ⟨rfl, hbody.keep ht⟩
      · exact .pure ⟨rfl, hbody⟩
  next hsignature =>
    have hflag {flag : SymbolFlag} (hnot : ¬ flags.has flag = true) :
        ¬ ∃ flags' : SymbolFlags, env.checker.symbolFlags m = .ok flags' ∧ flags'.has flag = true := by
      rintro ⟨flags', hflags', hhas⟩
      obtain rfl := Except.ok.inj (hflags.symm.trans hflags')
      exact hnot hhas
    refine .ask rfl fun name _ => ?_
    split
    next base _ =>
      exact .same (h.overriding (hflag hsignature) (hflag hprototype) base) fun r _ _ ht =>
        .pure ⟨rfl, hbody.keep ht⟩
    · exact .same (h.sameMember m) fun v _ _ ht => .pure ⟨rfl, hbody.keep ht⟩

theorem extendedMember (h : env.Paired inner inner') (m m' : SymbolId) :
    env.Agree s s' (env.withoutBackfill.extendedMember inner m m') (env.extendedMember inner' m m') := by
  unfold Environment.extendedMember
  refine .ask rfl fun parent _ => ?_
  split
  · exact .pure rfl
  · refine .ask rfl fun flags _ => ?_
    split
    · exact .pure rfl
    · exact h.sameMember m'

/-- The body of a class is the same on both sides, and its index signature is a signature's member. -/
theorem classBody (h : env.Paired inner inner') (m : SymbolId) (d : Option NodeId) (facts : TagFacts)
    (slot : MemberRef) :
    env.Lockstep s s' (env.withoutBackfill.classBody inner m d facts slot) (env.classBody inner' m d facts slot)
      fun c c' t' => c = c' ∧ env.IndexedBy t' c'.indexer := by
  unfold Environment.classBody
  refine .ask rfl fun flags _ => .ask rfl fun declared _ => .ask rfl fun ts _ => ?_
  refine .same (h.typeParameters facts.typeParams (some slot) ts) fun params _ _ _ => .ask rfl fun baseTypes _ => ?_
  refine .same (h.types baseTypes) fun bases _ _ _ => .same (h.implemented d) fun implements _ _ _ => ?_
  refine .ask rfl fun ms _ => .same (h.members ms) fun members _ _ _ => .ask rfl fun inherited _ => ?_
  refine .ask rfl fun ms' _ => ?_
  refine Lockstep.bind (Lockstep.foldlM (I := fun t' c => env.IndexedBy t' c.indexer) (fun _ hr => nomatch hr)
    fun m' c _ _ hc => h.addMember inherited hc m') ?_
  rintro c _ t t' - ⟨rfl, hc⟩
  refine .ask rfl fun properties _ => ?_
  exact .same (.mapM fun m' _ _ => h.extendedMember m m') fun extended _ _ ht => .pure ⟨rfl, hc.keep ht⟩

/-- The summary of a class grows on the second side alone if the first finds a gap in its index signature. -/
theorem withIndexerSummary {member : Member} {c : ClassBody} (hbody : member.body = .classLike c)
    (hindexer : env.IndexedBy s' c.indexer) :
    env.Lockstep s s' (Environment.withIndexerSummary member c.indexer)
      (Environment.withIndexerSummary member c.indexer) fun own full t' => env.Fills t' own full := by
  unfold Environment.withIndexerSummary
  cases hr : c.indexer with
  | none => exact .pure (.refl s' member)
  | some r =>
    obtain ⟨m, hm, hslot⟩ := hindexer r hr
    refine .of_twin fun htwin => .getMember fun own full hown hfull _ => .pure ?_
    by_cases hgap : own.doc.summary = ""
    · by_cases hnone : full.doc.summary = ""
      · rw [hgap, hnone]
        exact .refl s' _
      · refine ⟨(Member.Fills.refl member).withSummary _ _, .inr ⟨c, r, full.doc.summary, hbody, hr, ?_, ?_⟩⟩
        · exact ⟨m, full, hm, hslot, hfull, rfl, hnone⟩
        · simp only [hgap, NamedTexts.joinText_empty]
    · rw [htwin.signature hm hslot hown hfull hgap]
      exact .refl s' _

theorem classOfKinds (h : env.Paired inner inner') (m : SymbolId) (slot : MemberRef) (kinds : List SyntaxKind) :
    env.Lockstep s s' (env.withoutBackfill.classOfKinds inner m slot kinds) (env.classOfKinds inner' m slot kinds)
      fun own full t' => env.Fills t' own full := by
  unfold Environment.classOfKinds
  refine .ask ((sameSource_withoutBackfill env).preferredDeclaration? m kinds) fun d _ => ?_
  refine .ask ((sameSource_withoutBackfill env).tags? d) fun facts _ => (h.classBody m d facts slot).bind ?_
  rintro c _ t t' - ⟨rfl, hc⟩
  exact .ask rfl fun member hmember => withIndexerSummary (commonMember_eq_ok hmember).1 hc

/-- What a function is merged with has the same place on both sides. -/
theorem companion (h : env.Paired inner inner') (m : SymbolId) :
    env.Agree s s' (env.withoutBackfill.companion inner m) (env.companion inner' m) := by
  unfold Environment.companion
  refine .get (.of_twin fun htwin => ?_)
  rw [htwin.memberOf]
  cases hknown : s.memberOf? (.companion m) with
  | some known => exact .pure rfl
  | none =>
    refine .ask rfl fun name _ => .reserve ((htwin.memberOf _).trans hknown) fun slot t t' ht hslot => ?_
    refine (h.classOfKinds m slot _).bind fun own full u u' hu hfills => .of_twin fun htwin' => ?_
    refine Lockstep.bind (.setOther hfills fun m' _ hm' => ?_) fun _ _ _ _ _ _ => .pure rfl
    cases htwin'.single hm' (hu.memberOf hslot)

end Paired

end Environment

end ApiDoc
