import ApiDoc.Proofs.Run.Listing

/-!
# What is made of answers

The shape of a type, the declarations of a symbol, what its doc blocks say and the member that all this
makes are put together from the checker's answers alone.  Here it is shown that they stay within the
known handles (`Covers.shape`, `Covers.preferredDeclaration`), and that a member made in this way is marked
as an override only if one of the symbol's own declarations says so (`Covers.commonMember`).
-/

namespace ApiDoc

namespace Environment

variable {env : Environment} {D : Domain} {fail : Error → Prop}

/-- The handles in a shape are known, and the type itself names them. -/
def ShapeKnown (env : Environment) (D : Domain) (t : TypeId) : TypeShape → Prop
  | .substitution base => D.type base ∧ env.checker.substitutionBase t = .ok (some base)
  | .composite (.function sig) => D.signature sig ∧
      ∃ sigs, env.checker.callSignatures t = .ok sigs ∧ sig ∈ sigs
  | .composite (.typeOf m) => D.symbol m ∧ env.checker.typeSymbol t = .ok (some m)
  | _ => True

/-- What the doc block of a symbol's own declaration says of overriding counts. -/
theorem isDeclaredOverride_of_tags {m : SymbolId} {d : Option NodeId}
    {facts : TagFacts} (hd : ∀ d' ∈ d, env.Declares m d') (hfacts : env.tags? d = .ok facts)
    (h : facts.isOverride = true) : env.IsDeclaredOverride m := by
  cases d with
  | none =>
    obtain rfl : {} = facts := Except.ok.inj hfacts
    simp at h
  | some d => exact ⟨d, hd d rfl, .inr ⟨facts, hfacts, h⟩⟩

/-- What all members share leaves the body as it is, and links nothing. -/
theorem commonMember_eq_ok {m : SymbolId} {d : Option NodeId} {facts : TagFacts} {body : MemberBody}
    {member : Member} (h : env.commonMember m d facts body = .ok member) :
    member.body = body ∧ member.parent = none ∧ member.overrides = none ∧
      match d with
      | some d => env.location d = .ok member.location
      | none => member.location = {} := by
  unfold commonMember at h
  obtain ⟨name, -, h⟩ := bind_eq_ok_iff.1 h
  cases d with
  | none =>
    obtain rfl := Except.ok.inj h
    exact ⟨rfl, rfl, rfl, rfl⟩
  | some d =>
    obtain ⟨modifiers, -, h⟩ := bind_eq_ok_iff.1 h
    obtain ⟨location, hlocation, h⟩ := bind_eq_ok_iff.1 h
    obtain rfl := Except.ok.inj h
    exact ⟨rfl, rfl, rfl, hlocation⟩

theorem parameterNodes_commonMember {m : SymbolId} {d : Option NodeId} {facts : TagFacts} {body : MemberBody}
    {member : Member} (h : env.commonMember m d facts body = .ok member) :
    member.parameterNodes = body.parameterNodes :=
  congrArg MemberBody.parameterNodes (commonMember_eq_ok h).1

namespace Covers

/-! ### Types -/

theorem namingSymbol (hcov : env.Covers D fail) {t : TypeId} (ht : D.type t) :
    Meets fail (TypeShape.namingSymbol? env.checker t) fun m =>
      ∀ m' ∈ m, D.symbol m' ∧ env.checker.typeSymbol t = .ok (some m') := by
  unfold TypeShape.namingSymbol?
  refine (hcov.typeSymbol ht).bind fun m hm hknown => ?_
  cases m with
  | none => exact .pure (by simp)
  | some m =>
    refine (hcov.symbolFlags (hknown m rfl)).bind fun flags _ _ => ?_
    split
    · exact .pure (by simp)
    · refine .pure fun m' hm' => ?_
      obtain rfl := Option.some.inj hm'
      exact ⟨hknown m rfl, hm⟩

theorem objectShape (hcov : env.Covers D fail) {t : TypeId} (ht : D.type t) :
    Meets fail (TypeShape.ofObject? env.checker t) fun shape =>
      ∀ shape' ∈ shape, env.ShapeKnown D t (.composite shape') := by
  unfold TypeShape.ofObject?
  refine (hcov.objectFlags ht).bind fun flags _ _ => ?_
  split
  · exact .pure (by simp [ShapeKnown])
  split
  · refine (hcov.isArrayType ht).bind fun isArray _ _ => ?_
    split
    · exact .pure (by simp [ShapeKnown])
    refine (hcov.referenceTarget ht).bind fun target _ htarget => ?_
    cases target with
    | none => exact .pure (by simp [ShapeKnown])
    | some target =>
      refine (hcov.objectFlags (htarget target rfl)).bind fun flags _ _ => ?_
      split <;> exact .pure (by simp [ShapeKnown])
  split
  · refine (hcov.callSignatures ht).bind fun sigs hsigs hknown => ?_
    split
    · next sig =>
      refine .pure fun shape' hshape' => ?_
      obtain rfl := Option.some.inj hshape'
      exact ⟨hknown sig (by simp), [sig], hsigs, by simp⟩
    · refine (hcov.namingSymbol ht).bind fun m _ hm => ?_
      cases m with
      | none => exact .pure (by simp [ShapeKnown])
      | some m =>
        refine .pure fun shape' hshape' => ?_
        obtain rfl := Option.some.inj hshape'
        exact hm m rfl
  · exact .pure (by simp)

theorem flagsShape (hcov : env.Covers D fail) {t : TypeId} (ht : D.type t) (flags : TypeFlags) :
    Meets fail (TypeShape.ofFlags env.checker t flags) (env.ShapeKnown D t) := by
  -- the last question is asked from two places
  have hsub : ∀ next : Option TypeId → Answer TypeShape, next none = pure (.native .mixed) →
      (∀ base, next (some base) = pure (.substitution base)) →
      Meets fail (if flags.has .substitution then env.checker.substitutionBase t >>= next
        else pure (.native .mixed)) (env.ShapeKnown D t) := by
    intro next hnone hsome
    refine .ite (fun _ => ?_) fun _ => .pure trivial
    refine (hcov.substitutionBase ht).bind fun base hbase hknown => ?_
    cases base with
    | none =>
      rw [hnone]
      exact .pure trivial
    | some base =>
      rw [hsome]
      exact .pure ⟨hknown base rfl, hbase⟩
  unfold TypeShape.ofFlags
  iterate 6
    refine .ite (fun _ => .pure trivial) fun _ => ?_
  refine .ite (fun _ => ?_) fun _ => .ite (fun _ => .pure trivial) fun _ => .ite (fun _ => ?_) fun _ => ?_
  · refine (hcov.isThisType ht).bind fun isThis _ _ => ?_
    cases isThis <;> exact .pure trivial
  · refine (hcov.typeSymbol ht).bind fun m hm hknown => ?_
    cases m with
    | none => exact hsub _ rfl fun _ => rfl
    | some m => exact .pure ⟨hknown m rfl, hm⟩
  · exact hsub _ rfl fun _ => rfl

/-- The shape of a known type names known handles only. -/
theorem shape (hcov : env.Covers D fail) {t : TypeId} (ht : D.type t) :
    Meets fail (TypeShape.of env.checker t) (env.ShapeKnown D t) := by
  unfold TypeShape.of
  refine (hcov.typeFlags ht).bind fun flags _ _ => ?_
  split
  · refine (hcov.intrinsicName ht).bind fun name _ _ => .pure trivial
  split
  · refine (hcov.objectShape ht).bind fun shape _ hshape => ?_
    cases shape with
    | none => exact hcov.flagsShape ht flags
    | some shape => exact .pure (hshape shape rfl)
  · exact hcov.flagsShape ht flags

theorem literalNode (hcov : env.Covers D fail) {t : TypeId} (ht : D.type t) :
    Meets fail (env.literalNode t) fun _ => True := by
  unfold Environment.literalNode
  refine (hcov.typeFlags ht).bind fun flags _ _ => ?_
  split
  · exact (hcov.intrinsicName ht).bind fun name _ _ => .pure trivial
  · refine (hcov.literalValue ht).bind fun value _ _ => ?_
    split <;> exact .pure trivial

theorem typeParameterName (hcov : env.Covers D fail) {t : TypeId} (ht : D.type t) :
    Meets fail (env.typeParameterName t) fun _ => True := by
  unfold Environment.typeParameterName
  refine (hcov.typeSymbol ht).bind fun m _ hm => ?_
  cases m with
  | none => exact (hcov.intrinsicName ht).bind fun name _ _ => .pure trivial
  | some m => exact hcov.symbolName (hm m rfl)

/-! ### Declarations -/

theorem mainDeclaration (hcov : env.Covers D fail) {m : SymbolId} (hm : D.symbol m) :
    Meets fail (env.mainDeclaration? m) fun d => ∀ d' ∈ d, D.node d' ∧ env.Declares m d' := by
  unfold mainDeclaration?
  refine (hcov.valueDeclaration hm).bind fun d hd hknown => ?_
  cases d with
  | some d =>
    refine .pure fun d' hd' => ?_
    obtain rfl := Option.some.inj hd'
    exact ⟨hknown d rfl, .inl hd⟩
  | none =>
    refine (hcov.declarations hm).bind fun ds hds hknown => .pure fun d' hd' => ?_
    have hmem := List.mem_of_mem_head? hd'
    exact ⟨hknown d' hmem, .inr ⟨ds, hds, hmem⟩⟩

theorem firstOfKind (hcov : env.Covers D fail) {kind : SyntaxKind} {ds : List NodeId}
    (hds : ∀ d ∈ ds, D.node d) :
    Meets fail (env.firstOfKind? kind ds) fun d => ∀ d' ∈ d, d' ∈ ds := by
  induction ds with
  | nil => exact .pure (by simp)
  | cons d ds ih =>
    unfold firstOfKind?
    refine (hcov.nodeKind (hds d (by simp))).bind fun k _ _ => ?_
    split
    · refine .pure fun d' hd' => ?_
      obtain rfl := Option.some.inj hd'
      simp
    · exact (ih fun d' hd' => hds d' (by simp [hd'])).mono fun _ _ h d' hd' => by simp [h d' hd']

theorem preferredOf (hcov : env.Covers D fail) {kinds : List SyntaxKind} {ds : List NodeId}
    (hds : ∀ d ∈ ds, D.node d) :
    Meets fail (env.preferredOf? ds kinds) fun d => ∀ d' ∈ d, d' ∈ ds := by
  induction kinds with
  | nil => exact .pure fun d' hd' => List.mem_of_mem_head? hd'
  | cons kind kinds ih =>
    unfold preferredOf?
    refine (hcov.firstOfKind hds).bind fun d _ hd => ?_
    cases d with
    | none => exact ih
    | some d => exact .pure hd

theorem preferredDeclaration (hcov : env.Covers D fail) {m : SymbolId} (hm : D.symbol m)
    (kinds : List SyntaxKind) :
    Meets fail (env.preferredDeclaration? m kinds) fun d =>
      ∀ d' ∈ d, D.node d' ∧ env.Declares m d' := by
  unfold preferredDeclaration?
  refine (hcov.declarations hm).bind fun ds hds hknown => ?_
  exact (hcov.preferredOf hknown).mono fun d _ hd d' hd' =>
    ⟨hknown d' (hd d' hd'), .inr ⟨ds, hds, hd d' hd'⟩⟩

theorem callableDeclarations (hcov : env.Covers D fail) {m : SymbolId} (hm : D.symbol m) :
    Meets fail (env.callableDeclarations m) fun ds => ∀ d ∈ ds, D.node d ∧ env.Declares m d := by
  unfold Environment.callableDeclarations
  refine (hcov.declarations hm).bind fun ds hds hknown => ?_
  have hkinds : ∀ d ∈ ds, Meets fail (do return !(← env.checker.nodeKind d).isContainer)
      fun _ => True := fun d hd => (hcov.nodeKind (hknown d hd)).bind fun _ _ _ => .pure trivial
  exact (Meets.filterM hkinds).mono fun ds' _ hsub d hd =>
    ⟨hknown d (hsub d hd).1, .inr ⟨ds, hds, (hsub d hd).1⟩⟩

theorem implementationFrom (hcov : env.Covers D fail) {ds : List NodeId} (hds : ∀ d ∈ ds, D.node d)
    (start : Nat) : Meets fail (env.implementationFrom start ds) fun _ => True := by
  induction ds generalizing start with
  | nil => exact .pure trivial
  | cons d ds ih =>
    unfold Environment.implementationFrom
    refine (hcov.isImplementationOfOverload (hds d (by simp))).bind fun found _ _ => ?_
    cases found with
    | true => exact .pure trivial
    | false => exact ih (fun d' hd' => hds d' (by simp [hd'])) _

theorem primaryIndex (hcov : env.Covers D fail) {ds : List NodeId} (hds : ∀ d ∈ ds, D.node d) :
    Meets fail (env.primaryIndex ds) fun _ => True := by
  unfold Environment.primaryIndex
  split
  · exact .pure trivial
  · refine (Meets.mapM fun d hd => hcov.hasBody (hds d hd)).bind fun bodies _ _ => ?_
    split
    · exact .pure trivial
    · exact (hcov.implementationFrom hds 0).bind fun _ _ _ => .pure trivial

/-! ### Doc blocks -/

theorem tagsIfAny (hcov : env.Covers D fail) {d : Option NodeId} (hd : ∀ d' ∈ d, D.node d') :
    Meets fail (env.tags? d) fun _ => True := by
  cases d with
  | none => exact .pure trivial
  | some d => exact hcov.tags (hd d rfl)

theorem firstTags (hcov : env.Covers D fail) {ds : List NodeId} (hds : ∀ d ∈ ds, D.node d) :
    Meets fail (env.firstTags? ds) fun facts =>
      ∀ facts' ∈ facts, ∃ d ∈ ds, env.tags d = .ok facts' := by
  induction ds with
  | nil => exact .pure (by simp)
  | cons d ds ih =>
    unfold firstTags?
    refine (hcov.tags (hds d (by simp))).bind fun facts hfacts _ => ?_
    split
    · refine (ih fun d' hd' => hds d' (by simp [hd'])).mono fun found _ h facts' hfacts' => ?_
      obtain ⟨d', hd', htags⟩ := h facts' hfacts'
      exact ⟨d', by simp [hd'], htags⟩
    · refine .pure fun facts' hfacts' => ?_
      obtain rfl := Option.some.inj hfacts'
      exact ⟨d, by simp, hfacts⟩

theorem accessorTags (hcov : env.Covers D fail) {first : NodeId} {rest : List NodeId}
    (hds : ∀ d ∈ first :: rest, D.node d) :
    Meets fail (env.accessorTags first rest) fun facts =>
      ∃ d ∈ first :: rest, env.tags d = .ok facts := by
  unfold Environment.accessorTags
  refine (hcov.firstTags hds).bind fun facts _ h => ?_
  cases facts with
  | some facts => exact .pure (h facts rfl)
  | none => exact (hcov.tags (hds first (by simp))).mono fun facts hfacts _ => ⟨first, by simp, hfacts⟩

/-! ### Members -/

theorem location (hcov : env.Covers D fail) {d : NodeId} (hd : D.node d) :
    Meets fail (env.location d) fun _ => True := by
  unfold Environment.location
  refine (hcov.nodeFile hd).bind fun f _ hf => ?_
  refine (hcov.nodeSpan hd).bind fun span _ _ => ?_
  refine (hcov.fileText hf).bind fun text _ _ => ?_
  exact (hcov.fileName hf).bind fun name _ _ => .pure trivial

/-- A member with what all members share is linked to nothing, and marked as an override only if a
declaration of its symbol says so. -/
theorem commonMember (hcov : env.Covers D fail) {m : SymbolId} (hm : D.symbol m) {d : Option NodeId}
    (hd : ∀ d' ∈ d, D.node d' ∧ env.Declares m d') {facts : TagFacts}
    (hfacts : facts.isOverride = true → env.IsDeclaredOverride m) (body : MemberBody) :
    Meets fail (env.commonMember m d facts body) (env.IsBuilt m) := by
  unfold Environment.commonMember
  refine (hcov.symbolName hm).bind fun name _ _ => ?_
  cases d with
  | none => exact .pure ⟨rfl, rfl, fun h => hfacts (by simpa [FlagSet.has, FlagSet.of] using h)⟩
  | some d =>
    obtain ⟨hknown, hdecl⟩ := hd d rfl
    refine (hcov.combinedModifierFlags hknown).bind fun modifiers hmods _ => ?_
    refine (hcov.location hknown).bind fun location _ _ => .pure ⟨rfl, rfl, fun h => ?_⟩
    rcases Bool.or_eq_true_iff.1 h with hmod | htag
    · exact ⟨d, hdecl, .inl ⟨modifiers, hmods, hmod⟩⟩
    · exact hfacts htag

theorem isOptionalField (hcov : env.Covers D fail) {d : NodeId} (hd : D.node d) (flags : SymbolFlags) :
    Meets fail (env.isOptionalField flags d) fun _ => True := by
  unfold Environment.isOptionalField
  split
  · exact .pure trivial
  · exact hcov.hasQuestionToken hd

theorem enumInitializer (hcov : env.Covers D fail) {m : SymbolId} (hm : D.symbol m) :
    Meets fail (env.enumInitializer m) fun _ => True := by
  unfold Environment.enumInitializer
  refine (hcov.mainDeclaration hm).bind fun d _ hd => ?_
  cases d with
  | none => exact .pure trivial
  | some d =>
    refine (hcov.initializerText (hd d rfl).1).bind fun text _ _ => ?_
    cases text with
    | none => exact .pure trivial
    | some text =>
      dsimp only
      split
      · exact .pure trivial
      · refine (hcov.constantValue (hd d rfl).1).bind fun value _ _ => ?_
        split <;> exact .pure trivial

/-! ### Classes -/

theorem baseProperties (hcov : env.Covers D fail) {us : List TypeId} (hus : ∀ u ∈ us, D.type u) :
    Meets fail (env.baseProperties us) fun table =>
      ∀ entry ∈ table, D.symbol entry.2.symbol ∧ D.type entry.2.base := by
  unfold Environment.baseProperties
  refine Meets.bind (P := fun found => ∀ entries ∈ found, ∀ entry ∈ entries,
    D.symbol entry.2.symbol ∧ D.type entry.2.base) (.mapM fun u hu => ?_) fun found _ hfound => ?_
  · refine (hcov.propertiesOfType (hus u hu)).bind fun ms _ hms => .mapM fun m hm => ?_
    exact (hcov.symbolName (hms m hm)).bind fun name _ _ => .pure ⟨hms m hm, hus u hu⟩
  · refine .pure fun entry hentry => ?_
    obtain ⟨entries, hmem, hentry⟩ := List.mem_flatten.1 hentry
    exact hfound entries hmem entry hentry

theorem classType (hcov : env.Covers D fail) {m : SymbolId} (hm : D.symbol m) (flags : SymbolFlags) :
    Meets fail (env.classType? m flags) fun declared => ∀ t ∈ declared, D.type t := by
  unfold classType?
  split
  · refine (hcov.declaredTypeOfSymbol hm).bind fun t _ ht => .pure fun t' ht' => ?_
    obtain rfl := Option.some.inj ht'
    exact ht
  · exact .pure (by simp)

theorem ofDeclared {α : Type} {query : TypeId → Answer (List α)} {P : α → Prop}
    (hquery : ∀ t, D.type t → Meets fail (query t) fun as => ∀ a ∈ as, P a) {declared : Option TypeId}
    (hdeclared : ∀ t ∈ declared, D.type t) :
    Meets fail (Environment.ofDeclared query declared) fun as => ∀ a ∈ as, P a := by
  cases declared with
  | none => exact .pure (by simp)
  | some t => exact hquery t (hdeclared t rfl)

end Covers

/-- What a class is asked for its base types are its base types. -/
theorem hasBases_iff {m : SymbolId} {flags : SymbolFlags} {declared : Option TypeId} {us : List TypeId}
    (hflags : env.checker.symbolFlags m = .ok flags) (hdeclared : env.classType? m flags = .ok declared)
    (hus : ofDeclared env.checker.baseTypes declared = .ok us) {us' : List TypeId} :
    env.HasBases m us' ↔ declared.isSome ∧ us' = us := by
  unfold classType? at hdeclared
  split at hdeclared
  · next hclass =>
    obtain ⟨t, ht, hsome⟩ := bind_eq_ok_iff.1 hdeclared
    obtain rfl : some t = declared := Except.ok.inj hsome
    constructor
    · intro h
      exact ⟨rfl, h.unique ⟨flags, t, hflags, hclass, ht, hus⟩⟩
    · rintro ⟨-, rfl⟩
      exact ⟨flags, t, hflags, hclass, ht, hus⟩
  · next hclass =>
    obtain rfl : none = declared := Except.ok.inj hdeclared
    constructor
    · rintro ⟨flags', t, hflags', hclass', -⟩
      obtain rfl : flags = flags' := Except.ok.inj (hflags.symm.trans hflags')
      exact absurd hclass' hclass
    · simp

end Environment

end ApiDoc
