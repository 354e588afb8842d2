import ApiDoc.Proofs.Origin.Containers

/-!
# Fields and methods, traced

A method is made from one declaration at a time (`Environment.MadeFrom`); its other declarations get places that are
nobody's, and may be changed until the method is put in its own.  `Environment.AssembledMethod` says what all of them
are in the end.
-/

namespace ApiDoc

/-- A further declaration of a function, under the name and visibility of the main one. -/
def Member.under (raw primary : Member) : Member :=
  { raw with name := primary.name, visibility := primary.visibility }

/-- A method that has no overloads and no companion. -/
def Member.IsBareMethod (member : Member) : Prop :=
  ∃ f, member.body = .method f ∧ f.overloads = [] ∧ f.companion = none

theorem Member.IsBareMethod.overloads_eq {member : Member} (h : member.IsBareMethod) : member.overloads = [] := by
  obtain ⟨f, hbody, hnone, -⟩ := h
  simp [overloads, hbody, hnone]

/-- Other summaries do not change that. -/
theorem Member.IsBareMethod.congr {member member' : Member} (h : member.IsBareMethod)
    (hsame : member'.Resembles member) : member'.IsBareMethod := by
  obtain ⟨f, hbody, hoverloads, hcompanion⟩ := h
  rcases hsame.body with heq | ⟨f', g, hf', hg, hoverloads', hcompanion'⟩
  · exact ⟨f, heq.trans hbody, hoverloads, hcompanion⟩
  · obtain rfl : f = g := by simpa [hbody] using hg
    exact ⟨f', hf', hoverloads'.trans hoverloads, hcompanion'.trans hcompanion⟩

namespace Environment

variable (env : Environment)

/-- What one declaration of a function alone is documented as: it has the kind, the modifiers and the signature of the
declaration, and what its tags say. -/
structure DepictsDeclaration (s : Session) (d : NodeId) (facts : TagFacts) (f : Method) : Prop where
  tags : env.tags d = .ok facts
  signature : ∃ sig, env.checker.signatureFromDeclaration d = .ok sig ∧ env.DepictsSignature s facts sig f.signature
  kind : ∃ kind, env.checker.nodeKind d = .ok kind ∧ f.kind = .ofDeclaration kind
  isAsync : ∃ modifiers : ModifierFlags, env.checker.combinedModifierFlags d = .ok modifiers ∧
    f.isAsync = modifiers.has .async
  isGenerator : env.checker.hasAsterisk d = .ok f.isGenerator
  returnSummary : f.returnSummary = facts.returns.getD ""

/-- A member made from one declaration of a function. -/
def MadeFrom (s : Session) (m : SymbolId) (d : NodeId) (member : Member) : Prop :=
  ∃ facts f, env.DepictsDeclaration s d facts f ∧ env.commonMember m (some d) facts (.method f) = .ok member

/-- A field with the type of its symbol. -/
def MakesField (m : SymbolId) (member : Member) (s : Session) : Prop :=
  ∃ f, member.body = .field f ∧ s.Henceforth (env.DepictsSymbolType · m f.type)

/-- The main declaration as it ends up beside the others. -/
def sharedFrom (primary : Member) (raws : List Member) : Member :=
  if env.config.backfillOverloads then primary.fillFromOverloads (raws.map (·.under primary)) else primary

/-- Another declaration as it ends up beside the main one. -/
def overloadFrom (primary : Member) (raws : List Member) (raw : Member) : Member :=
  if env.config.backfillOverloads then (raw.under primary).fillFrom (env.sharedFrom primary raws)
  else raw.under primary

/-- What becomes of the declarations of a function: each is made on its own, all but the main one get places that
are nobody's, and the main one lists these, in order. -/
structure AssembledMethod (s : Session) (m : SymbolId) (ds : List NodeId) (member : Member) (s' : Session) : Prop where
  parts : ∃ k d primary raws os companion, env.primaryIndex ds = .ok k ∧ ds[k]? = some d ∧
    primary.IsBareMethod ∧ s'.Henceforth (env.MadeFrom · m d primary) ∧
    List.Forall₂ (fun d raw => raw.IsBareMethod ∧ s'.Henceforth (env.MadeFrom · m d raw)) (ds.eraseIdx k) raws ∧
    List.Forall₂ (fun o raw => s.graph.members.size ≤ o.index ∧ s'.Unclaimed o ∧
      s'.memberAt? o = some (env.overloadFrom primary raws raw)) os raws ∧
    member = (env.sharedFrom primary raws).withOverloads os companion

variable {env} {inner : Resolver} {base s s' : Session} {m : SymbolId} {d : NodeId} {ds : List NodeId} {member : Member}

theorem resembles_overloadFrom (primary : Member) (raws : List Member) (raw : Member) :
    (env.overloadFrom primary raws raw).Resembles raw := by
  unfold overloadFrom
  split
  · exact (Member.Resembles.fillFrom _ _).trans ⟨rfl, rfl, rfl, .inl rfl⟩
  · exact ⟨rfl, rfl, rfl, .inl rfl⟩

theorem overloadFrom_bare {raw : Member} (h : raw.IsBareMethod) (primary : Member) (raws : List Member) :
    (env.overloadFrom primary raws raw).IsBareMethod :=
  h.congr (resembles_overloadFrom primary raws raw)

theorem resembles_sharedFrom (primary : Member) (raws : List Member) :
    (env.sharedFrom primary raws).Resembles primary := by
  unfold sharedFrom
  split
  · exact .fillFromOverloads _ _
  · exact .refl _

theorem MakesField.overloads (h : env.MakesField m member s) : member.overloads = [] := by
  obtain ⟨f, hbody, -⟩ := h
  simp [Member.overloads, hbody]

theorem AssembledMethod.made (h : env.AssembledMethod s m ds member s') : Made s member s' := by
  obtain ⟨k, d, primary, raws, os, companion, -, -, hbare, -, -, hos, rfl⟩ := h.parts
  have hshared : (env.sharedFrom primary raws).Resembles primary := resembles_sharedFrom primary raws
  obtain ⟨f, hbody, -⟩ := hbare.congr hshared
  intro o ho
  have hmem : o ∈ os := by simpa [Member.withOverloads, Member.overloads, hbody] using ho
  obtain ⟨raw, -, hnew, hunclaimed, -⟩ := exists_of_forall₂ hos hmem
  exact ⟨hnew, hunclaimed.aside.1⟩

namespace Answers

/-! ### Fields and aliases -/

theorem declaredField (hinner : env.Answers inner) {m : SymbolId} {d : NodeId}
    (hd : env.mainDeclaration? m = .ok (some d)) (flags : SymbolFlags) :
    env.Yields s s (env.declaredField inner m flags d) (env.MakesField m) := by
  unfold Environment.declaredField
  refine .ask fun kind _ => .ask fun t ht => (hinner.type t).bind fun r s₁ _ hr => ?_
  refine .ask fun optional _ => .ask fun modifiers _ => .ask fun default _ => .ask fun facts _ => ?_
  refine .answer fun member h => ⟨_, (commonMember_eq_ok h).1, ?_⟩
  exact (Session.Henceforth.typeOf hr).imp fun _ _ hfound => .inl ⟨d, t, hd, ht, hfound⟩

theorem field (hinner : env.Answers inner) (m : SymbolId) : env.Yields s s (env.field inner m) (env.MakesField m) := by
  unfold Environment.field
  refine .ask fun flags _ => .ask fun decl hdecl => ?_
  cases decl with
  | some d => exact hinner.declaredField hdecl flags
  | none =>
    refine Yields.newMixed.bind fun r s₁ _ hr => .answer fun member h => ⟨_, (commonMember_eq_ok h).1, ?_⟩
    exact hr.imp fun _ _ hfresh => .inr ⟨hdecl, hfresh⟩

theorem accessor (hinner : env.Answers inner) (m : SymbolId) :
    env.Yields s s (env.accessor inner m) fun member _ => member.overloads = [] := by
  unfold Environment.accessor
  refine .ask fun flags _ => .ask fun decls _ => ?_
  cases decls with
  | nil => exact (hinner.field m).mono fun _ _ _ h => h.overloads
  | cons first rest =>
    refine .ask fun t _ => (hinner.type t).bind fun r _ _ _ => .ask fun facts _ => ?_
    exact .answer fun member h => overloads_commonMember h (by simp)

theorem typeAlias (hinner : env.Answers inner) (m : SymbolId) (slot : MemberRef) :
    env.Yields s s (env.typeAlias inner m slot) fun member _ => member.overloads = [] := by
  unfold Environment.typeAlias
  refine .ask fun decl _ => .ask fun facts _ => .ask fun ts _ => ?_
  refine (hinner.typeParameters (some slot) facts.typeParams ts).bind fun typeParameters _ _ _ => ?_
  refine .ask fun t _ => (hinner.type t).bind fun r _ _ _ => ?_
  exact .answer fun member h => overloads_commonMember h (by simp)

/-! ### Methods -/

/-- A declaration alone makes a method that pictures it henceforth. -/
theorem signatureMember (hinner : env.Answers inner) (m : SymbolId) (slot : MemberRef) (d : NodeId) :
    env.Yields s s (env.signatureMember inner m slot d) fun member s' =>
      member.IsBareMethod ∧ s'.Henceforth (env.MadeFrom · m d member) := by
  unfold Environment.signatureMember
  refine .ask fun facts hfacts => .ask fun sig hsig => ?_
  refine (hinner.signature (some slot) sig facts).bind fun signature s₁ _ hsignature => ?_
  refine .ask fun kind hkind => .ask fun modifiers hmodifiers => .ask fun generator hgenerator => ?_
  refine .answer fun member hmember => ⟨⟨_, (commonMember_eq_ok hmember).1, rfl, rfl⟩, ?_⟩
  refine hsignature.imp fun s' _ hdepicts => ⟨facts, _, ?_, hmember⟩
  exact {
    tags := hfacts
    signature := ⟨sig, hsig, hdepicts⟩
    kind := ⟨kind, hkind, rfl⟩
    isAsync := ⟨modifiers, hmodifiers, rfl⟩
    isGenerator := hgenerator
    returnSummary := rfl }

/-- An overload gets a place of its own, which nobody claims. -/
theorem overload (hinner : env.Answers inner) (m : SymbolId) (primary : Member) (d : NodeId) :
    env.Yields s s (env.overload inner m primary d) fun o s' => ∃ raw : Member,
      (raw.IsBareMethod ∧ s'.Henceforth (env.MadeFrom · m d raw)) ∧
      s.graph.members.size ≤ o.index ∧ s'.Unclaimed o ∧ s'.memberAt? o = some (raw.under primary) := by
  unfold Environment.overload
  refine .of_anchored fun ha => ?_
  have hnew : (s.growMember (.placeholder primary.name)).Unclaimed ⟨s.graph.members.size⟩ := by
    refine ⟨⟨by simp, fun key hkey => Nat.lt_irrefl _ (ha.members hkey)⟩, fun hlisted => ?_⟩
    exact Nat.lt_irrefl _ (ha.listed (hlisted.of_grown rfl fun _ => Session.memberAt?_growMember ..))
  refine .change_then (Session.newMember_run _) (fun ha hs => .growMember ha hs _) fun hs => ?_
  refine (hinner.signatureMember m _ d).bind fun raw s₂ hs₂ ⟨hbare, hmade⟩ => ?_
  obtain ⟨hunclaimed, -⟩ := hs₂.unclaimed hnew
  have hd := Session.differsAt_putMember s₂ ⟨s.graph.members.size⟩ (raw.under primary)
  have hat := Session.memberAt?_putMember_self hunclaimed.aside.1 (raw.under primary)
  have hnone : ∀ o ∈ [(⟨s.graph.members.size⟩ : MemberRef)], ∀ member,
      (s₂.putMember ⟨s.graph.members.size⟩ (raw.under primary)).memberAt? o = some member → member.overloads = [] := by
    intro o ho member hmember
    obtain rfl := List.mem_singleton.1 ho
    obtain rfl := Option.some.inj (hat.symm.trans hmember)
    exact hbare.overloads_eq
  refine .change_then (Session.setMember_run _ _) (fun ha₂ hs => .amend ha₂ hs hd (by simpa using hunclaimed) hnone)
    fun _ => .pure ⟨raw, ⟨hbare, hmade.mono (.differs hd)⟩, Nat.le_refl _, hunclaimed.differs hd hnone, hat⟩

/-- Other declarations, each in a place of its own. -/
theorem overloads (hinner : env.Answers inner) (m : SymbolId) (primary : Member) (ds : List NodeId) :
    env.Yields s s (ds.mapM (env.overload inner m primary)) fun os s' => ∃ raws,
      List.Forall₂ (fun d (raw : Member) => raw.IsBareMethod ∧ s'.Henceforth (env.MadeFrom · m d raw)) ds raws ∧
      List.Forall₂ (fun o (raw : Member) => s.graph.members.size ≤ o.index ∧ s'.Unclaimed o ∧
        s'.memberAt? o = some (raw.under primary)) os raws := by
  refine Yields.mono (Yields.mapM (R := fun s' d o => ∃ raw : Member,
    (raw.IsBareMethod ∧ s'.Henceforth (env.MadeFrom · m d raw)) ∧ s.graph.members.size ≤ o.index ∧ s'.Unclaimed o ∧
      s'.memberAt? o = some (raw.under primary)) ?_ fun d _ s' hs => ?_) fun _ _ _ h => exists_between_forall₂ h
  · rintro s₁ s₂ d o hs ⟨raw, ⟨hbare, hmade⟩, hnew, hunclaimed, hat⟩
    obtain ⟨hunclaimed', hsame⟩ := hs.unclaimed hunclaimed
    exact ⟨raw, ⟨hbare, hmade.mono hs.toRecalls⟩, hnew, hunclaimed', hsame.trans hat⟩
  · refine (hinner.overload m primary d).mono fun o s'' _ ⟨raw, hmade, hnew, hrest⟩ => ?_
    exact ⟨raw, hmade, Nat.le_trans hs.members_le hnew, hrest⟩

/-- Overloads that are nobody's may share summaries with the main declaration. -/
theorem sharedPrimary {primary : Member} {os : List MemberRef} {raws : List Member}
    (hos : List.Forall₂ (fun o (raw : Member) => base.graph.members.size ≤ o.index ∧ s.Unclaimed o ∧
      s.memberAt? o = some (raw.under primary)) os raws) (hraws : ∀ raw ∈ raws, raw.IsBareMethod) :
    env.Yields base s (env.sharedPrimary primary os) fun shared s' => shared = env.sharedFrom primary raws ∧
      s.Recalls s' ∧ List.Forall₂ (fun o raw => base.graph.members.size ≤ o.index ∧ s'.Unclaimed o ∧
        s'.memberAt? o = some (env.overloadFrom primary raws raw)) os raws := by
  by_cases hbackfill : env.config.backfillOverloads = true
  · have hat : List.Forall₂ (fun o m => s.memberAt? o = some m) os (raws.map (·.under primary)) :=
      List.forall₂_map_right_iff.2 (hos.imp fun _ _ h => h.2.2)
    obtain ⟨s', hrun, hd, hfilled⟩ := sharedPrimary_run hbackfill primary hat
    have hlater : List.Forall₂ (fun o raw => s'.memberAt? o = some (env.overloadFrom primary raws raw)) os raws := by
      simpa only [overloadFrom, sharedFrom, if_pos hbackfill] using List.forall₂_map_right_iff.1 hfilled
    have hbare : ∀ o ∈ os, ∀ member, s'.memberAt? o = some member → member.overloads = [] := by
      intro o ho member hmember
      obtain ⟨raw, hraw, hat'⟩ := exists_of_forall₂ hlater ho
      obtain rfl := Option.some.inj (hat'.symm.trans hmember)
      exact (overloadFrom_bare (hraws raw hraw) primary raws).overloads_eq
    refine .change hrun (fun ha hs => .amend ha hs hd (fun o ho => ?_) hbare) ⟨?_, .differs hd, ?_⟩
    · obtain ⟨raw, -, hnew, hunclaimed, -⟩ := exists_of_forall₂ hos ho
      exact ⟨hunclaimed, hnew⟩
    · rw [sharedFrom, if_pos hbackfill]
    · refine List.forall₂_iff_zip.2 ⟨hos.length_eq, fun {o raw} hzip => ?_⟩
      obtain ⟨hnew, hunclaimed, -⟩ := (List.forall₂_iff_zip.1 hos).2 hzip
      exact ⟨hnew, hunclaimed.differs hd hbare, (List.forall₂_iff_zip.1 hlater).2 hzip⟩
  · have hsame : env.sharedPrimary primary os = pure primary := by rw [Environment.sharedPrimary, if_neg hbackfill]
    rw [hsame]
    refine .pure ⟨by rw [sharedFrom, if_neg hbackfill], .refl s, hos.imp fun o raw h => ?_⟩
    rwa [overloadFrom, if_neg hbackfill]

theorem companion? (hinner : env.Answers inner) (m : SymbolId) (flags : SymbolFlags) :
    env.Yields s s (env.companion? inner m flags) fun _ _ => True := by
  unfold Environment.companion?
  split
  · exact hinner.companion m
  · exact .pure trivial

/-- All declarations of a function make one method, and each of them is what it is on its own but for what they
share. -/
theorem method (hinner : env.Answers inner) (m : SymbolId) (slot : MemberRef) :
    env.Yields s s (env.method inner m slot) fun member s' => Made s member s' ∧
      ∃ ds, env.callableDeclarations m = .ok ds ∧ (ds ≠ [] → env.AssembledMethod s m ds member s') := by
  unfold Environment.method
  refine .ask fun ds hds => .ask fun k hk => ?_
  cases hmain : ds[k]? with
  | none =>
    refine (hinner.field m).mono fun member s' _ h => ⟨.of_none h.overloads, ds, hds, fun hne => ?_⟩
    exact absurd (List.getElem?_eq_none_iff.1 hmain) (Nat.not_le_of_lt (primaryIndex_lt hk hne))
  | some d =>
    refine (hinner.signatureMember m slot d).bind fun primary s₁ hs₁ ⟨hbare, hmade⟩ => ?_
    refine (hinner.overloads m primary (ds.eraseIdx k)).bind fun os s₂ hs₂ ⟨raws, hraws, hos⟩ => ?_
    have hos₂ := hos.imp fun _ _ h => (⟨Nat.le_trans hs₁.members_le h.1, h.2⟩ : _ ∧ _)
    have hbares : ∀ raw ∈ raws, raw.IsBareMethod := by
      intro raw hraw
      obtain ⟨_, -, h⟩ := exists_of_forall₂ hraws.flip hraw
      exact h.1
    -- the overloads are the method's own, so they may change until it is put in its place
    refine (sharedPrimary hos₂ hbares).bind_own fun shared s₃ _ ⟨hshared, hs₃, hos₃⟩ => .ask fun flags _ => ?_
    refine (hinner.companion? m flags).bind fun companion s₄ hs₄ _ => .pure ?_
    have hs₃₄ := hs₃.trans hs₄.toRecalls
    have hassembled : env.AssembledMethod s m ds (shared.withOverloads os companion) s₄ := by
      refine ⟨k, d, primary, raws, os, companion, hk, hmain, hbare, hmade.mono (hs₂.toRecalls.trans hs₃₄),
        hraws.imp fun _ _ h => ⟨h.1, h.2.mono hs₃₄⟩, hos₃.imp fun o raw ⟨hnew, hunclaimed, hat⟩ => ?_, by rw [hshared]⟩
      obtain ⟨hunclaimed', hsame⟩ := hs₄.unclaimed hunclaimed
      exact ⟨hnew, hunclaimed', hsame.trans hat⟩
    exact ⟨hassembled.made, ds, hds, fun _ => hassembled⟩

end Answers

end Environment

end ApiDoc
