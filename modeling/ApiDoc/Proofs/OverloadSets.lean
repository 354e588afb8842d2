import ApiDoc.Proofs.Failure.Leftovers
import ApiDoc.Proofs.Interrupted
import ApiDoc.Proofs.Origin.Retelling

/-!
# Overload sets

All declarations of a function, but for those of a container that it is merged with, make one method: one of them is
the main one (`Environment.IsPrimary`), and each of the others gets a member of its own, in order and under the name
and visibility of the main one (`Environment.IsOverloadSet`).  That is so however the function came by its place: when
it was resolved for itself, or anew as an override, whatever was asked before and whatever came of it
(`Environment.method_shows_declarations`).
-/

namespace ApiDoc

namespace Environment

variable (env : Environment)

/-! ### The main declaration -/

/-- A declaration has a body. -/
def HasBodyAt (ds : List NodeId) (k : Nat) : Prop := ∃ d, ds[k]? = some d ∧ env.checker.hasBody d = .ok true

/-- A declaration implements the others. -/
def ImplementsAt (ds : List NodeId) (k : Nat) : Prop :=
  ∃ d, ds[k]? = some d ∧ env.checker.isImplementationOfOverload d = .ok true

/-- **The main declaration** of some: the only one that has a body if there is exactly one, or else the first that
implements the others, or else the first. -/
def IsPrimary (ds : List NodeId) (k : Nat) : Prop :=
  (env.HasBodyAt ds k ∧ ∀ j, env.HasBodyAt ds j → j = k) ∨
  (¬ ∃! j, env.HasBodyAt ds j) ∧
    ((env.ImplementsAt ds k ∧ ∀ j < k, ¬ env.ImplementsAt ds j) ∨ k = 0 ∧ ∀ j, ¬ env.ImplementsAt ds j)

/-! ### What a method shows -/

/-- A method shows a declaration: it stands where the declaration stands, is of its kind, and has its modifiers and its
signature, whatever is said about the parameters. -/
structure ShowsDeclaration (s : Session) (d : NodeId) (member : Member) (f : Method) : Prop where
  body : member.body = .method f
  location : env.location d = .ok member.location
  kind : ∃ kind, env.checker.nodeKind d = .ok kind ∧ f.kind = .ofDeclaration kind
  isAsync : ∃ modifiers : ModifierFlags, env.checker.combinedModifierFlags d = .ok modifiers ∧
    f.isAsync = modifiers.has .async
  isGenerator : env.checker.hasAsterisk d = .ok f.isGenerator
  signature : ∃ facts sig signature, env.tags d = .ok facts ∧ env.checker.signatureFromDeclaration d = .ok sig ∧
    env.DepictsSignature s facts sig signature ∧ f.signature.untold = signature.untold

/-- An overload shows a declaration under the name and visibility of the main one, and has neither overloads nor a
companion. -/
def ShowsOverload (s : Session) (primary : Member) (d : NodeId) (o : MemberRef) : Prop :=
  ∃ overload g, s.memberAt? o = some overload ∧ env.ShowsDeclaration s d overload g ∧
    overload.name = primary.name ∧ overload.visibility = primary.visibility ∧ g.overloads = [] ∧ g.companion = none

/-- **An overload set**: the method in a place shows the main declaration of a symbol, and lists one overload for each
of the others, in order.  These are different from each other, nobody else lists them, and no key leads to them. -/
structure IsOverloadSet (s : Session) (r : MemberRef) (m : SymbolId) (ds : List NodeId) (member : Member)
    (f : Method) : Prop where
  place : s.memberAt? r = some member
  parts : ∃ k d, env.IsPrimary ds k ∧ ds[k]? = some d ∧ env.ShowsDeclaration s d member f ∧
    List.Forall₂ (env.ShowsOverload s member) (ds.eraseIdx k) f.overloads ∧
    ∃ facts name, env.tags d = .ok facts ∧ env.checker.symbolName m = .ok name ∧
      member.name = facts.name.getD name ∧ member.visibility = facts.visibility
  count : f.overloads.length + 1 = ds.length
  nodup : f.overloads.Nodup
  own {o} : o ∈ f.overloads → s.IsLoose o ∧ ∀ r' other, s.memberAt? r' = some other → o ∈ other.overloads → r' = r

variable {env} {s s' : Session} {m : SymbolId} {d : NodeId} {ds : List NodeId} {member raw : Member} {f g : Method}

/-- The only place of an element that is there once. -/
theorem eq_idxOf_of_count {bodies : List Bool} (h : bodies.count true = 1) {j : Nat} (hj : bodies[j]? = some true) :
    j = bodies.idxOf true := by
  induction bodies generalizing j with
  | nil => simp at hj
  | cons body rest ih =>
    cases body with
    | true =>
      cases j with
      | zero => simp
      | succ j =>
        have hmem : true ∈ rest := List.mem_of_getElem? (by simpa using hj)
        have hnone : rest.count true = 0 := by simpa using h
        exact absurd hmem (List.count_eq_zero.1 hnone)
    | false =>
      cases j with
      | zero => simp at hj
      | succ j => simp [ih (by simpa using h) (by simpa using hj)]

/-- An element with one place only is there once. -/
theorem count_of_unique {bodies : List Bool} {k : Nat} (hk : bodies[k]? = some true)
    (hunique : ∀ j, bodies[j]? = some true → j = k) : bodies.count true = 1 := by
  induction bodies generalizing k with
  | nil => simp at hk
  | cons body rest ih =>
    cases body with
    | true =>
      have hrest : true ∉ rest := by
        intro hmem
        obtain ⟨j, hj⟩ := List.mem_iff_getElem?.1 hmem
        have hfirst := hunique 0 (by simp)
        have hlater := hunique (j + 1) (by simpa using hj)
        omega
      simp [List.count_eq_zero.2 hrest]
    | false =>
      cases k with
      | zero => simp at hk
      | succ k =>
        have hcount := ih (by simpa using hk) fun j hj => by
          have := hunique (j + 1) (by simpa using hj)
          omega
        simpa using hcount

theorem hasBodyAt_iff {bodies : List Bool} (h : List.Forall₂ (fun d body => env.checker.hasBody d = .ok body) ds bodies)
    {j : Nat} : env.HasBodyAt ds j ↔ bodies[j]? = some true := by
  induction h generalizing j with
  | nil => simp [HasBodyAt]
  | @cons d body _ _ hbody _ ih =>
    cases j with
    | zero => simp [HasBodyAt, hbody]
    | succ j => simpa [HasBodyAt] using ih (j := j)

theorem implementationFrom_eq {found : Option Nat} {start : Nat} (h : env.implementationFrom start ds = .ok found) :
    (∃ k, found = some (start + k) ∧ env.ImplementsAt ds k ∧ ∀ j < k, ¬ env.ImplementsAt ds j) ∨
      found = none ∧ ∀ j, ¬ env.ImplementsAt ds j := by
  -- on the declarations that are left, whose indices are counted from the first of them
  induction ds generalizing start with
  | nil =>
    obtain rfl : none = found := Except.ok.inj h
    exact .inr ⟨rfl, by simp [ImplementsAt]⟩
  | cons d ds ih =>
    obtain ⟨implements, himplements, h⟩ := bind_eq_ok_iff.1 h
    have hshift (j : Nat) : env.ImplementsAt (d :: ds) (j + 1) ↔ env.ImplementsAt ds j := by simp [ImplementsAt]
    cases implements with
    | true =>
      obtain rfl : some start = found := Except.ok.inj h
      exact .inl ⟨0, rfl, ⟨d, rfl, himplements⟩, by simp⟩
    | false =>
      have hfirst : ¬ env.ImplementsAt (d :: ds) 0 := by
        rintro ⟨d', hd', himplements'⟩
        obtain rfl : d = d' := by simpa using hd'
        simp [himplements] at himplements'
      rcases ih h with ⟨k, rfl, hk, hbefore⟩ | ⟨rfl, hnone⟩
      · refine .inl ⟨k + 1, by congr 1; omega, (hshift k).2 hk, fun j hj => ?_⟩
        cases j with
        | zero => exact hfirst
        | succ j =>
          rw [hshift]
          exact hbefore j (by omega)
      · refine .inr ⟨rfl, fun j => ?_⟩
        cases j with
        | zero => exact hfirst
        | succ j =>
          rw [hshift]
          exact hnone j

/-- **The resolver chooses the main declaration.** -/
theorem isPrimary_of_primaryIndex {k : Nat} (h : env.primaryIndex ds = .ok k) (hne : ds ≠ []) : env.IsPrimary ds k := by
  unfold primaryIndex at h
  split at h
  · next d =>
    -- there is no other choice
    obtain rfl : 0 = k := Except.ok.inj h
    have honly {P : Nat → Prop} (hP : ∀ j, P j → ∃ d', [d][j]? = some d') (j : Nat) (hj : P j) : j = 0 := by
      obtain ⟨d', hd'⟩ := hP j hj
      have hlt := (List.getElem?_eq_some_iff.1 hd').1
      simpa using hlt
    have hbody := honly fun j (hj : env.HasBodyAt [d] j) => hj.imp fun _ h => h.1
    have himplements := honly fun j (hj : env.ImplementsAt [d] j) => hj.imp fun _ h => h.1
    by_cases hhas : env.HasBodyAt [d] 0
    · exact .inl ⟨hhas, hbody⟩
    · refine .inr ⟨fun ⟨j, hj, _⟩ => hhas (hbody j hj ▸ hj), ?_⟩
      by_cases hmarked : env.ImplementsAt [d] 0
      · exact .inl ⟨hmarked, by simp⟩
      · exact .inr ⟨rfl, fun j hj => hmarked (himplements j hj ▸ hj)⟩
  · obtain ⟨bodies, hbodies, h⟩ := bind_eq_ok_iff.1 h
    have hbody (j : Nat) : env.HasBodyAt ds j ↔ bodies[j]? = some true := hasBodyAt_iff (mapM_eq_ok_iff.1 hbodies)
    split at h
    · next hcount =>
      obtain rfl : bodies.idxOf true = k := Except.ok.inj h
      refine .inl ⟨(hbody _).2 ?_, fun j hj => eq_idxOf_of_count hcount ((hbody j).1 hj)⟩
      have hmem : true ∈ bodies := List.count_pos_iff.1 (by omega)
      simp [List.getElem?_eq_getElem (List.idxOf_lt_length_of_mem hmem)]
    · next hcount =>
      obtain ⟨found, hfound, rfl⟩ := map_eq_ok_iff.1 h
      refine .inr ⟨?_, ?_⟩
      · rintro ⟨j, hj, hunique⟩
        exact hcount (count_of_unique ((hbody j).1 hj) fun j' hj' => hunique j' ((hbody j').2 hj'))
      · rcases implementationFrom_eq hfound with ⟨k, rfl, hk, hbefore⟩ | ⟨rfl, hnone⟩
        · exact .inl (by simpa using ⟨hk, hbefore⟩)
        · exact .inr ⟨rfl, hnone⟩

end Environment

/-! ### Methods in other words -/

/-- A method is another one in other words: it has its kind, its modifiers and its signature, but for what is said about
it; its overloads and its companion may be others. -/
structure Method.Retells (f g : Method) : Prop where
  kind : f.kind = g.kind
  isAsync : f.isAsync = g.isAsync
  isGenerator : f.isGenerator = g.isGenerator
  signature : f.signature.untold = g.signature.untold

theorem Method.Retells.of_untold {f g : Method} (h : f.untold = g.untold) : f.Retells g where
  kind := by simpa only [untold] using congrArg Method.kind h
  isAsync := by simpa only [untold] using congrArg Method.isAsync h
  isGenerator := by simpa only [untold] using congrArg Method.isGenerator h
  signature := by simpa only [untold] using congrArg Method.signature h

theorem Method.Retells.trans {f g g' : Method} (h : f.Retells g) (h' : g.Retells g') : f.Retells g' :=
  ⟨h.kind.trans h'.kind, h.isAsync.trans h'.isAsync, h.isGenerator.trans h'.isGenerator,
    h.signature.trans h'.signature⟩

namespace Environment

variable {env : Environment} {s s' : Session} {key : MemberKey} {m : SymbolId} {d : NodeId} {ds : List NodeId}
  {member raw : Member} {f g : Method}

/-- A method that retells what was made from a declaration shows it. -/
theorem MadeFrom.shows (h : env.MadeFrom s m d raw) (hraw : raw.body = .method g) (hbody : member.body = .method f)
    (hlocation : member.location = raw.location) (hsame : f.Retells g) : env.ShowsDeclaration s d member f := by
  obtain ⟨facts, g', hdepicts, hcommon⟩ := h
  obtain ⟨hbody', -, -, hplace⟩ := commonMember_eq_ok hcommon
  obtain rfl : g' = g := MemberBody.method.inj (hbody'.symm.trans hraw)
  obtain ⟨sig, hsig, hdepicted⟩ := hdepicts.signature
  exact {
    body := hbody
    location := hlocation ▸ hplace
    kind := by rw [hsame.kind]; exact hdepicts.kind
    isAsync := by rw [hsame.isAsync]; exact hdepicts.isAsync
    isGenerator := by rw [hsame.isGenerator]; exact hdepicts.isGenerator
    signature := ⟨facts, sig, g'.signature, hdepicts.tags, hsig, hdepicted, hsame.signature⟩ }

theorem retells_sharedFrom (primary : Member) (raws : List Member) :
    (env.sharedFrom primary raws).Retells primary := by
  unfold sharedFrom
  split
  · exact .of_untold (Member.fills_fillFromOverloads _ _).untold
  · exact .refl primary

theorem retells_overloadFrom (primary : Member) (raws : List Member) (raw : Member) :
    (env.overloadFrom primary raws raw).Retells (raw.under primary) := by
  unfold overloadFrom
  split
  · exact .of_untold (Member.fills_fillFrom _ _).untold
  · exact .refl _

/-- The name and the visibility of a member are those of its tags, or else those of its symbol and its modifiers. -/
theorem named_of_commonMember {decl : Option NodeId} {facts : TagFacts} {body : MemberBody}
    (h : env.commonMember m decl facts body = .ok member) :
    ∃ name, env.checker.symbolName m = .ok name ∧ member.name = facts.name.getD name ∧
      member.visibility = facts.visibility := by
  unfold commonMember at h
  obtain ⟨name, hname, h⟩ := bind_eq_ok_iff.1 h
  refine ⟨name, hname, ?_⟩
  cases decl <;>
  · obtain ⟨modifiers, -, h⟩ := bind_eq_ok_iff.1 h
    obtain ⟨location, -, rfl⟩ := map_eq_ok_iff.1 h
    exact ⟨rfl, rfl⟩

/-- The further declarations of a function as they stand in their places. -/
theorem showsOverload_of_raws {primary : Member} (all : List Member) {raws : List Member} {os : List MemberRef}
    (hname : member.name = primary.name) (hvisibility : member.visibility = primary.visibility)
    (hraws : List.Forall₂ (fun d (raw : Member) => raw.IsBareMethod ∧ env.MadeFrom s m d raw) ds raws)
    (hos : List.Forall₂ (fun o raw => s.memberAt? o = some (env.overloadFrom primary all raw)) os raws) :
    List.Forall₂ (env.ShowsOverload s member) ds os := by
  induction hraws generalizing os with
  | nil =>
    cases hos
    exact .nil
  | @cons d raw _ _ hraw _ ih =>
    obtain ⟨o, os, hat, hrest, rfl⟩ := List.forall₂_cons_right_iff.1 hos
    refine .cons ?_ (ih hrest)
    have hretells : (env.overloadFrom primary all raw).Retells (raw.under primary) := retells_overloadFrom _ _ _
    have hbare : (env.overloadFrom primary all raw).IsBareMethod := overloadFrom_bare hraw.1 primary all
    obtain ⟨g, hg, hnone, hcompanion⟩ := hbare
    obtain ⟨g', hg', -⟩ := hraw.1
    obtain ⟨f, hf, hsame⟩ := hretells.method (g := g') hg'
    obtain rfl : f = g := MemberBody.method.inj (hf.symm.trans hg)
    exact ⟨_, f, hat, hraw.2.shows hg' hf hretells.location (.of_untold hsame), hretells.name.trans hname.symm,
      hretells.visibility.trans hvisibility.symm, hnone, hcompanion⟩

/-- What retells an assembled method shows all declarations. -/
theorem AssembledMethod.shows {s₀ s₁ : Session} {built : Member} (h : env.AssembledMethod s₀ m ds built s₁)
    (hne : ds ≠ []) (hs : s₁.Recalls s) (hsingle : s.Single)
    (hown : ∀ o ∈ built.overloads, s₁.MemberAside o → s.MemberAside o ∧ s.memberAt? o = s₁.memberAt? o)
    (hretells : member.Retells built) :
    ∃ f k d, member.body = .method f ∧ env.IsPrimary ds k ∧ ds[k]? = some d ∧ env.ShowsDeclaration s d member f ∧
      List.Forall₂ (env.ShowsOverload s member) (ds.eraseIdx k) f.overloads ∧
      ∃ facts name, env.tags d = .ok facts ∧ env.checker.symbolName m = .ok name ∧
        member.name = facts.name.getD name ∧ member.visibility = facts.visibility := by
  obtain ⟨k, d, primary, raws, os, companion, hk, hd, ⟨g, hg, -⟩, hmade, hraws, hos, rfl⟩ := h.parts
  -- sharing, the list of overloads and retelling leave the facts of the declaration alone
  have hshared : (env.sharedFrom primary raws).Retells primary := retells_sharedFrom primary raws
  obtain ⟨g', hg', hsame'⟩ := hshared.method hg
  have hbuilt : (env.sharedFrom primary raws).withOverloads os companion =
      { env.sharedFrom primary raws with body := .method { g' with overloads := os, companion } } := by
    simp [Member.withOverloads, hg']
  rw [hbuilt] at hretells hown
  obtain ⟨f, hf, hsame⟩ := hretells.method rfl
  have hoverloads : f.overloads = os := congrArg Method.overloads hsame
  have hname : member.name = primary.name := hretells.name.trans hshared.name
  have hvisibility : member.visibility = primary.visibility := hretells.visibility.trans hshared.visibility
  have hprimary := hmade s hs hsingle
  refine ⟨f, k, d, hf, isPrimary_of_primaryIndex hk hne, hd, hprimary.shows hg hf
    (hretells.location.trans hshared.location) (.trans (.of_untold hsame) ?_), ?_, ?_⟩
  · have hretold := Method.Retells.of_untold hsame'
    exact ⟨hretold.kind, hretold.isAsync, hretold.isGenerator, hretold.signature⟩
  · rw [hoverloads]
    refine showsOverload_of_raws raws hname hvisibility (hraws.imp fun _ _ h => ⟨h.1, h.2 s hs hsingle⟩) ?_
    refine ((List.forall₂_and_left _ _).2 ⟨hown, hos⟩).imp ?_
    rintro o raw ⟨hstays, -, hunclaimed, hat⟩
    exact (hstays hunclaimed.aside).2.trans hat
  · obtain ⟨facts, g'', hdepicts, hcommon⟩ := hprimary
    obtain ⟨name, hsymbol, hprimaryName, hprimaryVisibility⟩ := named_of_commonMember hcommon
    exact ⟨facts, name, hdepicts.tags, hsymbol, hname.trans hprimaryName, hvisibility.trans hprimaryVisibility⟩

/-- What a function with declarations of its own is documented as is a method. -/
theorem method_of_finished {flags : SymbolFlags} (h : env.Finished s (.symbol m) member)
    (hflags : env.checker.symbolFlags m = .ok flags) (hclass : SymbolClass.of flags = .method)
    (hds : env.callableDeclarations m = .ok ds) (hne : ds ≠ []) : ∃ f, member.body = .method f := by
  have hshows := h.showsSymbol hflags
  rw [hclass] at hshows
  rcases hshows with ⟨-, hmethod⟩ | ⟨hnone, -⟩
  · exact hmethod
  · obtain ⟨d, hd⟩ := List.exists_mem_of_ne_nil ds hne
    exact absurd ⟨d, (mem_callableDeclarations_iff hds).1 hd⟩ hnone

/-- Whatever was asked, and whatever came of it, what a function is documented as in the end is an overload set. -/
theorem exists_overloadSet_of_finished {requests : List Request} {flags : SymbolFlags} {r : MemberRef}
    (hflags : env.checker.symbolFlags m = .ok flags) (hclass : SymbolClass.of flags = .method)
    (hds : env.callableDeclarations m = .ok ds) (hne : ds ≠ [])
    (hmemo : (env.after {} requests).memberOf? (.symbol m) = some (some r))
    (hat : (env.after {} requests).memberAt? r = some member)
    (hfinished : env.Finished (env.after {} requests) (.symbol m) member) :
    ∃ f, env.IsOverloadSet (env.after {} requests) r m ds member f := by
  have hapart := (tidy_after env requests).apart
  -- it is a method, so it was built for this function
  obtain ⟨f₀, hf₀⟩ := method_of_finished hfinished hflags hclass hds hne
  obtain ⟨built, hbuilt, hretells⟩ := exists_built_after hmemo hat (by simp [hf₀])
  obtain ⟨s₀, s₁, hbuilds, hs₁, hown⟩ := hbuilt.builds
  obtain ⟨ds', hds', hassembled⟩ := hbuilds.method ⟨flags, hflags, hclass⟩
  obtain rfl : ds = ds' := Except.ok.inj (hds.symm.trans hds')
  obtain ⟨f, k, d, hf, hk, hd, hshows, hoverloads, hnamed⟩ :=
    (hassembled hne).shows hne hs₁ (env.single_after requests) hown hretells
  have hlists : member.overloads = f.overloads := by simp [Member.overloads, hf]
  exact ⟨f, {
    place := hat
    parts := ⟨k, d, hk, hd, hshows, hoverloads, hnamed⟩
    count := by
      rw [← hoverloads.length_eq, List.length_eraseIdx_of_lt (List.getElem?_eq_some_iff.1 hd).1]
      have hpos := List.length_pos_iff.2 hne
      omega
    nodup := hlists ▸ hapart.nodup hat
    own := fun ho => ⟨hapart.loose hat (hlists ▸ ho), fun r' other hother ho' =>
      hapart.once hother hat ho' (hlists ▸ ho)⟩ }⟩

/-- **Overload sets are partitioned, in order.**  Once a function has been resolved, whatever was asked before and
whatever came of it, the method in its place shows the main declaration and lists fresh overloads for the others.  If
an earlier request failed while it was at this very function, what is answered may be the placeholder that it has left
behind; then nothing is done. -/
theorem method_shows_declarations (env : Environment) (requests : List Request) {m : SymbolId} {flags : SymbolFlags}
    (hflags : env.checker.symbolFlags m = .ok flags) (hclass : SymbolClass.of flags = .method) {ds : List NodeId}
    (hds : env.callableDeclarations m = .ok ds) (hne : ds ≠ []) {v : Option MemberRef} {s' : Session}
    (hrun : (env.resolveMember m).run.run (env.after {} requests) = (.ok v, s')) :
    ∃ r, v = some r ∧ ((∃ member f, env.IsOverloadSet s' r m ds member f) ∨
      env.Interrupted requests (.symbol m) ∧ s' = env.after {} requests ∧
        ∃ member, s'.memberAt? r = some member ∧ env.IsPlaceholder (.symbol m) member) := by
  obtain ⟨r, member, rfl, hmemo, hat, hmember⟩ := exists_member_of_resolved hflags (by simp [hclass]) hrun
  refine ⟨r, rfl, ?_⟩
  rcases hmember with hfinished | ⟨hinterrupted, hplaceholder, hsame⟩
  · rw [← after_member hrun] at hmemo hat hfinished ⊢
    exact .inl ⟨member, exists_overloadSet_of_finished hflags hclass hds hne hmemo hat hfinished⟩
  · exact .inr ⟨hinterrupted, hsame, member, hat, hplaceholder⟩

/-- The declaration that has the body is the main one, and the other one gets the second place. -/
theorem method_shows_declarations_twiceDeclared :
    ∃ s' member f, (twiceDeclared.resolveMember ⟨0⟩).run.run {} = (.ok (some ⟨0⟩), s') ∧
      twiceDeclared.IsOverloadSet s' ⟨0⟩ ⟨0⟩ [⟨0⟩, ⟨1⟩] member f ∧ f.overloads = [⟨1⟩] := by
  have hanswer : ((twiceDeclared.resolveMember ⟨0⟩).run.run {}).1 = .ok (some ⟨0⟩) := by decide +kernel
  have hflags : twiceDeclared.checker.symbolFlags ⟨0⟩ = .ok (.of [.function]) := by decide +kernel
  have hds : twiceDeclared.callableDeclarations ⟨0⟩ = .ok [⟨0⟩, ⟨1⟩] := by decide +kernel
  obtain ⟨r, hr, ⟨member, f, hset⟩ | ⟨hinterrupted, -⟩⟩ := method_shows_declarations twiceDeclared [] hflags
    (by decide +kernel) hds (by simp) (Prod.ext hanswer rfl)
  · obtain rfl : (⟨0⟩ : MemberRef) = r := Option.some.inj hr
    have hat : ((twiceDeclared.resolveMember ⟨0⟩).run.run {}).2.memberAt? ⟨0⟩ = some member := hset.place
    have hlists : (((twiceDeclared.resolveMember ⟨0⟩).run.run {}).2.memberAt? ⟨0⟩).map Member.overloads =
        some [⟨1⟩] := by
      decide +kernel
    obtain ⟨k, d, -, -, hshows, -⟩ := hset.parts
    rw [hat, Option.map_some, Option.some.injEq, Member.overloads, hshows.body] at hlists
    exact ⟨_, member, f, Prod.ext hanswer rfl, hset, hlists⟩
  · exact absurd hinterrupted (not_interrupted_nil _)

/-- A function that has failed once is answered as an empty namespace: nothing shows its declaration. -/
theorem declaration_missing_after_failure :
    let s := withheldElement.after {} [.member ⟨0⟩]
    withheldElement.checker.symbolFlags ⟨0⟩ = .ok (.of [.function]) ∧ SymbolClass.of (.of [.function]) = .method ∧
    withheldElement.callableDeclarations ⟨0⟩ = .ok [⟨0⟩] ∧
    (withheldElement.resolveMember ⟨0⟩).run.run s = (.ok (some ⟨0⟩), s) ∧
    ∀ r member f, s.memberOf? (.symbol ⟨0⟩) = some (some r) →
      ¬ withheldElement.IsOverloadSet s r ⟨0⟩ [⟨0⟩] member f := by
  intro s
  have hkey : s.memberOf? (.symbol ⟨0⟩) = some (some ⟨0⟩) := by decide +kernel
  have hat : s.memberAt? ⟨0⟩ = some (.placeholder "f") := by decide +kernel
  refine ⟨by decide +kernel, by decide +kernel, by decide +kernel, resolveMember_run hkey, fun r member f hr hset => ?_⟩
  obtain rfl : (⟨0⟩ : MemberRef) = r := Option.some.inj (Option.some.inj (hkey.symm.trans hr))
  obtain ⟨k, d, -, -, hshows, -⟩ := hset.parts
  obtain rfl : Member.placeholder "f" = member := Option.some.inj (hat.symm.trans hset.place)
  exact nomatch hshows.body

end Environment

end ApiDoc
