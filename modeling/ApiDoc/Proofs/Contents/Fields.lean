import ApiDoc.Proofs.Contents.Types
import ApiDoc.Proofs.Run.Queries

/-!
# Members from declarations

A member is made from what all members share and a body of its own.  If what the body refers to is there and
shows the symbol, the member is ready to be put in its place (`Safe.commonMember`).  Filling gaps in its
documentation changes neither what it refers to nor what it shows (`Member.Resembles`).

Fields and aliases are made in this way from one type and some type parameters.
-/

namespace ApiDoc

/-! ### Members that differ in words only -/

/-- Two members that refer to the same, stand at the same place and have the same body, or are both
methods with the same overloads and companion. -/
structure Member.Resembles (m m' : Member) : Prop where
  typeRefs : m.typeRefs = m'.typeRefs
  memberRefs : m.memberRefs = m'.memberRefs
  location : m.location = m'.location
  body : m.body = m'.body ∨ ∃ f f', m.body = .method f ∧ m'.body = .method f' ∧
    f.overloads = f'.overloads ∧ f.companion = f'.companion

theorem map_type_backfillParameters (ps bs : List Parameter) :
    (backfillParameters ps bs).map Parameter.type = ps.map Parameter.type := by
  fun_induction backfillParameters ps bs <;> simp_all

theorem typeParameterRefs_backfill (ps bs : List TypeParameter) :
    typeParameterRefs (backfillTypeParameters ps bs) = typeParameterRefs ps := by
  fun_induction backfillTypeParameters ps bs <;>
    simp_all [typeParameterRefs, TypeParameter.typeRefs]

namespace Member.Resembles

theorem refl (m : Member) : m.Resembles m := ⟨rfl, rfl, rfl, .inl rfl⟩

theorem trans {m m' m'' : Member} (h : m.Resembles m') (h' : m'.Resembles m'') : m.Resembles m'' where
  typeRefs := h.typeRefs.trans h'.typeRefs
  memberRefs := h.memberRefs.trans h'.memberRefs
  location := h.location.trans h'.location
  body := by
    rcases h.body with hbody | ⟨f, f', hf, hf', hoverloads, hcompanion⟩
    · rw [hbody]
      exact h'.body
    · rcases h'.body with hbody | ⟨g, g', hg, hg', hoverloads', hcompanion'⟩
      · exact .inr ⟨f, f', hf, hbody ▸ hf', hoverloads, hcompanion⟩
      · obtain rfl : f' = g := by simpa [hf'] using hg
        exact .inr ⟨f, g', hf, hg', hoverloads.trans hoverloads', hcompanion.trans hcompanion'⟩

theorem fillFrom (own base : Member) : (own.fillFrom base).Resembles own := by
  unfold Member.fillFrom
  split
  · next f b hf _ =>
    refine ⟨?_, ?_, rfl, .inr ⟨_, f, rfl, hf, rfl, rfl⟩⟩
    · simp [Member.typeRefs, hf, MemberBody.typeRefs, Signature.typeRefs, Method.fillFrom,
        map_type_backfillParameters]
    · simp [Member.memberRefs, hf, MemberBody.listed, MemberBody.placed, Method.fillFrom]
  · exact refl own

theorem inherit (own base : Member) : (own.inherit base).Resembles own := by
  unfold Member.inherit
  split
  · next f b hf _ =>
    refine ⟨?_, ?_, rfl, .inr ⟨_, f, rfl, hf, rfl, rfl⟩⟩
    · simp [Member.typeRefs, hf, MemberBody.typeRefs, Signature.typeRefs, Method.inherit, Method.fillFrom,
        map_type_backfillParameters, typeParameterRefs_backfill]
    · simp [Member.memberRefs, hf, MemberBody.listed, MemberBody.placed, Method.inherit, Method.fillFrom]
  · exact ⟨rfl, rfl, rfl, .inl rfl⟩

theorem fillFromOverloads (primary : Member) (overloads : List Member) :
    (primary.fillFromOverloads overloads).Resembles primary := by
  have hfold (own : Member) : (overloads.foldl Member.fillFrom own).Resembles own := by
    induction overloads generalizing own with
    | nil => exact refl own
    | cons b rest ih => exact (ih (own.fillFrom b)).trans (fillFrom own b)
  exact (hfold _).trans ⟨rfl, rfl, rfl, .inl rfl⟩

theorem inRange {m m' : Member} (h : m.Resembles m') {g : Graph} (hm : m'.InRange g) : m.InRange g :=
  ⟨h.typeRefs ▸ hm.types, h.memberRefs ▸ hm.members⟩

theorem children {m m' : Member} (h : m.Resembles m') : m.children = m'.children := by
  rcases h.body with hbody | ⟨f, f', hf, hf', hoverloads, hcompanion⟩
  · simp [Member.children, hbody]
  · simp [Member.children, hf, hf', hoverloads, hcompanion]

theorem overloads {m m' : Member} (h : m.Resembles m') : m.overloads = m'.overloads := by
  rcases h.body with hbody | ⟨f, f', hf, hf', hoverloads, -⟩
  · simp [Member.overloads, hbody]
  · simp [Member.overloads, hf, hf', hoverloads]

end Member.Resembles

namespace Environment

variable {env : Environment} {inner : Resolver} {ctx : Context} {s s' : Session}

/-- A key that is shown by one method is shown by any. -/
theorem Shows.of_method {key : MemberKey} {f f' : Method} (h : env.Shows s (.method f) key) :
    env.Shows s (.method f') key := by
  cases key with
  | companion m =>
    obtain ⟨c, ms, hbody, -⟩ := h
    cases hbody
  | symbol m =>
    obtain ⟨flags, hflags, hshows⟩ := h
    refine ⟨flags, hflags, ?_⟩
    cases hclass : SymbolClass.of flags <;> rw [hclass] at hshows
    case method => exact hshows.imp (fun h => ⟨h.1, f', rfl⟩) fun ⟨_, f, hf⟩ => nomatch hf
    all_goals simp [ShowsSymbol, ShowsClass, ShowsEnum] at hshows

theorem Ready.congr {key : MemberKey} {member member' : Member} (h : env.Ready s key member')
    (hsame : member.Resembles member') : env.Ready s key member where
  range := hsame.inRange h.range
  finished := by
    refine ⟨?_, hsame.location ▸ h.finished.place⟩
    rcases hsame.body with hbody | ⟨f, f', hf, hf', -⟩
    · rw [hbody]
      exact h.finished.shows
    · rw [hf]
      exact Shows.of_method (hf' ▸ h.finished.shows)
  owns := by
    rcases hsame.body with hbody | ⟨f, f', hf, hf', -, hcompanion⟩
    · rw [hbody]
      exact h.owns
    · have howns := h.owns
      rw [hf'] at howns
      rw [hf]
      exact fun r hr => howns r (hcompanion ▸ hr)

theorem Built.congr {key : MemberKey} {member member' : Member} (h : env.Built ctx key member' s)
    (hsame : member.Resembles member') : env.Built ctx key member s :=
  ⟨h.1.congr hsame, hsame.overloads ▸ h.2⟩

/-! ### Declarations -/

/-- Where a member is to be read off: one of the symbol's declarations, or nowhere if there is none. -/
def ReadsAt (env : Environment) (m : SymbolId) : Option NodeId → Prop
  | some d => env.Declares m d
  | none => env.checker.declarations m = .ok []

theorem readsAt_mainDeclaration {m : SymbolId} {d : Option NodeId} (h : env.mainDeclaration? m = .ok d) :
    env.ReadsAt m d := by
  unfold mainDeclaration? at h
  obtain ⟨value, hvalue, h⟩ := bind_eq_ok_iff.1 h
  cases value with
  | some d' =>
    obtain rfl : some d' = d := Except.ok.inj h
    exact .inl hvalue
  | none =>
    obtain ⟨ds, hds, rfl⟩ := map_eq_ok_iff.1 h
    cases ds with
    | nil => exact hds
    | cons d' rest => exact .inr ⟨_, hds, by simp⟩

theorem readsAt_preferredDeclaration {m : SymbolId} {kinds : List SyntaxKind} {d : Option NodeId}
    (h : env.preferredDeclaration? m kinds = .ok d) : env.ReadsAt m d := by
  have hpreferred := env.covers_all.preferredDeclaration (m := m) trivial kinds
  rw [h] at hpreferred
  cases d with
  | some d' => exact (hpreferred d' rfl).2
  | none =>
    obtain ⟨ds, hds, h⟩ := bind_eq_ok_iff.1 h
    have hnone : ∀ kinds, env.preferredOf? ds kinds = .ok none → ds = [] := by
      intro kinds
      induction kinds with
      | nil => exact fun h => List.head?_eq_none_iff.1 (Except.ok.inj h)
      | cons kind rest ih =>
        intro h
        obtain ⟨found, -, h⟩ := bind_eq_ok_iff.1 h
        cases found with
        | some _ => cases h
        | none => exact ih h
    obtain rfl := hnone kinds h
    exact hds

/-! ### What all members share -/

/-- A member whose body shows its key, refers to what is there and owns what it should, is ready. -/
theorem Safe.commonMember {key : MemberKey} {m : SymbolId} {d : Option NodeId} {facts : TagFacts}
    {body : MemberBody} (hkey : key.owner = m) (hd : env.ReadsAt m d) (hshows : env.Shows s body key)
    (htypes : ∀ r ∈ body.typeRefs, s.graph.HasType r)
    (hmembers : ∀ r ∈ body.listed ++ body.placed, s.graph.HasMember r) (howns : env.Owns s key body)
    (hbody : ∀ f, body ≠ .method f) :
    env.Safe ctx s (liftM (env.commonMember m d facts body)) (env.Built ctx key) := by
  refine .answer fun member hmember => ?_
  obtain ⟨rfl, hparent, hoverrides, hplace⟩ := commonMember_eq_ok hmember
  have hnone : member.overloads = [] := by
    unfold Member.overloads
    split
    · next f hf => exact absurd hf (hbody f)
    · rfl
  refine Ready.built ⟨⟨fun r hr => htypes r ?_, fun r hr => hmembers r ?_⟩, ⟨hshows, ?_⟩, howns⟩ hnone
  · simpa [Member.typeRefs, hparent] using hr
  · simpa [Member.memberRefs, hoverrides] using hr
  · rw [hkey]
    cases d with
    | some d => exact .inl ⟨d, hd, hplace⟩
    | none => exact .inr ⟨hd, hplace⟩

namespace Trusted

/-! ### Fields -/

/-- A field of a type that is there. -/
theorem fieldMember {m : SymbolId} {d : Option NodeId} {facts : TagFacts} {f : Field}
    (hd : env.ReadsAt m d) (hshows : env.Shows s (.field f) (.symbol m)) (htype : s.graph.HasType f.type) :
    env.Safe ctx s (liftM (env.commonMember m d facts (.field f))) (env.Built ctx (.symbol m)) := by
  refine Safe.commonMember rfl hd hshows ?_ ?_ trivial (by simp)
  · simpa [MemberBody.typeRefs] using htype
  · simp [MemberBody.listed, MemberBody.placed]

theorem field (hinner : env.Trusted inner) {m : SymbolId}
    (hshows : ∀ s f, env.Shows s (.field f) (.symbol m)) :
    env.Safe ctx s (env.field inner m) (env.Built ctx (.symbol m)) := by
  unfold Environment.field
  refine .ask fun flags _ => .ask fun d hd => ?_
  have hreads := readsAt_mainDeclaration hd
  cases d with
  | none => exact Safe.newMixed.bind fun r s' _ hr => fieldMember hreads (hshows _ _) hr
  | some d =>
    unfold Environment.declaredField
    refine .ask fun kind _ => .ask fun t _ => (hinner.type t).bind fun r s' _ hr => ?_
    refine .ask fun optional _ => .ask fun modifiers _ => .ask fun default _ => .ask fun facts _ => ?_
    exact fieldMember hreads (hshows _ _) hr

theorem accessor (hinner : env.Trusted inner) {m : SymbolId}
    (hshows : ∀ s f, env.Shows s (.field f) (.symbol m)) :
    env.Safe ctx s (env.accessor inner m) (env.Built ctx (.symbol m)) := by
  unfold Environment.accessor
  refine .ask fun flags _ => .ask fun ds hds => ?_
  cases ds with
  | nil => exact hinner.field hshows
  | cons first rest =>
    refine .ask fun t _ => (hinner.type t).bind fun r s' _ hr => .ask fun facts _ => ?_
    exact fieldMember (.inr ⟨_, hds, by simp⟩) (hshows _ _) hr

/-! ### Aliases -/

theorem typeAlias (hinner : env.Trusted inner) {m : SymbolId} {slot : MemberRef}
    (hslot : s.graph.HasMember slot)
    (hshows : ∀ s type params, env.Shows s (.alias type params) (.symbol m)) :
    env.Safe ctx s (env.typeAlias inner m slot) (env.Built ctx (.symbol m)) := by
  unfold Environment.typeAlias
  refine .ask fun d hd => .ask fun facts _ => .ask fun ts _ => ?_
  refine (hinner.typeParameters (by simpa using hslot) facts.typeParams ts).bind fun params s₁ _ hparams => ?_
  refine .ask fun t _ => (hinner.type t).bind fun r s₂ hs₂ hr => ?_
  refine Safe.commonMember rfl (readsAt_preferredDeclaration hd) (hshows _ _ _) ?_ ?_ trivial (by simp)
  · rintro r' (_ | ⟨_, hr'⟩)
    · exact hr
    · exact hs₂.grows.hasType (hparams r' hr')
  · simp [MemberBody.listed, MemberBody.placed]

end Trusted

end Environment

end ApiDoc
