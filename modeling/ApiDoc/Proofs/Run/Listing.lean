import ApiDoc.Proofs.Run.Depiction
import ApiDoc.Resolve.Members

/-!
# Lists of type parameters

Which type parameters the member in a place lists is told by its key, and for an overload by its
declaration (`Environment.parametersOf`, `Environment.parametersAt`).  A member that is made lists just
those, in order: each has a node, and an owner by then (`Session.ListsParameters`).  What stands in a place
before lists none.

`Environment.Registers` says of a run that lists type parameters in a place who owns each of them afterwards: that
place, or whoever owned it when the run came to it.
-/

namespace ApiDoc

/-! ### What a member lists -/

/-- The nodes of the type parameters that a member lists. -/
def MemberBody.parameterNodes : MemberBody → List TypeRef
  | .method body => body.signature.typeParameters.map TypeParameter.type
  | .classLike body => body.typeParameters.map TypeParameter.type
  | .alias _ typeParameters => typeParameters.map TypeParameter.type
  | .field _ | .enumeration _ | .namespaceLike _ => []

namespace Member

/-- The nodes of the type parameters that a member lists. -/
def parameterNodes (member : Member) : List TypeRef := member.body.parameterNodes

/-- What stands in a place until a member is made there, perhaps exported already. -/
def IsUnmade (member : Member) : Prop :=
  ∃ name exported, member = { placeholder name with exportName := exported }

theorem isUnmade_placeholder (name : String) : (placeholder name).IsUnmade := ⟨name, none, rfl⟩

@[simp] theorem parameterNodes_fillFrom (own base : Member) :
    (own.fillFrom base).parameterNodes = own.parameterNodes := by
  unfold fillFrom
  split
  · next h _ => simp [parameterNodes, MemberBody.parameterNodes, h, Method.fillFrom]
  · rfl

@[simp] theorem parameterNodes_fillFromOverloads (primary : Member) (overloads : List Member) :
    (primary.fillFromOverloads overloads).parameterNodes = primary.parameterNodes := by
  have hfold : ∀ own : Member, (overloads.foldl fillFrom own).parameterNodes = own.parameterNodes := by
    induction overloads with
    | nil => exact fun _ => rfl
    | cons base overloads ih => exact fun own => (ih (own.fillFrom base)).trans (parameterNodes_fillFrom own base)
  exact hfold _

@[simp] theorem parameterNodes_withOverloads (member : Member) (overloads : List MemberRef)
    (companion : Option MemberRef) :
    (member.withOverloads overloads companion).parameterNodes = member.parameterNodes := by
  unfold withOverloads
  split
  · next h => simp [parameterNodes, MemberBody.parameterNodes, h]
  · rfl

/-- What is taken over from another member are texts only. -/
@[simp] theorem parameterNodes_inherit (own base : Member) :
    (own.inherit base).parameterNodes = own.parameterNodes := by
  have hbackfill : ∀ ps bs : List TypeParameter,
      (backfillTypeParameters ps bs).map TypeParameter.type = ps.map TypeParameter.type := by
    intro ps bs
    induction ps, bs using backfillTypeParameters.induct with
    | case1 p ps b bs ih => simp [backfillTypeParameters, ih]
    | case2 ps => simp [backfillTypeParameters]
    | case3 bs hne => simp [backfillTypeParameters]
  cases hown : own.body with
  | method body =>
    cases hbase : base.body <;>
      simp [inherit, parameterNodes, MemberBody.parameterNodes, hown, hbase, Method.inherit, hbackfill]
  | _ => simp [inherit, parameterNodes, hown]

theorem IsUnmade.fillFrom {member : Member} (h : member.IsUnmade) (base : Member) :
    member.fillFrom base = member := by
  obtain ⟨name, exported, rfl⟩ := h
  rfl

end Member

namespace Session

/-- A member lists some type parameters, in order: each has a node, and an owner. -/
def ListsParameters (s : Session) (member : Member) (x : Answer (List TypeId)) : Prop :=
  ∃ ts, x = .ok ts ∧ s.HasTypes ts member.parameterNodes ∧ ∀ t ∈ ts, ∃ r, s.ownerOf? t = some r

variable {s s' : Session} {member member' : Member} {x : Answer (List TypeId)}

theorem ListsParameters.mono (h : s.ListsParameters member x) (hs : s.Extends s') : s'.ListsParameters member x := by
  obtain ⟨ts, hx, hts, howner⟩ := h
  refine ⟨ts, hx, hs.hasTypes hts, fun t ht => ?_⟩
  obtain ⟨r, hr⟩ := howner t ht
  exact ⟨r, hs.ownerOf hr⟩

theorem ListsParameters.congr (h : s.ListsParameters member x)
    (heq : member'.parameterNodes = member.parameterNodes) : s.ListsParameters member' x := by
  obtain ⟨ts, hx, hts, howner⟩ := h
  exact ⟨ts, hx, heq ▸ hts, howner⟩

end Session

namespace Environment

variable (env : Environment)

/-! ### What the program says -/

/-- The type parameters of the signature of a declaration. -/
def parametersAt (decl : NodeId) : Answer (List TypeId) := do
  env.checker.signatureTypeParameters (← env.checker.signatureFromDeclaration decl)

/-- The type parameters of the main declaration of a function. -/
def primaryParameters (m : SymbolId) : Answer (List TypeId) := do
  let decls ← env.callableDeclarations m
  match decls[← env.primaryIndex decls]? with
  | some decl => env.parametersAt decl
  | none => return []

/-- The type parameters that a symbol lists as what it is documented as: those of its main declaration as a
function, those that it declares as a class, an interface or an alias. -/
def parametersAs (m : SymbolId) : SymbolClass → Answer (List TypeId)
  | .method => env.primaryParameters m
  | .classLike | .alias => env.checker.declaredTypeParameters m
  | _ => return []

/-- The type parameters that the member of a key lists. -/
def parametersOf : MemberKey → Answer (List TypeId)
  | .symbol m => do env.parametersAs m (.of (← env.checker.symbolFlags m))
  | .companion m => env.checker.declaredTypeParameters m

/-! ### Who is recorded -/

/-- Some type parameters were listed in a place, one after the other.  Each has that place as its owner now, unless it
had one by the time that those before it were done. -/
def Registers (inner : Resolver) (r : MemberRef) (x : Answer (List TypeId)) (s s' : Session) : Prop :=
  ∃ summaries, ∀ before t rest, x = .ok (before ++ t :: rest) → ∃ ps s₁,
    (env.typeParameters inner summaries (some r) before).run.run s = (.ok ps, s₁) ∧
      s'.ownerOf? t = (s₁.ownerOf? t).or (some r)

/-- A member was made in a place with some type parameters: each was recorded, and the member lists them. -/
structure MadeWith (inner : Resolver) (r : MemberRef) (x : Answer (List TypeId)) (s s' : Session) (member : Member) :
    Prop where
  registers : env.Registers inner r x s s'
  lists : s'.ListsParameters member x

variable {env} {inner : Resolver} {r : MemberRef} {x : Answer (List TypeId)} {s s' s'' : Session}
  {member member' : Member}

theorem Registers.mono (h : env.Registers inner r x s s') (hs : s'.Extends s'') : env.Registers inner r x s s'' := by
  obtain ⟨summaries, h⟩ := h
  refine ⟨summaries, fun before t rest hx => ?_⟩
  obtain ⟨ps, s₁, hrun, howner⟩ := h before t rest hx
  rw [Option.or_some] at howner
  exact ⟨ps, s₁, hrun, by rw [Option.or_some, hs.ownerOf howner]⟩

/-- Whatever was listed has an owner. -/
theorem Registers.exists_ownerOf? {ts : List TypeId} (h : env.Registers inner r (.ok ts) s s') {t : TypeId}
    (ht : t ∈ ts) : ∃ owner, s'.ownerOf? t = some owner := by
  obtain ⟨summaries, h⟩ := h
  obtain ⟨before, rest, rfl⟩ := List.append_of_mem ht
  obtain ⟨ps, s₁, -, howner⟩ := h before t rest rfl
  exact ⟨_, howner.trans Option.or_some⟩

theorem MadeWith.mono (h : env.MadeWith inner r x s s' member) (hs : s'.Extends s'') :
    env.MadeWith inner r x s s'' member :=
  ⟨h.registers.mono hs, h.lists.mono hs⟩

theorem MadeWith.congr (h : env.MadeWith inner r x s s' member)
    (heq : member'.parameterNodes = member.parameterNodes) : env.MadeWith inner r x s s' member' :=
  ⟨h.registers, h.lists.congr heq⟩

/-- What lists no type parameters is made with none. -/
theorem madeWith_nil (h : member.parameterNodes = []) : env.MadeWith inner r (.ok []) s s' member where
  registers := ⟨.empty, fun before t rest hx => by simp at hx⟩
  lists := ⟨[], rfl, h ▸ .nil, by simp⟩

/-! ### Which parameters are listed -/

theorem parametersOf_symbol {m : SymbolId} {flags : SymbolFlags} {sort : SymbolClass}
    (hflags : env.checker.symbolFlags m = .ok flags) (hsort : SymbolClass.of flags = sort) :
    env.parametersOf (.symbol m) = env.parametersAs m sort := by
  rw [parametersOf, hflags, ← hsort]
  rfl

theorem primaryParameters_of_some {m : SymbolId} {decls : List NodeId} {index : Nat} {decl : NodeId}
    (hdecls : env.callableDeclarations m = .ok decls) (hindex : env.primaryIndex decls = .ok index)
    (hdecl : decls[index]? = some decl) : env.primaryParameters m = env.parametersAt decl := by
  simp [primaryParameters, hdecls, hindex, hdecl, bind, Except.bind]

theorem primaryParameters_of_none {m : SymbolId} {decls : List NodeId} {index : Nat}
    (hdecls : env.callableDeclarations m = .ok decls) (hindex : env.primaryIndex decls = .ok index)
    (hdecl : decls[index]? = none) : env.primaryParameters m = .ok [] := by
  simp [primaryParameters, hdecls, hindex, hdecl, bind, Except.bind, pure, Except.pure]

/-- A member is made with the type parameters that it documents, if these were recorded. -/
theorem madeWith_of_depicts {summaries : NamedTexts} {ts : List TypeId} {ps : List TypeParameter} (hx : x = .ok ts)
    (hps : List.Forall₂ (env.DepictsTypeParameter s' summaries) ts ps)
    (hregisters : env.Registers inner r (.ok ts) s s') (hlisted : member.parameterNodes = ps.map TypeParameter.type) :
    env.MadeWith inner r x s s' member := by
  subst hx
  refine ⟨hregisters, ts, rfl, ?_, fun t ht => hregisters.exists_ownerOf? ht⟩
  rw [hlisted]
  exact List.forall₂_map_right_iff.2 (hps.imp fun _ _ h => h.type)

end Environment

end ApiDoc
