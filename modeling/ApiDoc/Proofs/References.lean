import ApiDoc.Model.Project

/-!
# References that lead somewhere

What a node or a member refers to, of types and of members, in whatever part of it.  A graph is *in range*
if all of that is there (`Graph.InRange`), so that no look-up along its references fails.  Since arenas only
grow, what was in range once stays so (`Graph.HasAll.mono`), and a graph that grows stays in range if whatever
is new in it is (`Graph.InRange.of_grows`).
-/

namespace ApiDoc

/-! ### What is referred to -/

/-- The types that a type parameter refers to. -/
def TypeParameter.typeRefs (p : TypeParameter) : List TypeRef :=
  p.type :: (p.constraint.toList ++ p.default.toList)

/-- The types that type parameters refer to. -/
def typeParameterRefs (ps : List TypeParameter) : List TypeRef := ps.flatMap TypeParameter.typeRefs

/-- The types that a signature refers to. -/
def Signature.typeRefs (s : Signature) : List TypeRef :=
  typeParameterRefs s.typeParameters ++ s.parameters.map Parameter.type ++
    s.returnType :: s.thisType.toList

namespace TypeNode

/-- The types that a node refers to. -/
def typeRefs : TypeNode → List TypeRef
  | array element => [element]
  | tuple elements => elements
  | generic target arguments => target :: arguments
  | function signature => signature.typeRefs
  | union operands | intersection operands => operands
  | conditional check bound whenTrue whenFalse => [check, bound, whenTrue, whenFalse]
  | indexedAccess operand argument => [operand, argument]
  | unary _ operand => [operand]
  | native _ | literal _ | object _ | parameter .. | this | typeOf _ | named _ => []

/-- The members that a node refers to. -/
def memberRefs : TypeNode → List MemberRef
  | object members => members
  | parameter _ declaredBy => declaredBy.toList
  | typeOf member | named member => member.toList
  | _ => []

end TypeNode

namespace MemberBody

/-- The types that the body of a member refers to. -/
def typeRefs : MemberBody → List TypeRef
  | field f => [f.type]
  | method m => m.signature.typeRefs
  | classLike c => typeParameterRefs c.typeParameters ++ c.bases ++ c.implements
  | .alias type params => type :: typeParameterRefs params
  | enumeration _ | namespaceLike _ => []

/-- The members that have a place of their own in the body of a member, and not one in a list. -/
def placed : MemberBody → List MemberRef
  | method m => m.companion.toList
  | classLike c => c.constructor.toList ++ c.indexer.toList ++ c.newSignature.toList
  | _ => []

/-- The members that the body of a member lists. -/
def listed : MemberBody → List MemberRef
  | method m => m.overloads
  | classLike c => c.members ++ c.instanceMembers ++ c.extendedMembers
  | enumeration e => e.members.map EnumEntry.member ++ e.namespaceMembers
  | namespaceLike members => members
  | field _ | .alias .. => []

end MemberBody

namespace Member

/-- The types that a member refers to. -/
def typeRefs (m : Member) : List TypeRef := m.parent.toList ++ m.body.typeRefs

/-- The members that a member refers to. -/
def memberRefs (m : Member) : List MemberRef := m.overrides.toList ++ m.body.listed ++ m.body.placed

end Member

/-! ### What is there -/

namespace Graph

/-- A type that is there. -/
def HasType (g : Graph) (r : TypeRef) : Prop := r.index < g.types.size

/-- A member that is there. -/
def HasMember (g : Graph) (r : MemberRef) : Prop := r.index < g.members.size

instance (g : Graph) (r : TypeRef) : Decidable (g.HasType r) := inferInstanceAs (Decidable (_ < _))

instance (g : Graph) (r : MemberRef) : Decidable (g.HasMember r) :=
  inferInstanceAs (Decidable (_ < _))

/-- At least as many types and members are there in one graph as in another. -/
structure Grows (g g' : Graph) : Prop where
  types : g.types.size ≤ g'.types.size
  members : g.members.size ≤ g'.members.size

namespace Grows

variable {g g' g'' : Graph}

theorem refl (g : Graph) : g.Grows g := ⟨Nat.le_refl _, Nat.le_refl _⟩

theorem trans (h : g.Grows g') (h' : g'.Grows g'') : g.Grows g'' :=
  ⟨Nat.le_trans h.types h'.types, Nat.le_trans h.members h'.members⟩

theorem hasType (h : g.Grows g') {r : TypeRef} (hr : g.HasType r) : g'.HasType r :=
  Nat.lt_of_lt_of_le hr h.types

theorem hasMember (h : g.Grows g') {r : MemberRef} (hr : g.HasMember r) : g'.HasMember r :=
  Nat.lt_of_lt_of_le hr h.members

end Grows

/-- Some types are all there, and so are some members. -/
structure HasAll (g : Graph) (types : List TypeRef) (members : List MemberRef) : Prop where
  types : ∀ r ∈ types, g.HasType r
  members : ∀ r ∈ members, g.HasMember r

instance (g : Graph) (types : List TypeRef) (members : List MemberRef) :
    Decidable (g.HasAll types members) :=
  decidable_of_iff ((∀ r ∈ types, g.HasType r) ∧ ∀ r ∈ members, g.HasMember r)
    ⟨fun h => ⟨h.1, h.2⟩, fun h => ⟨h.types, h.members⟩⟩

theorem HasAll.mono {g g' : Graph} {types : List TypeRef} {members : List MemberRef}
    (h : g.HasAll types members) (hg : g.Grows g') : g'.HasAll types members :=
  ⟨fun r hr => hg.hasType (h.types r hr), fun r hr => hg.hasMember (h.members r hr)⟩

end Graph

/-- Whatever a node refers to is there. -/
abbrev TypeNode.InRange (node : TypeNode) (g : Graph) : Prop := g.HasAll node.typeRefs node.memberRefs

namespace TypeNode.InRange

variable {node : TypeNode} {g : Graph}

/-- A node that refers to nothing. -/
theorem of_none (htypes : node.typeRefs = []) (hmembers : node.memberRefs = []) : node.InRange g :=
  ⟨by simp [htypes], by simp [hmembers]⟩

/-- A node that refers to types only. -/
theorem of_types (hmembers : node.memberRefs = []) (h : ∀ r ∈ node.typeRefs, g.HasType r) :
    node.InRange g :=
  ⟨h, by simp [hmembers]⟩

/-- A node that refers to members only. -/
theorem of_members (htypes : node.typeRefs = []) (h : ∀ r ∈ node.memberRefs, g.HasMember r) :
    node.InRange g :=
  ⟨by simp [htypes], h⟩

end TypeNode.InRange

/-- Whatever a member refers to is there. -/
abbrev Member.InRange (m : Member) (g : Graph) : Prop := g.HasAll m.typeRefs m.memberRefs

/-- A placeholder refers to nothing. -/
theorem Member.placeholder_inRange (name : String) (g : Graph) : (Member.placeholder name).InRange g :=
  ⟨by simp [Member.typeRefs, Member.placeholder, MemberBody.typeRefs],
    by simp [Member.memberRefs, Member.placeholder, MemberBody.listed, MemberBody.placed]⟩

/-- Whatever a node or member of the graph refers to is there. -/
structure Graph.InRange (g : Graph) : Prop where
  types : ∀ node ∈ g.types.toList, node.InRange g
  members : ∀ m ∈ g.members.toList, m.InRange g

instance (g : Graph) : Decidable g.InRange :=
  decidable_of_iff ((∀ node ∈ g.types.toList, node.InRange g) ∧ ∀ m ∈ g.members.toList, m.InRange g)
    ⟨fun h => ⟨h.1, h.2⟩, fun h => ⟨h.types, h.members⟩⟩

/-- The members that a file lists are there. -/
def SourceFile.InRange (file : SourceFile) (g : Graph) : Prop := ∀ r ∈ file.members, g.HasMember r

instance (file : SourceFile) (g : Graph) : Decidable (file.InRange g) :=
  inferInstanceAs (Decidable (∀ r ∈ file.members, g.HasMember r))

/-- Whatever a project refers to is there. -/
structure Project.InRange (p : Project) : Prop where
  graph : p.graph.InRange
  files : ∀ file ∈ p.files, file.InRange p.graph

instance (p : Project) : Decidable p.InRange :=
  decidable_of_iff (p.graph.InRange ∧ ∀ file ∈ p.files, file.InRange p.graph)
    ⟨fun h => ⟨h.1, h.2⟩, fun h => ⟨h.graph, h.files⟩⟩

/-! ### Look-ups -/

theorem Arena.mem_toList_iff {α : Type} {a : Arena α} {item : α} :
    item ∈ a.toList ↔ ∃ i, a.get? i = some item := by
  simp [Arena.toList, Arena.get?, Array.mem_iff_getElem?]

theorem Arena.exists_get? {α : Type} {a : Arena α} {i : Nat} (h : i < a.size) :
    ∃ item, a.get? i = some item := by
  cases hitem : a.get? i with
  | some item => exact ⟨item, rfl⟩
  | none => exact absurd (Arena.get?_eq_none_iff.1 hitem) (Nat.not_le_of_lt h)

theorem Arena.mem_push {α : Type} {a : Arena α} {item new : α} (h : item ∈ (a.push new).toList) :
    item ∈ a.toList ∨ item = new := by
  simpa [Arena.toList, Arena.push] using h

theorem Arena.mem_modify {α : Type} {a : Arena α} {i : Nat} {f : α → α} {item : α}
    (h : item ∈ (a.modify i f).toList) : item ∈ a.toList ∨ ∃ old ∈ a.toList, item = f old := by
  obtain ⟨j, hj⟩ := Arena.mem_toList_iff.1 h
  rw [Arena.get?_modify] at hj
  split at hj
  · obtain ⟨old, hold, rfl⟩ := Option.map_eq_some_iff.1 hj
    exact .inr ⟨old, Arena.mem_toList_iff.2 ⟨j, hold⟩, rfl⟩
  · exact .inl (Arena.mem_toList_iff.2 ⟨j, hj⟩)

theorem Arena.mem_replace {α : Type} {a : Arena α} {i : Nat} {new item : α}
    (h : item ∈ (a.replace i new).toList) : item ∈ a.toList ∨ item = new := by
  rcases Arena.mem_modify h with h | ⟨_, _, h⟩
  · exact .inl h
  · exact .inr h

namespace Graph

variable {g : Graph}

theorem type_eq_ok_iff {r : TypeRef} {node : TypeNode} :
    g.type r = .ok node ↔ g.types.get? r.index = some node := Error.orOutOfBounds_eq_ok_iff

theorem member_eq_ok_iff {r : MemberRef} {m : Member} :
    g.member r = .ok m ↔ g.members.get? r.index = some m := Error.orOutOfBounds_eq_ok_iff

theorem HasType.exists_type {r : TypeRef} (h : g.HasType r) : ∃ node, g.type r = .ok node := by
  obtain ⟨node, hnode⟩ := Arena.exists_get? h
  exact ⟨node, type_eq_ok_iff.2 hnode⟩

theorem HasMember.exists_member {r : MemberRef} (h : g.HasMember r) : ∃ m, g.member r = .ok m := by
  obtain ⟨m, hm⟩ := Arena.exists_get? h
  exact ⟨m, member_eq_ok_iff.2 hm⟩

/-- What is found in a graph in range refers to what is there. -/
theorem InRange.type (h : g.InRange) {r : TypeRef} {node : TypeNode} (hnode : g.type r = .ok node) :
    node.InRange g :=
  h.types node (Arena.mem_toList_iff.2 ⟨r.index, type_eq_ok_iff.1 hnode⟩)

theorem InRange.member (h : g.InRange) {r : MemberRef} {m : Member} (hm : g.member r = .ok m) :
    m.InRange g :=
  h.members m (Arena.mem_toList_iff.2 ⟨r.index, member_eq_ok_iff.1 hm⟩)

/-- A graph that grows stays in range if whatever is new in it is. -/
theorem InRange.of_grows {g' : Graph} (h : g.InRange) (hg : g.Grows g')
    (htypes : ∀ node ∈ g'.types.toList, node ∈ g.types.toList ∨ node.InRange g')
    (hmembers : ∀ m ∈ g'.members.toList, m ∈ g.members.toList ∨ m.InRange g') : g'.InRange where
  types node hnode := (htypes node hnode).elim (fun hold => (h.types node hold).mono hg) id
  members m hm := (hmembers m hm).elim (fun hold => (h.members m hold).mono hg) id

end Graph

end ApiDoc
