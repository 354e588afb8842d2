import ApiDoc.Proofs.References
import ApiDoc.Proofs.Run.Depiction

/-!
# Sessions in range

Whatever a session refers to is there: in the nodes and members of its graph, and in what it remembers of types,
members and owners of type parameters (`Session.InRange`).  Each way of changing a session keeps it in range if
what it brings in is.

`Session.Keeps` is what none of these changes undoes: nothing that is there goes away, what is remembered of a
member stays as it is, and a member that is nobody's remains so.
-/

namespace ApiDoc

namespace Session

/-- Whatever is referred to or remembered is there. -/
structure InRange (s : Session) : Prop where
  graph : s.graph.InRange
  typeMemo : ∀ entry ∈ s.typeMemo, s.graph.HasType entry.2
  memberMemo : ∀ entry ∈ s.memberMemo, ∀ r, entry.2 = some r → s.graph.HasMember r
  typeParamOwners : ∀ entry ∈ s.typeParamOwners, s.graph.HasMember entry.2

theorem mem_of_lookup {κ α : Type} [BEq κ] [LawfulBEq κ] {entries : List (κ × α)} {key : κ} {a : α}
    (h : entries.lookup key = some a) : (key, a) ∈ entries := by
  obtain ⟨before, after, rfl, -⟩ := List.lookup_eq_some_iff.1 h
  simp

namespace InRange

variable {s : Session}

theorem empty : ({} : Session).InRange := by
  constructor <;> simp
  constructor <;> simp [Arena.toList]

theorem typeOf (h : s.InRange) {t : TypeId} {r : TypeRef} (ht : s.typeOf? t = some r) : s.graph.HasType r :=
  h.typeMemo _ (mem_of_lookup ht)

theorem memberOf (h : s.InRange) {key : MemberKey} {r : MemberRef} (hr : s.memberOf? key = some (some r)) :
    s.graph.HasMember r :=
  h.memberMemo _ (mem_of_lookup hr) r rfl

theorem ownerOf (h : s.InRange) {t : TypeId} {r : MemberRef} (ht : s.ownerOf? t = some r) :
    s.graph.HasMember r :=
  h.typeParamOwners _ (mem_of_lookup ht)

theorem member (h : s.InRange) {r : MemberRef} {member : Member} (hr : s.memberAt? r = some member) :
    member.InRange s.graph :=
  h.graph.member (Graph.member_eq_ok_iff.2 hr)

/-- Where the graph grows and nothing else changes. -/
theorem of_grows {g' : Graph} (h : s.InRange) (hg : s.graph.Grows g') (hrange : g'.InRange) :
    ({ s with graph := g' } : Session).InRange where
  graph := hrange
  typeMemo entry hentry := hg.hasType (h.typeMemo entry hentry)
  memberMemo entry hentry r hr := hg.hasMember (h.memberMemo entry hentry r hr)
  typeParamOwners entry hentry := hg.hasMember (h.typeParamOwners entry hentry)

theorem growType (h : s.InRange) {node : TypeNode} (hnode : node.InRange (s.growType node).graph) :
    (s.growType node).InRange := by
  have hg : s.graph.Grows (s.growType node).graph := ⟨by simp, Nat.le_refl _⟩
  refine h.of_grows hg (h.graph.of_grows hg (fun node' hmem => ?_) fun m hm => .inl hm)
  rcases Arena.mem_push hmem with hold | rfl
  · exact .inl hold
  · exact .inr hnode

theorem growMember (h : s.InRange) {member : Member} (hmember : member.InRange (s.growMember member).graph) :
    (s.growMember member).InRange := by
  have hg : s.graph.Grows (s.growMember member).graph := ⟨Nat.le_refl _, by simp⟩
  refine h.of_grows hg (h.graph.of_grows hg (fun node hnode => .inl hnode) fun m hm => ?_)
  rcases Arena.mem_push hm with hold | rfl
  · exact .inl hold
  · exact .inr hmember

/-- A node changes as long as it refers to what is there. -/
theorem modifyType (h : s.InRange) (i : Nat) {f : TypeNode → TypeNode}
    (hf : ∀ node, node.InRange s.graph → (f node).InRange s.graph) :
    ({ s with graph.types := s.graph.types.modify i f } : Session).InRange := by
  have hg : s.graph.Grows { s.graph with types := s.graph.types.modify i f } := ⟨by simp, Nat.le_refl _⟩
  refine h.of_grows hg (h.graph.of_grows hg (fun node hnode => ?_) fun m hm => .inl hm)
  rcases Arena.mem_modify hnode with hold | ⟨old, hold, rfl⟩
  · exact .inl hold
  · exact .inr ((hf old (h.graph.types old hold)).mono hg)

theorem putType (h : s.InRange) {r : TypeRef} {node : TypeNode} (hnode : node.InRange s.graph) :
    (s.putType r node).InRange :=
  h.modifyType r.index fun _ _ => hnode

theorem putMember (h : s.InRange) {r : MemberRef} {member : Member} (hmember : member.InRange s.graph) :
    (s.putMember r member).InRange := by
  have hg : s.graph.Grows (s.putMember r member).graph := ⟨Nat.le_refl _, by simp⟩
  refine h.of_grows hg (h.graph.of_grows hg (fun node hnode => .inl hnode) fun m hm => ?_)
  rcases Arena.mem_replace hm with hold | rfl
  · exact .inl hold
  · exact .inr (hmember.mono hg)

theorem shareType (h : s.InRange) {t : TypeId} {r : TypeRef} (hr : s.graph.HasType r) :
    (s.shareType t r).InRange where
  graph := h.graph
  typeMemo := by
    rintro entry (_ | ⟨_, hentry⟩)
    · exact hr
    · exact h.typeMemo entry hentry
  memberMemo := h.memberMemo
  typeParamOwners := h.typeParamOwners

theorem addType (h : s.InRange) {t : TypeId} {node : TypeNode} (hnode : node.InRange (s.growType node).graph) :
    (s.addType t node).InRange :=
  (h.growType hnode).shareType (by simp [Graph.HasType])

/-- Where one more member is remembered. -/
theorem remember (h : s.InRange) {key : MemberKey} {v : Option MemberRef}
    (hv : ∀ r, v = some r → s.graph.HasMember r) :
    ({ s with memberMemo := (key, v) :: s.memberMemo } : Session).InRange where
  graph := h.graph
  typeMemo := h.typeMemo
  memberMemo := by
    rintro entry (_ | ⟨_, hentry⟩)
    · exact hv
    · exact h.memberMemo entry hentry
  typeParamOwners := h.typeParamOwners

theorem addMember (h : s.InRange) {key : MemberKey} {member : Member}
    (hmember : member.InRange (s.growMember member).graph) : (s.addMember key member).InRange :=
  (h.growMember hmember).remember (by simp [Graph.HasMember])

theorem recordOwner (h : s.InRange) {t : TypeId} {owner : MemberRef} (howner : s.graph.HasMember owner) :
    (s.recordOwner t owner).InRange := by
  have hremember : ({ s with typeParamOwners := (t, owner) :: s.typeParamOwners } : Session).InRange := by
    refine ⟨h.graph, h.typeMemo, h.memberMemo, ?_⟩
    rintro entry (_ | ⟨_, hentry⟩)
    · exact howner
    · exact h.typeParamOwners entry hentry
  -- the node of a type parameter refers to its owner or to what it did before
  have hfill {name : String} {declaredBy : Option MemberRef}
      (hnode : (TypeNode.parameter name declaredBy).InRange s.graph) :
      (TypeNode.parameter name (declaredBy.or (some owner))).InRange s.graph := by
    refine .of_members rfl fun r hr => ?_
    cases declaredBy with
    | none =>
      obtain rfl : r = owner := by simpa [TypeNode.memberRefs] using hr
      exact howner
    | some r' => exact hnode.members r (by simpa [TypeNode.memberRefs] using hr)
  unfold Session.recordOwner
  split <;> dsimp only <;> split
  · refine h.modifyType _ fun node hnode => ?_
    split
    · exact hfill hnode
    · exact hnode
  · exact h
  · refine hremember.modifyType _ fun node hnode => ?_
    split
    · exact hfill hnode
    · exact hnode
  · exact hremember

end InRange

/-! ### What is never undone -/

/-- What no change of a session undoes. -/
structure Keeps (s s' : Session) : Prop where
  grows : s.graph.Grows s'.graph
  memberOf {key v} : s.memberOf? key = some v → s'.memberOf? key = some v
  loose {r} : s.IsLoose r → s'.IsLoose r

namespace Keeps

variable {s s' s'' : Session}

theorem refl (s : Session) : s.Keeps s := ⟨.refl _, id, id⟩

theorem trans (h : s.Keeps s') (h' : s'.Keeps s'') : s.Keeps s'' :=
  ⟨h.grows.trans h'.grows, fun hm => h'.memberOf (h.memberOf hm), fun hr => h'.loose (h.loose hr)⟩

/-- Where nothing else is remembered of members. -/
theorem of_grows (hg : s.graph.Grows s'.graph) (hmemo : ∀ key, s'.memberOf? key = s.memberOf? key) :
    s.Keeps s' where
  grows := hg
  memberOf h := (hmemo _).trans h
  loose h := ⟨hg.hasMember h.1, fun key => by rw [hmemo]; exact h.2 key⟩

theorem growType (s : Session) (node : TypeNode) : s.Keeps (s.growType node) :=
  of_grows ⟨by simp, Nat.le_refl _⟩ (by simp)

theorem addType (s : Session) (t : TypeId) (node : TypeNode) : s.Keeps (s.addType t node) :=
  of_grows ⟨by simp, by simp⟩ (by simp)

theorem shareType (s : Session) (t : TypeId) (r : TypeRef) : s.Keeps (s.shareType t r) :=
  of_grows (.refl _) (by simp)

theorem putType (s : Session) (r : TypeRef) (node : TypeNode) : s.Keeps (s.putType r node) :=
  of_grows ⟨by simp, by simp⟩ (by simp)

theorem recordOwner (s : Session) (t : TypeId) (r : MemberRef) : s.Keeps (s.recordOwner t r) :=
  of_grows ⟨by simp, by simp⟩ (by simp)

theorem growMember (s : Session) (member : Member) : s.Keeps (s.growMember member) :=
  of_grows ⟨by simp, by simp⟩ (by simp)

theorem putMember (s : Session) (r : MemberRef) (member : Member) : s.Keeps (s.putMember r member) :=
  of_grows ⟨by simp, by simp⟩ (by simp)

theorem addMember {key : MemberKey} (hnew : s.memberOf? key = none) (member : Member) :
    s.Keeps (s.addMember key member) where
  grows := ⟨by simp, by simp⟩
  memberOf h := memberOf?_addMember_of_some hnew h
  loose {r} h := by
    refine ⟨Nat.lt_of_lt_of_le h.1 (by simp), fun k hk => ?_⟩
    obtain ⟨-, hk⟩ | ⟨-, hk⟩ := memberOf?_addMember_eq_some_iff.1 hk
    · obtain rfl := Option.some.inj hk
      exact Nat.lt_irrefl _ h.1
    · exact h.2 k hk

theorem skipMember {key : MemberKey} (hnew : s.memberOf? key = none) : s.Keeps (s.skipMember key) where
  grows := .refl _
  memberOf h := memberOf?_skipMember_of_some hnew h
  loose h := ⟨h.1, fun k hk => h.2 k (memberOf?_of_skipMember hk)⟩

end Keeps

/-- Where no two keys share a place, a new one does not either. -/
theorem single_addMember {s : Session} {key : MemberKey} {member : Member}
    (hrange : ∀ {k r}, s.memberOf? k = some (some r) → r.index < s.graph.members.size)
    (hsingle : ∀ {k k' r}, s.memberOf? k = some (some r) → s.memberOf? k' = some (some r) → k = k')
    {k k' : MemberKey} {r : MemberRef} (hr : (s.addMember key member).memberOf? k = some (some r))
    (hr' : (s.addMember key member).memberOf? k' = some (some r)) : k = k' := by
  -- the new place is none of the old ones
  have hold {k : MemberKey} (hr : s.memberOf? k = some (some r)) : r ≠ ⟨s.graph.members.size⟩ := by
    rintro rfl
    exact Nat.lt_irrefl _ (hrange hr)
  obtain ⟨hk, hplace⟩ | ⟨-, hr⟩ := memberOf?_addMember_eq_some_iff.1 hr <;>
    obtain ⟨hk', hplace'⟩ | ⟨-, hr'⟩ := memberOf?_addMember_eq_some_iff.1 hr'
  · exact hk.trans hk'.symm
  · exact absurd (Option.some.inj hplace).symm (hold hr')
  · exact absurd (Option.some.inj hplace').symm (hold hr)
  · exact hsingle hr hr'

end Session

end ApiDoc
