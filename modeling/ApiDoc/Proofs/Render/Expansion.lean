import ApiDoc.Proofs.Render.Alike
import ApiDoc.Proofs.Render.Unfolding

/-!
# What is expanded in a tree

The tree of a type or a member is made of those of other types and members (`Graph.Expands`): all that is not only
pointed to is expanded, and of the members in lists only those that are not left out.  In a graph in range what is
expanded is there, and every node is alike to itself along what is expanded in it (`Graph.InRange.type_alike`,
`Graph.InRange.member_alike`), or displayed in it (`Graph.InRange.reads_alike`).
-/

namespace ApiDoc

open List (Forall₂)
open Relation

variable {g g' : Graph} {includeHidden : Bool} {R : TypeRef → TypeRef → Prop} {M : MemberRef → MemberRef → Prop}

/-! ### What is expanded -/

/-- The types that the tree of a node is made of, those in its members apart. -/
def TypeNode.expandedTypes : TypeNode → List TypeRef
  | .function s => s.displayed
  | node => node.children

/-- The members that the tree of a node is made of. -/
def TypeNode.expandedMembers : TypeNode → List MemberRef
  | .object rs => rs
  | _ => []

/-- The types that the tree of the body of a member is made of, those in other members apart. -/
def MemberBody.expandedTypes : MemberBody → List TypeRef
  | .field f => [f.type]
  | .method f => f.signature.displayed
  | .classLike c => c.typeParameters.flatMap TypeParameter.displayed ++ c.bases ++ c.implements
  | .alias type ps => type :: ps.flatMap TypeParameter.displayed
  | .enumeration _ | .namespaceLike _ => []

/-- The members in the lists that the tree of the body of a member is made of. -/
def MemberBody.expandedList : MemberBody → List MemberRef
  | .method f => f.overloads
  | .classLike c => c.members ++ c.instanceMembers
  | .enumeration e => e.members.map EnumEntry.member ++ e.namespaceMembers
  | .namespaceLike rs => rs
  | .field _ | .alias .. => []

/-- The types that the tree of a member is made of, those in other members apart. -/
def Member.expandedTypes (m : Member) : List TypeRef := m.parent.toList ++ m.body.expandedTypes

namespace Graph

/-- One node is expanded in the tree of the other.  A member in a list is expanded unless it is left out. -/
inductive Expands (g : Graph) (includeHidden : Bool) : Spot → Spot → Prop
  | typeOfType {r a : TypeRef} {node : TypeNode} : g.type r = .ok node → a ∈ node.expandedTypes →
      Expands g includeHidden (.type r) (.type a)
  | memberOfType {r : TypeRef} {a : MemberRef} {node : TypeNode} : g.type r = .ok node →
      a ∈ node.expandedMembers → TreeWriter.isSkipped g includeHidden a = .ok false →
      Expands g includeHidden (.type r) (.member a)
  | typeOfMember {r : MemberRef} {a : TypeRef} {m : Member} : g.member r = .ok m → a ∈ m.expandedTypes →
      Expands g includeHidden (.member r) (.type a)
  | listed {r a : MemberRef} {m : Member} : g.member r = .ok m → a ∈ m.body.expandedList →
      TreeWriter.isSkipped g includeHidden a = .ok false → Expands g includeHidden (.member r) (.member a)
  | placed {r a : MemberRef} {m : Member} : g.member r = .ok m → a ∈ m.body.placed →
      Expands g includeHidden (.member r) (.member a)

/-- None of the nodes that are expanded in the tree of `x`, down to the leaves, lies inside itself. -/
def ExpandsAcyclically (g : Graph) (includeHidden : Bool) (x : Spot) : Prop :=
  ∀ y, ReflTransGen (g.Expands includeHidden) x y → ¬ TransGen (g.Expands includeHidden) y y

variable {x y : Spot} {s : OpenNodes}

theorem ExpandsAcyclically.self (h : g.ExpandsAcyclically includeHidden x) :
    ¬ TransGen (g.Expands includeHidden) x x :=
  h x .refl

theorem ExpandsAcyclically.of_expands (h : g.ExpandsAcyclically includeHidden x)
    (hy : g.Expands includeHidden x y) : g.ExpandsAcyclically includeHidden y :=
  fun z hz => h z (.head hy hz)

/-- All that is open lies around `x`. -/
structure Surrounds (g : Graph) (includeHidden : Bool) (s : OpenNodes) (x : Spot) : Prop where
  types : ∀ r ∈ s.types, TransGen (g.Expands includeHidden) (.type r) x
  members : ∀ r ∈ s.members, TransGen (g.Expands includeHidden) (.member r) x

namespace Surrounds

theorem nil (x : Spot) : g.Surrounds includeHidden {} x := ⟨by simp, by simp⟩

theorem enterType {r : TypeRef} (h : g.Surrounds includeHidden s (.type r))
    (hy : g.Expands includeHidden (.type r) y) : g.Surrounds includeHidden (s.enterType r) y where
  types := by
    rintro a (_ | ⟨_, ha⟩)
    · exact .single hy
    · exact (h.types a ha).tail hy
  members a ha := (h.members a ha).tail hy

theorem enterMember {r : MemberRef} (h : g.Surrounds includeHidden s (.member r))
    (hy : g.Expands includeHidden (.member r) y) : g.Surrounds includeHidden (s.enterMember r) y where
  types a ha := (h.types a ha).tail hy
  members := by
    rintro a (_ | ⟨_, ha⟩)
    · exact .single hy
    · exact (h.members a ha).tail hy

end Surrounds

end Graph

/-! ### What is expanded is there -/

theorem TypeParameter.mem_typeRefs_of_displayed {p : TypeParameter} {a : TypeRef} (h : a ∈ p.displayed) :
    a ∈ p.typeRefs := by
  simp only [TypeParameter.displayed, List.mem_append, Option.mem_toList] at h
  exact TypeParameter.mem_typeRefs.2 (.inr h)

theorem mem_typeParameterRefs_of_displayed {ps : List TypeParameter} {a : TypeRef}
    (h : a ∈ ps.flatMap TypeParameter.displayed) : a ∈ typeParameterRefs ps := by
  obtain ⟨p, hp, ha⟩ := List.mem_flatMap.1 h
  exact List.mem_flatMap.2 ⟨p, hp, p.mem_typeRefs_of_displayed ha⟩

theorem Signature.mem_typeRefs_of_displayed {s : Signature} {a : TypeRef} (h : a ∈ s.displayed) :
    a ∈ s.typeRefs := by
  simp only [Signature.displayed, List.mem_append, Option.mem_toList, List.mem_map, List.mem_singleton] at h
  obtain ((hps | hthis) | hparam) | hreturn := h
  · simp [Signature.typeRefs, mem_typeParameterRefs_of_displayed hps]
  · simp [Signature.typeRefs, hthis]
  · exact Signature.mem_typeRefs.2 (.inr (.inl hparam))
  · simp [Signature.typeRefs, hreturn]

theorem TypeNode.mem_typeRefs_of_expanded {node : TypeNode} {a : TypeRef} (h : a ∈ node.expandedTypes) :
    a ∈ node.typeRefs := by
  cases node with
  | function s => exact s.mem_typeRefs_of_displayed h
  | _ => exact h

theorem TypeNode.mem_memberRefs_of_expanded {node : TypeNode} {a : MemberRef} (h : a ∈ node.expandedMembers) :
    a ∈ node.memberRefs := by
  cases node with
  | object rs => exact h
  | _ => exact absurd h List.not_mem_nil

theorem MemberBody.mem_typeRefs_of_expanded {b : MemberBody} {a : TypeRef} (h : a ∈ b.expandedTypes) :
    a ∈ b.typeRefs := by
  cases b with
  | field f => exact h
  | method f => exact f.signature.mem_typeRefs_of_displayed h
  | classLike c =>
    simp only [expandedTypes, typeRefs, List.mem_append] at h ⊢
    exact h.imp_left (·.imp_left mem_typeParameterRefs_of_displayed)
  | enumeration _ | namespaceLike _ => exact absurd h List.not_mem_nil
  | «alias» type ps =>
    simp only [expandedTypes, typeRefs, List.mem_cons] at h ⊢
    exact h.imp_right mem_typeParameterRefs_of_displayed

theorem Member.mem_typeRefs_of_expanded {m : Member} {a : TypeRef} (h : a ∈ m.expandedTypes) :
    a ∈ m.typeRefs := by
  simp only [Member.expandedTypes, Member.typeRefs, List.mem_append] at h ⊢
  exact h.imp_right MemberBody.mem_typeRefs_of_expanded

theorem MemberBody.mem_listed_of_expanded {b : MemberBody} {a : MemberRef} (h : a ∈ b.expandedList) :
    a ∈ b.listed := by
  cases b with
  | classLike c => exact List.mem_append_left _ h
  | _ => exact h

/-- A type or a member that is there. -/
def Spot.IsThere (g : Graph) : Spot → Prop
  | .type r => g.HasType r
  | .member r => g.HasMember r

/-- What is expanded in a graph in range is there. -/
theorem Graph.Expands.isThere {x y : Spot} (h : g.Expands includeHidden x y) (hg : g.InRange) : y.IsThere g := by
  cases h with
  | typeOfType hnode ha => exact (hg.type hnode).types _ (TypeNode.mem_typeRefs_of_expanded ha)
  | memberOfType hnode ha _ => exact (hg.type hnode).members _ (TypeNode.mem_memberRefs_of_expanded ha)
  | typeOfMember hm ha => exact (hg.member hm).types _ (Member.mem_typeRefs_of_expanded ha)
  | listed hm ha _ =>
    have hlisted := MemberBody.mem_listed_of_expanded ha
    exact (hg.member hm).members _ (by simp [Member.memberRefs, hlisted])
  | placed hm ha => exact (hg.member hm).members _ (by simp [Member.memberRefs, ha])

theorem Member.mem_typeRefs_of_displayed {m : Member} {a : TypeRef} (h : a ∈ m.displayed) : a ∈ m.typeRefs := by
  refine List.mem_append_right _ ?_
  cases hb : m.body with
  | field f => simpa [Member.displayed, hb, MemberBody.typeRefs] using h
  | method f => exact f.signature.mem_typeRefs_of_displayed (by simpa [Member.displayed, hb] using h)
  | classLike _ | enumeration _ | namespaceLike _ | «alias» _ _ => simp [Member.displayed, hb] at h

/-- What is displayed in a node that is no object is expanded in it, and in an object it is displayed in one of its
members. -/
theorem TypeNode.mem_displayed_iff {node : TypeNode} {a : TypeRef} : a ∈ node.displayed g ↔
    a ∈ node.expandedTypes ∨ ∃ r ∈ node.expandedMembers, ∃ m, g.member r = .ok m ∧ a ∈ m.displayed := by
  cases node with
  | object rs =>
    simp only [displayed, expandedTypes, children, expandedMembers, List.mem_flatMap, List.not_mem_nil, false_or]
    refine exists_congr fun r => and_congr_right fun _ => ?_
    cases g.member r <;> simp
  | _ => simp [displayed, expandedTypes, expandedMembers]

theorem Graph.Displays.hasType {r a : TypeRef} (h : g.Displays r a) (hg : g.InRange) : g.HasType a := by
  obtain ⟨node, hnode, ha⟩ := h
  rcases TypeNode.mem_displayed_iff.1 ha with ha | ⟨_, _, m, hm, ha⟩
  · exact (hg.type hnode).types _ (TypeNode.mem_typeRefs_of_expanded ha)
  · exact (hg.member hm).types _ (Member.mem_typeRefs_of_displayed ha)

/-! ### A node is alike to itself -/

theorem optionRel_self {α : Type} {R : α → α → Prop} {o : Option α} (h : ∀ a ∈ o.toList, R a a) :
    Option.Rel R o o := by
  cases o with
  | none => exact .none
  | some a => exact .some (h a (by simp))

theorem TypeParameter.alike_self {p : TypeParameter} (h : ∀ a ∈ p.displayed, R a a) : p.Alike R p where
  name := rfl
  summary := rfl
  constraint := optionRel_self fun a ha => h a (List.mem_append_left _ ha)
  default := optionRel_self fun a ha => h a (List.mem_append_right _ ha)

theorem forall₂_alike_self {ps : List TypeParameter} (h : ∀ a ∈ ps.flatMap TypeParameter.displayed, R a a) :
    Forall₂ (TypeParameter.Alike R) ps ps :=
  List.forall₂_same.2 fun p hp => p.alike_self fun a ha => h a (List.mem_flatMap.2 ⟨p, hp, ha⟩)

theorem Signature.alike_self {s : Signature} (h : ∀ a ∈ s.displayed, R a a) : s.Alike R s where
  typeParameters := forall₂_alike_self fun a ha => h a (by simp [Signature.displayed, ha])
  parameters := List.forall₂_same.2 fun p hp =>
    ⟨rfl, rfl, h p.type (by simp [Signature.displayed, List.mem_map_of_mem hp]), rfl, rfl, rfl⟩
  returnType := h _ (by simp [Signature.displayed])
  thisType := optionRel_self fun a ha => h a (by simp [Signature.displayed, ha])

theorem Graph.HasMember.sameStub {r : MemberRef} (h : g.HasMember r) : g.SameStub g r r := by
  obtain ⟨m, hm⟩ := h.exists_member
  exact ⟨m, m, hm, hm, rfl, rfl⟩

/-- A node is alike to itself if what is expanded in it is related to itself. -/
theorem TypeNode.InRange.alike_self {node : TypeNode} (hnode : node.InRange g)
    {L : List MemberRef → List MemberRef → Prop} (htypes : ∀ a ∈ node.expandedTypes, R a a)
    (hmembers : L node.expandedMembers node.expandedMembers) : node.Alike g g R L node := by
  have hstub {r : Option MemberRef} (hr : ∀ a ∈ r.toList, a ∈ node.memberRefs) : Option.Rel (g.SameStub g) r r :=
    optionRel_self fun a ha => (hnode.members a (hr a ha)).sameStub
  cases node with
  | native t => exact .native t
  | literal value => exact .literal value
  | this => exact .this
  | array a => exact .array (htypes a (by simp [expandedTypes, children]))
  | tuple as => exact .tuple (List.forall₂_same.2 htypes)
  | generic a as =>
    exact .generic (htypes a (by simp [expandedTypes, children]))
      (List.forall₂_same.2 fun b hb => htypes b (by simp [expandedTypes, children, hb]))
  | function s => exact .function (s.alike_self htypes)
  | object rs => exact .object hmembers
  | union as => exact .union (List.forall₂_same.2 htypes)
  | intersection as => exact .intersection (List.forall₂_same.2 htypes)
  | conditional a b c d =>
    exact .conditional (htypes a (by simp [expandedTypes, children])) (htypes b (by simp [expandedTypes, children]))
      (htypes c (by simp [expandedTypes, children])) (htypes d (by simp [expandedTypes, children]))
  | indexedAccess a b =>
    exact .indexedAccess (htypes a (by simp [expandedTypes, children])) (htypes b (by simp [expandedTypes, children]))
  | unary operator a => exact .unary operator (htypes a (by simp [expandedTypes, children]))
  | parameter name r => exact .parameter name (hstub fun a ha => ha)
  | typeOf r => exact .typeOf (hstub fun a ha => ha)
  | named r => exact .named (hstub fun a ha => ha)

theorem MemberBody.readAlike_self {m : Member} (h : ∀ a ∈ m.displayed, R a a) : m.body.ReadAlike R m.body := by
  unfold Member.displayed at h
  cases hb : m.body with
  | field f => exact .field rfl rfl (h _ (by simp [hb]))
  | method f => exact .method (f.signature.alike_self fun a ha => h a (by simpa [hb] using ha))
  | classLike _ | enumeration _ | namespaceLike _ | «alias» _ _ => exact .nameOnly rfl rfl

theorem Graph.readAlike_self {rs : List MemberRef} (hrs : ∀ r ∈ rs, g.HasMember r)
    (h : ∀ r ∈ rs, ∀ m, g.member r = .ok m → ∀ a ∈ m.displayed, R a a) : g.ReadAlike g R rs rs := by
  refine List.forall₂_same.2 fun r hr => ?_
  obtain ⟨m, hm⟩ := (hrs r hr).exists_member
  exact ⟨m, m, hm, hm, rfl, MemberBody.readAlike_self (h r hr m hm)⟩

/-- The members of a list that are not left out are there. -/
theorem Graph.shownAlike_self {rs : List MemberRef} (hrs : ∀ r ∈ rs, g.HasMember r)
    (h : ∀ r ∈ rs, TreeWriter.isSkipped g includeHidden r = .ok false → M r r) :
    g.ShownAlike g includeHidden M rs rs := by
  obtain ⟨shown, hshown, hmem⟩ :=
    (TreeWriter.meets_shown id hrs : Meets _ (TreeWriter.shown g includeHidden rs) _).exists_ok
  exact ⟨shown, shown, hshown, hshown, List.forall₂_same.2 fun r hr => h r (hmem r hr).1 (hmem r hr).2⟩

theorem Graph.entriesAlike_self {entries : List EnumEntry} (hentries : ∀ e ∈ entries, g.HasMember e.member)
    (h : ∀ e ∈ entries, TreeWriter.isSkipped g includeHidden e.member = .ok false → M e.member e.member) :
    g.EntriesAlike g includeHidden M entries entries := by
  obtain ⟨shown, hshown, hmem⟩ :=
    (TreeWriter.meets_shown EnumEntry.member hentries :
      Meets _ (TreeWriter.shownEntries g includeHidden entries) _).exists_ok
  exact ⟨shown, shown, hshown, hshown, List.forall₂_same.2 fun e he => ⟨rfl, h e (hmem e he).1 (hmem e he).2⟩⟩

/-- A body is alike to itself if what is expanded in it is related to itself. -/
theorem MemberBody.alike_self {b : MemberBody} (hlist : ∀ r ∈ b.listed, g.HasMember r)
    (htypes : ∀ a ∈ b.expandedTypes, R a a)
    (hlisted : ∀ r ∈ b.expandedList, TreeWriter.isSkipped g includeHidden r = .ok false → M r r)
    (hplaced : ∀ r ∈ b.placed, M r r) : b.Alike g g includeHidden R M b := by
  cases b with
  | field f => exact .field ⟨rfl, htypes _ (by simp [expandedTypes]), rfl, rfl, rfl, rfl⟩
  | method f =>
    exact .method ⟨rfl, f.signature.alike_self htypes, rfl, rfl, rfl, Graph.shownAlike_self hlist hlisted,
      optionRel_self hplaced⟩
  | classLike c =>
    simp only [expandedTypes, expandedList, listed, placed, List.mem_append] at hlist htypes hlisted hplaced
    exact .classLike {
      kind := rfl
      typeParameters := forall₂_alike_self fun a ha => htypes a (.inl (.inl ha))
      bases := List.forall₂_same.2 fun a ha => htypes a (.inl (.inr ha))
      implements := List.forall₂_same.2 fun a ha => htypes a (.inr ha)
      members := Graph.shownAlike_self (fun r hr => hlist r (.inl (.inl hr))) fun r hr => hlisted r (.inl hr)
      instanceMembers :=
        Graph.shownAlike_self (fun r hr => hlist r (.inl (.inr hr))) fun r hr => hlisted r (.inr hr)
      extendedMembers := List.forall₂_same.2 fun r hr => (hlist r (.inr hr)).sameStub
      constructor := optionRel_self fun r hr => hplaced r (.inl (.inl hr))
      indexer := optionRel_self fun r hr => hplaced r (.inl (.inr hr))
      newSignature := optionRel_self fun r hr => hplaced r (.inr hr) }
  | enumeration e =>
    simp only [expandedList, listed, List.mem_append] at hlist hlisted
    exact .enumeration {
      isConst := rfl
      members := Graph.entriesAlike_self (fun e he => hlist _ (.inl (List.mem_map_of_mem he)))
        fun e he => hlisted _ (.inl (List.mem_map_of_mem he))
      namespaceMembers :=
        Graph.shownAlike_self (fun r hr => hlist r (.inr hr)) fun r hr => hlisted r (.inr hr) }
  | namespaceLike rs => exact .namespaceLike (Graph.shownAlike_self hlist hlisted)
  | «alias» type ps =>
    exact .alias (htypes _ (by simp [expandedTypes]))
      (forall₂_alike_self fun a ha => htypes a (by simp [expandedTypes, ha]))

/-- A member is alike to itself if what is expanded in it is related to itself. -/
theorem Member.InRange.alike_self {m : Member} (hm : m.InRange g) (htypes : ∀ a ∈ m.expandedTypes, R a a)
    (hlisted : ∀ r ∈ m.body.expandedList, TreeWriter.isSkipped g includeHidden r = .ok false → M r r)
    (hplaced : ∀ r ∈ m.body.placed, M r r) : m.Alike g g includeHidden R M m where
  name := rfl
  exportName := rfl
  doc := rfl
  location := rfl
  visibility := rfl
  isStatic := rfl
  isAbstract := rfl
  isOverride := rfl
  parent := optionRel_self fun a ha => htypes a (List.mem_append_left _ ha)
  overrides := optionRel_self fun r hr => (hm.members r (by simp_all [Member.memberRefs])).sameStub
  body := MemberBody.alike_self (fun r hr => hm.members r (by simp [Member.memberRefs, hr]))
    (fun a ha => htypes a (List.mem_append_right _ ha)) hlisted hplaced

namespace Graph.InRange

variable {node : TypeNode}

/-- A node displays the same as itself. -/
theorem reads_alike (hg : g.InRange) {r : TypeRef} (hnode : g.type r = .ok node) :
    node.Alike g g (fun a b => a = b ∧ g.Displays r a) (g.ReadAlike g fun a b => a = b ∧ g.Displays r a) node := by
  have hdisplays {a : TypeRef} (ha : a ∈ node.displayed g) : a = a ∧ g.Displays r a := ⟨rfl, node, hnode, ha⟩
  refine (hg.type hnode).alike_self (fun a ha => hdisplays (TypeNode.mem_displayed_iff.2 (.inl ha))) ?_
  refine readAlike_self (fun m hm => (hg.type hnode).members m (TypeNode.mem_memberRefs_of_expanded hm)) ?_
  exact fun b hb m hm a ha => hdisplays (TypeNode.mem_displayed_iff.2 (.inr ⟨b, hb, m, hm, ha⟩))

/-- A node expands the same as itself. -/
theorem type_alike (hg : g.InRange) (includeHidden : Bool) {r : TypeRef} (hnode : g.type r = .ok node) :
    node.Alike g g (fun a b => a = b ∧ g.Expands includeHidden (.type r) (.type a))
      (g.ShownAlike g includeHidden fun a b => a = b ∧ g.Expands includeHidden (.type r) (.member a)) node := by
  refine (hg.type hnode).alike_self (fun a ha => ⟨rfl, .typeOfType hnode ha⟩) ?_
  refine shownAlike_self (fun m hm => (hg.type hnode).members m (TypeNode.mem_memberRefs_of_expanded hm)) ?_
  exact fun m hm hshown => ⟨rfl, .memberOfType hnode hm hshown⟩

/-- A member expands the same as itself. -/
theorem member_alike (hg : g.InRange) (includeHidden : Bool) {r : MemberRef} {m : Member}
    (hm : g.member r = .ok m) :
    m.Alike g g includeHidden (fun a b => a = b ∧ g.Expands includeHidden (.member r) (.type a))
      (fun a b => a = b ∧ g.Expands includeHidden (.member r) (.member a)) m :=
  (hg.member hm).alike_self (fun _ ha => ⟨rfl, .typeOfMember hm ha⟩)
    (fun _ ha hshown => ⟨rfl, .listed hm ha hshown⟩) fun _ ha => ⟨rfl, .placed hm ha⟩

end Graph.InRange

end ApiDoc
