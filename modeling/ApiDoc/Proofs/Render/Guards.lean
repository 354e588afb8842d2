import ApiDoc.Proofs.Render.Expansion
import ApiDoc.Proofs.Render.TreeText

/-!
# Where no node lies inside itself

The writers keep the nodes that are open on a stack, and write a node that is on it as three dots or as a marker.
`plainParts` and `plainViews` write the same down to a depth, and look at no stack.  Where none of the nodes that are
expanded lies inside itself this makes no difference (`Graph.IsAcyclic.typeParts_eq`,
`Graph.ExpandsAcyclically.views_eq`): whatever is open lies around the node at hand and is another one, however often
nodes are shared.

What is written of a node in this way depends on what it unfolds to, and not on the graph it stands in.
`Graph.ReadsAs` and `Graph.ExpandsAs` say that two nodes unfold to the same in a text and in a tree, so that they are
written the same (`guards_are_invisible`).
-/

namespace ApiDoc

open List (Forall₂)
open Relation

variable {g g' : Graph} {includeHidden : Bool} {R : TypeRef → TypeRef → Prop} {M : MemberRef → MemberRef → Prop}

/-! ### Writing without guards -/

/-- The texts of types down to a depth. -/
def plainParts (g : Graph) : Nat → TypeWriter (Except Error)
  | 0 => ⟨fun _ => throw .tooDeep, fun _ => throw .tooDeep⟩
  | depth + 1 =>
    let inner := plainParts g depth
    { type := fun r => do inner.nodeText g (← g.type r)
      operand := fun r => do
        let node ← g.type r
        if node.isLoose then return "(" ++ (← inner.nodeText g node) ++ ")" else inner.nodeText g node }

/-- The trees of types and members down to a depth. -/
def plainViews (g : Graph) (includeHidden : Bool) : Nat → TreeWriter (Except Error)
  | 0 => ⟨fun _ => throw .tooDeep, fun _ => throw .tooDeep⟩
  | depth + 1 =>
    let inner := plainViews g includeHidden depth
    { type := fun r => do
        let node ← g.type r
        return .object (("kind", .text node.kind) :: (← inner.typeBody g includeHidden node))
      member := fun r => do return .object (← inner.memberBody g includeHidden (← g.member r)) }

/-! ### The guards of texts -/

namespace Graph

/-- In a type that does not lie inside itself, with types around it open, the stack makes no difference. -/
theorem IsAcyclic.typeParts_eq (hg : g.InRange) {fuel depth : Nat} {path : List TypeRef} {r : TypeRef}
    (h : g.IsAcyclic r) (hr : g.HasType r) (hpath : g.Encloses path r) (hfuel : g.typesLeft path < fuel)
    (hdepth : g.typesLeft path < depth) :
    ((typeParts g fuel).within path).type r = (plainParts g depth).type r ∧
      ((typeParts g fuel).within path).operand r = (plainParts g depth).operand r := by
  induction fuel generalizing depth path r with
  | zero => exact absurd hfuel (Nat.not_lt_zero _)
  | succ fuel ih =>
    obtain ⟨depth, rfl⟩ := Nat.exists_eq_add_one_of_ne_zero (Nat.ne_zero_of_lt hdepth)
    obtain ⟨node, hnode⟩ := hr.exists_type
    have hnew := hpath.not_mem h.self
    have hlt := typesLeft_lt hr hnew
    have hagrees : ((typeParts g fuel).within (r :: path)).Agrees (plainParts g depth)
        fun a b => a = b ∧ g.Displays r a := by
      constructor
      · rintro a _ ⟨rfl, ha⟩
        exact (ih (h.of_displays ha) (ha.hasType hg) (hpath.cons ha) (by omega) (by omega)).1
      · rintro a _ ⟨rfl, ha⟩
        exact (ih (h.of_displays ha) (ha.hasType hg) (hpath.cons ha) (by omega) (by omega)).2
    have htype : (guardedText g (fuel + 1) r).result path = (plainParts g depth).nodeText g node := by
      rw [guardedText_of_not_mem hnew hnode, hagrees.nodeText (hg.reads_alike hnode)]
    constructor
    · refine htype.trans ?_
      simp only [plainParts, hnode]
      rfl
    · rw [operandText_of_not_mem hnew hnode, htype]
      simp only [plainParts, hnode]
      rfl

end Graph

/-! ### The guards of trees -/

namespace Graph

/-- A node that is there, lies inside itself nowhere, and lies inside all that is open. -/
structure IsNext (g : Graph) (includeHidden : Bool) (s : OpenNodes) (x : Spot) : Prop where
  there : x.IsThere g
  acyclic : g.ExpandsAcyclically includeHidden x
  around : g.Surrounds includeHidden s x

namespace IsNext

variable {s : OpenNodes} {x : Spot} {r : TypeRef} {m : MemberRef}

theorem not_mem_types (h : g.IsNext includeHidden s (.type r)) : r ∉ s.types :=
  fun hr => h.acyclic.self (h.around.types r hr)

theorem not_mem_members (h : g.IsNext includeHidden s (.member m)) : m ∉ s.members :=
  fun hm => h.acyclic.self (h.around.members m hm)

theorem enterType (h : g.IsNext includeHidden s (.type r)) (hg : g.InRange)
    (hx : g.Expands includeHidden (.type r) x) : g.IsNext includeHidden (s.enterType r) x :=
  ⟨hx.isThere hg, h.acyclic.of_expands hx, h.around.enterType hx⟩

theorem enterMember (h : g.IsNext includeHidden s (.member m)) (hg : g.InRange)
    (hx : g.Expands includeHidden (.member m) x) : g.IsNext includeHidden (s.enterMember m) x :=
  ⟨hx.isThere hg, h.acyclic.of_expands hx, h.around.enterMember hx⟩

end IsNext

/-- On nodes that do not lie inside themselves, with nodes around them open, the stacks make no difference. -/
theorem InRange.views_agrees (hg : g.InRange) {fuel depth : Nat} {s : OpenNodes} (hfuel : g.nodesLeft s < fuel)
    (hdepth : g.nodesLeft s < depth) :
    ((views g includeHidden fuel).within s).Agrees (plainViews g includeHidden depth)
      (fun a b => a = b ∧ g.IsNext includeHidden s (.type a))
      fun a b => a = b ∧ g.IsNext includeHidden s (.member a) := by
  induction fuel generalizing depth s with
  | zero => exact absurd hfuel (Nat.not_lt_zero _)
  | succ fuel ih =>
    obtain ⟨depth, rfl⟩ := Nat.exists_eq_add_one_of_ne_zero (Nat.ne_zero_of_lt hdepth)
    constructor
    · rintro r _ ⟨rfl, h⟩
      obtain ⟨node, hnode⟩ := HasType.exists_type h.there
      have hlt := nodesLeft_enterType h.there h.not_mem_types
      have hagrees : ((views g includeHidden fuel).within (s.enterType r)).Agrees (plainViews g includeHidden depth)
          (fun a b => a = b ∧ g.Expands includeHidden (.type r) (.type a))
          fun a b => a = b ∧ g.Expands includeHidden (.type r) (.member a) :=
        (ih (by omega) (by omega)).mono (fun _ _ hab => ⟨hab.1, h.enterType hg hab.2⟩)
          fun _ _ hab => ⟨hab.1, h.enterType hg hab.2⟩
      rw [views_type, if_neg (by simpa using h.not_mem_types), hnode]
      simp only [plainViews, hnode, bind, Except.bind, hagrees.typeBody (hg.type_alike includeHidden hnode)]
    · rintro r _ ⟨rfl, h⟩
      obtain ⟨m, hm⟩ := HasMember.exists_member h.there
      have hlt := nodesLeft_enterMember h.there h.not_mem_members
      have hagrees : ((views g includeHidden fuel).within (s.enterMember r)).Agrees (plainViews g includeHidden depth)
          (fun a b => a = b ∧ g.Expands includeHidden (.member r) (.type a))
          fun a b => a = b ∧ g.Expands includeHidden (.member r) (.member a) :=
        (ih (by omega) (by omega)).mono (fun _ _ hab => ⟨hab.1, h.enterMember hg hab.2⟩)
          fun _ _ hab => ⟨hab.1, h.enterMember hg hab.2⟩
      rw [views_member, if_neg (by simpa using h.not_mem_members), hm]
      simp only [plainViews, hm, bind, Except.bind, hagrees.memberBody (hg.member_alike includeHidden hm)]

end Graph

/-! ### Unfolding to the same -/

namespace TypeNode.Alike

variable {L L' : List MemberRef → List MemberRef → Prop} {node node' : TypeNode}

theorem isLoose_eq (h : node.Alike g g' R L node') : node.isLoose = node'.isLoose := by
  cases h <;> rfl

theorem kind_eq (h : node.Alike g g' R L node') : node.kind = node'.kind := by
  cases h <;> rfl

theorem mono (h : node.Alike g g' R L node') (hL : ∀ rs rs', L rs rs' → L' rs rs') :
    node.Alike g g' R L' node' := by
  cases h with
  | object hrs => exact .object (hL _ _ hrs)
  | native t => exact .native t
  | literal value => exact .literal value
  | array ha => exact .array ha
  | tuple has => exact .tuple has
  | generic ha has => exact .generic ha has
  | function hs => exact .function hs
  | union has => exact .union has
  | intersection has => exact .intersection has
  | conditional ha hb hc hd => exact .conditional ha hb hc hd
  | indexedAccess ha hb => exact .indexedAccess ha hb
  | unary operator ha => exact .unary operator ha
  | parameter name hr => exact .parameter name hr
  | this => exact .this
  | typeOf hr => exact .typeOf hr
  | named hr => exact .named hr

end TypeNode.Alike

namespace Graph

/-- Related types are there and display the same, but for related types. -/
def Reading (g g' : Graph) (R : TypeRef → TypeRef → Prop) : Prop :=
  ∀ a a', R a a' → ∃ node node', g.type a = .ok node ∧ g'.type a' = .ok node' ∧
    node.Alike g g' R (g.ReadAlike g' R) node'

/-- The texts of two types unfold to the same. -/
def ReadsAs (g : Graph) (r : TypeRef) (g' : Graph) (r' : TypeRef) : Prop := ∃ R, R r r' ∧ g.Reading g' R

/-- Related types and members are there and expand the same, but for related types and members. -/
structure Expanding (g g' : Graph) (includeHidden : Bool) (R : TypeRef → TypeRef → Prop)
    (M : MemberRef → MemberRef → Prop) : Prop where
  type : ∀ a a', R a a' → ∃ node node', g.type a = .ok node ∧ g'.type a' = .ok node' ∧
    node.Alike g g' R (g.ShownAlike g' includeHidden M) node'
  member : ∀ a a', M a a' → ∃ m m', g.member a = .ok m ∧ g'.member a' = .ok m' ∧
    m.Alike g g' includeHidden R M m'

/-- The trees of two types unfold to the same. -/
def ExpandsAs (g : Graph) (includeHidden : Bool) (r : TypeRef) (g' : Graph) (r' : TypeRef) : Prop :=
  ∃ R M, R r r' ∧ g.Expanding g' includeHidden R M

/-- Down to any depth, types that unfold to the same have the same text. -/
theorem Reading.plainParts_agrees (h : g.Reading g' R) (depth : Nat) :
    (plainParts g depth).Agrees (plainParts g' depth) R := by
  induction depth with
  | zero => exact ⟨fun _ => rfl, fun _ => rfl⟩
  | succ depth ih =>
    constructor
    all_goals
      intro a a' ha
      obtain ⟨node, node', hnode, hnode', halike⟩ := h a a' ha
      simp only [plainParts, hnode, hnode', bind, Except.bind, ih.nodeText halike, halike.isLoose_eq]

/-- Down to any depth, nodes that unfold to the same have the same tree. -/
theorem Expanding.plainViews_agrees (h : g.Expanding g' includeHidden R M) (depth : Nat) :
    (plainViews g includeHidden depth).Agrees (plainViews g' includeHidden depth) R M := by
  induction depth with
  | zero => exact ⟨fun _ => rfl, fun _ => rfl⟩
  | succ depth ih =>
    constructor
    · intro a a' ha
      obtain ⟨node, node', hnode, hnode', halike⟩ := h.type a a' ha
      simp only [plainViews, hnode, hnode', bind, Except.bind, ih.typeBody halike, halike.kind_eq]
    · intro a a' ha
      obtain ⟨m, m', hm, hm', halike⟩ := h.member a a' ha
      simp only [plainViews, hm, hm', bind, Except.bind, ih.memberBody halike]

/-! ### All that is expanded -/

theorem isSkipped_true (g : Graph) (r : MemberRef) : TreeWriter.isSkipped g true r = .ok false := rfl

/-- What is displayed is expanded, in the type or in a member of it. -/
theorem Displays.transGen_expands {r a : TypeRef} (h : g.Displays r a) :
    TransGen (g.Expands true) (.type r) (.type a) := by
  obtain ⟨node, hnode, ha⟩ := h
  rcases TypeNode.mem_displayed_iff.1 ha with ha | ⟨b, hb, m, hm, ha⟩
  · exact .single (.typeOfType hnode ha)
  · refine .tail (.single (.memberOfType hnode hb (isSkipped_true g b))) (.typeOfMember hm ?_)
    refine List.mem_append_right _ ?_
    unfold Member.displayed at ha
    split at ha <;> simp_all [MemberBody.expandedTypes]

theorem ExpandsAcyclically.isAcyclic {r : TypeRef} (h : g.ExpandsAcyclically true (.type r)) : g.IsAcyclic r := by
  intro a ha hcycle
  have hreach : ReflTransGen (g.Expands true) (.type r) (.type a) :=
    ReflTransGen.lift' Spot.type (fun _ _ hb => (Displays.transGen_expands hb).to_reflTransGen) _ _ ha
  have hinside : TransGen (g.Expands true) (.type a) (.type a) :=
    TransGen.lift' Spot.type (fun _ _ hb => Displays.transGen_expands hb) _ _ hcycle
  exact h _ hreach hinside

theorem Expands.of_all {x y : Spot} (h : g.Expands includeHidden x y) : g.Expands true x y := by
  cases h with
  | typeOfType hnode ha => exact .typeOfType hnode ha
  | memberOfType hnode ha _ => exact .memberOfType hnode ha (isSkipped_true g _)
  | typeOfMember hm ha => exact .typeOfMember hm ha
  | listed hm ha _ => exact .listed hm ha (isSkipped_true g _)
  | placed hm ha => exact .placed hm ha

theorem ExpandsAcyclically.of_all {x : Spot} (h : g.ExpandsAcyclically true x) :
    g.ExpandsAcyclically includeHidden x :=
  fun y hy hcycle => h y (ReflTransGen.mono (fun _ _ => Expands.of_all) _ _ hy)
    (TransGen.mono (fun _ _ => Expands.of_all) _ _ hcycle)

/-- What is kept of two lists is related if their elements are, and if of related elements both are kept or
neither. -/
theorem filterM_forall₂ {α α' : Type} {f : α → Answer Bool} {f' : α' → Answer Bool} {Q : α → α' → Prop}
    {xs : List α} {xs' : List α'}
    (h : Forall₂ (fun x x' => Q x x' ∧ ∃ keep, f x = .ok keep ∧ f' x' = .ok keep) xs xs') :
    ∃ ys ys', xs.filterM f = .ok ys ∧ xs'.filterM f' = .ok ys' ∧ Forall₂ Q ys ys' := by
  have haux : ∀ acc acc', Forall₂ Q acc acc' → ∃ ys ys', xs.filterAuxM f acc = .ok ys ∧
      xs'.filterAuxM f' acc' = .ok ys' ∧ Forall₂ Q ys ys' := by
    induction h with
    | nil => exact fun acc acc' hacc => ⟨acc, acc', rfl, rfl, hacc⟩
    | cons hx _ ih =>
      intro acc acc' hacc
      obtain ⟨hQ, keep, hkeep, hkeep'⟩ := hx
      rw [List.filterAuxM, List.filterAuxM, hkeep, hkeep']
      cases keep with
      | false => exact ih acc acc' hacc
      | true => exact ih _ _ (.cons hQ hacc)
  obtain ⟨ys, ys', hys, hys', hrel⟩ := haux [] [] .nil
  refine ⟨ys.reverse, ys'.reverse, ?_, ?_, List.forall₂_reverse_iff.2 hrel⟩
  · rw [List.filterM, hys]
    rfl
  · rw [List.filterM, hys']
    rfl

/-- Members with the same documentation are both left out or neither. -/
theorem exists_kept_of_doc_eq {r r' : MemberRef} {m m' : Member} (hm : g.member r = .ok m)
    (hm' : g'.member r' = .ok m') (hdoc : m.doc = m'.doc) :
    ∃ keep, (do return !(← TreeWriter.isSkipped g includeHidden r)) = (.ok keep : Answer Bool) ∧
      (do return !(← TreeWriter.isSkipped g' includeHidden r')) = (.ok keep : Answer Bool) := by
  cases includeHidden with
  | true => exact ⟨true, rfl, rfl⟩
  | false =>
    refine ⟨!m.doc.hidden, ?_, ?_⟩
    · simp [TreeWriter.isSkipped, hm, bind, Except.bind, pure, Except.pure]
    · simp [TreeWriter.isSkipped, hm', hdoc, bind, Except.bind, pure, Except.pure]

namespace Expanding

theorem exists_kept (h : g.Expanding g' true R M) (includeHidden : Bool) {r r' : MemberRef} (hr : M r r') :
    ∃ keep, (do return !(← TreeWriter.isSkipped g includeHidden r)) = (.ok keep : Answer Bool) ∧
      (do return !(← TreeWriter.isSkipped g' includeHidden r')) = (.ok keep : Answer Bool) := by
  obtain ⟨m, m', hm, hm', halike⟩ := h.member r r' hr
  exact exists_kept_of_doc_eq hm hm' halike.doc

theorem forall₂_of_shownAlike {rs rs' : List MemberRef} (h : g.ShownAlike g' true M rs rs') : Forall₂ M rs rs' := by
  obtain ⟨shown, shown', hshown, hshown', hrel⟩ := h
  obtain rfl : rs = shown := Except.ok.inj ((TreeWriter.filterM_of_forall fun _ => rfl).symm.trans hshown)
  obtain rfl : rs' = shown' := Except.ok.inj ((TreeWriter.filterM_of_forall fun _ => rfl).symm.trans hshown')
  exact hrel

theorem shownAlike (h : g.Expanding g' true R M) {rs rs' : List MemberRef} (hrs : g.ShownAlike g' true M rs rs') :
    g.ShownAlike g' includeHidden M rs rs' :=
  filterM_forall₂ ((forall₂_of_shownAlike hrs).imp fun _ _ hr => ⟨hr, h.exists_kept includeHidden hr⟩)

theorem entriesAlike (h : g.Expanding g' true R M) {entries entries' : List EnumEntry}
    (hentries : g.EntriesAlike g' true M entries entries') : g.EntriesAlike g' includeHidden M entries entries' := by
  obtain ⟨shown, shown', hshown, hshown', hrel⟩ := hentries
  obtain rfl : entries = shown := Except.ok.inj ((TreeWriter.filterM_of_forall fun _ => rfl).symm.trans hshown)
  obtain rfl : entries' = shown' := Except.ok.inj ((TreeWriter.filterM_of_forall fun _ => rfl).symm.trans hshown')
  exact filterM_forall₂ (hrel.imp fun _ _ he => ⟨he, h.exists_kept includeHidden he.2⟩)

theorem bodyAlike (h : g.Expanding g' true R M) {b b' : MemberBody} (hb : b.Alike g g' true R M b') :
    b.Alike g g' includeHidden R M b' := by
  cases hb with
  | field hf => exact .field hf
  | method hf => exact .method { hf with overloads := h.shownAlike hf.overloads }
  | classLike hc =>
    exact .classLike { hc with
      members := h.shownAlike hc.members
      instanceMembers := h.shownAlike hc.instanceMembers }
  | enumeration he =>
    exact .enumeration ⟨he.isConst, h.entriesAlike he.members, h.shownAlike he.namespaceMembers⟩
  | namespaceLike hrs => exact .namespaceLike (h.shownAlike hrs)
  | «alias» ha hps => exact .alias ha hps

/-- What unfolds to the same with hidden members does so without them. -/
theorem of_all (h : g.Expanding g' true R M) : g.Expanding g' includeHidden R M where
  type a a' ha := by
    obtain ⟨node, node', hnode, hnode', halike⟩ := h.type a a' ha
    exact ⟨node, node', hnode, hnode', halike.mono fun _ _ => h.shownAlike⟩
  member a a' ha := by
    obtain ⟨m, m', hm, hm', halike⟩ := h.member a a' ha
    exact ⟨m, m', hm, hm', { halike with body := h.bodyAlike halike.body }⟩

theorem readAlike {b b' : MemberBody} (h : b.Alike g g' true R M b') : b.ReadAlike R b' := by
  cases h with
  | field hf => exact .field hf.readOnly hf.optional hf.type
  | method hf => exact .method hf.signature
  | classLike _ | enumeration _ | namespaceLike _ | «alias» _ _ => exact .nameOnly rfl rfl

/-- What unfolds to the same in trees with hidden members does so in texts. -/
theorem reading (h : g.Expanding g' true R M) : g.Reading g' R := by
  intro a a' ha
  obtain ⟨node, node', hnode, hnode', halike⟩ := h.type a a' ha
  refine ⟨node, node', hnode, hnode', halike.mono fun rs rs' hrs => ?_⟩
  refine (forall₂_of_shownAlike hrs).imp fun r r' hr => ?_
  obtain ⟨m, m', hm, hm', hmember⟩ := h.member r r' hr
  exact ⟨m, m', hm, hm', hmember.name, readAlike hmember.body⟩

end Expanding

/-! ### The guards are invisible -/

/-- In a type that does not lie inside itself, any depth that is enough gives its text. -/
theorem IsAcyclic.typeText_eq {r : TypeRef} (h : g.IsAcyclic r) (hg : g.InRange) {depth : Nat}
    (hdepth : g.types.size < depth) : typeText g r = (plainParts g depth).type r := by
  cases hnode : g.type r with
  | ok node =>
    have hle := g.typesLeft_le []
    have hfuel : g.typesLeft [] < g.types.size + 2 := by omega
    have hleft : g.typesLeft [] < depth := by omega
    exact (h.typeParts_eq hg (.of_type_eq_ok hnode) (.nil r) hfuel hleft).1
  | error e =>
    obtain ⟨depth, rfl⟩ := Nat.exists_eq_add_one_of_ne_zero (Nat.ne_zero_of_lt hdepth)
    have htext : typeText g r = .error e := (guardedText_succ g _ [] r).trans (by rw [hnode]; rfl)
    simp only [htext, plainParts, hnode]
    rfl

/-- If none of what is expanded in a type lies inside itself, any depth that is enough gives its tree. -/
theorem ExpandsAcyclically.typeTree_eq {r : TypeRef} (h : g.ExpandsAcyclically includeHidden (.type r))
    (hg : g.InRange) {depth : Nat} (hdepth : g.types.size + g.members.size < depth) :
    g.typeTree includeHidden r = (plainViews g includeHidden depth).type r := by
  cases hnode : g.type r with
  | ok node =>
    have hle := g.nodesLeft_le {}
    have hfuel : g.nodesLeft {} < g.types.size + g.members.size + 2 := by omega
    have hleft : g.nodesLeft {} < depth := by omega
    exact (hg.views_agrees hfuel hleft).type ⟨rfl, HasType.of_type_eq_ok hnode, h, .nil _⟩
  | error e =>
    obtain ⟨depth, rfl⟩ := Nat.exists_eq_add_one_of_ne_zero (Nat.ne_zero_of_lt hdepth)
    have htree : g.typeTree includeHidden r = .error e :=
      (views_type g includeHidden _ {} r).trans (by rw [hnode]; rfl)
    simp only [htree, plainViews, hnode]
    rfl

theorem Reading.typeText_eq (h : g.Reading g' R) (hg : g.InRange) (hg' : g'.InRange) {r r' : TypeRef} (hr : R r r')
    (hacyclic : g.IsAcyclic r) (hacyclic' : g'.IsAcyclic r') : typeText g r = typeText g' r' := by
  have hdepth : g.types.size < g.types.size + g'.types.size + 1 := by omega
  have hdepth' : g'.types.size < g.types.size + g'.types.size + 1 := by omega
  rw [hacyclic.typeText_eq hg hdepth, hacyclic'.typeText_eq hg' hdepth', (h.plainParts_agrees _).type hr]

theorem Expanding.typeTree_eq (h : g.Expanding g' includeHidden R M) (hg : g.InRange) (hg' : g'.InRange)
    {r r' : TypeRef} (hr : R r r') (hacyclic : g.ExpandsAcyclically includeHidden (.type r))
    (hacyclic' : g'.ExpandsAcyclically includeHidden (.type r')) :
    g.typeTree includeHidden r = g'.typeTree includeHidden r' := by
  have hdepth : g.types.size + g.members.size <
      g.types.size + g.members.size + (g'.types.size + g'.members.size) + 1 := by omega
  have hdepth' : g'.types.size + g'.members.size <
      g.types.size + g.members.size + (g'.types.size + g'.members.size) + 1 := by omega
  rw [hacyclic.typeTree_eq hg hdepth, hacyclic'.typeTree_eq hg' hdepth', (h.plainViews_agrees _).type hr]

end Graph

/-- **Where no node lies inside itself the guards are invisible.**  If none of what is displayed in a type lies inside
itself, its text is what is written without looking at what is open, and so it is with its tree if none of what is
expanded lies inside itself.  Types of the same or of different graphs that unfold to the same have the same text, and
the same tree.  If none of what is expanded with hidden members lies inside itself, this holds of the text and of
both trees, and what unfolds to the same with hidden members does so in the text and without them. -/
theorem guards_are_invisible {g : Graph} (hg : g.InRange) (r : TypeRef) :
    (g.IsAcyclic r → (g.HasType r → ∃ text, typeText g r = .ok text) ∧
      (∀ depth, g.types.size < depth → typeText g r = (plainParts g depth).type r) ∧
      ∀ g' r', g'.InRange → g'.IsAcyclic r' → g.ReadsAs r g' r' → typeText g r = typeText g' r') ∧
    (∀ includeHidden, g.ExpandsAcyclically includeHidden (.type r) →
      (g.HasType r → Meets g.Uncounted (g.typeTree includeHidden r) fun _ => True) ∧
      (∀ depth, g.types.size + g.members.size < depth →
        g.typeTree includeHidden r = (plainViews g includeHidden depth).type r) ∧
      ∀ g' r', g'.InRange → g'.ExpandsAcyclically includeHidden (.type r') → g.ExpandsAs includeHidden r g' r' →
        g.typeTree includeHidden r = g'.typeTree includeHidden r') ∧
    (g.ExpandsAcyclically true (.type r) → g.IsAcyclic r ∧ g.ExpandsAcyclically false (.type r)) ∧
    ∀ g' r', g.ExpandsAs true r g' r' → g.ReadsAs r g' r' ∧ g.ExpandsAs false r g' r' := by
  refine ⟨fun hacyclic => ⟨hg.exists_typeText, ?_, ?_⟩, fun includeHidden hacyclic => ⟨fun hr => ?_, ?_, ?_⟩, ?_, ?_⟩
  · exact fun depth hdepth => hacyclic.typeText_eq hg hdepth
  · rintro g' r' hg' hacyclic' ⟨R, hR, hreading⟩
    exact hreading.typeText_eq hg hg' hR hacyclic hacyclic'
  · exact ((hg.view_serves includeHidden {}).type hr).mono fun _ _ _ => trivial
  · exact fun depth hdepth => hacyclic.typeTree_eq hg hdepth
  · rintro g' r' hg' hacyclic' ⟨R, M, hR, hexpanding⟩
    exact hexpanding.typeTree_eq hg hg' hR hacyclic hacyclic'
  · exact fun hacyclic => ⟨hacyclic.isAcyclic, hacyclic.of_all⟩
  · rintro g' r' ⟨R, M, hR, hexpanding⟩
    exact ⟨⟨R, hR, hexpanding.reading⟩, R, M, hR, hexpanding.of_all⟩

/-! ### A graph with shared nodes -/

namespace Graph

/-- Whether all nodes of a graph expand nodes of lower rank only, hidden ones included. -/
def expandsDownwards (g : Graph) (rank : Spot → Nat) : Bool :=
  ((List.range g.types.size).all fun i => (g.types.get? i).all fun node =>
    (node.expandedTypes.map Spot.type ++ node.expandedMembers.map Spot.member).all (rank · < rank (.type ⟨i⟩))) &&
  (List.range g.members.size).all fun i => (g.members.get? i).all fun m =>
    (m.expandedTypes.map Spot.type ++ (m.body.expandedList ++ m.body.placed).map Spot.member).all
      (rank · < rank (.member ⟨i⟩))

variable {rank : Spot → Nat} {x y : Spot}

theorem rank_lt_of_type (h : g.expandsDownwards rank = true) {r : TypeRef} {node : TypeNode}
    (hnode : g.type r = .ok node)
    (hy : y ∈ node.expandedTypes.map Spot.type ++ node.expandedMembers.map Spot.member) :
    rank y < rank (.type r) := by
  have htypes := List.all_eq_true.1 (Bool.and_eq_true_iff.1 h).1 r.index
    (List.mem_range.2 (HasType.of_type_eq_ok hnode))
  rw [type_eq_ok_iff.1 hnode, Option.all_some] at htypes
  simpa using List.all_eq_true.1 htypes y hy

theorem rank_lt_of_member (h : g.expandsDownwards rank = true) {r : MemberRef} {m : Member}
    (hm : g.member r = .ok m)
    (hy : y ∈ m.expandedTypes.map Spot.type ++ (m.body.expandedList ++ m.body.placed).map Spot.member) :
    rank y < rank (.member r) := by
  have hmembers := List.all_eq_true.1 (Bool.and_eq_true_iff.1 h).2 r.index
    (List.mem_range.2 (HasMember.of_member_eq_ok hm))
  rw [member_eq_ok_iff.1 hm, Option.all_some] at hmembers
  simpa using List.all_eq_true.1 hmembers y hy

theorem rank_lt_of_expands (h : g.expandsDownwards rank = true) (hy : g.Expands includeHidden x y) :
    rank y < rank x := by
  cases hy with
  | typeOfType hnode ha => exact rank_lt_of_type h hnode (by simp [ha])
  | memberOfType hnode ha _ => exact rank_lt_of_type h hnode (by simp [ha])
  | typeOfMember hm ha => exact rank_lt_of_member h hm (by simp [ha])
  | listed hm ha _ => exact rank_lt_of_member h hm (by simp [ha])
  | placed hm ha => exact rank_lt_of_member h hm (by simp [ha])

theorem expandsAcyclically_of_expandsDownwards (h : g.expandsDownwards rank = true) (x : Spot) :
    g.ExpandsAcyclically includeHidden x := by
  intro y _ hcycle
  have hlt {z : Spot} (hz : TransGen (g.Expands includeHidden) y z) : rank z < rank y := by
    induction hz with
    | single hz => exact rank_lt_of_expands h hz
    | tail _ hz ih => exact (rank_lt_of_expands h hz).trans ih
  exact Nat.lt_irrefl _ (hlt hcycle)

end Graph

/-- A tuple with an object, a union and a class twice, all of them one node each.  The object lists its one field
twice, and a field of the class has the class as its type. -/
def sharedNodes : Graph where
  types := ⟨#[.native .string, .array ⟨0⟩, .union [⟨1⟩, ⟨0⟩], .named (some ⟨2⟩), .object [⟨0⟩, ⟨0⟩],
    .tuple [⟨4⟩, ⟨2⟩, ⟨4⟩, ⟨2⟩, ⟨3⟩, ⟨3⟩]]⟩
  members := ⟨#[
    { name := "items", body := .field { kind := .property, type := ⟨2⟩ } },
    { name := "next", body := .field { kind := .property, type := ⟨3⟩ } },
    { name := "Node", body := .classLike { kind := .concrete, instanceMembers := [⟨1⟩] } }]⟩

/-- The same tuple with two objects, two fields and two unions. -/
def separateNodes : Graph where
  types := ⟨#[.native .string, .array ⟨0⟩, .union [⟨1⟩, ⟨0⟩], .union [⟨1⟩, ⟨0⟩], .named (some ⟨2⟩),
    .object [⟨0⟩, ⟨1⟩], .object [⟨1⟩, ⟨0⟩], .tuple [⟨5⟩, ⟨2⟩, ⟨6⟩, ⟨3⟩, ⟨4⟩, ⟨4⟩]]⟩
  members := ⟨#[
    { name := "items", body := .field { kind := .property, type := ⟨2⟩ } },
    { name := "items", body := .field { kind := .property, type := ⟨3⟩ } },
    { name := "Node", body := .namespaceLike [] }]⟩

/-- Types behind their parts, and a field behind its type. -/
def partsFirst : Spot → Nat
  | .type r => 3 * r.index
  | .member r => 3 * r.index + 10

/-- Which types of the two graphs belong together. -/
def sameTypes (a a' : TypeRef) : Prop :=
  (a.index, a'.index) ∈ [(0, 0), (1, 1), (2, 2), (2, 3), (3, 4), (4, 5), (4, 6), (5, 7)]

/-- Which members of the two graphs belong together. -/
def sameMembers (r r' : MemberRef) : Prop := (r.index, r'.index) ∈ [(0, 0), (0, 1)]

theorem sharedNodes_expanding : sharedNodes.Expanding separateNodes true sameTypes sameMembers where
  type := by
    have hstub : Option.Rel (sharedNodes.SameStub separateNodes) (some ⟨2⟩) (some ⟨2⟩) :=
      .some ⟨_, _, rfl, rfl, rfl, rfl⟩
    have hunion : List.Forall₂ sameTypes [⟨1⟩, ⟨0⟩] [⟨1⟩, ⟨0⟩] := by simp [sameTypes]
    rintro ⟨i⟩ ⟨j⟩ h
    simp only [sameTypes, List.mem_cons, Prod.mk.injEq, List.not_mem_nil, or_false] at h
    obtain ⟨rfl, rfl⟩ | ⟨rfl, rfl⟩ | ⟨rfl, rfl⟩ | ⟨rfl, rfl⟩ | ⟨rfl, rfl⟩ | ⟨rfl, rfl⟩ | ⟨rfl, rfl⟩ | ⟨rfl, rfl⟩ := h
    · exact ⟨_, _, rfl, rfl, .native _⟩
    · exact ⟨_, _, rfl, rfl, .array (by simp [sameTypes])⟩
    · exact ⟨_, _, rfl, rfl, .union hunion⟩
    · exact ⟨_, _, rfl, rfl, .union hunion⟩
    · exact ⟨_, _, rfl, rfl, .named hstub⟩
    · exact ⟨_, _, rfl, rfl, .object ⟨_, _, rfl, rfl, by simp [sameMembers]⟩⟩
    · exact ⟨_, _, rfl, rfl, .object ⟨_, _, rfl, rfl, by simp [sameMembers]⟩⟩
    · exact ⟨_, _, rfl, rfl, .tuple (by simp [sameTypes])⟩
  member := by
    have hfield (a : TypeRef) (ha : sameTypes ⟨2⟩ a) :
        Field.Alike sameTypes { kind := .property, type := ⟨2⟩ } { kind := .property, type := a } :=
      ⟨rfl, ha, rfl, rfl, rfl, rfl⟩
    rintro ⟨i⟩ ⟨j⟩ h
    simp only [sameMembers, List.mem_cons, Prod.mk.injEq, List.not_mem_nil, or_false] at h
    obtain ⟨rfl, rfl⟩ | ⟨rfl, rfl⟩ := h
    · exact ⟨_, _, rfl, rfl, rfl, rfl, rfl, rfl, rfl, rfl, rfl, rfl, .none, .none,
        .field (hfield _ (by simp [sameTypes]))⟩
    · exact ⟨_, _, rfl, rfl, rfl, rfl, rfl, rfl, rfl, rfl, rfl, rfl, .none, .none,
        .field (hfield _ (by simp [sameTypes]))⟩

theorem guards_are_invisible_sharedNodes :
    sharedNodes.InRange ∧ sharedNodes.HasType ⟨5⟩ ∧ separateNodes.InRange ∧
      sharedNodes.ExpandsAcyclically true (.type ⟨5⟩) ∧ separateNodes.ExpandsAcyclically true (.type ⟨7⟩) ∧
      sharedNodes.ExpandsAs true ⟨5⟩ separateNodes ⟨7⟩ ∧
      (∃ text, typeText sharedNodes ⟨5⟩ = .ok text ∧ typeText separateNodes ⟨7⟩ = .ok text ∧
        (plainParts sharedNodes 7).type ⟨5⟩ = .ok text) ∧
      sharedNodes.typeTree false ⟨5⟩ = separateNodes.typeTree false ⟨7⟩ ∧
      sharedNodes.typeTree true ⟨5⟩ = (plainViews sharedNodes true 10).type ⟨5⟩ := by
  have hshared : sharedNodes.InRange := by decide
  have hseparate : separateNodes.InRange := by decide
  have hroot : sharedNodes.HasType ⟨5⟩ := by decide
  have hdown : sharedNodes.expandsDownwards partsFirst = true := by decide
  have hdown' : separateNodes.expandsDownwards partsFirst = true := by decide
  have hacyclic {includeHidden : Bool} (x : Spot) : sharedNodes.ExpandsAcyclically includeHidden x :=
    Graph.expandsAcyclically_of_expandsDownwards hdown x
  have hacyclic' {includeHidden : Bool} (x : Spot) : separateNodes.ExpandsAcyclically includeHidden x :=
    Graph.expandsAcyclically_of_expandsDownwards hdown' x
  have hsame : sharedNodes.ExpandsAs true ⟨5⟩ separateNodes ⟨7⟩ :=
    ⟨_, _, by simp [sameTypes], sharedNodes_expanding⟩
  obtain ⟨htext, htree, hall, hunfold⟩ := guards_are_invisible hshared ⟨5⟩
  obtain ⟨hexists, hplain, hother⟩ := htext (hall (hacyclic _)).1
  obtain ⟨text, hok⟩ := hexists hroot
  obtain ⟨hreads, hexpands⟩ := hunfold separateNodes ⟨7⟩ hsame
  have htext' := hother separateNodes ⟨7⟩ hseparate (hacyclic' _).isAcyclic hreads
  refine ⟨hshared, hroot, hseparate, hacyclic _, hacyclic' _, hsame,
    ⟨text, hok, htext' ▸ hok, (hplain 7 (by decide)).symm.trans hok⟩, ?_, ?_⟩
  · exact (htree false (hacyclic _)).2.2 separateNodes ⟨7⟩ hseparate (hacyclic' _) hexpands
  · exact (htree true (hacyclic _)).2.1 10 (by decide)

end ApiDoc
