import ApiDoc.Resolve.Session
import Mathlib.Tactic.ByContra

/-!
# What a session holds

Every change that resolving makes to a session is one of a few: a new node or member at the end, with or
without remembering whose it is; another node or member in a place that is there already; one more
thing remembered; an owner recorded.  Each is named here as a function on sessions, and the lemmas say
what it does to what is remembered and to what stands where.
-/

namespace ApiDoc

namespace Session

variable (s : Session)

/-- A new node that is nobody's. -/
def growType (node : TypeNode) : Session := (s.pushType node).2

/-- A new member that is nobody's. -/
def growMember (member : Member) : Session := (s.pushMember member).2

/-- A new node that is the type's from now on. -/
def addType (t : TypeId) (node : TypeNode) : Session :=
  { s.growType node with typeMemo := (t, ⟨s.graph.types.size⟩) :: s.typeMemo }

/-- A new member that is the key's from now on. -/
def addMember (key : MemberKey) (member : Member) : Session :=
  { s.growMember member with memberMemo := (key, some ⟨s.graph.members.size⟩) :: s.memberMemo }

/-- The type shares a node from now on. -/
def shareType (t : TypeId) (r : TypeRef) : Session := { s with typeMemo := (t, r) :: s.typeMemo }

/-- The key has no member from now on. -/
def skipMember (key : MemberKey) : Session := { s with memberMemo := (key, none) :: s.memberMemo }

/-- Another node in a place. -/
def putType (r : TypeRef) (node : TypeNode) : Session :=
  { s with graph.types := s.graph.types.replace r.index node }

/-- Another member in a place. -/
def putMember (r : MemberRef) (member : Member) : Session :=
  { s with graph.members := s.graph.members.replace r.index member }

/-- The node that stands in a place. -/
def nodeAt? (r : TypeRef) : Option TypeNode := s.graph.types.get? r.index

/-- The member that stands in a place. -/
def memberAt? (r : MemberRef) : Option Member := s.graph.members.get? r.index

variable {s}

/-! ### Steps of the resolver as changes -/

theorem newType_run (node : TypeNode) :
    (Resolve.newType node).run.run s = (.ok ⟨s.graph.types.size⟩, s.growType node) := rfl

theorem newMember_run (member : Member) :
    (Resolve.newMember member).run.run s = (.ok ⟨s.graph.members.size⟩, s.growMember member) := rfl

theorem reserveType_run (t : TypeId) (node : TypeNode) :
    (Resolve.reserveType t node).run.run s = (.ok ⟨s.graph.types.size⟩, s.addType t node) := rfl

theorem reserveMember_run (key : MemberKey) (member : Member) :
    (Resolve.reserveMember key member).run.run s =
      (.ok ⟨s.graph.members.size⟩, s.addMember key member) := rfl

theorem rememberType_run (t : TypeId) (r : TypeRef) :
    (Resolve.rememberType t r).run.run s = (.ok (), s.shareType t r) := rfl

theorem skipMember_run (key : MemberKey) :
    (Resolve.rememberMember key none).run.run s = (.ok (), s.skipMember key) := rfl

theorem setType_run (r : TypeRef) (node : TypeNode) :
    (Resolve.setType r node).run.run s = (.ok (), s.putType r node) := rfl

theorem setMember_run (r : MemberRef) (member : Member) :
    (Resolve.setMember r member).run.run s = (.ok (), s.putMember r member) := rfl

theorem recordOwner_run (t : TypeId) (r : MemberRef) :
    (Resolve.recordOwner t r).run.run s = (.ok (), s.recordOwner t r) := rfl

theorem getMember_run {r : MemberRef} {member : Member} (h : s.memberAt? r = some member) :
    (Resolve.getMember r).run.run s = (.ok member, s) := by
  have hm : s.graph.member r = .ok member := by
    unfold Graph.member
    rw [show s.graph.members.get? r.index = some member from h]
    rfl
  change ((liftM (s.graph.member r) : Resolve Member).run.run s) = _
  rw [hm]
  rfl

theorem getMember_run_of_none {r : MemberRef} (h : s.memberAt? r = none) :
    (Resolve.getMember r).run.run s = (.error .outOfBounds, s) := by
  have hm : s.graph.member r = .error .outOfBounds := by
    unfold Graph.member
    rw [show s.graph.members.get? r.index = none from h]
    rfl
  change ((liftM (s.graph.member r) : Resolve Member).run.run s) = _
  rw [hm]
  rfl

/-! ### What is remembered -/

private theorem lookup_cons_ite {κ α : Type} [DecidableEq κ] (k key : κ) (a : α)
    (entries : List (κ × α)) :
    ((key, a) :: entries).lookup k = if k = key then some a else entries.lookup k := by
  rw [List.lookup_cons]
  by_cases h : k = key
  · simp [h]
  · have hne : (k == key) = false := by simpa using h
    simp [h, hne]

@[simp] theorem typeOf?_empty (t : TypeId) : ({} : Session).typeOf? t = none := rfl

@[simp] theorem memberOf?_empty (key : MemberKey) : ({} : Session).memberOf? key = none := rfl

@[simp] theorem typeOf?_growType (node : TypeNode) (t : TypeId) :
    (s.growType node).typeOf? t = s.typeOf? t := rfl

@[simp] theorem typeOf?_growMember (member : Member) (t : TypeId) :
    (s.growMember member).typeOf? t = s.typeOf? t := rfl

@[simp] theorem typeOf?_addMember (key : MemberKey) (member : Member) (t : TypeId) :
    (s.addMember key member).typeOf? t = s.typeOf? t := rfl

@[simp] theorem typeOf?_skipMember (key : MemberKey) (t : TypeId) :
    (s.skipMember key).typeOf? t = s.typeOf? t := rfl

@[simp] theorem typeOf?_putType (r : TypeRef) (node : TypeNode) (t : TypeId) :
    (s.putType r node).typeOf? t = s.typeOf? t := rfl

@[simp] theorem typeOf?_putMember (r : MemberRef) (member : Member) (t : TypeId) :
    (s.putMember r member).typeOf? t = s.typeOf? t := rfl

theorem typeOf?_shareType (t : TypeId) (r : TypeRef) (u : TypeId) :
    (s.shareType t r).typeOf? u = if u = t then some r else s.typeOf? u := by
  simp only [typeOf?, shareType, lookup_cons_ite]

theorem typeOf?_addType (t : TypeId) (node : TypeNode) (u : TypeId) :
    (s.addType t node).typeOf? u = if u = t then some ⟨s.graph.types.size⟩ else s.typeOf? u := by
  simp only [typeOf?, addType, lookup_cons_ite]

@[simp] theorem memberOf?_growType (node : TypeNode) (key : MemberKey) :
    (s.growType node).memberOf? key = s.memberOf? key := rfl

@[simp] theorem memberOf?_growMember (member : Member) (key : MemberKey) :
    (s.growMember member).memberOf? key = s.memberOf? key := rfl

@[simp] theorem memberOf?_addType (t : TypeId) (node : TypeNode) (key : MemberKey) :
    (s.addType t node).memberOf? key = s.memberOf? key := rfl

@[simp] theorem memberOf?_shareType (t : TypeId) (r : TypeRef) (key : MemberKey) :
    (s.shareType t r).memberOf? key = s.memberOf? key := rfl

@[simp] theorem memberOf?_putType (r : TypeRef) (node : TypeNode) (key : MemberKey) :
    (s.putType r node).memberOf? key = s.memberOf? key := rfl

@[simp] theorem memberOf?_putMember (r : MemberRef) (member : Member) (key : MemberKey) :
    (s.putMember r member).memberOf? key = s.memberOf? key := rfl

theorem memberOf?_addMember (key : MemberKey) (member : Member) (k : MemberKey) :
    (s.addMember key member).memberOf? k =
      if k = key then some (some ⟨s.graph.members.size⟩) else s.memberOf? k := by
  simp only [memberOf?, addMember, lookup_cons_ite]

theorem memberOf?_skipMember (key k : MemberKey) :
    (s.skipMember key).memberOf? k = if k = key then some none else s.memberOf? k := by
  simp only [memberOf?, skipMember, lookup_cons_ite]

/-- What is remembered after a type was added is that type, or was remembered before. -/
theorem typeOf?_addType_eq_some_iff {t u : TypeId} {node : TypeNode} {r : TypeRef} :
    (s.addType t node).typeOf? u = some r ↔
      u = t ∧ ⟨s.graph.types.size⟩ = r ∨ u ≠ t ∧ s.typeOf? u = some r := by
  rw [typeOf?_addType, ite_eq_iff, Option.some.injEq]

theorem typeOf?_shareType_eq_some_iff {t u : TypeId} {r r' : TypeRef} :
    (s.shareType t r).typeOf? u = some r' ↔ u = t ∧ r = r' ∨ u ≠ t ∧ s.typeOf? u = some r' := by
  rw [typeOf?_shareType, ite_eq_iff, Option.some.injEq]

/-- What is remembered after a key was added is its new place, or was remembered before. -/
theorem memberOf?_addMember_eq_some_iff {key k : MemberKey} {member : Member} {v : Option MemberRef} :
    (s.addMember key member).memberOf? k = some v ↔
      k = key ∧ some ⟨s.graph.members.size⟩ = v ∨ k ≠ key ∧ s.memberOf? k = some v := by
  rw [memberOf?_addMember, ite_eq_iff, Option.some.injEq]

theorem memberOf?_skipMember_eq_some_iff {key k : MemberKey} {v : Option MemberRef} :
    (s.skipMember key).memberOf? k = some v ↔ k = key ∧ none = v ∨ k ≠ key ∧ s.memberOf? k = some v := by
  rw [memberOf?_skipMember, ite_eq_iff, Option.some.injEq]

/-- A key that is passed over gets no place. -/
theorem memberOf?_of_skipMember {key k : MemberKey} {r : MemberRef}
    (hr : (s.skipMember key).memberOf? k = some (some r)) : s.memberOf? k = some (some r) := by
  obtain ⟨-, hnone⟩ | ⟨-, hr⟩ := memberOf?_skipMember_eq_some_iff.1 hr
  · exact nomatch hnone
  · exact hr

/-- What is remembered is not what is added. -/
theorem typeOf?_addType_of_some {t u : TypeId} {r : TypeRef} {node : TypeNode}
    (hnew : s.typeOf? t = none) (hr : s.typeOf? u = some r) : (s.addType t node).typeOf? u = some r := by
  rw [typeOf?_addType, if_neg]
  · exact hr
  · rintro rfl
    simp [hnew] at hr

theorem memberOf?_addMember_of_some {key k : MemberKey} {v : Option MemberRef} {member : Member}
    (hnew : s.memberOf? key = none) (hv : s.memberOf? k = some v) :
    (s.addMember key member).memberOf? k = some v := by
  rw [memberOf?_addMember, if_neg]
  · exact hv
  · rintro rfl
    simp [hnew] at hv

theorem memberOf?_skipMember_of_some {key k : MemberKey} {v : Option MemberRef}
    (hnew : s.memberOf? key = none) (hv : s.memberOf? k = some v) :
    (s.skipMember key).memberOf? k = some v := by
  rw [memberOf?_skipMember, if_neg]
  · exact hv
  · rintro rfl
    simp [hnew] at hv

/-! ### What stands where -/

theorem nodeAt?_eq_some_lt {r : TypeRef} {node : TypeNode} (h : s.nodeAt? r = some node) :
    r.index < s.graph.types.size := by
  by_contra hr
  have := Arena.get?_eq_none_iff.2 (Nat.le_of_not_lt hr)
  simp [nodeAt?, this] at h

theorem memberAt?_eq_some_lt {r : MemberRef} {member : Member} (h : s.memberAt? r = some member) :
    r.index < s.graph.members.size := by
  by_contra hr
  have := Arena.get?_eq_none_iff.2 (Nat.le_of_not_lt hr)
  simp [memberAt?, this] at h

theorem exists_memberAt? {r : MemberRef} (h : r.index < s.graph.members.size) :
    ∃ member, s.memberAt? r = some member := by
  by_contra hn
  have := Arena.get?_eq_none_iff.1 (Option.eq_none_iff_forall_ne_some.2 fun m hm => hn ⟨m, hm⟩)
  omega

theorem exists_nodeAt? {r : TypeRef} (h : r.index < s.graph.types.size) :
    ∃ node, s.nodeAt? r = some node := by
  by_contra hn
  have := Arena.get?_eq_none_iff.1 (Option.eq_none_iff_forall_ne_some.2 fun m hm => hn ⟨m, hm⟩)
  omega

theorem nodeAt?_growType (node : TypeNode) (r : TypeRef) :
    (s.growType node).nodeAt? r = if r.index = s.graph.types.size then some node else s.nodeAt? r :=
  Arena.get?_push _ _ _

theorem nodeAt?_addType (t : TypeId) (node : TypeNode) (r : TypeRef) :
    (s.addType t node).nodeAt? r =
      if r.index = s.graph.types.size then some node else s.nodeAt? r :=
  Arena.get?_push _ _ _

theorem nodeAt?_putType (r : TypeRef) (node : TypeNode) (r' : TypeRef) :
    (s.putType r node).nodeAt? r' =
      if r = r' then (s.nodeAt? r').map fun _ => node else s.nodeAt? r' := by
  obtain ⟨i⟩ := r
  obtain ⟨j⟩ := r'
  simpa [nodeAt?, putType] using Arena.get?_replace s.graph.types i j node

@[simp] theorem nodeAt?_growMember (member : Member) (r : TypeRef) :
    (s.growMember member).nodeAt? r = s.nodeAt? r := rfl

@[simp] theorem nodeAt?_addMember (key : MemberKey) (member : Member) (r : TypeRef) :
    (s.addMember key member).nodeAt? r = s.nodeAt? r := rfl

@[simp] theorem nodeAt?_shareType (t : TypeId) (r' : TypeRef) (r : TypeRef) :
    (s.shareType t r').nodeAt? r = s.nodeAt? r := rfl

@[simp] theorem nodeAt?_skipMember (key : MemberKey) (r : TypeRef) :
    (s.skipMember key).nodeAt? r = s.nodeAt? r := rfl

@[simp] theorem nodeAt?_putMember (r' : MemberRef) (member : Member) (r : TypeRef) :
    (s.putMember r' member).nodeAt? r = s.nodeAt? r := rfl

theorem memberAt?_growMember (member : Member) (r : MemberRef) :
    (s.growMember member).memberAt? r =
      if r.index = s.graph.members.size then some member else s.memberAt? r :=
  Arena.get?_push _ _ _

theorem memberAt?_addMember (key : MemberKey) (member : Member) (r : MemberRef) :
    (s.addMember key member).memberAt? r =
      if r.index = s.graph.members.size then some member else s.memberAt? r :=
  Arena.get?_push _ _ _

theorem memberAt?_putMember (r : MemberRef) (member : Member) (r' : MemberRef) :
    (s.putMember r member).memberAt? r' =
      if r = r' then (s.memberAt? r').map fun _ => member else s.memberAt? r' := by
  obtain ⟨i⟩ := r
  obtain ⟨j⟩ := r'
  simpa [memberAt?, putMember] using Arena.get?_replace s.graph.members i j member

/-- What stands in a place after one was filled: what was put there, or in another what stood there before. -/
theorem memberAt?_of_putMember {r r' : MemberRef} {new member : Member}
    (h : (s.putMember r new).memberAt? r' = some member) :
    r = r' ∧ new = member ∨ r ≠ r' ∧ s.memberAt? r' = some member := by
  rw [memberAt?_putMember] at h
  split at h
  · next heq =>
    obtain ⟨_, -, rfl⟩ := Option.map_eq_some_iff.1 h
    exact .inl ⟨heq, rfl⟩
  · next hne => exact .inr ⟨hne, h⟩

theorem memberAt?_putMember_self {r : MemberRef} (h : r.index < s.graph.members.size)
    (member : Member) : (s.putMember r member).memberAt? r = some member := by
  obtain ⟨old, hold⟩ := exists_memberAt? h
  simp [memberAt?_putMember, hold]

/-- A place that gets what stands there stays as it is. -/
theorem putMember_self {r : MemberRef} {member : Member} (h : s.memberAt? r = some member) :
    s.putMember r member = s := by
  have hitems : s.graph.members.replace r.index member = s.graph.members := by
    unfold Arena.replace Arena.modify
    congr 1
    refine Array.ext_getElem? fun i => ?_
    rw [Array.getElem?_modify]
    split
    · next hi =>
      have hat : s.graph.members.items[r.index]? = some member := h
      rw [← hi, hat]
      rfl
    · rfl
  rw [putMember, hitems]

@[simp] theorem memberAt?_growType (node : TypeNode) (r : MemberRef) :
    (s.growType node).memberAt? r = s.memberAt? r := rfl

@[simp] theorem memberAt?_addType (t : TypeId) (node : TypeNode) (r : MemberRef) :
    (s.addType t node).memberAt? r = s.memberAt? r := rfl

@[simp] theorem memberAt?_shareType (t : TypeId) (r' : TypeRef) (r : MemberRef) :
    (s.shareType t r').memberAt? r = s.memberAt? r := rfl

@[simp] theorem memberAt?_skipMember (key : MemberKey) (r : MemberRef) :
    (s.skipMember key).memberAt? r = s.memberAt? r := rfl

@[simp] theorem memberAt?_putType (r' : TypeRef) (node : TypeNode) (r : MemberRef) :
    (s.putType r' node).memberAt? r = s.memberAt? r := rfl

/-! ### How much there is -/

@[simp] theorem types_growType (node : TypeNode) :
    (s.growType node).graph.types.size = s.graph.types.size + 1 := Arena.size_push _ _

@[simp] theorem types_addType (t : TypeId) (node : TypeNode) :
    (s.addType t node).graph.types.size = s.graph.types.size + 1 := Arena.size_push _ _

@[simp] theorem types_putType (r : TypeRef) (node : TypeNode) :
    (s.putType r node).graph.types.size = s.graph.types.size := Arena.size_replace _ _ _

@[simp] theorem types_growMember (member : Member) :
    (s.growMember member).graph.types = s.graph.types := rfl

@[simp] theorem types_addMember (key : MemberKey) (member : Member) :
    (s.addMember key member).graph.types = s.graph.types := rfl

@[simp] theorem graph_shareType (t : TypeId) (r : TypeRef) : (s.shareType t r).graph = s.graph := rfl

@[simp] theorem graph_skipMember (key : MemberKey) : (s.skipMember key).graph = s.graph := rfl

@[simp] theorem types_putMember (r : MemberRef) (member : Member) :
    (s.putMember r member).graph.types = s.graph.types := rfl

@[simp] theorem members_growMember (member : Member) :
    (s.growMember member).graph.members.size = s.graph.members.size + 1 := Arena.size_push _ _

@[simp] theorem members_addMember (key : MemberKey) (member : Member) :
    (s.addMember key member).graph.members.size = s.graph.members.size + 1 := Arena.size_push _ _

@[simp] theorem members_putMember (r : MemberRef) (member : Member) :
    (s.putMember r member).graph.members.size = s.graph.members.size := Arena.size_replace _ _ _

@[simp] theorem members_growType (node : TypeNode) :
    (s.growType node).graph.members = s.graph.members := rfl

@[simp] theorem members_addType (t : TypeId) (node : TypeNode) :
    (s.addType t node).graph.members = s.graph.members := rfl

@[simp] theorem members_putType (r : TypeRef) (node : TypeNode) :
    (s.putType r node).graph.members = s.graph.members := rfl

/-! ### Owners -/

/-- The first owner stays. -/
theorem ownerOf?_recordOwner (t : TypeId) (owner : MemberRef) (u : TypeId) : (s.recordOwner t owner).ownerOf? u =
    if u = t then (s.ownerOf? t).or (some owner) else s.ownerOf? u := by
  cases hold : s.ownerOf? t with
  | some r =>
    have hrecord : (s.recordOwner t owner).ownerOf? u = s.ownerOf? u := by
      simp only [recordOwner, hold]
      split <;> rfl
    rw [hrecord]
    split
    · next heq => rw [heq, hold]; rfl
    · rfl
  | none =>
    have hrecord : (s.recordOwner t owner).ownerOf? u = ((t, owner) :: s.typeParamOwners).lookup u := by
      simp only [recordOwner, hold]
      split <;> rfl
    rw [hrecord, lookup_cons_ite, Option.none_or]
    rfl

theorem ownerOf?_recordOwner_of_some {t u : TypeId} {owner r : MemberRef} (hr : s.ownerOf? u = some r) :
    (s.recordOwner t owner).ownerOf? u = some r := by
  rw [ownerOf?_recordOwner]
  split
  · next heq => rw [← heq, hr, Option.some_or]
  · exact hr

@[simp] theorem typeOf?_recordOwner (t : TypeId) (r : MemberRef) (u : TypeId) :
    (s.recordOwner t r).typeOf? u = s.typeOf? u := by
  simp only [recordOwner]
  split <;> split <;> rfl

@[simp] theorem memberOf?_recordOwner (t : TypeId) (r : MemberRef) (key : MemberKey) :
    (s.recordOwner t r).memberOf? key = s.memberOf? key := by
  simp only [recordOwner]
  split <;> split <;> rfl

@[simp] theorem members_recordOwner (t : TypeId) (r : MemberRef) :
    (s.recordOwner t r).graph.members = s.graph.members := by
  simp only [recordOwner]
  split <;> split <;> rfl

@[simp] theorem memberAt?_recordOwner (t : TypeId) (r r' : MemberRef) :
    (s.recordOwner t r).memberAt? r' = s.memberAt? r' := by
  simp only [memberAt?, members_recordOwner]

@[simp] theorem types_recordOwner (t : TypeId) (r : MemberRef) :
    (s.recordOwner t r).graph.types.size = s.graph.types.size := by
  simp only [recordOwner]
  split <;> split <;> simp

/-- A change of one node by a function that at most fills in an owner. -/
private theorem get?_modify_owner {types : Arena TypeNode} {f : TypeNode → TypeNode} {i : Nat}
    {owner : MemberRef} {r : TypeRef} {node : TypeNode} (h : types.get? r.index = some node)
    (hf : ∀ node, f node = node ∨
      ∃ name, node = .parameter name none ∧ f node = .parameter name (some owner)) :
    (types.modify i f).get? r.index = some node ∨ i = r.index ∧
      ∃ name, node = .parameter name none ∧
        (types.modify i f).get? r.index = some (.parameter name (some owner)) := by
  rw [Arena.get?_modify, h]
  by_cases hi : i = r.index
  · rcases hf node with hsame | ⟨name, hnode, hfill⟩
    · exact .inl (by simp [hsame])
    · exact .inr ⟨hi, name, hnode, by simp [hi, hfill]⟩
  · exact .inl (by simp [hi])

/-- Recording an owner changes the node of that type parameter only, and of it the owner only. -/
theorem nodeAt?_recordOwner {t : TypeId} {owner : MemberRef} {r : TypeRef} {node : TypeNode}
    (h : s.nodeAt? r = some node) :
    (s.recordOwner t owner).nodeAt? r = some node ∨
      s.typeOf? t = some r ∧ ∃ name, node = .parameter name none ∧
        (s.recordOwner t owner).nodeAt? r = some (.parameter name (some owner)) := by
  have hfill : ∀ s' : Session, s'.graph = s.graph → s'.typeMemo = s.typeMemo → ∀ r' f,
      s'.typeOf? t = some r' →
      (∀ node, f node = node ∨
        ∃ name, node = .parameter name none ∧ f node = .parameter name (some owner)) →
      (s'.graph.types.modify r'.index f).get? r.index = some node ∨
        s.typeOf? t = some r ∧ ∃ name, node = .parameter name none ∧
          (s'.graph.types.modify r'.index f).get? r.index = some (.parameter name (some owner)) := by
    intro s' hg hmemo r' f hr' hf
    rw [hg]
    rcases get?_modify_owner (i := r'.index) h hf with hsame | ⟨hi, hnode⟩
    · exact .inl hsame
    · refine .inr ⟨?_, hnode⟩
      have : r' = r := by
        cases r
        cases r'
        simpa using hi
      rwa [← this, typeOf?, ← hmemo]
  unfold recordOwner
  split <;> dsimp only <;> split
  -- whether or not the owner is new, the node is changed in the same way
  case h_1 | h_1 =>
    refine hfill _ rfl rfl _ _ ‹_› fun node => ?_
    cases node with
    | parameter name declaredBy => cases declaredBy <;> simp
    | _ => simp
  all_goals exact .inl h

end Session

end ApiDoc
