import ApiDoc.Proofs.Memos
import ApiDoc.Proofs.Sharing

/-!
# Sessions that continue others

A later session *recalls* an earlier one if its memos have entries in front of the old ones only, and if nodes that
are no type's have stayed as they were (`Session.Recalls`).  It *continues* it if members that are no key's have
stayed as they were, too, and if overloads that are listed since are new (`Session.Continues`): such a member is never
touched by anybody but who made it.  This says less than `Session.Extends`, but it needs nothing to be known of the
session, so it holds between any two moments of a run, failed or not.

In a session that requests lead to, no entry of a memo hides another.  What holds of every such session from some
moment on holds *henceforth* (`Session.Henceforth`), and entries are what is found henceforth.
-/

namespace ApiDoc

namespace Session

/-- A node that no entry leads to. -/
def NodeAside (s : Session) (r : TypeRef) : Prop :=
  r.index < s.graph.types.size ∧ ∀ t, (t, r) ∉ s.typeMemo

/-- A member that no entry leads to. -/
def MemberAside (s : Session) (r : MemberRef) : Prop :=
  r.index < s.graph.members.size ∧ ∀ key, (key, some r) ∉ s.memberMemo

/-- A member has this one among its overloads. -/
def Lists (s : Session) (o : MemberRef) : Prop := ∃ r member, s.memberAt? r = some member ∧ o ∈ member.overloads

/-- A member that no entry leads to and no member lists: whoever has made it may still change it. -/
structure Unclaimed (s : Session) (o : MemberRef) : Prop where
  aside : s.MemberAside o
  unlisted : ¬ s.Lists o

/-- Entries are only put in front of those there are, and nodes that stand aside stay as they are. -/
structure Recalls (s s' : Session) : Prop where
  typeMemo : s.typeMemo <:+ s'.typeMemo
  memberMemo : s.memberMemo <:+ s'.memberMemo
  types_le : s.graph.types.size ≤ s'.graph.types.size
  members_le : s.graph.members.size ≤ s'.graph.members.size
  node {r} : s.NodeAside r → s'.NodeAside r ∧ s'.nodeAt? r = s.nodeAt? r

/-- Members that stand aside stay as they are, too, and what is listed as an overload since is new. -/
structure Continues (s s' : Session) : Prop extends s.Recalls s' where
  member {o} : s.MemberAside o → s'.MemberAside o ∧ s'.memberAt? o = s.memberAt? o
  listed {o} : s'.Lists o → s.Lists o ∨ s.graph.members.size ≤ o.index

/-- Entries lead somewhere, and those of different keys to different members; overloads are there. -/
structure Anchored (s : Session) : Prop where
  types {t r} : (t, r) ∈ s.typeMemo → r.index < s.graph.types.size
  members {key r} : (key, some r) ∈ s.memberMemo → r.index < s.graph.members.size
  apart {key key' r} : (key, some r) ∈ s.memberMemo → (key', some r) ∈ s.memberMemo → key = key'
  listed {o} : s.Lists o → o.index < s.graph.members.size

/-- Something holds of every session from now on in which no entry hides another. -/
def Henceforth (s : Session) (P : Session → Prop) : Prop := ∀ s', s.Recalls s' → s'.Single → P s'

variable {s s' s'' : Session} {P Q : Session → Prop} {t : TypeId} {r : TypeRef} {key : MemberKey}
  {o : MemberRef} {v : Option MemberRef} {node : TypeNode} {member : Member}

/-! ### Entries -/

theorem mem_of_typeOf? (h : s.typeOf? t = some r) : (t, r) ∈ s.typeMemo := mem_of_lookup h

theorem mem_of_memberOf? (h : s.memberOf? key = some v) : (key, v) ∈ s.memberMemo := mem_of_lookup h

/-! ### Overloads -/

theorem lists_congr (h : s'.graph.members = s.graph.members) : s'.Lists o ↔ s.Lists o := by
  unfold Lists memberAt?
  rw [h]

/-- A new member that lists nothing changes nothing about who is listed. -/
theorem Lists.of_grown (h : s'.Lists o) (hnone : member.overloads = [])
    (hat : ∀ r, s'.memberAt? r = if r.index = s.graph.members.size then some member else s.memberAt? r) :
    s.Lists o := by
  obtain ⟨r, listing, hr, ho⟩ := h
  rw [hat] at hr
  split at hr
  · obtain rfl := Option.some.inj hr
    simp [hnone] at ho
  · exact ⟨r, listing, hr, ho⟩

/-- Whoever is listed after some members have changed was listed before, or is listed by one of these. -/
theorem Lists.of_differs {os : List MemberRef} (h : s'.Lists o) (hd : s.DiffersAt os s') :
    s.Lists o ∨ ∃ o' ∈ os, ∃ member, s'.memberAt? o' = some member ∧ o ∈ member.overloads := by
  obtain ⟨r, listing, hr, ho⟩ := h
  by_cases hmem : r ∈ os
  · exact .inr ⟨r, hmem, listing, hr, ho⟩
  · rw [hd.memberAt hmem] at hr
    exact .inl ⟨r, listing, hr, ho⟩

/-- Nobody claims a member after some have changed that list nobody. -/
theorem Unclaimed.differs {os : List MemberRef} (h : s.Unclaimed o) (hd : s.DiffersAt os s')
    (hbare : ∀ o ∈ os, ∀ member, s'.memberAt? o = some member → member.overloads = []) : s'.Unclaimed o where
  aside := ⟨hd.size ▸ h.aside.1, hd.memberMemo ▸ h.aside.2⟩
  unlisted hlisted := by
    rcases hlisted.of_differs hd with hold | ⟨o', ho', member, hmember, hmem⟩
    · exact h.unlisted hold
    · simp [hbare o' ho' member hmember] at hmem

/-! ### What recalls a session -/

namespace Recalls

theorem refl (s : Session) : s.Recalls s where
  typeMemo := List.suffix_rfl
  memberMemo := List.suffix_rfl
  types_le := Nat.le_refl _
  members_le := Nat.le_refl _
  node h := ⟨h, rfl⟩

theorem trans (h : s.Recalls s') (h' : s'.Recalls s'') : s.Recalls s'' where
  typeMemo := h.typeMemo.trans h'.typeMemo
  memberMemo := h.memberMemo.trans h'.memberMemo
  types_le := Nat.le_trans h.types_le h'.types_le
  members_le := Nat.le_trans h.members_le h'.members_le
  node hr := by
    obtain ⟨hr', hsame⟩ := h.node hr
    obtain ⟨hr'', hsame'⟩ := h'.node hr'
    exact ⟨hr'', hsame'.trans hsame⟩

theorem type_mem (h : s.Recalls s') (ht : (t, r) ∈ s.typeMemo) : (t, r) ∈ s'.typeMemo :=
  h.typeMemo.subset ht

theorem member_mem (h : s.Recalls s') (hv : (key, v) ∈ s.memberMemo) : (key, v) ∈ s'.memberMemo :=
  h.memberMemo.subset hv

/-- Where the same is remembered of types and the same nodes stand. -/
theorem of_members (hmembers : s.memberMemo <:+ s'.memberMemo)
    (hle : s.graph.members.size ≤ s'.graph.members.size) (hmemo : s'.typeMemo = s.typeMemo)
    (htypes : s'.graph.types = s.graph.types) : s.Recalls s' where
  typeMemo := hmemo ▸ List.suffix_rfl
  memberMemo := hmembers
  types_le := htypes ▸ Nat.le_refl _
  members_le := hle
  node hr := by
    refine ⟨⟨htypes ▸ hr.1, fun t => hmemo ▸ hr.2 t⟩, ?_⟩
    rw [nodeAt?, nodeAt?, htypes]

theorem differs {os : List MemberRef} (hd : s.DiffersAt os s') : s.Recalls s' :=
  of_members (hd.memberMemo ▸ List.suffix_rfl) (Nat.le_of_eq hd.size.symm) hd.typeMemo hd.types

end Recalls

/-! ### What continues a session -/

namespace Continues

theorem refl (s : Session) : s.Continues s where
  toRecalls := .refl s
  member h := ⟨h, rfl⟩
  listed := .inl

theorem trans (h : s.Continues s') (h' : s'.Continues s'') : s.Continues s'' where
  toRecalls := h.toRecalls.trans h'.toRecalls
  member ho := by
    obtain ⟨ho', hsame⟩ := h.member ho
    obtain ⟨ho'', hsame'⟩ := h'.member ho'
    exact ⟨ho'', hsame'.trans hsame⟩
  listed ho := by
    rcases h'.listed ho with ho' | hnew
    · exact h.listed ho'
    · exact .inr (Nat.le_trans h.members_le hnew)

theorem unclaimed (h : s.Continues s') (ho : s.Unclaimed o) :
    s'.Unclaimed o ∧ s'.memberAt? o = s.memberAt? o := by
  obtain ⟨haside, hsame⟩ := h.member ho.aside
  refine ⟨⟨haside, fun hlisted => ?_⟩, hsame⟩
  rcases h.listed hlisted with hold | hnew
  · exact ho.unlisted hold
  · exact absurd ho.aside.1 (Nat.not_lt_of_le hnew)

/-- A change that leaves the members and what is remembered of them as they are. -/
theorem of_types (htypes : s.typeMemo <:+ s'.typeMemo) (hle : s.graph.types.size ≤ s'.graph.types.size)
    (hnode : ∀ {r}, s.NodeAside r → s'.NodeAside r ∧ s'.nodeAt? r = s.nodeAt? r)
    (hmemo : s'.memberMemo = s.memberMemo) (hmembers : s'.graph.members = s.graph.members) : s.Continues s' where
  typeMemo := htypes
  memberMemo := hmemo ▸ List.suffix_rfl
  types_le := hle
  members_le := hmembers ▸ Nat.le_refl _
  node := hnode
  member ho := by
    refine ⟨⟨hmembers ▸ ho.1, fun key => hmemo ▸ ho.2 key⟩, ?_⟩
    rw [memberAt?, memberAt?, hmembers]
  listed ho := .inl ((lists_congr hmembers).1 ho)

/-! ### Changes of types -/

theorem growType (s : Session) (node : TypeNode) : s.Continues (s.growType node) := by
  refine of_types List.suffix_rfl (by simp) (fun {r} hr => ⟨⟨?_, hr.2⟩, ?_⟩) rfl rfl
  · simpa using Nat.lt_succ_of_lt hr.1
  · rw [nodeAt?_growType, if_neg (Nat.ne_of_lt hr.1)]

theorem addType (s : Session) (t : TypeId) (node : TypeNode) : s.Continues (s.addType t node) := by
  refine of_types (List.suffix_cons _ _) (by simp) (fun {r} hr => ⟨⟨?_, fun u hu => ?_⟩, ?_⟩) rfl rfl
  · simpa using Nat.lt_succ_of_lt hr.1
  · rcases List.mem_cons.1 hu with heq | hu
    · obtain rfl := (Prod.mk.inj heq).2
      exact Nat.lt_irrefl _ hr.1
    · exact hr.2 u hu
  · rw [nodeAt?_addType, if_neg (Nat.ne_of_lt hr.1)]

theorem shareType (ht : (t, r) ∈ s.typeMemo) (u : TypeId) : s.Continues (s.shareType u r) := by
  refine of_types (List.suffix_cons _ _) (by simp) (fun {r'} hr' => ⟨⟨hr'.1, fun v hv => ?_⟩, rfl⟩) rfl rfl
  rcases List.mem_cons.1 hv with heq | hv
  · obtain rfl := (Prod.mk.inj heq).2
    exact hr'.2 t ht
  · exact hr'.2 v hv

theorem putType (ht : (t, r) ∈ s.typeMemo) (node : TypeNode) : s.Continues (s.putType r node) := by
  refine of_types List.suffix_rfl (by simp) (fun {r'} hr' => ⟨⟨?_, hr'.2⟩, ?_⟩) rfl rfl
  · simpa using hr'.1
  · rw [nodeAt?_putType, if_neg]
    rintro rfl
    exact hr'.2 t ht

theorem recordOwner (s : Session) (t : TypeId) (o : MemberRef) : s.Continues (s.recordOwner t o) := by
  refine of_types (by simp) (by simp) (fun {r} hr => ⟨⟨?_, ?_⟩, ?_⟩) (by simp) (by simp)
  · simpa using hr.1
  · simpa using hr.2
  · obtain ⟨node, hnode⟩ := exists_nodeAt? hr.1
    rcases @nodeAt?_recordOwner s t o r node hnode with hsame | ⟨hfound, -⟩
    · rw [hsame, hnode]
    · exact absurd (mem_of_typeOf? hfound) (hr.2 t)

/-! ### Changes of members -/

theorem growMember (s : Session) (name : String) : s.Continues (s.growMember (.placeholder name)) where
  toRecalls := .of_members List.suffix_rfl (by simp) rfl rfl
  member {o} ho := by
    refine ⟨⟨by simpa using Nat.lt_succ_of_lt ho.1, ho.2⟩, ?_⟩
    rw [memberAt?_growMember, if_neg (Nat.ne_of_lt ho.1)]
  listed ho := .inl (ho.of_grown rfl fun _ => memberAt?_growMember ..)

theorem addMember (s : Session) (key : MemberKey) (name : String) :
    s.Continues (s.addMember key (.placeholder name)) where
  toRecalls := .of_members (List.suffix_cons _ _) (by simp) rfl rfl
  member {o} ho := by
    refine ⟨⟨by simpa using Nat.lt_succ_of_lt ho.1, fun k hk => ?_⟩, ?_⟩
    · rcases List.mem_cons.1 hk with heq | hk
      · obtain rfl := Option.some.inj (Prod.mk.inj heq).2
        exact Nat.lt_irrefl _ ho.1
      · exact ho.2 k hk
    · rw [memberAt?_addMember, if_neg (Nat.ne_of_lt ho.1)]
  listed ho := .inl (ho.of_grown rfl fun _ => memberAt?_addMember ..)

theorem skipMember (s : Session) (key : MemberKey) : s.Continues (s.skipMember key) where
  toRecalls := .of_members (List.suffix_cons _ _) (Nat.le_refl _) rfl rfl
  member {o} ho := by
    refine ⟨⟨ho.1, fun k hk => ?_⟩, rfl⟩
    rcases List.mem_cons.1 hk with heq | hk
    · exact nomatch (Prod.mk.inj heq).2
    · exact ho.2 k hk
  listed := .inl

/-- Members change that did not stand aside: those in the places of keys, or where there were none before.  What they
list was listed already or is new. -/
theorem differs {os : List MemberRef} (h : s.Continues s') (hd : s'.DiffersAt os s'')
    (hos : ∀ o ∈ os, (∃ key, (key, some o) ∈ s'.memberMemo) ∨ s.graph.members.size ≤ o.index)
    (hlists : ∀ o ∈ os, ∀ member, s''.memberAt? o = some member → ∀ o' ∈ member.overloads,
      s'.Lists o' ∨ s.graph.members.size ≤ o'.index) :
    s.Continues s'' where
  toRecalls := h.toRecalls.trans (.differs hd)
  member {o} ho := by
    obtain ⟨haside, hsame⟩ := h.member ho
    have hother : o ∉ os := by
      intro hmem
      rcases hos o hmem with ⟨key, hkey⟩ | hnew
      · exact haside.2 key hkey
      · exact absurd ho.1 (Nat.not_lt_of_le hnew)
    refine ⟨⟨hd.size ▸ haside.1, hd.memberMemo ▸ haside.2⟩, ?_⟩
    rw [hd.memberAt hother, hsame]
  listed ho := by
    rcases ho.of_differs hd with hlisted | ⟨o', ho', member, hmember, hmem⟩
    · exact h.listed hlisted
    · rcases hlists o' ho' member hmember _ hmem with hlisted | hnew
      · exact h.listed hlisted
      · exact .inr hnew

end Continues

/-! ### Sessions in which entries lead somewhere -/

namespace Anchored

theorem empty : ({} : Session).Anchored where
  types h := by simp at h
  members h := by simp at h
  apart h := by simp at h
  listed h := by
    obtain ⟨r, member, hr, -⟩ := h
    exact absurd (memberAt?_eq_some_lt hr) (Nat.not_lt_zero _)

theorem growType (h : s.Anchored) (node : TypeNode) : (s.growType node).Anchored where
  types ht := by simpa using Nat.lt_succ_of_lt (h.types ht)
  members := h.members
  apart := h.apart
  listed := h.listed

theorem addType (h : s.Anchored) (t : TypeId) (node : TypeNode) : (s.addType t node).Anchored where
  types {u r} hu := by
    rw [types_addType]
    rcases List.mem_cons.1 hu with heq | hu
    · obtain rfl := (Prod.mk.inj heq).2
      exact Nat.lt_succ_self _
    · exact Nat.lt_succ_of_lt (h.types hu)
  members := h.members
  apart := h.apart
  listed := h.listed

theorem shareType (h : s.Anchored) (ht : (t, r) ∈ s.typeMemo) (u : TypeId) : (s.shareType u r).Anchored where
  types {v r'} hv := by
    rcases List.mem_cons.1 hv with heq | hv
    · obtain rfl := (Prod.mk.inj heq).2
      exact h.types ht
    · exact h.types hv
  members := h.members
  apart := h.apart
  listed := h.listed

theorem putType (h : s.Anchored) (r : TypeRef) (node : TypeNode) : (s.putType r node).Anchored where
  types ht := by simpa using h.types ht
  members := h.members
  apart := h.apart
  listed := h.listed

theorem recordOwner (h : s.Anchored) (t : TypeId) (o : MemberRef) : (s.recordOwner t o).Anchored where
  types ht := by simpa using h.types (by simpa using ht)
  members hr := by simpa using h.members (by simpa using hr)
  apart hr hr' := h.apart (by simpa using hr) (by simpa using hr')
  listed ho := by simpa using h.listed ((lists_congr (by simp)).1 ho)

theorem growMember (h : s.Anchored) (name : String) : (s.growMember (.placeholder name)).Anchored where
  types := h.types
  members hr := by simpa using Nat.lt_succ_of_lt (h.members hr)
  apart := h.apart
  listed ho := by simpa using Nat.lt_succ_of_lt (h.listed (ho.of_grown rfl fun _ => memberAt?_growMember ..))

theorem addMember (h : s.Anchored) (key : MemberKey) (name : String) :
    (s.addMember key (.placeholder name)).Anchored where
  types := h.types
  members {k o} hk := by
    rw [members_addMember]
    rcases List.mem_cons.1 hk with heq | hk
    · obtain rfl := Option.some.inj (Prod.mk.inj heq).2
      exact Nat.lt_succ_self _
    · exact Nat.lt_succ_of_lt (h.members hk)
  apart {k k' o} hk hk' := by
    rcases List.mem_cons.1 hk with heq | hk
    · obtain ⟨rfl, hnew⟩ := Prod.mk.inj heq
      obtain rfl := Option.some.inj hnew
      rcases List.mem_cons.1 hk' with heq' | hk'
      · exact (Prod.mk.inj heq').1.symm
      · exact absurd (h.members hk') (Nat.lt_irrefl _)
    · rcases List.mem_cons.1 hk' with heq' | hk'
      · obtain rfl := Option.some.inj (Prod.mk.inj heq').2
        exact absurd (h.members hk) (Nat.lt_irrefl _)
      · exact h.apart hk hk'
  listed ho := by simpa using Nat.lt_succ_of_lt (h.listed (ho.of_grown rfl fun _ => memberAt?_addMember ..))

theorem skipMember (h : s.Anchored) (key : MemberKey) : (s.skipMember key).Anchored where
  types := h.types
  members {k o} hk := by
    rcases List.mem_cons.1 hk with heq | hk
    · exact nomatch (Prod.mk.inj heq).2
    · exact h.members hk
  apart {k k' o} hk hk' := by
    rcases List.mem_cons.1 hk with heq | hk
    · exact nomatch (Prod.mk.inj heq).2
    · rcases List.mem_cons.1 hk' with heq' | hk'
      · exact nomatch (Prod.mk.inj heq').2
      · exact h.apart hk hk'
  listed := h.listed

theorem differs {os : List MemberRef} (h : s.Anchored) (hd : s.DiffersAt os s')
    (hlists : ∀ o ∈ os, ∀ member, s'.memberAt? o = some member → ∀ o' ∈ member.overloads,
      o'.index < s.graph.members.size) : s'.Anchored where
  types ht := hd.types ▸ h.types (hd.typeMemo ▸ ht)
  members hr := hd.size ▸ h.members (hd.memberMemo ▸ hr)
  apart hr hr' := h.apart (hd.memberMemo ▸ hr) (hd.memberMemo ▸ hr')
  listed ho := by
    rw [hd.size]
    rcases ho.of_differs hd with hlisted | ⟨o', ho', member, hmember, hmem⟩
    · exact h.listed hlisted
    · exact hlists o' ho' member hmember _ hmem

end Anchored

/-! ### What holds henceforth -/

namespace Henceforth

theorem mono (h : s.Henceforth P) (hs : s.Recalls s') : s'.Henceforth P :=
  fun s'' hs' => h s'' (hs.trans hs')

theorem imp (h : s.Henceforth P) (himp : ∀ s', s'.Single → P s' → Q s') : s.Henceforth Q :=
  fun s' hs' hsingle => himp s' hsingle (h s' hs' hsingle)

theorem typeOf (h : (t, r) ∈ s.typeMemo) : s.Henceforth fun s' => s'.typeOf? t = some r :=
  fun _ hs hsingle => hsingle.typeOf (hs.type_mem h)

/-- A node that stands aside stays nobody's. -/
theorem fresh (h : s.NodeAside r) (hnode : s.nodeAt? r = some .mixed) : s.Henceforth fun s' => s'.IsFresh r := by
  intro s' hs _
  obtain ⟨haside, hsame⟩ := hs.node h
  exact ⟨hsame.trans hnode, fun t ht => haside.2 t (mem_of_typeOf? ht)⟩

end Henceforth

end Session

end ApiDoc
