import ApiDoc.Proofs.Contents.Ranges

/-!
# Overloads belong to one method

The further declarations of a method get members that no key leads to.  Such a member is listed by one method at
most and owns nothing itself (`Session.Apart`).  Between the moment it is made and the moment its method is put in
its place nobody lists it at all: it is *spare*.

Each way of changing a session keeps overloads apart; a member that is put in a place may list spare ones.
-/

namespace ApiDoc

/-- The further declarations of a method, as members of their own. -/
def Member.overloads (m : Member) : List MemberRef :=
  match m.body with
  | .method f => f.overloads
  | _ => []

theorem Member.overloads_subset_children (m : Member) : m.overloads ⊆ m.children := by
  unfold overloads children
  split <;> simp_all

theorem Member.overloads_eq_nil {m : Member} (h : m.children = []) : m.overloads = [] :=
  List.eq_nil_iff_forall_not_mem.2 fun _ ho => by simpa [h] using m.overloads_subset_children ho

@[simp]
theorem Member.children_placeholder (name : String) : (placeholder name).children = [] := rfl

namespace Session

/-- A member that is nobody's, and no method's overload either. -/
structure IsSpare (s : Session) (o : MemberRef) : Prop where
  loose : s.IsLoose o
  unlisted {r member} : s.memberAt? r = some member → o ∉ member.overloads

/-- Overloads are nobody's, belong to one method each and own nothing; those that are `held` belong to none
yet. -/
structure Apart (held : MemberRef → Prop) (s : Session) : Prop where
  loose {r member o} : s.memberAt? r = some member → o ∈ member.overloads → s.IsLoose o
  nodup {r member} : s.memberAt? r = some member → member.overloads.Nodup
  once {r r' member member' o} : s.memberAt? r = some member → s.memberAt? r' = some member' →
    o ∈ member.overloads → o ∈ member'.overloads → r = r'
  held {o} : held o → s.IsSpare o
  bare {r member} : s.IsLoose r → s.memberAt? r = some member → member.children = []

/-- Members that a method may have as its overloads: different spare ones that are not held for another. -/
structure MayList (held : MemberRef → Prop) (s : Session) (os : List MemberRef) : Prop where
  nodup : os.Nodup
  spare {o} : o ∈ os → s.IsSpare o
  free {o} : o ∈ os → ¬ held o

theorem MayList.nil (held : MemberRef → Prop) (s : Session) : MayList held s [] := by
  constructor <;> simp

/-- One more overload, when the others were found while it was held. -/
theorem MayList.cons {held : MemberRef → Prop} {s : Session} {o : MemberRef} {os : List MemberRef}
    (ho : MayList held s [o]) (hos : MayList (fun o' => held o' ∨ o' ∈ [o]) s os) : MayList held s (o :: os) where
  nodup := List.nodup_cons.2 ⟨fun hmem => hos.free hmem (.inr (by simp)), hos.nodup⟩
  spare hmem := by
    rcases List.mem_cons.1 hmem with rfl | hmem
    · exact ho.spare (by simp)
    · exact hos.spare hmem
  free hmem hheld := by
    rcases List.mem_cons.1 hmem with rfl | hmem
    · exact ho.free (by simp) hheld
    · exact hos.free hmem (.inl hheld)

variable {s s' : Session} {held held' : MemberRef → Prop}

/-- What is nobody's after a change was nobody's before, if it was there. -/
theorem Keeps.loose_of (hs : s.Keeps s') {r : MemberRef} (hr : s'.IsLoose r)
    (hlt : r.index < s.graph.members.size) : s.IsLoose r :=
  ⟨hlt, fun key hkey => hr.2 key (hs.memberOf hkey)⟩

namespace Apart

theorem empty : ({} : Session).Apart fun _ => False := by
  have hnone (r : MemberRef) : ({} : Session).memberAt? r = none := rfl
  constructor <;> simp [hnone]

theorem weaken (h : s.Apart held) (himp : ∀ o, held' o → held o) : s.Apart held' :=
  ⟨h.loose, h.nodup, h.once, fun ho => h.held (himp _ ho), h.bare⟩

/-- Spare members can be held. -/
theorem hold (h : s.Apart held) {os : List MemberRef} (hos : ∀ o ∈ os, s.IsSpare o) :
    s.Apart fun o => held o ∨ o ∈ os :=
  ⟨h.loose, h.nodup, h.once, fun ho => ho.elim h.held (hos _), h.bare⟩

/-- Where the same members stand. -/
theorem of_same (h : s.Apart held) (hs : s.Keeps s') (hat : ∀ r, s'.memberAt? r = s.memberAt? r) :
    s'.Apart held where
  loose hr ho := hs.loose (h.loose (hat _ ▸ hr) ho)
  nodup hr := h.nodup (hat _ ▸ hr)
  once hr hr' := h.once (hat _ ▸ hr) (hat _ ▸ hr')
  held ho := ⟨hs.loose (h.held ho).loose, fun hr => (h.held ho).unlisted (hat _ ▸ hr)⟩
  bare hr hmember :=
    have hold := hat _ ▸ hmember
    h.bare (hs.loose_of hr (memberAt?_eq_some_lt hold)) hold

/-- Where one more member stands, which owns nothing. -/
theorem of_grown (h : s.Apart held) (hs : s.Keeps s') {member : Member} (hmember : member.children = [])
    (hat : ∀ r, s'.memberAt? r = if r.index = s.graph.members.size then some member else s.memberAt? r) :
    s'.Apart held := by
  have hcases {r : MemberRef} {m : Member} (hr : s'.memberAt? r = some m) :
      s.memberAt? r = some m ∨ m = member := by
    rw [hat] at hr
    split at hr
    · exact .inr (Option.some.inj hr).symm
    · exact .inl hr
  have hnone : member.overloads = [] := member.overloads_eq_nil hmember
  have hlisted {r : MemberRef} {m : Member} {o : MemberRef} (hr : s'.memberAt? r = some m)
      (ho : o ∈ m.overloads) : s.memberAt? r = some m := by
    rcases hcases hr with hold | rfl
    · exact hold
    · simp [hnone] at ho
  refine ⟨fun hr ho => hs.loose (h.loose (hlisted hr ho) ho), fun hr => ?_,
    fun hr hr' ho ho' => h.once (hlisted hr ho) (hlisted hr' ho') ho ho',
    fun ho => ⟨hs.loose (h.held ho).loose, fun hr hmem => (h.held ho).unlisted (hlisted hr hmem) hmem⟩,
    fun hr hm => ?_⟩
  · rcases hcases hr with hold | rfl
    · exact h.nodup hold
    · simp [hnone]
  · rcases hcases hm with hold | rfl
    · exact h.bare (hs.loose_of hr (memberAt?_eq_some_lt hold)) hold
    · exact hmember

/-- A new member that no key leads to may become an overload. -/
theorem mayList_new (h : s.Apart held) (hrange : s.InRange) {member : Member} (hmember : member.children = []) :
    MayList held (s.growMember member) [⟨s.graph.members.size⟩] := by
  have hbefore {o : MemberRef} (ho : s.IsLoose o) : o ≠ ⟨s.graph.members.size⟩ := by
    rintro rfl
    exact Nat.lt_irrefl _ ho.1
  refine ⟨by simp, fun ho => ?_, fun ho hheld => ?_⟩
  · obtain rfl := List.mem_singleton.1 ho
    refine ⟨⟨by simp, fun key hkey => ?_⟩, fun {r m} hr hmem => ?_⟩
    · rw [memberOf?_growMember] at hkey
      exact Nat.lt_irrefl _ (hrange.memberOf hkey)
    · rw [memberAt?_growMember] at hr
      split at hr
      · obtain rfl := Option.some.inj hr
        simp [member.overloads_eq_nil hmember] at hmem
      · exact hbefore (h.loose hr hmem) rfl
  · exact hbefore (h.held hheld).loose (List.mem_singleton.1 ho)

/-- A member that is put in a place lists what the one before it did, or what it may list; in a place that is
nobody's it owns nothing. -/
theorem putMember (h : s.Apart held) {r : MemberRef} {member : Member}
    (hbare : s.IsLoose r → member.children = [])
    (hlists : MayList held s member.overloads ∨ ∃ old, s.memberAt? r = some old ∧ member.overloads = old.overloads) :
    (s.putMember r member).Apart held := by
  have hs := Keeps.putMember s r member
  have hloose {o : MemberRef} (ho : o ∈ member.overloads) : s.IsLoose o := by
    rcases hlists with hmay | ⟨old, hold, heq⟩
    · exact (hmay.spare ho).loose
    · exact h.loose hold (heq ▸ ho)
  have hnodup : member.overloads.Nodup := by
    rcases hlists with hmay | ⟨old, hold, heq⟩
    · exact hmay.nodup
    · exact heq ▸ h.nodup hold
  -- no other member lists what the new one lists
  have hothers {r' : MemberRef} {m : Member} {o : MemberRef} (hr : r ≠ r') (hm : s.memberAt? r' = some m)
      (ho : o ∈ m.overloads) : o ∉ member.overloads := by
    intro ho'
    rcases hlists with hmay | ⟨old, hold, heq⟩
    · exact (hmay.spare ho').unlisted hm ho
    · exact hr (h.once hold hm (heq ▸ ho') ho)
  have hheld {o : MemberRef} (ho : held o) : o ∉ member.overloads := by
    intro ho'
    rcases hlists with hmay | ⟨old, hold, heq⟩
    · exact hmay.free ho' ho
    · exact (h.held ho).unlisted hold (heq ▸ ho')
  refine ⟨fun hr ho => hs.loose ?_, fun hr => ?_, fun hr hr' ho ho' => ?_, fun ho => ⟨hs.loose (h.held ho).loose,
    fun hr hmem => ?_⟩, fun hr hm => ?_⟩
  · rcases memberAt?_of_putMember hr with ⟨-, rfl⟩ | ⟨-, hold⟩
    · exact hloose ho
    · exact h.loose hold ho
  · rcases memberAt?_of_putMember hr with ⟨-, rfl⟩ | ⟨-, hold⟩
    · exact hnodup
    · exact h.nodup hold
  · rcases memberAt?_of_putMember hr with ⟨rfl, rfl⟩ | ⟨hne, hold⟩ <;>
      rcases memberAt?_of_putMember hr' with ⟨rfl, rfl⟩ | ⟨hne', hold'⟩
    · rfl
    · exact absurd ho (hothers hne' hold' ho')
    · exact absurd ho' (hothers hne hold ho)
    · exact h.once hold hold' ho ho'
  · rcases memberAt?_of_putMember hr with ⟨-, rfl⟩ | ⟨-, hold⟩
    · exact hheld ho hmem
    · exact (h.held ho).unlisted hold hmem
  · have hold := hs.loose_of hr (by simpa using memberAt?_eq_some_lt hm)
    rcases memberAt?_of_putMember hm with ⟨rfl, rfl⟩ | ⟨-, hat⟩
    · exact hbare hold
    · exact h.bare hold hat

end Apart

end Session

end ApiDoc
