import ApiDoc.Proofs.Backfill.Texts
import ApiDoc.Proofs.Origin.Members

/-!
# Members in other words

Linking a member to what it overrides changes what is said about it, and nothing else of what was built.  So whatever
stands in the place of a key, and is no placeholder, retells what was built for it (`Environment.Origin.retells`).
-/

namespace ApiDoc

/-- A member is another one in other words: it has its name, visibility and place, and the same body but for what is
said about it. -/
structure Member.Retells (member raw : Member) : Prop where
  name : member.name = raw.name
  visibility : member.visibility = raw.visibility
  location : member.location = raw.location
  body : member.body.untold = raw.body.untold

namespace Member.Retells

variable {member raw other : Member}

theorem refl (member : Member) : member.Retells member := ⟨rfl, rfl, rfl, rfl⟩

theorem trans (h : member.Retells raw) (h' : raw.Retells other) : member.Retells other :=
  ⟨h.name.trans h'.name, h.visibility.trans h'.visibility, h.location.trans h'.location, h.body.trans h'.body⟩

theorem of_untold (h : member.untold = raw.untold) : member.Retells raw where
  name := by simpa only [Member.untold] using congrArg Member.name h
  visibility := by simpa only [Member.untold] using congrArg Member.visibility h
  location := by simpa only [Member.untold] using congrArg Member.location h
  body := by simpa only [Member.untold] using congrArg Member.body h

/-- What retells a method is one. -/
theorem method (h : member.Retells raw) {g : Method} (hg : raw.body = .method g) :
    ∃ f, member.body = .method f ∧ f.untold = g.untold := by
  have hbody := h.body
  rw [hg] at hbody
  cases hf : member.body with
  | method f =>
    rw [hf] at hbody
    exact ⟨f, rfl, MemberBody.method.inj hbody⟩
  | _ => simp [hf, MemberBody.untold] at hbody

/-- What retells a class lists the same members. -/
theorem classLike (h : member.Retells raw) {c : ClassBody} (hc : raw.body = .classLike c) :
    ∃ params, member.body = .classLike { c with typeParameters := params } := by
  have hbody := h.body
  rw [hc] at hbody
  cases hc' : member.body with
  | classLike c' =>
    rw [hc'] at hbody
    have hsame := MemberBody.classLike.inj hbody
    cases c
    cases c'
    simp only [ClassBody.mk.injEq] at hsame
    obtain ⟨rfl, -, rfl, rfl, rfl, rfl, rfl, rfl, rfl, rfl⟩ := hsame
    exact ⟨_, rfl⟩
  | _ => simp [hc', MemberBody.untold] at hbody

/-- What retells an enum is the same enum. -/
theorem enumeration (h : member.Retells raw) {e : EnumBody} (he : raw.body = .enumeration e) :
    member.body = .enumeration e := by
  have hbody := h.body
  rw [he] at hbody
  cases he' : member.body <;> simp_all [MemberBody.untold]

/-- What retells a field is the same field. -/
theorem field (h : member.Retells raw) {f : Field} (hf : raw.body = .field f) : member.body = .field f := by
  have hbody := h.body
  rw [hf] at hbody
  cases hf' : member.body <;> simp_all [MemberBody.untold]

end Member.Retells

namespace Environment

variable {env : Environment} {s : Session} {key : MemberKey} {member : Member} {requests : List Request}
  {r : MemberRef}

theorem retells_overrideOf (member : Member) (parent : TypeRef) (overrides : Option MemberRef)
    (inherited : Option Member) : (env.overrideOf member parent overrides inherited).Retells member := by
  have hlinked : (member.linkedTo parent overrides).Retells member := ⟨rfl, rfl, rfl, rfl⟩
  unfold overrideOf
  split
  · split
    · exact (Member.Retells.of_untold (Member.fills_inherit _ _).untold).trans hlinked
    · exact hlinked
  · exact hlinked

/-- Whatever stands in the place of a key is a placeholder or retells what was built for it. -/
theorem Origin.retells (h : env.Origin s key member) :
    (∃ name exported, member = { Member.placeholder name with exportName := exported }) ∨
      ∃ built, env.BuiltFor s key built ∧ member.Retells built := by
  cases h with
  | reserved name exported => exact .inl ⟨name, exported, rfl⟩
  | @built built h exported => exact .inr ⟨built, h, ⟨rfl, rfl, rfl, rfl⟩⟩
  | @linked built h parent overrides inherited exported =>
    have hsame : (env.overrideOf built parent overrides inherited).Retells built := retells_overrideOf _ _ _ _
    exact .inr ⟨built, h, ⟨hsame.name, hsame.visibility, hsame.location, hsame.body⟩⟩

/-- Whatever was asked before, what stands in the place of a key and is no namespace retells what was built for it. -/
theorem exists_built_after (hr : (env.after {} requests).memberOf? key = some (some r))
    (hat : (env.after {} requests).memberAt? r = some member) (hbody : ∀ rs, member.body ≠ .namespaceLike rs) :
    ∃ built, env.BuiltFor (env.after {} requests) key built ∧ member.Retells built := by
  have horigin := (env.after_traced requests).2 _ _ _ (Session.mem_of_memberOf? hr) hat
  rcases horigin.retells with ⟨name, exported, rfl⟩ | hbuilt
  · exact absurd rfl (hbody [])
  · exact hbuilt

/-- Whatever was asked before, what stands in the place of a key and is no namespace is finished: a placeholder would be
one. -/
theorem finished_after (hr : (env.after {} requests).memberOf? key = some (some r))
    (hat : (env.after {} requests).memberAt? r = some member) (hbody : ∀ rs, member.body ≠ .namespaceLike rs) :
    env.Finished (env.after {} requests) key member := by
  obtain ⟨member', hat', hfinished | ⟨-, name, exported, -, rfl⟩⟩ := (tidy_after env requests).finished hr
  · obtain rfl : member = member' := Option.some.inj (hat.symm.trans hat')
    exact hfinished
  · obtain rfl := Option.some.inj (hat.symm.trans hat')
    exact absurd rfl (hbody [])

end Environment

end ApiDoc
