import ApiDoc.Proofs.Program.WellFormed
import ApiDoc.Proofs.Run.Requests

/-!
# Overrides

A member of a class that has the name of a property of a base type is to be linked to that property: to the
first there is, in the order of the base types.  In every reachable state a member that is marked as an
override is linked, or it says itself that it overrides and is linked to nothing
(`Reachable.linked`).  Once a class is finished all such members are marked, so in a finished project a
member of a class is linked unless one of its own declarations says that it overrides
(`assemble_links_overrides`): such a member is taken for finished if it was met on another way before the
class came to it.
-/

namespace ApiDoc

namespace Environment

/-- A member that is linked to a property of a base type: marked, under the node of that type, and with
what is remembered of the property. -/
structure IsLinked (env : Environment) (s : Session) (base : BaseProperty) (member : Member) : Prop where
  isOverride : member.isOverride = true
  parent : ∃ r, s.typeOf? base.base = some r ∧ member.parent = some r
  overrides : env.HoldsMember s base.symbol member.overrides

/-- A member that is marked because one of its declarations says so, and linked to nothing. -/
structure IsUnlinked (env : Environment) (m : SymbolId) (member : Member) : Prop where
  isOverride : member.isOverride = true
  declared : env.IsDeclaredOverride m
  parent : member.parent = none
  overrides : member.overrides = none

/-- A class or interface that was resolved, for itself or beside the function it is merged with. -/
def HoldsClass (env : Environment) (s : Session) (m : SymbolId) : Prop :=
  ∃ r, s.memberOf? (.symbol m) = some (some r) ∧ env.IsClassLike m ∨
    s.memberOf? (.companion m) = some (some r)

variable {env : Environment} {c c' : Stage} {s s' : Session} {m : SymbolId}

/-! ### Links -/

theorem IsLinked.mono {base : BaseProperty} {member : Member} (h : env.IsLinked s base member)
    (hs : s.Extends s') : env.IsLinked s' base member where
  isOverride := h.isOverride
  parent := by
    obtain ⟨r, hr, hparent⟩ := h.parent
    exact ⟨r, hs.typeOf hr, hparent⟩
  overrides := h.overrides.mono hs

/-- What is said of a member that is marked as an override. -/
def LinkedOrDeclared (env : Environment) (s : Session) (m : SymbolId) (member : Member) : Prop :=
  (∃ owner base, env.Overrides owner m base ∧ env.IsLinked s base member) ∨ env.IsUnlinked m member

/-- A step links whatever it marks, or what it marks says so itself. -/
theorem Step.linked (h : env.Step c c') (hs : env.Sound c)
    (hlinked : ∀ {m r member}, c.session.memberOf? (.symbol m) = some (some r) →
      c.session.memberAt? r = some member → member.isOverride = true →
      env.LinkedOrDeclared c.session m member)
    {r : MemberRef} {member : Member} (hr : c'.session.memberOf? (.symbol m) = some (some r))
    (hat : c'.session.memberAt? r = some member) (hover : member.isOverride = true) :
    env.LinkedOrDeclared c'.session m member := by
  have hext := h.extends hs
  cases h.puts hs hr hat with
  | @keep old name hkey hold =>
    rcases hlinked hkey hold hover with ⟨owner, base, howner, hlink⟩ | hdecl
    · have hsame := hlink.mono hext
      exact .inl ⟨owner, base, howner, hsame.isOverride, hsame.parent, hsame.overrides⟩
    · exact .inr ⟨hdecl.isOverride, hdecl.declared, hdecl.parent, hdecl.overrides⟩
  | place => simp [Member.placeholder] at hover
  -- what is made in the ordinary way is marked only if a declaration says so
  | build _ hbuilt => exact .inr ⟨hover, hbuilt.declared hover, hbuilt.parent, hbuilt.overrides⟩
  | @link m' owner base built parent overrides hkey _ _ howner _ hoverrides hparent =>
    obtain rfl := MemberKey.symbol.inj hkey
    have hlinks := @overrideOf_links env built parent overrides
      (overrides.bind c.session.memberAt?)
    refine .inl ⟨owner, base, howner, hover, ⟨parent, hext.typeOf hparent, hlinks.1⟩, ?_⟩
    rw [hlinks.2]
    exact hoverrides.mono hext

/-- **In every reachable state** a member that is marked as an override is linked, or says itself that it
overrides. -/
theorem Reachable.linked (h : env.Reachable c) {r : MemberRef} {member : Member}
    (hr : c.session.memberOf? (.symbol m) = some (some r)) (hat : c.session.memberAt? r = some member)
    (hover : member.isOverride = true) : env.LinkedOrDeclared c.session m member := by
  induction h generalizing m r member with
  | start => simp at hr
  | step hc hst ih => exact hst.linked hc.sound ih hr hat hover
  | again _ ih => exact ih hr hat hover

/-! ### Marks -/

/-- All members of a resolved class that have the name of a property of a base type are marked. -/
theorem Settled.isMarked (h : env.Settled s) {owner : SymbolId} {base : BaseProperty}
    (hclass : env.HoldsClass s owner) (hover : env.Overrides owner m base) : s.IsMarked m := by
  have hs := h.reachable.sound
  obtain ⟨r, ⟨hr, hlike⟩ | hr⟩ := hclass
  · have hdone : env.KeyDone s (.symbol owner) := hs.keysDone hr (by simp) (by simp)
    exact (hdone hlike).overrides hover
  · have hdone : env.KeyDone s (.companion owner) := hs.keysDone hr (by simp) (by simp)
    exact ClassDone.overrides hdone hover

/-- **Overrides are linked whatever the order of visits**, unless a declaration of the member says by a
modifier or a tag that it overrides; then it may be left without links. -/
theorem assemble_links_overrides {files : List FileId} {project : Project}
    (h : env.assemble files = .ok project) {owner : SymbolId} {base : BaseProperty}
    (hclass : env.HoldsClass (env.assembly files) owner) (hover : env.Overrides owner m base)
    (honly : ∀ owner' base', env.Overrides owner' m base' → owner' = owner) :
    ∃ r member, (env.assembly files).memberOf? (.symbol m) = some (some r) ∧
      project.graph.members.get? r.index = some member ∧
      (env.IsLinked (env.assembly files) base member ∨ env.IsUnlinked m member) := by
  have hsettled := settled_assembly h
  obtain ⟨r, member, hr, hat, hmarked⟩ := hsettled.isMarked hclass hover
  refine ⟨r, member, hr, by rw [assemble_graph h]; exact hat, ?_⟩
  rcases hsettled.reachable.linked hr hat hmarked with ⟨owner', base', hover', hlinked⟩ | hdecl
  · obtain rfl := honly owner' base' hover'
    obtain rfl := hover.unique hover'
    exact .inl hlinked
  · exact .inr hdecl

section ThreeClasses

open Program

/-- The property of the second class is linked to that of the first, although the third class leads to it
before the second has come to it. -/
theorem assemble_links_overrides_plainClasses :
    ∃ project member, plainClasses.assemble [⟨0⟩] = .ok project ∧
      (plainClasses.assembly [⟨0⟩]).memberOf? (.symbol ⟨5⟩) = some (some ⟨5⟩) ∧
      project.graph.members.get? 5 = some member ∧
      plainClasses.IsLinked (plainClasses.assembly [⟨0⟩]) ⟨⟨3⟩, ⟨1⟩⟩ member := by
  obtain ⟨project, h⟩ := exists_plainClasses
  have hclass : plainClasses.HoldsClass (plainClasses.assembly [⟨0⟩]) ⟨1⟩ :=
    ⟨⟨2⟩, .inl ⟨by decide +kernel, .of [.classSymbol], rfl, by decide⟩⟩
  have hkey : (plainClasses.assembly [⟨0⟩]).memberOf? (.symbol ⟨5⟩) = some (some ⟨5⟩) := by
    decide +kernel
  have hparent : ((plainClasses.assembly [⟨0⟩]).graph.members.get? 5).map Member.parent =
      some (some ⟨1⟩) := by
    decide +kernel
  obtain ⟨r, member, hr, hat, hlinked⟩ := assemble_links_overrides h hclass
    (overrides_threeClasses _ _) fun _ _ => owner_threeClasses
  obtain rfl : ⟨5⟩ = r := by simpa [hkey] using hr
  refine ⟨project, member, h, hkey, hat, hlinked.resolve_right fun hun => ?_⟩
  rw [← assemble_graph h, hat] at hparent
  simp [hun.parent] at hparent

/-- The three classes where the property of the second has a modifier that says that it overrides. -/
def declaredClasses : Environment := (threeClasses ⟨0⟩ (.of [.override])).environment {}

/-- With such a modifier the property of the second class is linked to nothing. -/
theorem override_left_unlinked :
    ∃ project member, declaredClasses.assemble [⟨0⟩] = .ok project ∧
      declaredClasses.HoldsClass (declaredClasses.assembly [⟨0⟩]) ⟨1⟩ ∧
      declaredClasses.Overrides ⟨1⟩ ⟨5⟩ ⟨⟨3⟩, ⟨1⟩⟩ ∧
      (∀ owner base, declaredClasses.Overrides owner ⟨5⟩ base → owner = ⟨1⟩) ∧
      (declaredClasses.assembly [⟨0⟩]).memberOf? (.symbol ⟨5⟩) = some (some ⟨5⟩) ∧
      project.graph.members.get? 5 = some member ∧ member.isOverride = true ∧
      member.parent = none ∧ member.overrides = none := by
  obtain ⟨project, h⟩ : ∃ project, declaredClasses.assemble [⟨0⟩] = .ok project :=
    exists_of_isOk (by decide +kernel)
  have hat : ((declaredClasses.assembly [⟨0⟩]).graph.members.get? 5).map
      (fun member => (member.isOverride, member.parent, member.overrides)) = some (true, none, none) := by
    decide +kernel
  obtain ⟨member, hmember, hlinks⟩ := Option.map_eq_some_iff.1 hat
  have hclass : declaredClasses.HoldsClass (declaredClasses.assembly [⟨0⟩]) ⟨1⟩ :=
    ⟨⟨2⟩, .inl ⟨by decide +kernel, .of [.classSymbol], rfl, by decide⟩⟩
  refine ⟨project, member, h, hclass, overrides_threeClasses _ _, fun _ _ => owner_threeClasses,
    by decide +kernel, ?_, by simpa using hlinks⟩
  rw [assemble_graph h]
  exact hmember

end ThreeClasses

end Environment

end ApiDoc
