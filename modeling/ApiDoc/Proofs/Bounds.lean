import ApiDoc.Proofs.Completion
import ApiDoc.Proofs.Render.Trees

/-!
# References stay in bounds

Whatever was asked of the resolver, and whatever came of it, every reference in the session leads somewhere, and
so do those of the files it has answered with (`Environment.Served.tidy`).  Hence nothing that is done with a
project looks beyond the end of its graph: its tree fails for other reasons if at all, its types have texts, and
a path leads to a member that is there or to none (`Environment.references_in_bounds`).
-/

namespace ApiDoc

/-! ### Paths -/

/-- What a member owns is part of what it refers to. -/
theorem Member.children_subset (m : Member) : m.children ⊆ m.memberRefs := by
  intro r hr
  simp only [Member.children, Member.memberRefs, List.mem_append] at hr ⊢
  cases hbody : m.body with
  | field _ | «alias» _ _ => simp [hbody] at hr
  | method _ | enumeration _ | namespaceLike _ =>
    simp only [hbody, MemberBody.listed, MemberBody.placed, List.mem_append] at hr ⊢
    grind
  | classLike _ =>
    simp only [hbody, ClassBody.ownedMembers, MemberBody.listed, MemberBody.placed, List.mem_append] at hr ⊢
    grind

/-- The companion of a method is something that it refers to. -/
theorem Member.companion_mem_memberRefs {m : Member} {r : MemberRef}
    (h : m.method?.bind Method.companion = some r) : r ∈ m.memberRefs := by
  unfold Member.method? at h
  split at h
  · next f hbody =>
    have hcompanion : f.companion = some r := h
    simp [Member.memberRefs, hbody, MemberBody.placed, hcompanion]
  · simp at h

namespace Project

variable {p : Project} {fail : Error → Prop}

theorem meets_findNamed (name : String) {rs : List MemberRef} (h : ∀ r ∈ rs, p.graph.HasMember r) :
    Meets fail (p.findNamed name rs) fun found => ∀ r ∈ found, p.graph.HasMember r := by
  induction rs with
  | nil => exact .pure (by simp)
  | cons r rest ih =>
    have hr := h r (by simp)
    obtain ⟨member, hmember⟩ := hr.exists_member
    rw [findNamed, hmember]
    exact .ite (fun _ => .pure (by simpa using hr)) fun _ => ih fun r' hr' => h r' (by simp [hr'])

namespace InRange

theorem innerMembers (hp : p.InRange) {r : MemberRef} (hr : p.graph.HasMember r) :
    Meets fail (p.innerMembers r) fun rs => ∀ r' ∈ rs, p.graph.HasMember r' := by
  have hchildren {r : MemberRef} {m : Member} (hm : p.graph.member r = .ok m) (r' : MemberRef)
      (hr' : r' ∈ m.children) : p.graph.HasMember r' :=
    (hp.graph.member hm).members r' (m.children_subset hr')
  unfold Project.innerMembers
  refine (TreeWriter.meets_member hr).bind fun m hm _ => ?_
  split
  · next companion hcompanion =>
    have hthere := (hp.graph.member hm).members companion (Member.companion_mem_memberRefs hcompanion)
    obtain ⟨c, hc⟩ := hthere.exists_member
    rw [hc]
    refine Meets.pure fun r' hr' => ?_
    rcases List.mem_append.1 hr' with hown | hinner
    · exact hchildren hm r' hown
    · exact hchildren hc r' hinner
  · exact .pure (hchildren hm)

theorem descend (hp : p.InRange) {r : MemberRef} (hr : p.graph.HasMember r) (path : List String) :
    Meets fail (p.descend r path) fun found => ∀ r' ∈ found, p.graph.HasMember r' := by
  induction path generalizing r with
  | nil => exact .pure (by simpa using hr)
  | cons name rest ih =>
    refine (hp.innerMembers hr).bind fun rs _ hrs => ?_
    refine (meets_findNamed name hrs).bind fun found _ hfound => ?_
    cases found with
    | some inner => exact ih (hfound inner rfl)
    | none => exact .pure (by simp)

/-- Following a path never fails, and what it leads to is there. -/
theorem lookup (hp : p.InRange) (fileName path : String) :
    Meets fail (p.lookup fileName path) fun found => ∀ r ∈ found, p.graph.HasMember r := by
  unfold Project.lookup
  split
  · next file first rest hfile _ =>
    refine (meets_findNamed first (hp.files file (List.mem_of_find?_eq_some hfile))).bind
      fun found _ hfound => ?_
    cases found with
    | some r => exact hp.descend (hfound r rfl) rest
    | none => exact .pure (by simp)
  · exact .pure (by simp)

/-- The tree of a project in range never looks beyond the end of the graph. -/
theorem tree_ne_outOfBounds (hp : p.InRange) (config : Config) : p.tree config ≠ .error .outOfBounds := by
  have hmeets := hp.meets_tree config
  intro herror
  rw [herror] at hmeets
  exact Error.noConfusion hmeets.1

end InRange

end Project

/-! ### Requests -/

namespace Environment

variable (env : Environment) in
/-- The sessions that requests lead to, whatever comes of them, with the files that were answered so far. -/
inductive Served : List SourceFile → Session → Prop
  | start : Served [] {}
  | type {answered s} (t : TypeId) : Served answered s → Served answered ((env.resolveType t).run.run s).2
  | member {answered s} (m : SymbolId) :
      Served answered s → Served answered ((env.resolveMember m).run.run s).2
  | file {answered s s'} {f : FileId} {file : SourceFile} : Served answered s →
      (env.resolveFile f).run.run s = (.ok file, s') → Served (file :: answered) s'
  | failed {answered s s'} {f : FileId} {e : Error} : Served answered s →
      (env.resolveFile f).run.run s = (.error e, s') → Served answered s'

variable {env : Environment} {s s' : Session}

/-- The members that a file lists are there. -/
theorem ListsMembers.inRange {f : FileId} {file : SourceFile} (h : env.ListsMembers s f file) (hs : s.InRange) :
    file.InRange s.graph := by
  obtain ⟨_, -, hmembers⟩ := h
  exact fun r hr => hmembers.hasMember hs hr

/-- **Whatever was asked**, the session is in order apart from places that were left unfinished, and what was
answered refers to what is there. -/
theorem Served.tidy {answered : List SourceFile} (h : env.Served answered s) :
    env.Tidy Context.closed.abandoned s ∧ ∀ file ∈ answered, file.InRange s.graph := by
  have hkeep {s s' : Session} {answered : List SourceFile} (hs : s.Keeps s')
      (h : ∀ file ∈ answered, file.InRange s.graph) : ∀ file ∈ answered, file.InRange s'.graph :=
    fun file hfile r hr => hs.grows.hasMember (h file hfile r hr)
  induction h with
  | start => exact ⟨Tidy.empty.abandoned, by simp⟩
  | type t _ ih =>
    obtain ⟨ht, hs⟩ := (safe_resolveType t).of_run ih.1
    exact ⟨ht, hkeep hs ih.2⟩
  | member m _ ih =>
    obtain ⟨ht, hs⟩ := (safe_resolveMember m).of_run ih.1
    exact ⟨ht, hkeep hs ih.2⟩
  | file _ hrun ih =>
    obtain ⟨ht, hs, hlists⟩ := (safe_resolveFile _).of_ok ih.1 hrun
    refine ⟨ht, ?_⟩
    rintro file (_ | ⟨_, hfile⟩)
    · exact hlists.inRange ht.range
    · exact hkeep hs ih.2 file hfile
  | @failed _ s _ f _ _ hrun ih =>
    have hfail := (safe_resolveFile f).of_run ih.1
    rw [hrun] at hfail
    exact ⟨hfail.1, hkeep hfail.2 ih.2⟩

/-- Whatever a project refers to is there. -/
theorem assemble_inRange {files : List FileId} {project : Project} (h : env.assemble files = .ok project) :
    project.InRange := by
  obtain ⟨ht, hfiles⟩ := tidy_assembly h
  have hlists : List.Forall₂ (fun file f => file.InRange (env.assembly files).graph ∧
      env.ListsMembers (env.assembly files) f file) project.files files :=
    hfiles.flip.imp fun _ _ hfile => ⟨ListsMembers.inRange hfile ht.range, hfile⟩
  constructor <;> rw [assemble_graph h]
  · exact ht.range.graph
  · exact ((List.forall₂_and_left _ _).1 hlists).1

/-- **References are always in bounds.** -/
theorem references_in_bounds (env : Environment) :
    (∀ answered s, env.Served answered s → s.InRange ∧ ∀ file ∈ answered, file.InRange s.graph) ∧
    ∀ files project, env.assemble files = .ok project →
      project.InRange ∧ (∀ config, project.tree config ≠ .error .outOfBounds) ∧
      (∀ r, project.graph.HasType r → ∃ text, typeText project.graph r = .ok text) ∧
      ∀ fileName path, ∃ found, project.lookup fileName path = .ok found ∧
        ∀ r ∈ found, project.graph.HasMember r := by
  refine ⟨fun answered s h => ⟨h.tidy.1.range, h.tidy.2⟩, fun files project h => ?_⟩
  have hp := assemble_inRange h
  exact ⟨hp, hp.tree_ne_outOfBounds, fun r hr => hp.graph.exists_typeText hr,
    fun fileName path => (hp.lookup fileName path).exists_ok⟩

section ThreeClasses

open Program

/-- The three classes where they lead to each other, and what is left of a session that was asked about two of
them. -/
theorem references_in_bounds_circularClasses :
    ∃ project, circularClasses.assemble [⟨0⟩] = .ok project ∧ project.InRange ∧
      project.tree {} ≠ .error .outOfBounds ∧
      ((circularClasses.resolveMember ⟨1⟩).run.run
        ((circularClasses.resolveType ⟨2⟩).run.run {}).2).2.InRange := by
  obtain ⟨project, h⟩ := exists_circularClasses
  obtain ⟨hserved, hproject⟩ := references_in_bounds circularClasses
  obtain ⟨hp, htree, -, -⟩ := hproject _ _ h
  exact ⟨project, h, hp, htree {}, (hserved _ _ (.member _ (.type _ .start))).1⟩

end ThreeClasses

end Environment

end ApiDoc
